import DeclPieces.Digest
import Mathlib.Tactic.Lemma

/-! The digest worked out on natural numbers: a word is the number it stands for, and the state is kept by columns.
Runs on sample files are evaluated with this digest, as numbers are added and shifted at once. -/
namespace DeclPieces.Digest

/-- Four words of the state that are mixed together. -/
structure Quad (α : Type) where
  a : α
  b : α
  c : α
  d : α

/-- The four columns of the state. -/
structure State (α : Type) where
  first : Quad α
  second : Quad α
  third : Quad α
  fourth : Quad α

namespace Quad

def map {α β : Type} (f : α → β) (q : Quad α) : Quad β := ⟨f q.a, f q.b, f q.c, f q.d⟩

/-- The four words after two words of the block are mixed into them. -/
def mixWords (q : Quad UInt64) (x y : UInt64) : Quad UInt64 :=
  let a := q.a + q.b + x
  let d := rotateRight (q.d ^^^ a) 32
  let c := q.c + d
  let b := rotateRight (q.b ^^^ c) 24
  let a := a + b + y
  let d := rotateRight (d ^^^ a) 16
  let c := c + d
  let b := rotateRight (b ^^^ c) 63
  ⟨a, b, c, d⟩

end Quad

namespace State
variable {α β : Type}

def map (f : α → β) (v : State α) : State β :=
  ⟨v.first.map f, v.second.map f, v.third.map f, v.fourth.map f⟩

/-- The sixteen words, row by row. -/
def rows (v : State α) : List α :=
  [v.first.a, v.second.a, v.third.a, v.fourth.a, v.first.b, v.second.b, v.third.b, v.fourth.b,
    v.first.c, v.second.c, v.third.c, v.fourth.c, v.first.d, v.second.d, v.third.d, v.fourth.d]

/-- The state of which the sixteen words are given row by row. -/
def ofRows (r : Nat → α) : State α :=
  ⟨⟨r 0, r 4, r 8, r 12⟩, ⟨r 1, r 5, r 9, r 13⟩, ⟨r 2, r 6, r 10, r 14⟩, ⟨r 3, r 7, r 11, r 15⟩⟩

/-- Turns the rows against each other, so that the diagonals become columns. -/
def turn (v : State α) : State α :=
  ⟨⟨v.first.a, v.second.b, v.third.c, v.fourth.d⟩, ⟨v.second.a, v.third.b, v.fourth.c, v.first.d⟩,
    ⟨v.third.a, v.fourth.b, v.first.c, v.second.d⟩, ⟨v.fourth.a, v.first.b, v.second.c, v.third.d⟩⟩

/-- Turns the rows back. -/
def turnBack (v : State α) : State α :=
  ⟨⟨v.first.a, v.fourth.b, v.third.c, v.second.d⟩, ⟨v.second.a, v.first.b, v.fourth.c, v.third.d⟩,
    ⟨v.third.a, v.second.b, v.first.c, v.fourth.d⟩, ⟨v.fourth.a, v.third.b, v.second.c, v.first.d⟩⟩

variable (mix : Quad α → α → α → Quad α)

/-- Mixes two words of the block into each column. -/
def mixColumns (v : State α) (x₀ y₀ x₁ y₁ x₂ y₂ x₃ y₃ : α) : State α :=
  ⟨mix v.first x₀ y₀, mix v.second x₁ y₁, mix v.third x₂ y₂, mix v.fourth x₃ y₃⟩

/-- A round: the columns, then the diagonals, with the words of the block in the order given. -/
def round (m : Nat → α) (v : State α) : List Nat → State α
  | [i₀, i₁, i₂, i₃, i₄, i₅, i₆, i₇, i₈, i₉, i₁₀, i₁₁, i₁₂, i₁₃, i₁₄, i₁₅] =>
    let columns := v.mixColumns mix (m i₀) (m i₁) (m i₂) (m i₃) (m i₄) (m i₅) (m i₆) (m i₇)
    (columns.turn.mixColumns mix (m i₈) (m i₉) (m i₁₀) (m i₁₁) (m i₁₂) (m i₁₃) (m i₁₄) (m i₁₅)).turnBack
  | _ => v

@[simp] lemma turn_turnBack (v : State α) : v.turnBack.turn = v := rfl

lemma map_round {mix : Quad α → α → α → Quad α} {mix' : Quad β → β → β → Quad β} {f : α → β} {m : Nat → α} {m' : Nat → β}
    (hmix : ∀ q x y, (mix q x y).map f = mix' (q.map f) (f x) (f y)) (hm : ∀ i, f (m i) = m' i) (v : State α)
    (order : List Nat) : (v.round mix m order).map f = (v.map f).round mix' m' order := by
  have hturn (v : State α) : v.turn.map f = (v.map f).turn := rfl
  have hback (v : State α) : v.turnBack.map f = (v.map f).turnBack := rfl
  have hcolumns (v : State α) (x₀ y₀ x₁ y₁ x₂ y₂ x₃ y₃ : α) : (v.mixColumns mix x₀ y₀ x₁ y₁ x₂ y₂ x₃ y₃).map f =
      (v.map f).mixColumns mix' (f x₀) (f y₀) (f x₁) (f y₁) (f x₂) (f y₂) (f x₃) (f y₃) := by
    simp only [mixColumns, map, hmix]
  unfold round
  split
  · simp only [hback, hcolumns, hturn, hm]
  · rfl

end State

/-- The words of the state in a lane. -/
def lane (v : Array UInt64) : Nat × Nat × Nat × Nat → Quad UInt64
  | (ia, ib, ic, id) => ⟨word v ia, word v ib, word v ic, word v id⟩

/-- The state with a lane replaced. -/
def setLane (v : Array UInt64) : Nat × Nat × Nat × Nat → Quad UInt64 → Array UInt64
  | (ia, ib, ic, id), q => (((v.setIfInBounds ia q.a).setIfInBounds ib q.b).setIfInBounds ic q.c).setIfInBounds id q.d

lemma mix_eq (v : Array UInt64) (l : Nat × Nat × Nat × Nat) (x y : UInt64) :
    mix v l x y = setLane v l ((lane v l).mixWords x y) := rfl

section Lanes
variable (v : State UInt64) (q : Quad UInt64)

lemma lane_column :
    lane v.rows.toArray (0, 4, 8, 12) = v.first ∧ lane v.rows.toArray (1, 5, 9, 13) = v.second ∧
    lane v.rows.toArray (2, 6, 10, 14) = v.third ∧ lane v.rows.toArray (3, 7, 11, 15) = v.fourth :=
  ⟨rfl, rfl, rfl, rfl⟩

lemma lane_diagonal :
    lane v.rows.toArray (0, 5, 10, 15) = v.turn.first ∧ lane v.rows.toArray (1, 6, 11, 12) = v.turn.second ∧
    lane v.rows.toArray (2, 7, 8, 13) = v.turn.third ∧ lane v.rows.toArray (3, 4, 9, 14) = v.turn.fourth :=
  ⟨rfl, rfl, rfl, rfl⟩

lemma setLane_column :
    setLane v.rows.toArray (0, 4, 8, 12) q = ({ v with first := q }).rows.toArray ∧
    setLane v.rows.toArray (1, 5, 9, 13) q = ({ v with second := q }).rows.toArray ∧
    setLane v.rows.toArray (2, 6, 10, 14) q = ({ v with third := q }).rows.toArray ∧
    setLane v.rows.toArray (3, 7, 11, 15) q = ({ v with fourth := q }).rows.toArray := by
  simp [setLane, State.rows]

lemma setLane_diagonal :
    setLane v.rows.toArray (0, 5, 10, 15) q = ({ v.turn with first := q }).turnBack.rows.toArray ∧
    setLane v.rows.toArray (1, 6, 11, 12) q = ({ v.turn with second := q }).turnBack.rows.toArray ∧
    setLane v.rows.toArray (2, 7, 8, 13) q = ({ v.turn with third := q }).turnBack.rows.toArray ∧
    setLane v.rows.toArray (3, 4, 9, 14) q = ({ v.turn with fourth := q }).turnBack.rows.toArray := by
  simp [setLane, State.rows, State.turn, State.turnBack]

end Lanes

lemma round_rows (m : Array UInt64) (v : State UInt64) {order : List Nat} (h : order.length = 16) :
    round m v.rows.toArray order = (v.round Quad.mixWords (word m) order).rows.toArray := by
  match order, h with
  | [i₀, i₁, i₂, i₃, i₄, i₅, i₆, i₇, i₈, i₉, i₁₀, i₁₁, i₁₂, i₁₃, i₁₄, i₁₅], _ =>
    simp only [round, lanes, pairs, List.zip_cons_cons, List.zip_nil_left, List.foldl_cons, List.foldl_nil, mix_eq,
      lane_column, setLane_column, lane_diagonal, setLane_diagonal, State.turn_turnBack, State.round, State.mixColumns]

lemma rows_ofRows {l : List UInt64} (h : l.length = 16) : (State.ofRows (word l.toArray)).rows = l := by
  match l, h with
  | [w₀, w₁, w₂, w₃, w₄, w₅, w₆, w₇, w₈, w₉, w₁₀, w₁₁, w₁₂, w₁₃, w₁₄, w₁₅], _ => rfl

/-- The words of the state before the first round. -/
def startWords (h : List UInt64) (count : Nat) (last : Bool) : List UInt64 :=
  let start := h ++ initial
  let counted := start.set 12 (word start.toArray 12 ^^^ UInt64.ofNat count)
  if last then counted.set 14 (~~~ word counted.toArray 14) else counted

namespace Numeric

/-- A number as a word keeps it. -/
def wrap (x : Nat) : Nat := x % 18446744073709551616

def add (x y : Nat) : Nat := wrap (x + y)

def shiftLeft (x n : Nat) : Nat := wrap (x <<< n)

def complement (x : Nat) : Nat := 18446744073709551615 - x

def rotateRight (x n : Nat) : Nat := (x >>> n) ||| shiftLeft x (64 - n)

def word (m : List Nat) (i : Nat) : Nat := m[i]?.getD 0

def mix (q : Quad Nat) (x y : Nat) : Quad Nat :=
  let a := add (add q.a q.b) x
  let d := rotateRight (q.d ^^^ a) 32
  let c := add q.c d
  let b := rotateRight (q.b ^^^ c) 24
  let a := add (add a b) y
  let d := rotateRight (d ^^^ a) 16
  let c := add c d
  let b := rotateRight (b ^^^ c) 63
  ⟨a, b, c, d⟩

def start (h : List Nat) (count : Nat) (last : Bool) : List Nat :=
  let start := h ++ initial.map UInt64.toNat
  let counted := start.set 12 (word start 12 ^^^ wrap count)
  if last then counted.set 14 (complement (word counted 14)) else counted

def compress (h m : List Nat) (count : Nat) (last : Bool) : List Nat :=
  let v := (schedule.foldl (State.round mix (word m)) (State.ofRows (word (start h count last)))).rows
  (List.range 8).map fun i => word h i ^^^ word v i ^^^ word v (i + 8)

def words : Nat → Text → List Nat
  | 0, _ => []
  | n + 1, t => (t.take 8).foldr (fun b w => shiftLeft w 8 ||| b.toNat) 0 :: words n (t.drop 8)

def blocks (h : List Nat) (before : Nat) (t : Text) : Nat → List Nat
  | 0 => h
  | fuel + 1 =>
    let m := words 16 (t.take 128)
    if t.length ≤ 128 then compress h m (before + t.length) true
    else blocks (compress h m (before + 128) false) (before + 128) (t.drop 128) fuel

def bytesOf (w : Nat) : Text := (List.range 8).map fun i => UInt8.ofNat (w >>> (8 * i))

def sum (t : Text) : Text :=
  ((blocks (seeded.map UInt64.toNat) 0 t (t.length / 128 + 1)).take 4).flatMap bytesOf

/-- The digest in hexadecimal. -/
def hash (t : Text) : Text := Text.hex (sum t)

section Words
variable (x : UInt64) {n : UInt64}

lemma toNat_shiftLeft (h : n.toNat < 64) : (x <<< n).toNat = shiftLeft x.toNat n.toNat := by
  rw [UInt64.toNat_shiftLeft, Nat.mod_eq_of_lt h]
  rfl

lemma toNat_rotateRight (h₀ : 0 < n.toNat) (h : n.toNat < 64) :
    (Digest.rotateRight x n).toNat = rotateRight x.toNat n.toNat := by
  have hback : (64 - n).toNat = 64 - n.toNat := UInt64.toNat_sub_of_le _ _ (UInt64.le_iff_toNat_le.mpr (Nat.le_of_lt h))
  rw [Digest.rotateRight, UInt64.toNat_or, UInt64.toNat_shiftRight, Nat.mod_eq_of_lt h, toNat_shiftLeft, hback]
  · rfl
  · omega

lemma toNat_word (m : List UInt64) (i : Nat) : (Digest.word m.toArray i).toNat = word (m.map UInt64.toNat) i := by
  simp only [Digest.word, word, List.getElem?_toArray, List.getElem?_map]
  cases m[i]? <;> rfl

end Words

lemma map_mixWords (q : Quad UInt64) (x y : UInt64) :
    (q.mixWords x y).map UInt64.toNat = mix (q.map UInt64.toNat) x.toNat y.toNat := by
  have hadd (x y : UInt64) : (x + y).toNat = add x.toNat y.toNat := UInt64.toNat_add x y
  have hrotate (z : UInt64) : (Digest.rotateRight z 32).toNat = rotateRight z.toNat 32 ∧
      (Digest.rotateRight z 24).toNat = rotateRight z.toNat 24 ∧
      (Digest.rotateRight z 16).toNat = rotateRight z.toNat 16 ∧
      (Digest.rotateRight z 63).toNat = rotateRight z.toNat 63 := by
    refine ⟨?_, ?_, ?_, ?_⟩ <;> exact toNat_rotateRight z (by decide) (by decide)
  simp only [Quad.mixWords, Quad.map, mix, hrotate, hadd, UInt64.toNat_xor]

/-- Any number of rounds on the words are as many on the numbers. -/
lemma foldl_round (m : List UInt64) (v : State UInt64) {orders : List (List Nat)}
    (h : ∀ order ∈ orders, order.length = 16) :
    ∃ v' : State UInt64, orders.foldl (Digest.round m.toArray) v.rows.toArray = v'.rows.toArray ∧
      v'.map UInt64.toNat = orders.foldl (State.round mix (word (m.map UInt64.toNat))) (v.map UInt64.toNat) := by
  induction orders generalizing v with
  | nil => exact ⟨v, rfl, rfl⟩
  | cons order orders ih =>
    obtain ⟨v', hv', hmap⟩ := ih (v.round Quad.mixWords (Digest.word m.toArray) order) fun o ho =>
      h o (List.mem_cons_of_mem _ ho)
    refine ⟨v', ?_, ?_⟩
    · rw [List.foldl_cons, round_rows _ _ (h order List.mem_cons_self), hv']
    · rw [List.foldl_cons, hmap, State.map_round map_mixWords (toNat_word m)]

lemma map_startWords (h : List UInt64) (count : Nat) (last : Bool) :
    (startWords h count last).map UInt64.toNat = start (h.map UInt64.toNat) count last := by
  have hcomplement (x : UInt64) : (~~~ x).toNat = complement x.toNat := UInt64.toNat_not x
  have hcount : (UInt64.ofNat count).toNat = wrap count := UInt64.toNat_ofNat'
  simp only [startWords, start, apply_ite (List.map UInt64.toNat), List.map_set, List.map_append, UInt64.toNat_xor,
    hcomplement, hcount, toNat_word]

lemma map_compress {h : List UInt64} (hh : h.length = 8) (m : List UInt64) (count : Nat) (last : Bool) :
    (Digest.compress h m.toArray count last).map UInt64.toNat =
      compress (h.map UInt64.toNat) (m.map UInt64.toNat) count last := by
  have hlength : (startWords h count last).length = 16 := by
    unfold startWords
    cases last <;> simp [hh, initial]
  have hschedule : ∀ order ∈ schedule, order.length = 16 := by decide
  obtain ⟨v, hv, hmap⟩ := foldl_round m (State.ofRows (Digest.word (startWords h count last).toArray)) hschedule
  have hstart : (State.ofRows (Digest.word (startWords h count last).toArray)).map UInt64.toNat =
      State.ofRows (word (start (h.map UInt64.toNat) count last)) := by
    rw [← map_startWords]
    simp only [State.ofRows, State.map, Quad.map, toNat_word]
  have hcompress : Digest.compress h m.toArray count last = (List.range 8).map fun i =>
      Digest.word h.toArray i ^^^ Digest.word v.rows.toArray i ^^^ Digest.word v.rows.toArray (i + 8) := by
    rw [← hv, rows_ofRows hlength]
    simp only [Digest.compress, startWords, Digest.word, List.setIfInBounds_toArray, List.getElem?_toArray]
    cases last <;> rfl
  have hrows : v.rows.map UInt64.toNat = (v.map UInt64.toNat).rows := rfl
  simp only [hcompress, List.map_map, compress, ← hstart, ← hmap, ← hrows, ← toNat_word, ← UInt64.toNat_xor]
  rfl

lemma map_words (n : Nat) (t : Text) : (Digest.words n t).map UInt64.toNat = words n t := by
  have hword (t : Text) : (t.foldr (fun b (w : UInt64) => w <<< 8 ||| b.toUInt64) 0).toNat =
      t.foldr (fun b w => shiftLeft w 8 ||| b.toNat) 0 := by
    induction t with
    | nil => rfl
    | cons b t ih =>
      rw [List.foldr_cons, List.foldr_cons, UInt64.toNat_or, toNat_shiftLeft _ (by decide), ih]
      rfl
  induction n generalizing t with
  | zero => rfl
  | succ n ih => rw [Digest.words, List.map_cons, hword, ih, words]

lemma map_blocks {h : List UInt64} (hh : h.length = 8) (before fuel : Nat) (t : Text) :
    (Digest.blocks h before t fuel).map UInt64.toNat = blocks (h.map UInt64.toNat) before t fuel := by
  induction fuel generalizing h before t with
  | zero => rfl
  | succ fuel ih =>
    simp only [Digest.blocks, blocks, ← map_words]
    split
    · exact map_compress hh _ _ _
    · rw [ih (by simp [Digest.compress]), map_compress hh]

lemma bytesOf_toNat (w : UInt64) : bytesOf w.toNat = Digest.bytesOf w := by
  refine List.map_congr_left fun i hi => ?_
  have hi : i < 8 := List.mem_range.mp hi
  have hcount : (UInt64.ofNat (8 * i)).toNat = 8 * i := UInt64.toNat_ofNat_of_lt' (by rw [UInt64.size]; omega)
  have hshift : (w >>> UInt64.ofNat (8 * i)).toNat = w.toNat >>> (8 * i) := by
    rw [UInt64.toNat_shiftRight, hcount, Nat.mod_eq_of_lt (by omega)]
  rw [← hshift]
  rfl

/-- The digest is the one worked out on numbers. -/
lemma hash_eq : Digest.hash = hash := by
  funext t
  rw [Digest.hash, hash, Digest.sum, sum, ← map_blocks (by decide), ← List.map_take, List.flatMap_map]
  simp only [bytesOf_toNat]

end Numeric
end DeclPieces.Digest
