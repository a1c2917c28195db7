import DeclPieces.Diff
import Mathlib.Data.List.Basic

/-! A diff without hunks is one of equal texts. Every run that the search finds consists of common lines, so where all
stretches of a diff are the same in both texts, the texts have the same lines. -/
namespace DeclPieces.Diff

namespace Pair
variable {p : Pair} {w : Window} {r : Run} {s : Search} {i j n : Nat}

/-- The lines of a run are common, and lie in a window. -/
structure Fits (p : Pair) (w : Window) (r : Run) : Prop where
  old_le : w.oldFrom ≤ r.old
  new_le : w.newFrom ≤ r.new
  old_stop : r.old + r.size ≤ w.oldTo
  new_stop : r.new + r.size ≤ w.newTo
  same : ∀ k < r.size, p.sameLine (r.old + k) (r.new + k) = true

/-- The places of an old line are new lines like it. -/
def Placed (p : Pair) : Prop := ∀ i, ∀ j ∈ (p.places[i]?).getD [], p.sameLine i j = true

lemma placed_of (old new : List Text) : (of old new).Placed := by
  intro i j hj
  cases hi : old[i]? with
  | none => simp [of, hi] at hj
  | some line =>
    have hplace : new[j]? = some line := by
      simp only [of, List.getElem?_toArray, List.getElem?_map, hi, Option.map_some, Option.getD_some] at hj
      split at hj
      · cases hj
      · obtain ⟨⟨line', j'⟩, hmem, rfl⟩ := List.mem_map.mp hj
        obtain ⟨hmem, hline⟩ := List.mem_filter.mp hmem
        rw [← of_decide_eq_true hline]
        exact List.mem_zipIdx_iff_getElem?.mp hmem
    simp [sameLine, of, hi, hplace]

lemma fits_empty (hi : w.oldFrom ≤ i) (hj : w.newFrom ≤ j) (hi' : i ≤ w.oldTo) (hj' : j ≤ w.newTo) :
    p.Fits w ⟨i, j, 0⟩ :=
  ⟨hi, hj, hi', hj', fun k hk => by simp at hk⟩

/-- A run grows by a common line after it. -/
lemma Fits.grow (h : p.Fits w r) (hi : r.old + r.size < w.oldTo) (hj : r.new + r.size < w.newTo)
    (hsame : p.sameLine (r.old + r.size) (r.new + r.size) = true) : p.Fits w ⟨r.old, r.new, r.size + 1⟩ := by
  refine ⟨h.old_le, h.new_le, ?_, ?_, fun k hk => ?_⟩
  · simp only
    omega
  · simp only
    omega
  · simp only at hk
    by_cases hlast : k = r.size
    · rw [hlast]
      exact hsame
    · exact h.same k (by omega)

/-! The search. -/

/-- What the search has found when it comes to the old line `i`: the best run fits, and so do those that end there. -/
structure Search.Sound (p : Pair) (w : Window) (i : Nat) (s : Search) : Prop where
  best : p.Fits w s.best
  reaching : ∀ j n, (j, n) ∈ s.reaching → ∃ r, p.Fits w r ∧ r.size = n ∧ r.old + n = i ∧ r.new + n = j + 1

/-- The run that ends before two lines. -/
lemma Search.Sound.before (h : s.Sound p w i) (hi : w.oldFrom ≤ i) (hi' : i ≤ w.oldTo) (hj : w.newFrom ≤ j)
    (hj' : j ≤ w.newTo) : ∃ r, p.Fits w r ∧ r.size = (if j = 0 then 0 else (s.reaching.lookup (j - 1)).getD 0) ∧
      r.old + r.size = i ∧ r.new + r.size = j := by
  have hempty : ∃ r, p.Fits w r ∧ r.size = 0 ∧ r.old + r.size = i ∧ r.new + r.size = j :=
    ⟨⟨i, j, 0⟩, fits_empty hi hj hi' hj', rfl, rfl, rfl⟩
  by_cases hzero : j = 0
  · simpa [hzero] using hempty
  · rw [if_neg hzero]
    cases hfound : s.reaching.lookup (j - 1) with
    | none => exact hempty
    | some n =>
      obtain ⟨front, back, hparts, -⟩ := List.lookup_eq_some_iff.mp hfound
      obtain ⟨r, hr, hsize, hold, hnew⟩ := h.reaching (j - 1) n (by simp [hparts])
      refine ⟨r, hr, hsize, ?_, ?_⟩
      · omega
      · omega

lemma Search.Sound.step (hp : p.Placed) (h : s.Sound p w i) (hi : w.oldFrom ≤ i) (hi' : i < w.oldTo) :
    (s.step p w i).Sound p w (i + 1) := by
  have hhits : ∀ j ∈ ((p.places[i]?).getD []).filter (fun j => w.newFrom ≤ j && j < w.newTo),
      w.newFrom ≤ j ∧ j < w.newTo ∧ p.sameLine i j = true := by
    intro j hj
    obtain ⟨hplace, hin⟩ := List.mem_filter.mp hj
    simp only [Bool.and_eq_true, decide_eq_true_eq] at hin
    exact ⟨hin.1, hin.2, hp i j hplace⟩
  unfold Search.step
  simp only
  revert hhits
  generalize ((p.places[i]?).getD []).filter (fun j => w.newFrom ≤ j && j < w.newTo) = hits
  intro hhits
  -- each hit ends a run that is one line longer than the one before it
  have hstart : ({ best := s.best } : Search).Sound p w (i + 1) := ⟨h.best, fun j n hmem => by simp at hmem⟩
  generalize ({ best := s.best } : Search) = next at hstart
  induction hits generalizing next with
  | nil => exact hstart
  | cons j rest ih =>
    obtain ⟨hj, hj', hsame⟩ := hhits j (by simp)
    refine ih (fun j hj => hhits j (by simp [hj])) _ ?_
    obtain ⟨r, hr, hsize, rfl, rfl⟩ := h.before hi (Nat.le_of_lt hi') hj (Nat.le_of_lt hj')
    have hgrown := hr.grow hi' hj' hsame
    simp only [← hsize]
    constructor
    · simp only
      split
      · have hold : r.old + r.size + 1 - (r.size + 1) = r.old := by omega
        have hnew : r.new + r.size + 1 - (r.size + 1) = r.new := by omega
        rw [hold, hnew]
        exact hgrown
      · exact hstart.best
    · intro j' n hmem
      rcases List.mem_append.mp hmem with hmem | hmem
      · exact hstart.reaching j' n hmem
      · obtain ⟨rfl, rfl⟩ := Prod.mk.inj (List.mem_singleton.mp hmem)
        exact ⟨_, hgrown, rfl, by simp only; omega, by simp only; omega⟩

lemma Search.Sound.search (hp : p.Placed) (count : Nat) (h : s.Sound p w i) (hi : w.oldFrom ≤ i)
    (hcount : i + count ≤ w.oldTo) :
    ((List.range' i count).foldl (Search.step p w) s).Sound p w (i + count) := by
  induction count generalizing i s with
  | zero => exact h
  | succ count ih =>
    rw [List.range'_succ, List.foldl_cons]
    have hrest := ih (h.step hp hi (by omega)) (by omega) (by omega)
    rwa [show i + 1 + count = i + (count + 1) by omega] at hrest

/-! Growing at both ends. -/

lemma commonBefore_spec (p : Pair) (room i j : Nat) : p.commonBefore room i j ≤ room ∧
    ∀ k < p.commonBefore room i j, p.sameLine (i - 1 - k) (j - 1 - k) = true := by
  induction room generalizing i j with
  | zero => simp [commonBefore]
  | succ room ih =>
    obtain ⟨hle, hsame⟩ := ih (i - 1) (j - 1)
    unfold commonBefore
    split
    · next hfirst =>
      refine ⟨by omega, fun k hk => ?_⟩
      cases k with
      | zero => exact hfirst
      | succ k =>
        have hk := hsame k (by omega)
        rwa [show i - 1 - 1 - k = i - 1 - (k + 1) by omega, show j - 1 - 1 - k = j - 1 - (k + 1) by omega] at hk
    · simp

lemma commonAfter_spec (p : Pair) (room i j : Nat) : p.commonAfter room i j ≤ room ∧
    ∀ k < p.commonAfter room i j, p.sameLine (i + k) (j + k) = true := by
  induction room generalizing i j with
  | zero => simp [commonAfter]
  | succ room ih =>
    obtain ⟨hle, hsame⟩ := ih (i + 1) (j + 1)
    unfold commonAfter
    split
    · next hfirst =>
      refine ⟨by omega, fun k hk => ?_⟩
      cases k with
      | zero => exact hfirst
      | succ k =>
        have hk := hsame k (by omega)
        rwa [show i + 1 + k = i + (k + 1) by omega, show j + 1 + k = j + (k + 1) by omega] at hk
    · simp

lemma Fits.growBefore (h : p.Fits w r)
    (hn : n = p.commonBefore (min (r.old - w.oldFrom) (r.new - w.newFrom)) r.old r.new) :
    p.Fits w ⟨r.old - n, r.new - n, r.size + n⟩ := by
  obtain ⟨hle, hsame⟩ := p.commonBefore_spec (min (r.old - w.oldFrom) (r.new - w.newFrom)) r.old r.new
  rw [← hn] at hle hsame
  obtain ⟨hold, hnew, hold', hnew', hcommon⟩ := h
  refine ⟨?_, ?_, ?_, ?_, fun k hk => ?_⟩
  · simp only
    omega
  · simp only
    omega
  · simp only
    omega
  · simp only
    omega
  · simp only at hk ⊢
    by_cases hfront : k < n
    · have hk' := hsame (n - 1 - k) (by omega)
      rwa [show r.old - 1 - (n - 1 - k) = r.old - n + k by omega,
        show r.new - 1 - (n - 1 - k) = r.new - n + k by omega] at hk'
    · have hk' := hcommon (k - n) (by omega)
      rwa [show r.old + (k - n) = r.old - n + k by omega, show r.new + (k - n) = r.new - n + k by omega] at hk'

lemma Fits.growAfter (h : p.Fits w r) (hn : n = p.commonAfter
      (min (w.oldTo - (r.old + r.size)) (w.newTo - (r.new + r.size))) (r.old + r.size) (r.new + r.size)) :
    p.Fits w ⟨r.old, r.new, r.size + n⟩ := by
  obtain ⟨hle, hsame⟩ := p.commonAfter_spec (min (w.oldTo - (r.old + r.size)) (w.newTo - (r.new + r.size)))
    (r.old + r.size) (r.new + r.size)
  rw [← hn] at hle hsame
  obtain ⟨hold, hnew, hold', hnew', hcommon⟩ := h
  refine ⟨hold, hnew, ?_, ?_, fun k hk => ?_⟩
  · simp only
    omega
  · simp only
    omega
  · simp only at hk ⊢
    by_cases hfront : k < r.size
    · exact hcommon k hfront
    · have hk' := hsame (k - r.size) (by omega)
      rwa [show r.old + r.size + (k - r.size) = r.old + k by omega,
        show r.new + r.size + (k - r.size) = r.new + k by omega] at hk'

lemma longest_fits (hp : p.Placed) (hold : w.oldFrom ≤ w.oldTo) (hnew : w.newFrom ≤ w.newTo) :
    p.Fits w (p.longest w) := by
  have hstart : ({ best := ⟨w.oldFrom, w.newFrom, 0⟩ } : Search).Sound p w w.oldFrom :=
    ⟨fits_empty (Nat.le_refl _) (Nat.le_refl _) hold hnew, fun j n hmem => by simp at hmem⟩
  have hfound := (hstart.search hp (w.oldTo - w.oldFrom) (Nat.le_refl _) (by omega)).best
  exact (hfound.growBefore rfl).growAfter rfl

/-! Chains of runs. -/

/-- Runs of common lines that follow each other from the lines `i` and `j` to two ends. -/
def Chain (p : Pair) (oldEnd newEnd : Nat) : Nat → Nat → List Run → Prop
  | i, j, [] => i ≤ oldEnd ∧ j ≤ newEnd
  | i, j, r :: rest => i ≤ r.old ∧ j ≤ r.new ∧ (∀ k < r.size, p.sameLine (r.old + k) (r.new + k) = true) ∧
      Chain p oldEnd newEnd (r.old + r.size) (r.new + r.size) rest

lemma Chain.append {a b oldEnd newEnd : Nat} {xs ys : List Run} (hx : p.Chain a b i j xs)
    (hy : ∀ i j, i ≤ a → j ≤ b → p.Chain oldEnd newEnd i j ys) : p.Chain oldEnd newEnd i j (xs ++ ys) := by
  induction xs generalizing i j with
  | nil => exact hy i j hx.1 hx.2
  | cons r rest ih =>
    obtain ⟨hi, hj, hsame, hrest⟩ := hx
    exact ⟨hi, hj, hsame, ih hrest⟩

lemma runs_chain (hp : p.Placed) (w : Window) (hold : w.oldFrom ≤ w.oldTo) (hnew : w.newFrom ≤ w.newTo) :
    p.Chain w.oldTo w.newTo w.oldFrom w.newFrom (p.runs w) := by
  induction w using runs.induct p with
  | case1 w old new size hlongest h ihBefore ihAfter =>
    have hfits := longest_fits hp hold hnew
    rw [hlongest] at hfits
    obtain ⟨hold₁, hnew₁, hold₂, hnew₂, hsame⟩ := hfits
    simp only at hold₁ hnew₁ hold₂ hnew₂ hsame
    unfold runs
    simp only [hlongest, h, and_self, dite_true]
    have hafter : p.Chain w.oldTo w.newTo (old + size) (new + size)
        (if old + size < w.oldTo ∧ new + size < w.newTo then
          p.runs { w with oldFrom := old + size, newFrom := new + size } else []) := by
      split
      · next hroom => exact ihAfter hroom hold₂ hnew₂
      · exact ⟨hold₂, hnew₂⟩
    have hbefore : p.Chain old new w.oldFrom w.newFrom
        (if w.oldFrom < old ∧ w.newFrom < new then p.runs { w with oldTo := old, newTo := new } else []) := by
      split
      · next hroom => exact ihBefore hroom hold₁ hnew₁
      · exact ⟨hold₁, hnew₁⟩
    exact hbefore.append fun i j hi hj => ⟨hi, hj, hsame, hafter⟩
  | case2 w old new size hlongest h =>
    unfold runs
    simp only [hlongest, h, dite_false]
    exact ⟨hold, hnew⟩

end Pair

section
variable {p : Pair} {oldEnd newEnd i j n : Nat} {rs : List Run} {old new : List Text} {es open_ : List Edit}

lemma joinRuns_chain (h : p.Chain oldEnd newEnd i j rs) : p.Chain oldEnd newEnd i j (joinRuns rs) := by
  induction rs generalizing i j with
  | nil => exact h
  | cons r rest ih =>
    obtain ⟨hi, hj, hsame, hrest⟩ := h
    have hrest := ih hrest
    unfold joinRuns
    split
    · next hnone =>
      rw [hnone] at hrest
      exact ⟨hi, hj, hsame, hrest⟩
    · next s more hsome =>
      rw [hsome] at hrest
      split
      · next hgap =>
        simp only [Bool.and_eq_true, decide_eq_true_eq] at hgap
        obtain ⟨-, -, hsame', hmore⟩ := hrest
        refine ⟨hi, hj, fun k hk => ?_, ?_⟩
        · by_cases hfront : k < r.size
          · exact hsame k hfront
          · have hk' := hsame' (k - r.size) (by simp only at hk; omega)
            rwa [← hgap.1, ← hgap.2, show r.old + r.size + (k - r.size) = r.old + k by omega,
              show r.new + r.size + (k - r.size) = r.new + k by omega] at hk'
        · simpa only [← Nat.add_assoc, hgap.1, hgap.2] using hmore
      · exact ⟨hi, hj, hsame, hrest⟩

/-! Stretches. -/

lemma drop_eq_of_same (hsame : ∀ k < n, (Pair.of old new).sameLine (i + k) (j + k) = true)
    (hrest : old.drop (i + n) = new.drop (j + n)) : old.drop i = new.drop j := by
  induction n generalizing i j with
  | zero => exact hrest
  | succ n ih =>
    have htail : old.drop (i + 1) = new.drop (j + 1) := by
      refine ih (fun k hk => ?_) ?_
      · have hk' := hsame (k + 1) (by omega)
        rwa [show i + (k + 1) = i + 1 + k by omega, show j + (k + 1) = j + 1 + k by omega] at hk'
      · rwa [show i + 1 + n = i + (n + 1) by omega, show j + 1 + n = j + (n + 1) by omega]
    have hfirst := hsame 0 (by omega)
    simp only [Pair.sameLine, Pair.of, List.getElem?_toArray, Nat.add_zero] at hfirst
    split at hfirst
    · next a b ha hb =>
      obtain ⟨hi, rfl⟩ := List.getElem?_eq_some_iff.mp ha
      obtain ⟨hj, rfl⟩ := List.getElem?_eq_some_iff.mp hb
      rw [List.drop_eq_getElem_cons hi, List.drop_eq_getElem_cons hj, htail, of_decide_eq_true hfirst]
    · cases hfirst

/-- Texts of which all stretches are the same have the same lines from there on. -/
lemma drop_eq_of_editsFrom (hchain : (Pair.of old new).Chain old.length new.length i j rs)
    (hsame : (editsFrom old.length new.length i j rs).all (·.isSame) = true) : old.drop i = new.drop j := by
  induction rs generalizing i j with
  | nil =>
    unfold editsFrom at hsame
    split at hsame
    · simp at hsame
    · next hends =>
      simp only [Bool.or_eq_true, decide_eq_true_eq, not_or, Nat.not_lt] at hends
      rw [List.drop_eq_nil_of_le hends.1, List.drop_eq_nil_of_le hends.2]
  | cons r rest ih =>
    obtain ⟨hi, hj, hcommon, hrest⟩ := hchain
    unfold editsFrom at hsame
    split at hsame
    · simp at hsame
    · next hgap =>
      simp only [Bool.or_eq_true, decide_eq_true_eq, not_or, Nat.not_lt] at hgap
      obtain rfl : i = r.old := by omega
      obtain rfl : j = r.new := by omega
      refine drop_eq_of_same hcommon (ih hrest ?_)
      simpa using hsame

lemma eq_of_edits_same (h : (edits old new).all (·.isSame) = true) : old = new := by
  have hruns := Pair.runs_chain (Pair.placed_of old new) ⟨0, old.length, 0, new.length⟩ (Nat.zero_le _) (Nat.zero_le _)
  exact drop_eq_of_editsFrom (joinRuns_chain hruns) h

/-! Hunks. -/

lemma all_trimEnds (es : List Edit) : (trimEnds es).all (·.isSame) = es.all (·.isSame) := by
  cases es with
  | nil => rfl
  | cons e rest =>
    have hfirst : (if e.isSame then e.tail else e).isSame = e.isSame := by split <;> rfl
    have hlast (e : Edit) : (if e.isSame then e.head else e).isSame = e.isSame := by split <;> rfl
    unfold trimEnds
    simp only
    split
    · next last more hreverse =>
      have hparts : (if e.isSame then e.tail else e) :: rest = more.reverse ++ [last] := by
        simpa using congrArg List.reverse hreverse
      have hall := congrArg (List.all · (·.isSame)) hparts
      simp only [List.all_cons, List.all_append, List.all_nil, Bool.and_true, hfirst] at hall
      simp only [List.reverse_cons, List.all_append, List.all_cons, List.all_nil, Bool.and_true, hlast, hall]
    · next hreverse => simp at hreverse

/-- Where there is a change there is a hunk. -/
lemma all_of_hunksFrom_eq_nil (h : hunksFrom open_ es = []) : (open_ ++ es).all (·.isSame) = true := by
  induction es generalizing open_ with
  | nil =>
    unfold hunksFrom at h
    split at h
    · next hsame => simpa using hsame
    · cases h
  | cons e rest ih =>
    unfold hunksFrom at h
    split at h
    · cases h
    · simpa using ih h

end

lemma lines_injective : Function.Injective lines := by
  intro s t h
  have hmark : Function.Injective fun line : Text => line ++ [Text.newline] := fun _ _ h => List.append_cancel_right h
  have hsplit : Text.splitBy Text.newline s = Text.splitBy Text.newline t := List.map_injective_iff.mpr hmark h
  rw [← Text.joinWith_splitBy Text.newline s, hsplit, Text.joinWith_splitBy]

/-- Texts without a difference are equal. -/
theorem eq_of_unified_eq_nil {name before after : Text} (h : unified name before after = []) : before = after := by
  unfold unified at h
  simp only at h
  split at h
  · next hnone =>
    have hsame := all_of_hunksFrom_eq_nil hnone
    rw [List.nil_append, all_trimEnds] at hsame
    exact lines_injective (eq_of_edits_same hsame)
  · have hhead : ("--- a/" : Text) ≠ [] := by decide
    simp [hhead] at h

end DeclPieces.Diff
