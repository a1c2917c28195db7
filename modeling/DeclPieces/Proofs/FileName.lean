import DeclPieces.Proofs.IndexSpecifier
import DeclPieces.Proofs.Trimming

/-! The file names made for symbols, whatever those are called. -/
namespace DeclPieces.Rune
variable {b b1 b2 b3 : UInt8}

/-- A byte that carries six bits of a character after its first. -/
lemma continuation_ofNat (n : Nat) : isContinuation (UInt8.ofNat (n % 64 + 128)) = true ∧
    low (UInt8.ofNat (n % 64 + 128)) = n % 64 := by
  have hlt : n % 64 < 64 := Nat.mod_lt n (by decide)
  have hval : (UInt8.ofNat (n % 64 + 128)).toNat = n % 64 + 128 := by
    rw [UInt8.toNat_ofNat']
    omega
  constructor
  · simp only [isContinuation, Bool.and_eq_true, decide_eq_true_eq, UInt8.le_iff_toNat_le, hval]
    change 128 ≤ _ ∧ _ ≤ 191
    omega
  · rw [low, hval]
    omega

lemma not_lt_of_toNat {n : Nat} (h : b.toNat = n) (hn : 0x80 ≤ n) : ¬ b < 0x80 := by
  rw [UInt8.lt_iff_toNat_lt, h]
  change ¬ n < 128
  omega

lemma two_of_char {n : Nat} (h : 0x80 ≤ n ∧ n < 0x800) (hb : b.toNat = n / 64 + 0xC0) (h1 : isContinuation b1 = true)
    (l1 : low b1 = n % 64) : next.two b b1 = some (Char.ofNat n, 1) := by
  have hrange : (0xC2 : UInt8) ≤ b ∧ b ≤ 0xDF := by
    rw [UInt8.le_iff_toNat_le, UInt8.le_iff_toNat_le, hb]
    change 194 ≤ _ ∧ _ ≤ 223
    omega
  have hcode : (b.toNat - 0xC0) * 64 + low b1 = n := by
    rw [hb, l1]
    omega
  simp [next.two, hrange, h1, hcode]

lemma three_of_char {n : Nat} (h : 0x800 ≤ n ∧ n < 0x10000) (hn : n < 0xD800 ∨ 0xDFFF < n)
    (hb : b.toNat = n / 4096 + 0xE0) (h1 : isContinuation b1 = true) (l1 : low b1 = n / 64 % 64)
    (h2 : isContinuation b2 = true) (l2 : low b2 = n % 64) : next.three b b1 b2 = some (Char.ofNat n, 2) := by
  have hrange : (0xE0 : UInt8) ≤ b ∧ b ≤ 0xEF := by
    rw [UInt8.le_iff_toNat_le, UInt8.le_iff_toNat_le, hb]
    change 224 ≤ _ ∧ _ ≤ 239
    omega
  have hcode : (b.toNat - 0xE0) * 4096 + low b1 * 64 + low b2 = n := by
    rw [hb, l1, l2]
    omega
  unfold next.three
  simp only [hcode]
  rw [if_pos]
  simp only [hrange, h1, h2, h.1, Bool.and_true, decide_true, Bool.true_and]
  simpa using hn

lemma four_of_char {n : Nat} (h : 0x10000 ≤ n ∧ n < 0x110000) (hb : b.toNat = n / 262144 + 0xF0)
    (h1 : isContinuation b1 = true) (l1 : low b1 = n / 4096 % 64) (h2 : isContinuation b2 = true)
    (l2 : low b2 = n / 64 % 64) (h3 : isContinuation b3 = true) (l3 : low b3 = n % 64) :
    next.four b b1 b2 b3 = some (Char.ofNat n, 3) := by
  have hrange : (0xF0 : UInt8) ≤ b ∧ b ≤ 0xF4 := by
    rw [UInt8.le_iff_toNat_le, UInt8.le_iff_toNat_le, hb]
    change 240 ≤ _ ∧ _ ≤ 244
    omega
  have hcode : (b.toNat - 0xF0) * 262144 + low b1 * 4096 + low b2 * 64 + low b3 = n := by
    rw [hb, l1, l2, l3]
    omega
  have hmax : n ≤ 0x10FFFF := by omega
  simp [next.four, hrange, h1, h2, h3, hcode, h.1, hmax]

/-- The bytes of a character are read as that character, whatever follows them. -/
lemma next_utf8EncodeChar (c : Char) (rest : Text) :
    ∃ b more, String.utf8EncodeChar c = b :: more ∧ next b (more ++ rest) = (c, more.length) := by
  have hc : Char.ofNat c.val.toNat = c := Char.ofNat_toNat c
  have hvalid : c.val.toNat < 0xD800 ∨ 0xDFFF < c.val.toNat ∧ c.val.toNat < 0x110000 := c.valid
  unfold String.utf8EncodeChar
  generalize c.val.toNat = n at hc hvalid
  obtain ⟨h1, l1⟩ := continuation_ofNat n
  obtain ⟨h2, l2⟩ := continuation_ofNat (n / 64)
  obtain ⟨h3, l3⟩ := continuation_ofNat (n / 4096)
  simp only
  split
  · next hn =>
    have hval : (UInt8.ofNat n).toNat = n := by rw [UInt8.toNat_ofNat']; omega
    have hlt : UInt8.ofNat n < 0x80 := by
      rw [UInt8.lt_iff_toNat_lt, hval]
      change n < 128
      omega
    refine ⟨_, _, rfl, ?_⟩
    rw [(Reads.ascii hlt).next_eq, hval, hc]
    rfl
  split
  · next hlow hn =>
    have hval : (UInt8.ofNat (n / 64 % 32 + 192)).toNat = n / 64 + 192 := by rw [UInt8.toNat_ofNat']; omega
    refine ⟨_, _, rfl, (Reads.two (not_lt_of_toNat hval (by omega)) ?_).next_eq⟩
    rw [two_of_char (by omega) hval h1 l1, hc]
    rfl
  split
  · next _ hlow hn =>
    have hval : (UInt8.ofNat (n / 4096 % 16 + 224)).toNat = n / 4096 + 224 := by rw [UInt8.toNat_ofNat']; omega
    refine ⟨_, _, rfl, (Reads.three (not_lt_of_toNat hval (by omega)) ?_).next_eq⟩
    rw [three_of_char (by omega) (by omega) hval h2 l2 h1 l1, hc]
    rfl
  · next _ _ hlow =>
    have hval : (UInt8.ofNat (n / 262144 % 8 + 240)).toNat = n / 262144 + 240 := by rw [UInt8.toNat_ofNat']; omega
    refine ⟨_, _, rfl, (Reads.four (not_lt_of_toNat hval (by omega)) ?_).next_eq⟩
    rw [four_of_char (by omega) hval h3 l3 h2 l2 h1 l1, hc]
    rfl

end DeclPieces.Rune

namespace DeclPieces.Text

/-- A text of characters is read as those characters. -/
lemma runes_ofChars (cs : List Char) : runes (ofChars cs) = cs.map fun c => ⟨c, String.utf8EncodeChar c⟩ := by
  induction cs with
  | nil => rfl
  | cons c rest ih =>
    obtain ⟨b, more, hbytes, hnext⟩ := Rune.next_utf8EncodeChar c (ofChars rest)
    have hall : ofChars (c :: rest) = b :: (more ++ ofChars rest) := by
      rw [ofChars, List.flatMap_cons, hbytes]
      rfl
    rw [hall, runes_eq_cons, hnext, List.take_left, List.drop_left, ih, List.map_cons, hbytes]

end DeclPieces.Text

namespace DeclPieces.Address

/-- A byte that no file name is refused for: it is no slash of either kind, no quote, and no control character. -/
def Harmless (b : UInt8) : Prop :=
  32 ≤ b.toNat ∧ b ≠ 127 ∧ b ≠ Path.slash ∧ b ≠ Text.byte '\\' ∧ b ≠ Text.byte '"' ∧ b ≠ Text.byte '\'' ∧ b ≠ 96

instance (b : UInt8) : Decidable (Harmless b) := inferInstanceAs (Decidable (_ ∧ _))

lemma harmless_of_le {b : UInt8} (h : 128 ≤ b.toNat) : Harmless b := by
  refine ⟨by omega, ?_, ?_, ?_, ?_, ?_, ?_⟩ <;> rintro rfl <;> exact absurd h (by decide)

lemma harmless_of_mem_fileName {symbol : Text} : ∀ b ∈ fileName symbol, Harmless b := by
  intro b hb
  have hascii : ∀ n < 128, isPortable (Char.ofNat n) = true → Harmless (UInt8.ofNat n) := by decide
  by_cases hlarge : 128 ≤ b.toNat
  · exact harmless_of_le hlarge
  · have hportable := (mem_fileName hb).resolve_left hlarge
    rw [← UInt8.ofNat_toNat (x := b)]
    exact hascii b.toNat (by omega) hportable

lemma harmless_of_mem_stem {name : Text} (h : ∀ b ∈ name, Harmless b) (n : Nat) :
    ∀ b ∈ Allocator.stem name n, Harmless b := by
  cases n with
  | zero => exact h
  | succ n =>
    intro b hb
    simp only [Allocator.stem, List.mem_append] at hb
    rcases hb with (hb | hb) | hb
    · exact h b hb
    · have hdash : Text.ofString "-" = [45] := by decide
      obtain rfl := List.mem_singleton.mp (hdash ▸ hb)
      decide
    · have hdigit : ∀ n < 58, 48 ≤ n → Harmless (UInt8.ofNat n) := by decide
      have hrange := Text.mem_ofNat hb
      rw [← UInt8.ofNat_toNat (x := b)]
      exact hdigit b.toNat (by omega) (by omega)

lemma not_isQuote_of_isPortable {c : Char} (h : isPortable c = true) : isQuote c = false := by
  by_contra hquote
  rw [Bool.not_eq_false, isQuote, Bool.or_eq_true, Bool.or_eq_true, decide_eq_true_eq, decide_eq_true_eq,
    decide_eq_true_eq] at hquote
  rcases hquote with (rfl | rfl) | hcode
  · exact absurd h (by decide)
  · exact absurd h (by decide)
  · rw [← Char.ofNat_toNat c, hcode] at h
    exact absurd h (by decide)

lemma isPortable_of_identifierChar {first : Bool} {c : Char} (h : identifierChar first c = true) :
    isPortable c = true := by
  unfold identifierChar at h
  unfold isPortable Char.isAlphanum
  grind

/-- An identifier is its own file name. -/
lemma fileName_of_isIdentifier {cs : List Char} (h : isIdentifier (Text.ofChars cs) = true) :
    fileName (Text.ofChars cs) = Text.ofChars cs := by
  have hportable : ∀ r ∈ (Text.ofChars cs).runes, isPortable r.char = true := by
    unfold isIdentifier at h
    split at h
    · cases h
    · next r rest hrunes =>
      rw [Bool.and_eq_true, List.all_eq_true] at h
      intro s hs
      rw [hrunes] at hs
      rcases List.mem_cons.mp hs with rfl | hs
      · exact isPortable_of_identifierChar h.1
      · exact isPortable_of_identifierChar (h.2 s hs)
  have hkeep (l : List Rune) (hl : ∀ r ∈ l, isPortable r.char = true) : l.dropWhile (isQuote ·.char) = l := by
    apply Text.dropWhile_of_head
    intro r hr
    exact not_isQuote_of_isPortable (hl r (List.mem_of_head? hr))
  have hne : (Text.ofChars cs).runes ≠ [] := by
    intro hnil
    rw [isIdentifier, hnil] at h
    cases h
  have hreverse : ∀ r ∈ (Text.ofChars cs).runes.reverse, isPortable r.char = true :=
    fun r hr => hportable r (List.mem_reverse.mp hr)
  have hmap : ((Text.ofChars cs).runes.map fun r => if isPortable r.char then r.char else '_') = cs := by
    calc ((Text.ofChars cs).runes.map fun r => if isPortable r.char then r.char else '_')
        = (Text.ofChars cs).runes.map Rune.char := List.map_congr_left fun r hr => if_pos (hportable r hr)
      _ = cs := by rw [Text.runes_ofChars, List.map_map]; exact List.map_id cs
  unfold fileName
  simp only [hkeep _ hportable, hkeep _ hreverse, List.reverse_reverse, List.isEmpty_iff, hne, if_false, hmap]

end DeclPieces.Address
