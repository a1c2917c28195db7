import DeclPieces.Proofs.Decoding

/-! Texts as lists of parts: splitting and joining undo each other, and a line break at either end of a
text is read on its own, whatever bytes stand next to it. -/
namespace DeclPieces.Text

section Split
variable {sep : UInt8} {t part : Text} {parts : List Text}

lemma splitBy_cons_sep (sep : UInt8) (t : Text) : splitBy sep (sep :: t) = [] :: splitBy sep t := by
  simp [splitBy]

lemma splitBy_of_not_mem (h : sep ∉ t) : splitBy sep t = [t] := by
  induction t with
  | nil => rfl
  | cons b rest ih =>
    simp only [List.mem_cons, not_or] at h
    simp [splitBy, Ne.symm h.1, ih h.2]

/-- A separator ends the part before it. -/
lemma splitBy_append_sep (sep : UInt8) (t u : Text) :
    splitBy sep (t ++ sep :: u) = splitBy sep t ++ splitBy sep u := by
  induction t with
  | nil => simp [splitBy]
  | cons b rest ih =>
    simp only [List.cons_append, splitBy, ih]
    by_cases hb : b = sep
    · simp [hb]
    · cases hs : splitBy sep rest with
      | nil => exact absurd hs (splitBy_ne_nil sep rest)
      | cons line lines => simp [hb]

lemma not_mem_of_mem_splitBy (h : part ∈ splitBy sep t) : sep ∉ part := by
  induction t generalizing part with
  | nil => simp_all [splitBy]
  | cons b rest ih =>
    unfold splitBy at h
    split at h
    · rcases List.mem_cons.mp h with rfl | h
      · simp
      · exact ih h
    · next hb =>
      cases hs : splitBy sep rest with
      | nil => exact absurd hs (splitBy_ne_nil sep rest)
      | cons line lines =>
        rw [hs] at h ih
        rcases List.mem_cons.mp h with rfl | h
        · simp only [List.mem_cons, not_or]
          exact ⟨Ne.symm hb, ih (by simp)⟩
        · exact ih (by simp [h])

lemma mem_of_mem_splitBy {b : UInt8} (h : part ∈ splitBy sep t) (hb : b ∈ part) : b ∈ t := by
  induction t generalizing part with
  | nil => simp_all [splitBy]
  | cons c rest ih =>
    unfold splitBy at h
    split at h
    · rcases List.mem_cons.mp h with rfl | h
      · simp at hb
      · exact List.mem_cons_of_mem _ (ih h hb)
    · cases hs : splitBy sep rest with
      | nil => exact absurd hs (splitBy_ne_nil sep rest)
      | cons line lines =>
        rw [hs] at h ih
        rcases List.mem_cons.mp h with rfl | h
        · rcases List.mem_cons.mp hb with rfl | hb
          · simp
          · exact List.mem_cons_of_mem _ (ih (List.mem_cons_self) hb)
        · exact List.mem_cons_of_mem _ (ih (List.mem_cons_of_mem _ h) hb)

lemma joinWith_cons (sep t : Text) (h : parts ≠ []) :
    joinWith sep (t :: parts) = t ++ sep ++ joinWith sep parts := by
  cases parts with
  | nil => exact absurd rfl h
  | cons u rest => rfl

lemma joinWith_append (sep : Text) {xs ys : List Text} (hx : xs ≠ []) (hy : ys ≠ []) :
    joinWith sep (xs ++ ys) = joinWith sep xs ++ sep ++ joinWith sep ys := by
  induction xs with
  | nil => exact absurd rfl hx
  | cons t rest ih =>
    cases rest with
    | nil => simpa [joinWith] using joinWith_cons sep t hy
    | cons u rest =>
      have ht := ih (by simp)
      rw [List.cons_append, joinWith_cons sep t (by simp), ht, joinWith_cons sep t (by simp)]
      simp [List.append_assoc]

lemma mem_joinWith {b : UInt8} {sep : Text} (h : b ∈ joinWith sep parts) :
    b ∈ sep ∨ ∃ part ∈ parts, b ∈ part := by
  induction parts with
  | nil => simp [joinWith] at h
  | cons t rest ih =>
    by_cases hr : rest = []
    · subst hr
      exact .inr ⟨t, by simp, by simpa [joinWith] using h⟩
    · rw [joinWith_cons sep t hr] at h
      simp only [List.mem_append] at h
      rcases h with (h | h) | h
      · exact .inr ⟨t, by simp, h⟩
      · exact .inl h
      · rcases ih h with h | ⟨part, hp, hb⟩
        · exact .inl h
        · exact .inr ⟨part, by simp [hp], hb⟩

/-- Splitting finds the parts that were joined. -/
lemma splitBy_joinWith (hne : parts ≠ []) (h : ∀ part ∈ parts, sep ∉ part) :
    splitBy sep (joinWith [sep] parts) = parts := by
  induction parts with
  | nil => exact absurd rfl hne
  | cons t rest ih =>
    have ht := splitBy_of_not_mem (h t (by simp))
    by_cases hr : rest = []
    · simpa [hr, joinWith] using ht
    · rw [joinWith_cons [sep] t hr, List.append_assoc, List.singleton_append, splitBy_append_sep, ht,
        ih hr (fun part hp => h part (by simp [hp]))]
      rfl

end Split

end DeclPieces.Text

namespace DeclPieces.Rune

lemma scan_append_cons {s : UInt8} (hs : isContinuation s = false) (skip : Nat) (t u : Text) (h : skip ≤ t.length) :
    scan skip (t ++ s :: u) = scan skip t ++ scan 0 (s :: u) := by
  induction t generalizing skip with
  | nil =>
    obtain rfl : skip = 0 := by simpa using h
    simp [scan]
  | cons b rest ih =>
    cases skip with
    | zero =>
      have hle := next_snd_le b rest
      simp only [List.cons_append, scan, next_append_cons hs, ih _ hle]
      rw [List.take_append_of_le_length hle]
    | succ skip => simpa [scan] using ih skip (by simpa using h)

end DeclPieces.Rune

namespace DeclPieces.Text

/-- The bytes of a character beyond ASCII are beyond ASCII. -/
lemma mem_utf8EncodeChar {c : Char} {b : UInt8} (h : b ∈ String.utf8EncodeChar c) :
    b = UInt8.ofNat c.toNat ∧ c.toNat ≤ 127 ∨ 128 ≤ b.toNat := by
  unfold String.utf8EncodeChar at h
  simp only at h
  split at h
  · next hc => exact .inl ⟨by simpa using h, hc⟩
  · right
    repeat' split at h
    all_goals
      simp only [List.mem_cons, List.not_mem_nil, or_false] at h
      rcases h with rfl | rfl | rfl | rfl <;> simp only [UInt8.toNat_ofNat'] <;> omega

/-- A line break, read as a character. -/
def newlineRune : Rune := ⟨Char.ofNat 10, [newline]⟩

@[simp] lemma isSpace_newlineRune : isSpace newlineRune.char = true := by decide

lemma runes_append_cons {s : UInt8} (hs : Rune.isContinuation s = false) (t u : Text) :
    runes (t ++ s :: u) = runes t ++ runes (s :: u) :=
  Rune.scan_append_cons hs 0 t u (Nat.zero_le _)

/-- A byte of ASCII is a character. -/
lemma runes_cons {b : UInt8} (hb : b < 0x80) (t : Text) : runes (b :: t) = ⟨Char.ofNat b.toNat, [b]⟩ :: runes t := by
  have h : Rune.next b t = (Char.ofNat b.toNat, 0) := by
    unfold Rune.next
    rw [if_pos hb]
  simp [runes, Rune.scan, h]

lemma runes_append_newline (t u : Text) : runes (t ++ newline :: u) = runes t ++ runes (newline :: u) :=
  runes_append_cons (by decide) t u

lemma runes_newline_cons (t : Text) : runes (newline :: t) = newlineRune :: runes t := runes_cons (by decide) t

lemma runes_newlines (n : Nat) (t : Text) :
    runes (List.replicate n newline ++ t) = List.replicate n newlineRune ++ runes t := by
  induction n with
  | zero => rfl
  | succ n ih =>
    rw [List.replicate_succ, List.cons_append, runes_newline_cons, ih]
    rfl

/-- Does the text neither start nor end with white space? -/
structure Trimmed (t : Text) : Prop where
  head : ∀ r ∈ (runes t).head?, isSpace r.char = false
  last : ∀ r ∈ (runes t).getLast?, isSpace r.char = false

instance (t : Text) : Decidable (Trimmed t) :=
  decidable_of_iff ((∀ r ∈ (runes t).head?, isSpace r.char = false) ∧ ∀ r ∈ (runes t).getLast?, isSpace r.char = false)
    ⟨fun h => ⟨h.1, h.2⟩, fun h => ⟨h.head, h.last⟩⟩

lemma runes_around_newlines (t : Text) (m n : Nat) :
    runes (List.replicate m newline ++ t ++ List.replicate n newline) =
      List.replicate m newlineRune ++ runes t ++ List.replicate n newlineRune := by
  rw [List.append_assoc, runes_newlines]
  cases n with
  | zero => simp
  | succ n =>
    have hn := runes_newlines n []
    rw [List.append_nil] at hn
    rw [List.replicate_succ, runes_append_newline, runes_newline_cons, hn]
    simp [runes, Rune.scan, List.replicate_succ]

end DeclPieces.Text
