import DeclPieces.Text.Rune
import Mathlib.Data.List.Basic

/-! How a character is read: as ASCII, from two, three or four bytes, or as a byte that is not UTF-8. Only the bytes that
it is made of matter. -/
namespace DeclPieces.Rune
variable {b b1 b2 b3 : UInt8} {t u : Text} {r : Char × Nat}

lemma two_snd (h : next.two b b1 = some r) : r.2 = 1 := by
  unfold next.two at h
  split at h
  · rw [← Option.some.inj h]
  · cases h

lemma three_snd (h : next.three b b1 b2 = some r) : r.2 = 2 := by
  unfold next.three at h
  simp only at h
  split at h
  · rw [← Option.some.inj h]
  · cases h

lemma four_snd (h : next.four b b1 b2 b3 = some r) : r.2 = 3 := by
  unfold next.four at h
  simp only at h
  split at h
  · rw [← Option.some.inj h]
  · cases h

/-- The first byte tells how many there are. -/
lemma two_eq_none_of_three (h : next.three b b1 b2 = some r) (c : UInt8) : next.two b c = none := by
  unfold next.three at h
  simp only at h
  split at h
  · next hb =>
    simp only [Bool.and_eq_true, decide_eq_true_eq, UInt8.le_iff_toNat_le] at hb
    have hlow : 0xE0 ≤ b.toNat := hb.1.1.1.1.1
    have hnot : ¬ b ≤ 0xDF := by
      rw [UInt8.le_iff_toNat_le]
      change ¬ b.toNat ≤ 0xDF
      omega
    simp [next.two, hnot]
  · cases h

lemma eq_none_of_four (h : next.four b b1 b2 b3 = some r) (c d : UInt8) :
    next.two b c = none ∧ next.three b c d = none := by
  unfold next.four at h
  simp only at h
  split at h
  · next hb =>
    simp only [Bool.and_eq_true, decide_eq_true_eq, UInt8.le_iff_toNat_le] at hb
    have hlow : 0xF0 ≤ b.toNat := hb.1.1.1.1.1.1
    have hnot : ¬ b ≤ 0xDF ∧ ¬ b ≤ 0xEF := by
      rw [UInt8.le_iff_toNat_le, UInt8.le_iff_toNat_le]
      change ¬ b.toNat ≤ 0xDF ∧ ¬ b.toNat ≤ 0xEF
      omega
    simp [next.two, next.three, hnot]
  · cases h

/-- How the character is read that starts with byte `b`. -/
inductive Reads (b : UInt8) : Text → Char × Nat → Prop
  | ascii {t : Text} (hb : b < 0x80) : Reads b t (Char.ofNat b.toNat, 0)
  | two {b1 : UInt8} {t : Text} {r : Char × Nat} (hb : ¬ b < 0x80) (h : next.two b b1 = some r) : Reads b (b1 :: t) r
  | three {b1 b2 : UInt8} {t : Text} {r : Char × Nat} (hb : ¬ b < 0x80) (h : next.three b b1 b2 = some r) :
    Reads b (b1 :: b2 :: t) r
  | four {b1 b2 b3 : UInt8} {t : Text} {r : Char × Nat} (hb : ¬ b < 0x80) (h : next.four b b1 b2 b3 = some r) :
    Reads b (b1 :: b2 :: b3 :: t) r
  | invalid {t : Text} (hb : ¬ b < 0x80) (two : ∀ b1, [b1] <+: t → next.two b b1 = none)
      (three : ∀ b1 b2, [b1, b2] <+: t → next.three b b1 b2 = none)
      (four : ∀ b1 b2 b3, [b1, b2, b3] <+: t → next.four b b1 b2 b3 = none) : Reads b t (replacement, 0)

lemma Reads.next_eq (h : Reads b t r) : next b t = r := by
  unfold next
  cases h with
  | ascii hb => rw [if_pos hb]
  | @two _ t _ hb h =>
    rw [if_neg hb]
    obtain _ | ⟨c, _ | ⟨d, t⟩⟩ := t <;> simp [h]
  | @three _ _ t _ hb h =>
    rw [if_neg hb]
    obtain _ | ⟨c, t⟩ := t <;> simp [two_eq_none_of_three h, h]
  | four hb h => simp [hb, (eq_none_of_four h _ 0).1, (eq_none_of_four h _ _).2, h]
  | invalid hb htwo hthree hfour =>
    rw [if_neg hb]
    obtain _ | ⟨c, _ | ⟨d, _ | ⟨e, t⟩⟩⟩ := t
    · rfl
    · simp [htwo c]
    · simp [htwo c, hthree c d]
    · simp [htwo c, hthree c d, hfour c d e]

lemma reads_next (b : UInt8) (t : Text) : Reads b t (next b t) := by
  have hreads : ∃ r, Reads b t r := by
    by_cases hb : b < 0x80
    · exact ⟨_, .ascii hb⟩
    by_cases h2 : ∃ b1 r, [b1] <+: t ∧ next.two b b1 = some r
    · obtain ⟨b1, r, ⟨rest, rfl⟩, h⟩ := h2
      exact ⟨r, .two hb h⟩
    by_cases h3 : ∃ b1 b2 r, [b1, b2] <+: t ∧ next.three b b1 b2 = some r
    · obtain ⟨b1, b2, r, ⟨rest, rfl⟩, h⟩ := h3
      exact ⟨r, .three hb h⟩
    by_cases h4 : ∃ b1 b2 b3 r, [b1, b2, b3] <+: t ∧ next.four b b1 b2 b3 = some r
    · obtain ⟨b1, b2, b3, r, ⟨rest, rfl⟩, h⟩ := h4
      exact ⟨r, .four hb h⟩
    refine ⟨_, .invalid hb (fun b1 ht => ?_) (fun b1 b2 ht => ?_) fun b1 b2 b3 ht => ?_⟩
    · exact Option.eq_none_iff_forall_ne_some.mpr fun r hr => h2 ⟨b1, r, ht, hr⟩
    · exact Option.eq_none_iff_forall_ne_some.mpr fun r hr => h3 ⟨b1, b2, r, ht, hr⟩
    · exact Option.eq_none_iff_forall_ne_some.mpr fun r hr => h4 ⟨b1, b2, b3, r, ht, hr⟩
  obtain ⟨r, hr⟩ := hreads
  rwa [hr.next_eq]

/-- A character is read from its own bytes. -/
lemma Reads.shorten (h : Reads b t r) (hu : u <+: t) (hlength : r.2 ≤ u.length) : Reads b u r := by
  cases h with
  | ascii hb => exact .ascii hb
  | @two b1 t _ hb h =>
    rw [two_snd h] at hlength
    obtain ⟨rest, rfl⟩ := List.prefix_of_prefix_length_le (List.prefix_append [b1] t) hu hlength
    exact .two hb h
  | @three b1 b2 t _ hb h =>
    rw [three_snd h] at hlength
    obtain ⟨rest, rfl⟩ := List.prefix_of_prefix_length_le (List.prefix_append [b1, b2] t) hu hlength
    exact .three hb h
  | @four b1 b2 b3 t _ hb h =>
    rw [four_snd h] at hlength
    obtain ⟨rest, rfl⟩ := List.prefix_of_prefix_length_le (List.prefix_append [b1, b2, b3] t) hu hlength
    exact .four hb h
  | invalid hb htwo hthree hfour =>
    exact .invalid hb (fun b1 h1 => htwo b1 (h1.trans hu)) (fun b1 b2 h2 => hthree b1 b2 (h2.trans hu))
      fun b1 b2 b3 h3 => hfour b1 b2 b3 (h3.trans hu)

/-- The bytes of a character after its first are there, and continue it. -/
lemma Reads.continues (h : Reads b t r) : r.2 ≤ t.length ∧ ∀ c ∈ t.take r.2, isContinuation c = true := by
  cases h with
  | ascii hb => simp
  | @two b1 t _ hb h =>
    have hcontinues : isContinuation b1 = true := by
      unfold next.two at h
      grind
    simp [two_snd h, hcontinues]
  | @three b1 b2 t _ hb h =>
    have hcontinues : isContinuation b1 = true ∧ isContinuation b2 = true := by
      unfold next.three at h
      grind
    simp [three_snd h, hcontinues]
  | @four b1 b2 b3 t _ hb h =>
    have hcontinues : isContinuation b1 = true ∧ isContinuation b2 = true ∧ isContinuation b3 = true := by
      unfold next.four at h
      grind
    simp [four_snd h, hcontinues]
  | invalid hb => simp

lemma next_snd_le (b : UInt8) (t : Text) : (next b t).2 ≤ t.length := (reads_next b t).continues.1

lemma next_append (h : (next b (t ++ u)).2 ≤ t.length) : next b (t ++ u) = next b t :=
  ((reads_next b (t ++ u)).shorten (List.prefix_append t u) h).next_eq.symm

/-- A character never runs on over a byte that continues none. -/
lemma next_append_cons {s : UInt8} (hs : isContinuation s = false) (b : UInt8) (t u : Text) :
    next b (t ++ s :: u) = next b t := by
  apply next_append
  by_contra hlong
  have hmem : s ∈ (t ++ s :: u).take (next b (t ++ s :: u)).2 :=
    List.mem_take_iff_getElem.mpr ⟨t.length, by simp; omega, by simp⟩
  have hcontinues := (reads_next b (t ++ s :: u)).continues.2 s hmem
  rw [hs] at hcontinues
  cases hcontinues

lemma scan_eq (skip : Nat) (t : Text) : scan skip t = scan 0 (t.drop skip) := by
  induction t generalizing skip with
  | nil => cases skip <;> rfl
  | cons b rest ih =>
    cases skip with
    | zero => rfl
    | succ skip => simpa [scan] using ih skip

end DeclPieces.Rune
