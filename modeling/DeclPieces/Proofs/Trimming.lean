import DeclPieces.Proofs.Lines
import Mathlib.Data.List.DropRight

/-! White space at the ends of a text. A part of a text that is cut between two characters is read as it was
in the whole, so that what is left of a text when it is trimmed neither starts nor ends with white space. -/
namespace DeclPieces.Text
variable {t : Text}

lemma runes_eq_cons (b : UInt8) (rest : Text) :
    runes (b :: rest) = ⟨(Rune.next b rest).1, b :: rest.take (Rune.next b rest).2⟩ ::
      runes (rest.drop (Rune.next b rest).2) := by
  rw [runes, Rune.scan, Rune.scan_eq]
  rfl

/-- Cut between two of its characters, a text has the same characters in both parts. -/
lemma runes_of_append {xs ys : List Rune} (h : runes t = xs ++ ys) :
    runes (xs.flatMap Rune.bytes) = xs ∧ runes (ys.flatMap Rune.bytes) = ys := by
  induction xs generalizing t with
  | nil =>
    rw [List.nil_append] at h
    rw [← h, flatMap_bytes_runes]
    exact ⟨rfl, rfl⟩
  | cons r xs ih =>
    cases t with
    | nil => simp [runes, Rune.scan] at h
    | cons b rest =>
      rw [runes_eq_cons, List.cons_append, List.cons.injEq] at h
      obtain ⟨rfl, hrest⟩ := h
      obtain ⟨hxs, hys⟩ := ih hrest
      refine ⟨?_, hys⟩
      have hle := Rune.next_snd_le b rest
      have hparts : rest.take (Rune.next b rest).2 ++ xs.flatMap Rune.bytes ++ ys.flatMap Rune.bytes = rest := by
        rw [List.append_assoc, ← List.flatMap_append, ← hrest, flatMap_bytes_runes, List.take_append_drop]
      generalize hnext : Rune.next b rest = r at hle hparts ⊢
      have hsame : Rune.next b (rest.take r.2 ++ xs.flatMap Rune.bytes) = r := by
        rw [← Rune.next_append (u := ys.flatMap Rune.bytes), hparts, hnext]
        rw [hparts, hnext]
        simp [hle]
      have hlength : (rest.take r.2).length = r.2 := List.length_take_of_le hle
      rw [List.flatMap_cons, List.cons_append, runes_eq_cons, hsame, List.take_left' hlength, List.drop_left' hlength,
        hxs]

/-- Is the text all white space? -/
def Blank (t : Text) : Prop := ∀ r ∈ runes t, isSpace r.char = true

instance (t : Text) : Decidable (Blank t) := inferInstanceAs (Decidable (∀ r ∈ runes t, _ = true))

/-- A text is what it is trimmed to, between white space. -/
lemma exists_trim (t : Text) : ∃ front back, runes t = runes front ++ runes (trim t) ++ runes back ∧
    t = front ++ trim t ++ back ∧ Blank front ∧ Blank back ∧ Trimmed (trim t) := by
  set space : Rune → Bool := fun r => isSpace r.char
  set kept := (runes t).dropWhile space
  set inner := kept.rdropWhile space
  have htrim : trim t = inner.flatMap Rune.bytes := rfl
  have hkept : (runes t).takeWhile space ++ kept = runes t := List.takeWhile_append_dropWhile
  have hinner : inner ++ kept.rtakeWhile space = kept := List.rdropWhile_append_rtakeWhile
  have hfront := runes_of_append hkept.symm
  have hback := runes_of_append (hfront.2.trans hinner.symm)
  refine ⟨((runes t).takeWhile space).flatMap Rune.bytes, (kept.rtakeWhile space).flatMap Rune.bytes, ?_, ?_, ?_, ?_, ?_⟩
  · rw [hfront.1, htrim, hback.1, hback.2, List.append_assoc, hinner, hkept]
  · rw [htrim, List.append_assoc, ← List.flatMap_append, hinner, ← List.flatMap_append, hkept, flatMap_bytes_runes]
  · intro r hr
    rw [hfront.1] at hr
    exact List.mem_takeWhile_imp (p := space) hr
  · intro r hr
    rw [hback.2] at hr
    exact List.mem_rtakeWhile_imp (p := space) hr
  · rw [htrim]
    constructor
    · rw [hback.1]
      intro r hr
      obtain ⟨tail, htail⟩ := List.head?_eq_some_iff.mp hr
      have hhead : kept.head? = some r := by rw [← hinner, htail]; rfl
      have hnot := List.head?_dropWhile_not space (runes t)
      rw [hhead] at hnot
      exact hnot
    · rw [hback.1]
      intro r hr
      obtain ⟨hne, hlast⟩ := List.mem_getLast?_eq_getLast hr
      rw [hlast]
      simpa using List.rdropWhile_last_not space kept hne

lemma dropWhile_of_head {α : Type} {p : α → Bool} {l : List α} (h : ∀ a ∈ l.head?, p a = false) :
    l.dropWhile p = l := by
  cases l with
  | nil => rfl
  | cons a rest => simp [h a rfl]

/-- White space at both ends is what a text is trimmed of. -/
lemma trim_eq_of_runes {t inner : Text} {front back : List Rune} (h : runes t = front ++ runes inner ++ back)
    (hfront : ∀ r ∈ front, isSpace r.char = true) (hback : ∀ r ∈ back, isSpace r.char = true)
    (hinner : Trimmed inner) : trim t = inner := by
  unfold trim
  simp only [h, List.append_assoc, List.dropWhile_append_of_pos hfront]
  by_cases hempty : runes inner = []
  · have hnil : inner = [] := by rw [← flatMap_bytes_runes inner, hempty]; rfl
    subst hnil
    have hdrop : back.dropWhile (fun r => isSpace r.char) = [] := List.dropWhile_eq_nil_iff.mpr hback
    simp [runes, Rune.scan, hdrop]
  · have hhead : (runes inner ++ back).dropWhile (fun r => isSpace r.char) = runes inner ++ back := by
      apply dropWhile_of_head
      intro r hr
      exact hinner.head r (by simpa [List.head?_append, hempty] using hr)
    have hlast : (runes inner).reverse.dropWhile (fun r => isSpace r.char) = (runes inner).reverse := by
      apply dropWhile_of_head
      intro r hr
      exact hinner.last r (by simpa using hr)
    have hreverse : ∀ r ∈ back.reverse, isSpace r.char = true := fun r hr => hback r (List.mem_reverse.mp hr)
    rw [hhead, List.reverse_append, List.dropWhile_append_of_pos hreverse, hlast, List.reverse_reverse,
      flatMap_bytes_runes]

lemma isSpace_of_mem_newlines {n : Nat} : ∀ r ∈ List.replicate n newlineRune, isSpace r.char = true := by
  intro r hr
  rw [(List.mem_replicate.mp hr).2]
  exact isSpace_newlineRune

lemma Trimmed.trim_eq (h : Trimmed t) : trim t = t :=
  trim_eq_of_runes (show runes t = [] ++ runes t ++ [] by simp) (by simp) (by simp) h

/-- Line breaks around a text make no difference when it is trimmed. -/
lemma trim_around_newlines (t : Text) (m n : Nat) :
    trim (List.replicate m newline ++ t ++ List.replicate n newline) = trim t := by
  obtain ⟨front, back, hrunes, -, hfront, hback, htrimmed⟩ := exists_trim t
  have haround : runes (List.replicate m newline ++ t ++ List.replicate n newline) =
      (List.replicate m newlineRune ++ runes front) ++ runes (trim t) ++
        (runes back ++ List.replicate n newlineRune) := by
    rw [runes_around_newlines, hrunes]
    simp only [List.append_assoc]
  refine trim_eq_of_runes haround ?_ ?_ htrimmed
  · intro r hr
    exact (List.mem_append.mp hr).elim (isSpace_of_mem_newlines r) (hfront r)
  · intro r hr
    exact (List.mem_append.mp hr).elim (hback r) (isSpace_of_mem_newlines r)

lemma length_trim_le (t : Text) : (trim t).length ≤ t.length := by
  obtain ⟨front, back, -, ht, -⟩ := exists_trim t
  have hlength := congrArg List.length ht
  simp only [List.length_append] at hlength
  omega

end DeclPieces.Text
