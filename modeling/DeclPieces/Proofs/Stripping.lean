import DeclPieces.Proofs.Markers

/-! Taking the markers off a text that has none left. Marked lines are dropped before white space is removed, so that
the first line of what is left may be one that was indented, and that would be dropped from now on. -/
namespace DeclPieces

namespace Text
variable {sep : UInt8} {t u part : Text}

/-- The text up to its first line break. -/
def firstLine (t : Text) : Text := t.takeWhile (· ≠ newline)

lemma exists_splitBy_cons {b : UInt8} (hb : b ≠ sep) (t : Text) :
    ∃ line lines, splitBy sep t = line :: lines ∧ splitBy sep (b :: t) = (b :: line) :: lines := by
  obtain ⟨line, lines, h⟩ := List.exists_cons_of_ne_nil (splitBy_ne_nil sep t)
  exact ⟨line, lines, h, by simp [splitBy, hb, h]⟩

lemma splitBy_eq_cons (t : Text) : splitBy newline t = firstLine t :: (splitBy newline t).tail := by
  induction t with
  | nil => rfl
  | cons b rest ih =>
    by_cases hb : b = newline
    · simp [hb, splitBy_cons_sep, firstLine]
    · obtain ⟨line, lines, hrest, hcons⟩ := exists_splitBy_cons hb rest
      obtain rfl : line = firstLine rest := by
        rw [hrest] at ih
        exact (List.cons.inj ih).1
      rw [hcons]
      simp [firstLine, hb]

/-- What stands in front of a text leaves its lines as they are, but for the first. -/
lemma tail_splitBy_suffix (sep : UInt8) (t u : Text) : (splitBy sep u).tail <:+ (splitBy sep (t ++ u)).tail := by
  induction t with
  | nil => exact List.suffix_refl _
  | cons b rest ih =>
    rw [List.cons_append]
    by_cases hb : b = sep
    · rw [hb, splitBy_cons_sep, List.tail_cons]
      exact ih.trans (List.tail_suffix _)
    · obtain ⟨line, lines, hrest, hcons⟩ := exists_splitBy_cons hb (rest ++ u)
      rw [hrest] at ih
      rw [hcons]
      exact ih

/-- What stands behind a text adds to its last line, and adds lines. -/
lemma forall₂_splitBy_append (sep : UInt8) (t u : Text) :
    List.Forall₂ (· <+: ·) (splitBy sep t) ((splitBy sep (t ++ u)).take (splitBy sep t).length) := by
  induction t with
  | nil =>
    obtain ⟨line, lines, h⟩ := List.exists_cons_of_ne_nil (splitBy_ne_nil sep u)
    rw [List.nil_append, h]
    exact .cons (List.nil_prefix) .nil
  | cons b rest ih =>
    rw [List.cons_append]
    by_cases hb : b = sep
    · rw [hb, splitBy_cons_sep, splitBy_cons_sep, List.length_cons, List.take_succ_cons]
      exact .cons (List.prefix_refl _) ih
    · obtain ⟨line, lines, hrest, hcons⟩ := exists_splitBy_cons hb rest
      obtain ⟨line', lines', hrest', hcons'⟩ := exists_splitBy_cons hb (rest ++ u)
      rw [hrest, hrest', List.length_cons, List.take_succ_cons] at ih
      rw [hcons, hcons', List.length_cons, List.take_succ_cons]
      cases ih with
      | cons hline hlines => exact .cons (List.cons_prefix_cons.mpr ⟨rfl, hline⟩) hlines

lemma exists_prefix_of_mem_splitBy (u : Text) (h : part ∈ splitBy sep t) :
    ∃ line ∈ splitBy sep (t ++ u), part <+: line := by
  obtain ⟨line, hline, hprefix⟩ := (forall₂_splitBy_append sep t u).flip.exists_of_mem h
  exact ⟨line, List.mem_of_mem_take hline, hprefix⟩

lemma firstLine_append (h : newline ∉ t) (u : Text) : firstLine (t ++ u) = t ++ firstLine u := by
  apply List.takeWhile_append_of_pos
  intro b hb
  have hne : b ≠ newline := fun he => h (he ▸ hb)
  simp [hne]

lemma firstLine_mem_splitBy (t : Text) : firstLine t ∈ splitBy newline t := by
  rw [splitBy_eq_cons t]
  exact List.mem_cons_self

/-- The end of what stands in front of a text is on the text's first line. -/
lemma Blank.exists_line (h : Blank t) (u : Text) :
    ∃ last, Blank last ∧ last ++ firstLine u ∈ splitBy newline (t ++ u) := by
  by_cases hbreak : newline ∈ t
  · obtain ⟨front, back, hreverse, hback⟩ := List.eq_append_cons_of_mem (List.mem_reverse.mpr hbreak)
    have ht : t = back.reverse ++ newline :: front.reverse := by
      have hparts := congrArg List.reverse hreverse
      simpa using hparts
    have hlast : newline ∉ front.reverse := by simpa using hback
    refine ⟨front.reverse, fun r hr => h r ?_, ?_⟩
    · rw [ht, runes_append_newline, runes_newline_cons]
      exact List.mem_append_right _ (List.mem_cons_of_mem _ hr)
    · rw [ht, List.append_assoc, List.cons_append, splitBy_append_sep, ← firstLine_append hlast]
      exact List.mem_append_right _ (firstLine_mem_splitBy _)
  · refine ⟨t, h, ?_⟩
    rw [← firstLine_append hbreak]
    exact firstLine_mem_splitBy _

lemma length_joinWith_cons (sep : UInt8) (part : Text) (parts : List Text) :
    (joinWith [sep] parts).length + part.length ≤ (joinWith [sep] (part :: parts)).length := by
  by_cases h : parts = []
  · simp [h, joinWith]
  · rw [joinWith_cons _ _ h, List.length_append, List.length_append]
    omega

lemma length_joinWith_filter_le (sep : UInt8) (p : Text → Bool) (parts : List Text) :
    (joinWith [sep] (parts.filter p)).length ≤ (joinWith [sep] parts).length := by
  induction parts with
  | nil => exact le_refl _
  | cons part rest ih =>
    have hcons := length_joinWith_cons sep part rest
    by_cases hp : p part = true
    · rw [List.filter_cons_of_pos hp]
      by_cases hempty : rest.filter p = []
      · rw [hempty, joinWith]
        omega
      · have hrest : rest ≠ [] := by
          rintro rfl
          exact hempty rfl
        rw [joinWith_cons _ _ hempty, joinWith_cons _ _ hrest]
        simpa using ih
    · rw [List.filter_cons_of_neg hp]
      omega

end Text

open Text

section
variable {opts : Options} {o : Options} {t : Text}

lemma isMarked_of_prefix {line longer : Text} (h : line <+: longer) (hm : isMarked o line = true) :
    isMarked o longer = true := by
  unfold isMarked hasPrefix at hm ⊢
  rw [Bool.or_eq_true, List.isPrefixOf_iff_prefix, List.isPrefixOf_iff_prefix] at hm ⊢
  exact hm.imp (·.trans h) (·.trans h)

lemma isMarked_nil (opts : Options) : isMarked opts.withDefaults [] = false := by
  have hmem : [] ∈ unmarkedLines opts.withDefaults [] := by
    rw [unmarkedLines_nil]
    exact List.mem_singleton_self _
  simpa using (List.mem_filter.mp hmem).2

/-- The unmarked lines of a text, put together again, are the lines of what is left. -/
lemma splitBy_unmarkedLines (h : unmarkedLines o t ≠ []) :
    splitBy newline (joinWith [newline] (unmarkedLines o t)) = unmarkedLines o t :=
  splitBy_joinWith h fun _ hline => not_mem_of_mem_splitBy (List.mem_filter.mp hline).1

/-- What is left before white space is removed has no marked line. -/
lemma unmarked_kept (opts : Options) (t : Text) :
    Unmarked opts.withDefaults (joinWith [newline] (unmarkedLines opts.withDefaults t)) := by
  intro line hline
  by_cases hempty : unmarkedLines opts.withDefaults t = []
  · rw [hempty] at hline
    obtain rfl : line = [] := by simpa [joinWith, splitBy] using hline
    exact isMarked_nil opts
  · rw [splitBy_unmarkedLines hempty] at hline
    simpa using (List.mem_filter.mp hline).2

/-- Only the first line of what is left can be marked. -/
lemma isMarked_of_mem_tail {line : Text} (h : line ∈ (splitBy newline (stripMarkers opts t)).tail) :
    isMarked opts.withDefaults line = false := by
  obtain ⟨front, back, -, hparts, -⟩ := exists_trim (joinWith [newline] (unmarkedLines opts.withDefaults t))
  rw [← stripMarkers_eq] at hparts
  have hmem : line ∈ splitBy newline (front ++ stripMarkers opts t) :=
    List.mem_of_mem_tail ((tail_splitBy_suffix newline front _).subset h)
  obtain ⟨longer, hlonger, hprefix⟩ := exists_prefix_of_mem_splitBy back hmem
  rw [← hparts] at hlonger
  by_contra hm
  have hmarked := isMarked_of_prefix hprefix (by simpa using hm)
  exact absurd (unmarked_kept opts t longer hlonger) (by simp [hmarked])

/-- The first line of what is left is marked only if the marker stood behind white space. -/
lemma exists_indented (h : isMarked opts.withDefaults (firstLine (stripMarkers opts t)) = true) :
    ∃ line ∈ splitBy newline t, isMarked opts.withDefaults line = false ∧
      ∃ space rest, line = space ++ rest ∧ Blank space ∧ isMarked opts.withDefaults rest = true := by
  obtain ⟨front, back, -, hparts, hfront, -⟩ := exists_trim (joinWith [newline] (unmarkedLines opts.withDefaults t))
  rw [← stripMarkers_eq] at hparts
  obtain ⟨last, hlast, hmem⟩ := hfront.exists_line (stripMarkers opts t)
  obtain ⟨line, hline, rest, rfl⟩ := exists_prefix_of_mem_splitBy back hmem
  rw [← hparts] at hline
  have hkept : unmarkedLines opts.withDefaults t ≠ [] := by
    intro hempty
    rw [stripMarkers_eq, hempty] at h
    exact absurd h (by simp [joinWith, trim, runes, Rune.scan, firstLine, isMarked_nil])
  rw [splitBy_unmarkedLines hkept] at hline
  obtain ⟨hmem, hunmarked⟩ := List.mem_filter.mp hline
  refine ⟨_, hmem, by simpa using hunmarked, last, firstLine (stripMarkers opts t) ++ rest, ?_, hlast, ?_⟩
  · rw [List.append_assoc]
  · exact isMarked_of_prefix (List.prefix_append _ _) h

lemma trimmed_stripMarkers (opts : Options) (t : Text) : Trimmed (stripMarkers opts t) := by
  obtain ⟨front, back, -, -, -, -, htrimmed⟩ := exists_trim (joinWith [newline] (unmarkedLines opts.withDefaults t))
  exact htrimmed

/-- A text that starts with a marked line gets shorter. -/
lemma length_stripMarkers_lt (h : isMarked opts.withDefaults (firstLine t) = true) :
    (stripMarkers opts t).length < t.length := by
  have hkept : unmarkedLines opts.withDefaults t =
      (splitBy newline t).tail.filter fun line => !isMarked opts.withDefaults line := by
    rw [unmarkedLines, splitBy_eq_cons t, List.filter_cons_of_neg (by simp [h]), List.tail_cons]
  have hfirst : firstLine t ≠ [] := by
    intro hempty
    rw [hempty, isMarked_nil] at h
    cases h
  have htrim := length_trim_le (joinWith [newline] (unmarkedLines opts.withDefaults t))
  have hfilter := length_joinWith_filter_le newline
    (fun line => !isMarked opts.withDefaults line) (splitBy newline t).tail
  have hcons := length_joinWith_cons newline (firstLine t) (splitBy newline t).tail
  rw [← splitBy_eq_cons, joinWith_splitBy] at hcons
  have hpositive := List.length_pos_iff.mpr hfirst
  rw [← hkept] at hfilter
  rw [stripMarkers_eq]
  omega

/-- Taking the markers off twice is the same as once, unless a marker comes to stand at the very start: that is a
marker that stood behind white space, on a line that was kept. It is the same if the text is a piece in between. -/
theorem stripMarkers_stripMarkers_iff (opts : Options) (content : Text) :
    (stripMarkers opts (stripMarkers opts content) = stripMarkers opts content ↔
      isMarked opts.withDefaults (firstLine (stripMarkers opts content)) = false) ∧
    (∀ line ∈ (splitBy newline (stripMarkers opts content)).tail, isMarked opts.withDefaults line = false) ∧
    (isMarked opts.withDefaults (firstLine (stripMarkers opts content)) = true →
      ∃ line ∈ splitBy newline content, isMarked opts.withDefaults line = false ∧
        ∃ space rest, line = space ++ rest ∧ Blank space ∧ isMarked opts.withDefaults rest = true) ∧
    ∀ p : Piece, (p.importText = [] ∨ Marked opts.withDefaults p.importText) →
      (p.exportText = [] ∨ Marked opts.withDefaults p.exportText) →
      stripMarkers opts (p.wrap (stripMarkers opts content)) = stripMarkers opts (stripMarkers opts content) := by
  refine ⟨?_, fun line hline => isMarked_of_mem_tail hline, exists_indented,
    fun p hi he => stripMarkers_wrap_eq opts p _ hi he⟩
  constructor
  · intro h
    by_contra hm
    have hlt : (stripMarkers opts (stripMarkers opts content)).length < (stripMarkers opts content).length :=
      length_stripMarkers_lt (by simpa using hm)
    rw [h] at hlt
    exact lt_irrefl _ hlt
  · intro h
    refine stripMarkers_eq_self (fun line hline => ?_) (trimmed_stripMarkers opts content)
    rw [splitBy_eq_cons] at hline
    rcases List.mem_cons.mp hline with rfl | hline
    · exact h
    · exact isMarked_of_mem_tail hline

end

/-- A piece in which someone has indented a marker. -/
def indentedText : Text := "  /*@piece-import*/ x\ninterface A {}"

def indentedPiece : Piece :=
  { path := "p/x/interfaces/A.d.ts", importText := "/*@piece-import*/ import { B } from '../index';"
    role := .declared "A" .interface .interfaces [⟨"B", "B", "t/x.ts"⟩] false }

theorem stripMarkers_indented_piece :
    Marked ({} : Options).withDefaults indentedPiece.importText ∧
      stripMarkers {} (indentedPiece.wrap (stripMarkers {} indentedText)) =
        stripMarkers {} (stripMarkers {} indentedText) ∧
      isMarked ({} : Options).withDefaults (firstLine (stripMarkers {} indentedText)) = true ∧
      ∃ line ∈ splitBy newline indentedText, isMarked ({} : Options).withDefaults line = false ∧
        ∃ space rest, line = space ++ rest ∧ Blank space ∧ isMarked ({} : Options).withDefaults rest = true := by
  have himport : ∀ line ∈ splitBy newline indentedPiece.importText,
      isMarked ({} : Options).withDefaults line = true := by decide +kernel
  have hfirst : isMarked ({} : Options).withDefaults (firstLine (stripMarkers {} indentedText)) = true := by
    decide +kernel
  obtain ⟨-, -, hindented, hwrap⟩ := stripMarkers_stripMarkers_iff {} indentedText
  exact ⟨himport, hwrap indentedPiece (.inr himport) (.inl rfl), hfirst, hindented hfirst⟩

/-- White space in front of a marker hides it only once. -/
theorem stripMarkers_not_idempotent :
    stripMarkers {} indentedText = "/*@piece-import*/ x\ninterface A {}" ∧
      stripMarkers {} (stripMarkers {} indentedText) = "interface A {}" ∧
      ¬ ∀ opts content, stripMarkers opts (stripMarkers opts content) = stripMarkers opts content := by
  have hone : stripMarkers {} indentedText = "/*@piece-import*/ x\ninterface A {}" := by decide +kernel
  have htwo : stripMarkers {} (stripMarkers {} indentedText) = "interface A {}" := by decide +kernel
  refine ⟨hone, htwo, fun h => ?_⟩
  have hsame := h {} indentedText
  rw [htwo, hone] at hsame
  exact absurd hsame (by decide)

end DeclPieces
