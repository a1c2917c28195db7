import DeclPieces.Proofs.Outline

/-! Which documentation blocks belong to a statement. Of those directly before it, only the first can be left to the
statement before, whose last line it may share. -/
namespace DeclPieces.Syntax

/-- Does a line end between the tree `previous` and the block? -/
def OffLine (text : Text) (previous : Tree) (c : Comment) : Prop :=
  Text.newline ∈ between text previous.stop c.start.toNat

instance (text : Text) (previous : Tree) : DecidablePred (OffLine text previous) :=
  fun _ => inferInstanceAs (Decidable (_ ∈ _))

section Blocks
variable {around : Surroundings} {path text : Text} {before front comments after : List Tree} {previous t : Tree}

/-- With nothing but comments before it, a statement has all their blocks. -/
lemma leadingDocs_of_comments (text : Text) (h : ∀ u ∈ before, u.label = .comment) :
    leadingDocs text before.reverse = before.filterMap docOf? := by
  have hall : ∀ u ∈ before.reverse, decide (u.label = .comment) = true := by simpa using h
  have htake : before.reverse.takeWhile (·.label = .comment) = before.reverse := List.takeWhile_eq_self_iff.mpr hall
  have hdrop : before.reverse.dropWhile (·.label = .comment) = [] := List.dropWhile_eq_nil_iff.mpr hall
  unfold leadingDocs
  rw [htake, hdrop, List.filterMap_reverse, List.reverse_reverse]

/-- Whether a block shares the last line of the statement before is asked of the first block only. -/
lemma leadingDocs_after (text : Text) (hprevious : previous.label ≠ .comment) (h : ∀ u ∈ comments, u.label = .comment) :
    leadingDocs text (front ++ previous :: comments).reverse =
      ((comments.filterMap docOf?).take 1).filter (OffLine text previous ·) ++ (comments.filterMap docOf?).drop 1 := by
  have hall : ∀ u ∈ comments.reverse, decide (u.label = .comment) = true := by simpa using h
  have hreverse : (front ++ previous :: comments).reverse = comments.reverse ++ previous :: front.reverse := by simp
  have htake : (front ++ previous :: comments).reverse.takeWhile (·.label = .comment) = comments.reverse := by
    rw [hreverse, List.takeWhile_append_of_pos hall, List.takeWhile_cons_of_neg (by simpa using hprevious),
      List.append_nil]
  have hdrop : (front ++ previous :: comments).reverse.dropWhile (·.label = .comment) = previous :: front.reverse := by
    rw [hreverse, List.dropWhile_append_of_pos hall, List.dropWhile_cons_of_neg (by simpa using hprevious)]
  unfold leadingDocs
  rw [htake, hdrop, List.filterMap_reverse, List.reverse_reverse]
  cases comments.filterMap docOf? with
  | nil => rfl
  | cons first rest => by_cases hline : OffLine text previous first <;> simp_all [OffLine]

/-- Taking all blocks off the line out of a list is taking the first off, if it alone may be on the line. -/
lemma filter_head_append_tail_iff {α : Type} (p : α → Bool) (l : List α) :
    (l.take 1).filter p ++ l.drop 1 = l.filter p ↔ ∀ a ∈ l.drop 1, p a = true := by
  have hfilter : l.filter p = (l.take 1).filter p ++ (l.drop 1).filter p := by
    rw [← List.filter_append, List.take_append_drop]
  rw [hfilter, List.append_cancel_left_eq, eq_comm, List.filter_eq_self]

/-- A statement of a file has its documentation in source order: all blocks before it where only comments stand before
it, and otherwise those between the statement before and itself, the first of them only if a line ends in between. Those
are just the blocks after the end of that line if no other block begins on it. -/
theorem docs_off_line_iff (around : Surroundings) (path text : Text) (before : List Tree) (t : Tree)
    (after : List Tree) :
    ∃ s, (outline around path text (before ++ t :: after)).statements[before.length]? = some s ∧ s.start = t.start ∧
      (Ordered text (before ++ t :: after) → s.docs.Pairwise fun c d => c.stop ≤ d.start) ∧
      ((∀ u ∈ before, u.label = .comment) → s.docs = before.filterMap docOf?) ∧
      ∀ front previous comments, before = front ++ previous :: comments → previous.label ≠ .comment →
        (∀ u ∈ comments, u.label = .comment) →
        s.docs = ((comments.filterMap docOf?).take 1).filter (OffLine text previous ·) ++
          (comments.filterMap docOf?).drop 1 ∧
        (s.docs = (comments.filterMap docOf?).filter (OffLine text previous ·) ↔
          ∀ c ∈ (comments.filterMap docOf?).drop 1, OffLine text previous c) := by
  obtain ⟨statementOf, hstatements, hof⟩ := exists_statementOf around path text (before ++ t :: after)
  obtain ⟨-, hstart, -, hdocs⟩ := hof before.reverse t
  refine ⟨statementOf (before.reverse, t), ?_, hstart, fun h => ?_, fun hall => ?_, ?_⟩
  · rw [hstatements, List.getElem?_map, getElem?_withBefore]
    simp
  · -- the blocks of a statement are some of those of the file, which are sorted
    rw [hdocs]
    have hblocks : (leadingDocs text before.reverse).Sublist (before.filterMap docOf?) := by
      refine (leadingDocs_suffix text before.reverse).sublist.trans ?_
      rw [← List.filterMap_reverse]
      have hcomments :=
        (List.takeWhile_sublist (p := fun u : Tree => decide (u.label = .comment)) (l := before.reverse)).reverse
      rw [List.reverse_reverse] at hcomments
      exact hcomments.filterMap docOf?
    refine h.docs_apart.sublist (hblocks.trans ?_)
    exact (List.sublist_append_left before (t :: after)).filterMap docOf?
  · rw [hdocs, leadingDocs_of_comments text hall]
  · rintro front previous comments rfl hprevious hcomments
    rw [hdocs, leadingDocs_after text hprevious hcomments]
    refine ⟨rfl, ?_⟩
    simpa using filter_head_append_tail_iff (fun c => decide (OffLine text previous c)) (comments.filterMap docOf?)

/-- Comments of both kinds between two statements, on the line of the first, across its end and after it. -/
def spacedText : Text := "type A=1; /* a */ /** b\n*/ // c\n/** d */ type B=2;\n"

theorem spaced_docs_off_line :
    Ordered spacedText (parse spacedText) ∧
    ∃ first last comments s, parse spacedText = first :: comments ++ [last] ∧
      first.label ≠ .comment ∧ (∀ u ∈ comments, u.label = .comment) ∧
      comments.filterMap docOf? = [⟨18, 26, "/** b\n*/"⟩, ⟨32, 40, "/** d */"⟩] ∧
      (outline {} "t/x.d.ts" spacedText (parse spacedText)).statements[5]? = some s ∧
      s.docs = (comments.filterMap docOf?).filter (OffLine spacedText first ·) ∧
      s.docs.Pairwise fun c d => c.stop ≤ d.start := by
  have hfacts : ((∀ t ∈ parse spacedText, t.start < t.stop ∧ t.stop ≤ spacedText.length) ∧
        (parse spacedText).Pairwise fun t u => t.stop ≤ u.start) ∧
      (parse spacedText).length = 6 ∧
      (parse spacedText).map (·.label) =
        [.typeAliasDeclaration, .comment, .comment, .comment, .comment, .typeAliasDeclaration] ∧
      (parse spacedText).map (·.stop) = [9, 17, 26, 31, 40, 50] ∧
      (((parse spacedText).drop 1).take 4).filterMap docOf? = [⟨18, 26, "/** b\n*/"⟩, ⟨32, 40, "/** d */"⟩] ∧
      Text.newline ∈ between spacedText 9 32 := by
    decide +kernel
  generalize parse spacedText = trees at *
  obtain ⟨⟨hrange, hapart⟩, hlength, hlabels, hstop, hblocks, hline⟩ := hfacts
  have hordered : Ordered spacedText trees := ⟨hrange, hapart⟩
  match trees, hlength with
  | [first, c₁, c₂, c₃, c₄, last], _ =>
    simp only [List.map_cons, List.map_nil, List.cons.injEq, and_true] at hlabels hstop
    obtain ⟨hfirst, h₁, h₂, h₃, h₄, -⟩ := hlabels
    have hcomments : ∀ u ∈ [c₁, c₂, c₃, c₄], u.label = .comment := by simp [h₁, h₂, h₃, h₄]
    obtain ⟨s, hs, -, hsorted, -, hdocs⟩ :=
      docs_off_line_iff {} "t/x.d.ts" spacedText [first, c₁, c₂, c₃, c₄] last []
    obtain ⟨-, hiff⟩ := hdocs [] first [c₁, c₂, c₃, c₄] rfl (by simp [hfirst]) hcomments
    refine ⟨hordered, first, last, [c₁, c₂, c₃, c₄], s, rfl, by simp [hfirst], hcomments, hblocks, hs, hiff.mpr ?_,
      hsorted hordered⟩
    have hsecond : ([c₁, c₂, c₃, c₄].filterMap docOf?).drop 1 = [⟨32, 40, "/** d */"⟩] := congrArg (List.drop 1) hblocks
    rw [hsecond]
    intro c hc
    obtain rfl := List.mem_singleton.mp hc
    rw [OffLine, hstop.1]
    exact hline

/-- Two blocks on the line on which the statement before them ends. -/
def sharedLineText : Text := "type A=1; /** a */ /** b */\ntype B=2;\n"

/-- The second block is taken, although no line ends before it. -/
theorem second_block_on_line_kept :
    ((parse sharedLineText).map fun t => (t.label, t.start, t.stop)) =
      [(.typeAliasDeclaration, 0, 9), (.comment, 10, 18), (.comment, 19, 27), (.typeAliasDeclaration, 28, 37)] ∧
    (outline {} "t/x.d.ts" sharedLineText (parse sharedLineText)).statements.map (·.docs) =
      [[], [], [], [⟨19, 27, "/** b */"⟩]] ∧
    Text.newline ∉ between sharedLineText 9 19 := by
  decide +kernel

end Blocks

end DeclPieces.Syntax
