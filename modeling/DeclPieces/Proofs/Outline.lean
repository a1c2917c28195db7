import DeclPieces.Proofs.Layout
import DeclPieces.Syntax.Outline

/-! A file that is read from its trees is laid out: whatever comments, documentation blocks and statements
follow one another, its pieces can be folded back. -/
namespace DeclPieces.Syntax
open SourceFile

/-- The trees have ranges in the text that are not empty, in source order and without overlap. -/
structure Ordered (text : Text) (trees : List Tree) : Prop where
  range : ∀ t ∈ trees, t.start < t.stop ∧ t.stop ≤ text.length
  apart : trees.Pairwise fun t u => t.stop ≤ u.start

instance (text : Text) (trees : List Tree) : Decidable (Ordered text trees) :=
  decidable_of_iff ((∀ t ∈ trees, t.start < t.stop ∧ t.stop ≤ text.length) ∧ trees.Pairwise fun t u => t.stop ≤ u.start)
    ⟨fun h => ⟨h.1, h.2⟩, fun h => ⟨h.range, h.apart⟩⟩

section Trees
variable {text : Text} {trees before after : List Tree} {t : Tree}

lemma docOf?_eq_some {c : Comment} (h : docOf? t = some c) :
    t.label = .comment ∧ c.start = t.start ∧ c.stop = t.stop := by
  unfold docOf? at h
  split at h
  · next hc =>
    simp only [Bool.and_eq_true, decide_eq_true_eq] at hc
    cases h
    exact ⟨hc.1.1, rfl, rfl⟩
  · cases h

lemma kind_of_comment (h : t.label = .comment) : (classify t).kind = .comment := by
  have hu : unwrap t = ⟨t, .comment, false⟩ := by
    rw [unwrap]
    simp [h, kindOfLabel]
  simp [classify, hu]

lemma label_of_kind (h : (classify t).kind ≠ .comment) : t.label ≠ .comment := fun hc => h (kind_of_comment hc)

lemma Ordered.docs_apart (h : Ordered text trees) :
    (trees.filterMap docOf?).Pairwise fun c d => c.stop ≤ d.start := by
  refine h.apart.filterMap _ fun t u htu c hc d hd => ?_
  obtain ⟨-, -, hstop⟩ := docOf?_eq_some hc
  obtain ⟨-, hstart, -⟩ := docOf?_eq_some hd
  omega

lemma Ordered.doc_range (h : Ordered text trees) {c : Comment} (hc : c ∈ trees.filterMap docOf?) :
    0 ≤ c.start ∧ c.start < c.stop ∧ c.stop ≤ text.length := by
  obtain ⟨t, ht, hd⟩ := List.mem_filterMap.mp hc
  obtain ⟨-, hstart, hstop⟩ := docOf?_eq_some hd
  have hr := h.range t ht
  omega

/-- The documentation of a statement is a last part of the blocks among the comments before it. -/
lemma leadingDocs_suffix (text : Text) (before : List Tree) :
    leadingDocs text before <:+ ((before.takeWhile (·.label = .comment)).filterMap docOf?).reverse := by
  unfold leadingDocs
  simp only
  split
  · next first rest _ heq =>
    rw [heq]
    split
    · exact List.suffix_refl _
    · exact List.suffix_cons _ _
  · exact List.suffix_refl _

/-- A sorted list of blocks split in three has its middle part as a final run, if the last part comes after
`high` and the middle one lies between `low` and `high`. -/
lemma finalRun_of_append {front run back : List Comment} {low high : Int}
    (hsorted : (front ++ run ++ back).Pairwise fun c d => c.stop ≤ d.start)
    (hrange : ∀ c ∈ front ++ run ++ back, c.start < c.stop)
    (hrun : ∀ c ∈ run, low ≤ c.start ∧ c.stop ≤ high) (hback : ∀ c ∈ back, high ≤ c.start) :
    FinalRun (front ++ run ++ back) low high run := by
  have hfront : ∀ c ∈ front, ∀ d ∈ run, c.stop ≤ d.start := by
    intro c hc d hd
    exact (List.pairwise_append.mp (List.pairwise_append.mp hsorted).1).2.2 c hc d hd
  have hmiddle : run.Pairwise fun c d => c.stop ≤ d.start :=
    (List.pairwise_append.mp (List.pairwise_append.mp hsorted).1).2.1
  refine ⟨hmiddle.imp_of_mem fun hc _ hcd => ?_, (run.head?.map (·.start)).getD high, fun c => ⟨fun hc => ?_, ?_⟩⟩
  · exact Int.lt_of_lt_of_le (hrange _ (by simp [hc])) hcd
  · refine ⟨by simp [hc], (hrun c hc).1, (hrun c hc).2, ?_⟩
    cases run with
    | nil => simp at hc
    | cons d rest =>
      rcases List.mem_cons.mp hc with rfl | hrest
      · exact Int.le_refl _
      · have hd := (List.pairwise_cons.mp hmiddle).1 c hrest
        have hlt := hrange d (by simp)
        simp only [List.head?_cons, Option.map_some, Option.getD_some]
        omega
  · rintro ⟨hc, hlow, hhigh, hcut⟩
    have hlt := hrange c hc
    rcases List.mem_append.mp hc with hleft | hright
    · rcases List.mem_append.mp hleft with hfirst | hmem
      · exfalso
        cases run with
        | nil =>
          simp only [List.head?_nil, Option.map_none, Option.getD_none] at hcut
          omega
        | cons d rest =>
          have hd := hfront c hfirst d (by simp)
          simp only [List.head?_cons, Option.map_some, Option.getD_some] at hcut
          omega
      · exact hmem
    · have hb := hback c hright
      omega

/-- The documentation of a statement is a final run of the blocks between the trees before it that are no
comments and itself. -/
lemma Ordered.finalRun (h : Ordered text trees) (hs : trees = before ++ t :: after) (ht : t.label ≠ .comment)
    {low : Int} (hlow : ∀ u ∈ before, (∀ v ∈ before, v.label ≠ .comment → v.stop ≤ u.start) → low ≤ u.start) :
    FinalRun (trees.filterMap docOf?) low t.start (leadingDocs text before.reverse) := by
  let comments := before.reverse.takeWhile (·.label = .comment)
  let others := before.reverse.dropWhile (·.label = .comment)
  have hbefore : before = others.reverse ++ comments.reverse := by
    rw [← List.reverse_append, List.takeWhile_append_dropWhile, List.reverse_reverse]
  have hcomments : ∀ u ∈ comments, u.label = .comment := fun u hu => by
    simpa using List.mem_takeWhile_imp hu
  obtain ⟨dropped, hrun⟩ := leadingDocs_suffix text before.reverse
  have hdocs : trees.filterMap docOf? = (others.reverse.filterMap docOf? ++ dropped) ++
      leadingDocs text before.reverse ++ after.filterMap docOf? := by
    have hnone : docOf? t = none := by
      cases hd : docOf? t with
      | none => rfl
      | some c => exact absurd (docOf?_eq_some hd).1 ht
    have hcomm : comments.reverse.filterMap docOf? = dropped ++ leadingDocs text before.reverse := by
      rw [List.filterMap_reverse]
      exact hrun.symm
    rw [hs, List.filterMap_append, List.filterMap_cons_none hnone]
    conv_lhs => rw [hbefore]
    rw [List.filterMap_append, hcomm]
    simp only [List.append_assoc]
  have hapart := h.apart
  rw [hs, List.pairwise_append, List.pairwise_cons] at hapart
  obtain ⟨hpre, ⟨hnext, -⟩, hcross⟩ := hapart
  have hsorted := h.docs_apart
  have hrange : ∀ c ∈ trees.filterMap docOf?, c.start < c.stop := fun c hc => (h.doc_range hc).2.1
  rw [hdocs] at hsorted hrange ⊢
  refine finalRun_of_append hsorted hrange ?_ ?_
  · intro c hc
    have hmem : c ∈ comments.reverse.filterMap docOf? := by
      rw [List.filterMap_reverse]
      exact hrun ▸ List.mem_append_right _ hc
    obtain ⟨u, hu, hd⟩ := List.mem_filterMap.mp hmem
    obtain ⟨-, hstart, hstop⟩ := docOf?_eq_some hd
    have hub : u ∈ before := by
      rw [hbefore]
      exact List.mem_append_right _ hu
    have hu' := hcross u hub t (by simp)
    refine ⟨?_, by omega⟩
    rw [hstart]
    refine hlow u hub fun v hv hlabel => ?_
    -- a tree that is no comment comes before all the comments directly before the statement
    rw [hbefore, List.mem_append] at hv
    rcases hv with hv | hv
    · rw [hbefore, List.pairwise_append] at hpre
      exact hpre.2.2 v hv u hu
    · exact absurd (hcomments v (List.mem_reverse.mp hv)) hlabel
  · intro c hc
    obtain ⟨u, hu, hd⟩ := List.mem_filterMap.mp hc
    obtain ⟨-, hstart, -⟩ := docOf?_eq_some hd
    have hu' := hnext u hu
    have ht' := h.range t (by simp [hs])
    omega

end Trees

section Statements
variable {around : Surroundings} {path text : Text} {trees : List Tree}

lemma withBefore_append {α : Type} (done xs : List α) (y : α) (ys : List α) :
    withBefore done (xs ++ y :: ys) =
      withBefore done xs ++ (xs.reverse ++ done, y) :: withBefore (y :: (xs.reverse ++ done)) ys := by
  induction xs generalizing done with
  | nil => rfl
  | cons x rest ih => simp [withBefore, ih]

@[simp] lemma map_snd_withBefore {α : Type} (done xs : List α) : (withBefore done xs).map (·.2) = xs := by
  induction xs generalizing done with
  | nil => rfl
  | cons x rest ih => simp [withBefore, ih]

lemma getElem?_withBefore {α : Type} (done xs : List α) (i : Nat) :
    (withBefore done xs)[i]? = (xs[i]?).map fun x => ((xs.take i).reverse ++ done, x) := by
  induction xs generalizing done i with
  | nil => rfl
  | cons x rest ih =>
    cases i with
    | zero => rfl
    | succ i => simp [withBefore, ih]

/-- Each member is listed with those before it. -/
lemma withBefore_split {α : Type} {xs : List α} {front : List (List α × α)} {done : List α} {y : α}
    {back : List (List α × α)} (h : withBefore [] xs = front ++ (done, y) :: back) :
    xs = front.map (·.2) ++ y :: back.map (·.2) ∧ done = (front.map (·.2)).reverse := by
  have hxs : xs = front.map (·.2) ++ y :: back.map (·.2) := by
    rw [← map_snd_withBefore [] xs, h]
    simp
  have hw := withBefore_append [] (front.map (·.2)) y (back.map (·.2))
  rw [← hxs, h, List.append_nil] at hw
  have hlen : front.length = (withBefore [] (front.map (·.2))).length := by
    have hmap := congrArg List.length (map_snd_withBefore [] (front.map (·.2)))
    rw [List.length_map, List.length_map] at hmap
    exact hmap.symm
  have hhead := (List.append_inj hw hlen).2
  exact ⟨hxs, (Prod.mk.inj (List.cons.inj hhead).1).1⟩

/-- How a tree becomes a statement, as far as its place is concerned. -/
lemma exists_statementOf (around : Surroundings) (path text : Text) (trees : List Tree) :
    ∃ statementOf : List Tree × Tree → Statement,
      (outline around path text trees).statements = (withBefore [] trees).map statementOf ∧
      ∀ before t, (statementOf (before, t)).kind = (classify t).kind ∧ (statementOf (before, t)).start = t.start ∧
        (statementOf (before, t)).stop = t.stop ∧ (statementOf (before, t)).docs = leadingDocs text before := by
  let top := topSymbols around.globals (symbolsOf path ((trees.map classify).flatMap (·.names)))
  let modules := symbolsOf path ((trees.map classify).filterMap (·.stringModule?))
  let draft (before : List Tree) (t : Tree) : Draft :=
    draftOf path (top.map (·.name)) modules (leadingDocs text before) (classify t)
  let inner := (((withBefore [] trees).map fun w => draft w.1 w.2).flatMap (·.inner)).eraseDups
  refine ⟨fun w => (draft w.1 w.2).statement top inner, ?_, fun before t => ?_⟩
  · simp only [outline, List.map_map]
    rfl
  · have hdraft : (draft before t).classified = classify t ∧ (draft before t).docs = leadingDocs text before := by
      simp only [draft, draftOf]
      split <;> exact ⟨rfl, rfl⟩
    simp only [Draft.statement, hdraft.1, hdraft.2, classify, and_self]

lemma exists_tree_of_mem_nodes {s : Statement} (hs : s ∈ (outline around path text trees).nodes) :
    ∃ t ∈ trees, t.label ≠ .comment ∧ s.start = t.start ∧ s.stop = t.stop := by
  obtain ⟨statementOf, hstatements, hof⟩ := exists_statementOf around path text trees
  obtain ⟨hmem, hkind⟩ := List.mem_filter.mp hs
  rw [hstatements] at hmem
  obtain ⟨⟨before, t⟩, hw, rfl⟩ := List.mem_map.mp hmem
  obtain ⟨hk, hstart, hstop, -⟩ := hof before t
  have ht : t ∈ trees := by
    rw [← map_snd_withBefore [] trees]
    exact List.mem_map.mpr ⟨_, hw, rfl⟩
  exact ⟨t, ht, label_of_kind (by simpa [hk] using hkind), hstart, hstop⟩

lemma outline_nodes_apart (around : Surroundings) (path : Text) (h : Ordered text trees) :
    (outline around path text trees).nodes.Pairwise fun s t => s.stop ≤ t.start := by
  obtain ⟨statementOf, hstatements, hof⟩ := exists_statementOf around path text trees
  unfold nodes
  rw [hstatements]
  refine List.Pairwise.filter _ (List.pairwise_map.mpr ?_)
  have hw : ((withBefore [] trees).map (·.2)).Pairwise fun t u => t.stop ≤ u.start := by
    rw [map_snd_withBefore]
    exact h.apart
  refine (List.pairwise_map.mp hw).imp fun {a b} hab => ?_
  obtain ⟨before, t⟩ := a
  obtain ⟨before', u⟩ := b
  obtain ⟨-, -, hstop, -⟩ := hof before t
  obtain ⟨-, hstart, -, -⟩ := hof before' u
  rw [hstop, hstart]
  exact Int.ofNat_le.mpr hab

lemma outline_docs_nodes_apart (around : Surroundings) (path : Text) (h : Ordered text trees) :
    ∀ c ∈ (outline around path text trees).docs, ∀ s ∈ (outline around path text trees).nodes,
      c.stop ≤ s.start ∨ s.stop ≤ c.start := by
  intro c hc s hs
  obtain ⟨u, hu, hd⟩ := List.mem_filterMap.mp hc
  obtain ⟨hlabel, hcstart, hcstop⟩ := docOf?_eq_some hd
  obtain ⟨t, ht, htlabel, hstart, hstop⟩ := exists_tree_of_mem_nodes hs
  have hne : u ≠ t := by
    rintro rfl
    exact htlabel hlabel
  have hsymm : Std.Symm fun t u : Tree => t.stop ≤ u.start ∨ u.stop ≤ t.start := ⟨fun _ _ h => h.symm⟩
  have happart : trees.Pairwise fun t u => t.stop ≤ u.start ∨ u.stop ≤ t.start := h.apart.imp .inl
  have hut := happart.forall hu ht hne
  omega

lemma outline_docs_run (around : Surroundings) (path : Text) (h : Ordered text trees) {before after : List Statement}
    {s : Statement} (hs : (outline around path text trees).nodes = before ++ s :: after) :
    FinalRun (outline around path text trees).docs (lastStop before) s.start s.docs := by
  obtain ⟨statementOf, hstatements, hof⟩ := exists_statementOf around path text trees
  unfold nodes at hs
  rw [hstatements] at hs
  -- back from the statements to the trees: what the filter drops around `s`, then what `s` was made of
  obtain ⟨front, back, hsplit, hfront, hback⟩ := List.filter_eq_append_iff.mp hs
  obtain ⟨skipped, rest, rfl, hskipped, hkind, -⟩ := List.filter_eq_cons_iff.mp hback
  rw [← List.append_assoc] at hsplit
  obtain ⟨trees₁, trees₂, htrees, hmap₁, hmap₂⟩ := List.map_eq_append_iff.mp hsplit
  obtain ⟨⟨done, t⟩, trees₃, rfl, rfl, -⟩ := List.map_eq_cons_iff.mp hmap₂
  obtain ⟨hk, hstart, -, hdocs⟩ := hof done t
  obtain ⟨hsource, rfl⟩ := withBefore_split htrees
  rw [hstart, hdocs]
  refine h.finalRun hsource (label_of_kind (by simpa [hk] using hkind)) fun u hu hafter => ?_
  unfold lastStop
  cases hl : before.getLast? with
  | none => exact Int.natCast_nonneg _
  | some last =>
    have hmem : last ∈ before := List.mem_of_getLast? hl
    rw [← hfront, List.mem_filter] at hmem
    obtain ⟨⟨done', v⟩, hv, rfl⟩ : ∃ w ∈ trees₁, statementOf w = last := by
      rw [← List.mem_map, hmap₁]
      exact List.mem_append_left _ hmem.1
    obtain ⟨hk', -, hstop, -⟩ := hof done' v
    have hvstop := hafter v (List.mem_map.mpr ⟨_, hv, rfl⟩) (label_of_kind (by simpa [hk'] using hmem.2))
    simp only [Option.map_some, Option.getD_some, hstop]
    exact Int.ofNat_le.mpr hvstop

/-- A file read from ordered trees is laid out. -/
theorem outline_laid (around : Surroundings) (path : Text) (h : Ordered text trees) :
    (outline around path text trees).Laid where
  node_range s hs := by
    obtain ⟨t, ht, -, hstart, hstop⟩ := exists_tree_of_mem_nodes hs
    have hr := h.range t ht
    simp only [outline]
    omega
  doc_range _ hc := h.doc_range hc
  nodes_apart := outline_nodes_apart around path h
  docs_apart := h.docs_apart.imp fun hcd => .inl hcd
  docs_nodes_apart := outline_docs_nodes_apart around path h
  docs_run _ _ _ hs := outline_docs_run around path h hs

end Statements

end DeclPieces.Syntax

namespace DeclPieces
open Syntax

namespace SourceFile

/-- The imports of a file matter to its pieces only by the lines that they make in the index. -/
lemma decompose_withImports (f : SourceFile) {imports : List Import} (opts : Options)
    (h : List.Forall₂ (fun im im' => ∀ dir, f.importLines dir im = f.importLines dir im') imports f.imports) :
    ({ f with imports := imports } : SourceFile).decompose opts = f.decompose opts := by
  obtain ⟨hempty, hmap⟩ : imports.isEmpty = f.imports.isEmpty ∧
      ∀ dir, imports.mapM (f.importLines dir) = f.imports.mapM (f.importLines dir) := by
    generalize f.imports = others at h ⊢
    induction h with
    | nil => exact ⟨rfl, fun _ => rfl⟩
    | cons hhead _ ih => exact ⟨rfl, fun dir => by rw [List.mapM_cons, List.mapM_cons, hhead dir, ih.2 dir]⟩
  have hindex (dir : Path) (content : List Piece) :
      ({ f with imports := imports } : SourceFile).indexContent dir content = f.indexContent dir content := by
    have hlines : ({ f with imports := imports } : SourceFile).importLines dir = f.importLines dir := rfl
    simp only [indexContent, hlines, hmap dir, hempty]
  have hopening (o : Options) (dir : Path) :
      ({ f with imports := imports } : SourceFile).openingPieces o dir = f.openingPieces o dir := rfl
  have hshare (o : Options) (dir : Path) (s : Statement) (a : Allocator) :
      ({ f with imports := imports } : SourceFile).share o dir a s = f.share o dir a s := rfl
  have hshares (o : Options) (dir : Path) (a : Allocator) :
      ({ f with imports := imports } : SourceFile).shares o dir a f.statements = f.shares o dir a f.statements :=
    shares_congr (List.forall₂_same.mpr fun s _ => hshare o dir s) a
  simp only [decompose, hshares, hindex, hopening]

/-- Which other files there are does not matter to the pieces of a text. -/
theorem decompose_outline_isFile (isFile : Path → Bool) (globals : List Symbol) (path text : Text)
    (trees : List Tree) (opts : Options) :
    (outline { isFile := isFile, globals := globals } path text trees).decompose opts =
      (outline { globals := globals } path text trees).decompose opts := by
  have himport (dir : Path) (t : Tree) :
      (outline { globals := globals } path text trees).importLines dir
          (importOf { isFile := isFile, globals := globals } path text t) =
        (outline { globals := globals } path text trees).importLines dir
          (importOf { globals := globals } path text t) := by
    unfold importOf
    cases sourceOf? t with
    | none => rfl
    | some s =>
      simp only
      split <;> rfl
  refine decompose_withImports (outline { globals := globals } path text trees) opts ?_
  refine List.forall₂_map_left_iff.mpr (List.forall₂_map_right_iff.mpr ?_)
  exact List.forall₂_same.mpr fun t _ dir => himport dir t

end SourceFile

namespace Decomposition

/-- Does the block share bytes with the piece? -/
def Touches (c : Comment) (p : Piece) : Prop := c.start < p.stop ∧ p.start < c.stop

/-- A file read from ordered trees comes apart into pieces that lie in the text, are not empty, do not
overlap and come from the end of the text to its start. Each documentation block lies in at most one of
them, and in that one as a whole. So a merge into the text fails only if a file refuses to be read. -/
theorem outline_pieces_mergeable {around : Surroundings} {path text : Text} {trees : List Tree} {opts : Options}
    {d : Decomposition} (h : Ordered text trees) (hd : (outline around path text trees).decompose opts = .ok d) :
    (∀ p ∈ d.content, 0 ≤ p.start ∧ p.start < p.stop ∧ p.stop ≤ text.length) ∧
    (d.content.Pairwise fun p q => q.stop ≤ p.start ∧ q.start < p.start) ∧
    (∀ c ∈ (outline around path text trees).docs,
      (∀ p ∈ d.content, Touches c p → p.start ≤ c.start ∧ c.stop ≤ p.stop) ∧
      d.content.Pairwise fun p q => ¬ (Touches c p ∧ Touches c q)) ∧
    (∀ o read fault, d.merge o read text = .error fault →
      ∃ p ∈ d.content, ∃ cause, read p.path = .failed cause ∧ fault = Merged.readFault p cause) ∧
    (∀ o read p, d.merge o read text ≠ .error (Merged.rangeFault p)) := by
  have hlaid := outline_laid around path h
  have hm : d.Mergeable text.length := mergeable_of_laid hlaid hd
  have herror : ∀ o read fault, d.merge o read text = .error fault →
      ∃ p ∈ d.content, ∃ cause, read p.path = .failed cause ∧ fault = Merged.readFault p cause := by
    intro o read fault hf
    have hf := merge_error_of_descending hm.descending hf
    rwa [hm.cut_eq] at hf
  refine ⟨hm.range, ?_, fun c hc => ⟨?_, ?_⟩, herror, ?_⟩
  · refine hm.apart.imp_of_mem fun {p q} _ hq hpq => ?_
    have hr := hm.range q hq
    omega
  · intro p hp ht
    have hin := doc_inside_or_apart hlaid hd hp hc
    unfold Touches at ht
    omega
  · refine hm.apart.imp_of_mem fun {p q} hp hq hpq => ?_
    rintro ⟨htp, htq⟩
    have hinp := doc_inside_or_apart hlaid hd hp hc
    have hinq := doc_inside_or_apart hlaid hd hq hc
    unfold Touches at htp htq
    omega
  · intro o read p hf
    obtain ⟨q, -, cause, -, he⟩ := herror o read _ hf
    cases he

/-- A package block, a documentation block, a plain comment and two declarations. -/
def documentedText : Text :=
  "/** @file */\n/** a */\ntype A=1\n// b\ntype B=A\n"

/-- The documented text as it is read. -/
def documentedFile : SourceFile := outline {} "t/x.d.ts" documentedText (parse documentedText)

theorem documented_pieces_mergeable : ∃ d, documentedFile.decompose { translatedRoot := "t", docTag := "@file" } = .ok d ∧
    d.content.length = 3 ∧ (d.content.Pairwise fun p q => q.stop ≤ p.start ∧ q.start < p.start) ∧
    ∀ o read p, d.merge o read documentedText ≠ .error (Merged.rangeFault p) := by
  have hfacts : Ordered documentedText (parse documentedText) ∧
      (documentedFile.decompose { translatedRoot := "t", docTag := "@file" }).map (·.content.length) = .ok 3 := by
    decide +kernel
  obtain ⟨hordered, hlength⟩ := hfacts
  cases hd : documentedFile.decompose { translatedRoot := "t", docTag := "@file" } with
  | error e => simp [hd, Except.map] at hlength
  | ok d =>
    obtain ⟨-, hpairwise, -, -, hrange⟩ := outline_pieces_mergeable hordered hd
    exact ⟨d, rfl, by simpa [hd, Except.map] using hlength, hpairwise, hrange⟩

end Decomposition

end DeclPieces
