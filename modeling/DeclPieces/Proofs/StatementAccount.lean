import DeclPieces.Proofs.Decomposability
import DeclPieces.Proofs.IndexExports

/-! What becomes of every statement of a file that is split, and in which orders its pieces are told. -/
namespace DeclPieces

/-- `sorted` has the pieces from the end of the file to its start, those of one start in the order found. -/
structure Piece.Descending (found sorted : List Piece) : Prop where
  perm : sorted.Perm found
  descends : sorted.Pairwise fun p q => q.start ≤ p.start
  stable : ∀ n : Int, sorted.filter (·.start = n) = found.filter (·.start = n)

namespace SourceFile
variable {f : SourceFile} {o : Options} {dir : Path} {a b : Allocator} {s : Statement}

/-- The piece that was cut for statement `s`. -/
structure Cut (f : SourceFile) (o : Options) (s : Statement) (category : Category) (id : SymbolId) (p : Piece) :
    Prop where
  start_eq : p.start = s.leadingStart (f.packageDoc o.docTag)
  stop_eq : p.stop = s.stop
  role_eq : p.role = .declared ((f.symbol? id).getD ⟨[], []⟩).name s.kind category
    (f.crossReferences o s p.start p.stop) (!f.exportable s id ((f.symbol? id).getD ⟨[], []⟩))

/-- What became of a statement. No two cases hold of one statement. -/
inductive Accounted (f : SourceFile) (o : Options) (s : Statement) : Share → Prop
  | silent (skipped : s.kind.skipped = true) : Accounted f o s .nothing
  | unfiled (seen : s.kind.skipped = false) (unfiled : s.kind.category? = none) :
    Accounted f o s (.skip ⟨s.kind, s.start, "no category"⟩)
  | nameless (seen : s.kind.skipped = false) {category : Category} (filed : s.kind.category? = some category)
      (nameless : s.mainSymbol? = none) : Accounted f o s (.skip ⟨s.kind, s.start, "no symbol"⟩)
  | made (seen : s.kind.skipped = false) {category : Category} (filed : s.kind.category? = some category)
      {id : SymbolId} (named : s.mainSymbol? = some id) {p : Piece} (cut : f.Cut o s category id p) :
    Accounted f o s (.piece p)

lemma cut_of_declarationPiece {category : Category} {id : SymbolId} {path : Path} {p : Piece}
    (h : f.declarationPiece o s category id ((f.symbol? id).getD ⟨[], []⟩) path = .ok p) : f.Cut o s category id p where
  start_eq := (declarationPiece_eq_ok h).1
  stop_eq := (declarationPiece_eq_ok h).2.1
  role_eq := declarationPiece_role h

lemma accounted_of_share {part : Share} (h : f.share o dir a s = .ok (part, b)) : f.Accounted o s part := by
  unfold share verdict at h
  cases hskipped : s.kind.skipped with
  | true =>
    simp only [hskipped, if_true] at h
    obtain ⟨rfl, -⟩ := Prod.mk.inj (Except.ok.inj h)
    exact .silent hskipped
  | false =>
    simp only [hskipped, Bool.false_eq_true, if_false] at h
    cases hcategory : s.kind.category? with
    | none =>
      simp only [hcategory] at h
      obtain ⟨rfl, -⟩ := Prod.mk.inj (Except.ok.inj h)
      exact .unfiled hskipped hcategory
    | some category =>
      cases hsymbol : s.mainSymbol? with
      | none =>
        simp only [hcategory, hsymbol] at h
        obtain ⟨rfl, -⟩ := Prod.mk.inj (Except.ok.inj h)
        exact .nameless hskipped hcategory hsymbol
      | some id =>
        simp only [hcategory, hsymbol] at h
        obtain ⟨⟨path, c⟩, -, h⟩ := bind_eq_ok_iff.mp h
        obtain ⟨p, hp, h⟩ := bind_eq_ok_iff.mp h
        obtain ⟨rfl, -⟩ := Prod.mk.inj (pure_eq_ok_iff.mp h)
        exact .made hskipped hcategory hsymbol (cut_of_declarationPiece hp)

/-- One part for each statement, in order. -/
lemma accounted_of_shares {statements : List Statement} {parts : List Share}
    (h : f.shares o dir a statements = .ok parts) : List.Forall₂ (f.Accounted o) statements parts := by
  induction statements generalizing a parts with
  | nil =>
    obtain rfl : [] = parts := Except.ok.inj h
    exact .nil
  | cons s rest ih =>
    unfold shares at h
    obtain ⟨⟨part, b⟩, hs, h⟩ := bind_eq_ok_iff.mp h
    obtain ⟨others, hrest, h⟩ := bind_eq_ok_iff.mp h
    obtain rfl := pure_eq_ok_iff.mp h
    exact .cons (accounted_of_share hs) (ih hrest)

/-- The index: the imports, a gap if something follows them, and a line for each declaration. -/
def Indexed (f : SourceFile) (o : Options) (dir : Path) (opening declared : List Piece) (index : Piece) : Prop :=
  ∃ heads lines : List Text,
    List.Forall₂ (fun im head => ∃ text, im.Rewrites f dir text ∧ head = text ++ [Text.newline] ++ im.passedOn)
      f.imports heads ∧
    List.Forall₂ (Piece.Listed dir) declared lines ∧
    index = {
      path := Path.join dir o.indexFile
      role := .generated (heads.flatten ++
        (if f.imports ≠ [] ∧ opening ++ declared ≠ [] then [Text.newline] else []) ++ lines.flatten) }

/-- Everything in a file that was split: `parts` says what became of its statements, and `opening` is the piece of
its documentation, if it has some. -/
structure Account (f : SourceFile) (o : Options) (d : Decomposition) (opening : List Piece) (parts : List Share) :
    Prop where
  statements : List.Forall₂ (f.Accounted o) f.statements parts
  skipped : d.skipped = parts.filterMap Share.skip?
  package : List.Forall₂ (fun doc p => p = { start := doc.start, stop := doc.stop, path := p.path, role := .package })
    (f.packageDoc o.docTag).toList opening
  index : ∃ index, d.pieces = index :: d.content ∧ f.Indexed o d.dir opening (parts.filterMap Share.piece?) index
  order : Piece.Descending (opening ++ parts.filterMap Share.piece?) d.content
  distinct : d.pieces.Pairwise fun p q => p.path ≠ q.path

lemma exists_cut {statements : List Statement} {parts : List Share} (h : List.Forall₂ (f.Accounted o) statements parts)
    {p : Piece} (hp : p ∈ parts.filterMap Share.piece?) : ∃ s category id, f.Cut o s category id p := by
  obtain ⟨part, hpart, hpiece⟩ := List.mem_filterMap.mp hp
  obtain ⟨s, -, hs⟩ := h.exists_of_mem hpart
  cases hs with
  | made _ _ _ cut =>
    obtain rfl := Option.some.inj hpiece
    exact ⟨s, _, _, cut⟩
  | _ => cases hpiece

/-- The documentation of the file has no line in the index. -/
lemma indexed_of_indexContent {opening declared : List Piece} {content : Text}
    (hopening : ∀ p ∈ opening, p.role = .package) (hdeclared : ∀ p ∈ declared, ∃ s category id, f.Cut o s category id p)
    (h : f.indexContent dir (opening ++ declared) = .ok content) :
    f.Indexed o dir opening declared { path := Path.join dir o.indexFile, role := .generated content } := by
  obtain ⟨heads, lines, hheads, hlines, rfl⟩ := heads_of_indexContent h
  have hlines := hlines.flip
  have hempty : List.Forall₂ (fun p line => pieceLine dir p = .ok line) opening (lines.take opening.length) :=
    (List.forall₂_take_append lines opening declared hlines).flip
  have hrest : List.Forall₂ (fun p line => pieceLine dir p = .ok line) declared (lines.drop opening.length) :=
    (List.forall₂_drop_append lines opening declared hlines).flip
  have hlisted : List.Forall₂ (Piece.Listed dir) declared (lines.drop opening.length) := by
    refine ((List.forall₂_and_left _ _).mpr ⟨hdeclared, hrest⟩).imp ?_
    rintro p line ⟨⟨s, category, id, hcut⟩, hline⟩
    rcases lined_of_pieceLine (by simp [Piece.isGenerated, hcut.role_eq]) hline with hlisted | ⟨hpackage, -⟩
    · exact hlisted
    · simp [hcut.role_eq] at hpackage
  have hnone : (lines.take opening.length).flatten = [] := by
    rw [List.flatten_eq_nil_iff]
    intro line hline
    obtain ⟨p, hp, hp'⟩ := hempty.exists_of_mem hline
    simp only [pieceLine, hopening p hp, Except.ok.injEq] at hp'
    exact hp'.symm
  refine ⟨heads, lines.drop opening.length, hheads, hlisted, ?_⟩
  have hflat : lines.flatten = (lines.drop opening.length).flatten := by
    conv_lhs => rw [← List.take_append_drop opening.length lines, List.flatten_append, hnone, List.nil_append]
  rw [hflat]

lemma descending_stableSort (found : List Piece) :
    Piece.Descending found (found.stableSort fun p q => decide (q.start ≤ p.start)) where
  perm := List.stableSort_perm found _
  descends := by
    have hsorted : (found.stableSort fun p q => decide (q.start ≤ p.start)).Pairwise
        fun p q => decide (q.start ≤ p.start) = true :=
      List.pairwise_stableSort (by intro p q r; simp; omega) (by intro p q; simp; omega) found
    exact hsorted.imp fun hpq => by simpa using hpq
  stable := by
    intro n
    apply List.filter_stableSort
    intro p _ q _ hp hq
    simp only [decide_eq_true_eq] at hp hq ⊢
    omega

/-- A split accounts for every statement just once: it is passed over, reported, or cut out. The index tells the
pieces in the order of the statements, and the pieces themselves go from the end of the file to its start. -/
theorem decompose_accounts {opts : Options} {d : Decomposition} (h : f.decompose opts = .ok d) :
    ∃ opening parts, f.Account opts.withDefaults d opening parts := by
  have hdistinct := (Decomposition.paths_apart h).2
  obtain ⟨dir, opening, a, parts, index, -, hop, hs, hindex, rfl⟩ := decompose_eq_ok h
  have hstatements := accounted_of_shares hs
  have hpackage : List.Forall₂
      (fun doc p => p = { start := doc.start, stop := doc.stop, path := p.path, role := .package : Piece })
      (f.packageDoc opts.withDefaults.docTag).toList opening := by
    rcases openingPieces_eq_ok hop with ⟨hnone, rfl, -⟩ | ⟨doc, path, k, hdoc, rfl, -⟩
    · rw [hnone]
      exact .nil
    · rw [hdoc]
      exact .cons rfl .nil
  have hopening : ∀ p ∈ opening, p.role = .package := by
    intro p hp
    obtain ⟨doc, -, hp⟩ := hpackage.exists_of_mem hp
    rw [hp]
  exact ⟨opening, parts, {
    statements := hstatements
    skipped := rfl
    package := hpackage
    index := ⟨_, rfl, indexed_of_indexContent hopening (fun p hp => exists_cut hstatements hp) hindex⟩
    order := descending_stableSort _
    distinct := hdistinct }⟩

def mixedText : Text :=
  "import { X } from './y';\n/** @packageDocumentation */\n/** a */\ntype A = X;\nexport default A;\n" ++
    "export * from './z';\ndeclare module 'm' {}\n"

/-- A file with a statement of every fate. -/
def mixedFile : SourceFile := ofText {} "t/x.ts" mixedText

def mixedOptions : Options := { translatedRoot := "t", piecesRoot := "p" }

theorem mixed_statements_accounted :
    ∃ d, mixedFile.decompose mixedOptions = .ok d ∧
      d.paths = ["p/x/index.d.ts", "p/x/modules/m.d.ts", "p/x/types/A.d.ts", "p/x/package.d.ts"] ∧
      d.skipped = [⟨.exportAssignment, 75, "no category"⟩, ⟨.reExport, 93, "no symbol"⟩] ∧
      ∃ opening parts, mixedFile.Account mixedOptions.withDefaults d opening parts := by
  have hcomputed : (mixedFile.decompose mixedOptions).map (fun d => (d.paths, d.skipped)) =
      .ok (["p/x/index.d.ts", "p/x/modules/m.d.ts", "p/x/types/A.d.ts", "p/x/package.d.ts"],
        [⟨.exportAssignment, 75, "no category"⟩, ⟨.reExport, 93, "no symbol"⟩]) := by decide +kernel
  obtain ⟨d, hd, hparts⟩ := exists_of_map_eq_ok hcomputed
  obtain ⟨hpaths, hskipped⟩ := Prod.mk.inj hparts
  exact ⟨d, hd, hpaths, hskipped, decompose_accounts hd⟩

end SourceFile

end DeclPieces
