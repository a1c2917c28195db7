import DeclPieces.Proofs.Decomposability
import DeclPieces.Proofs.SymbolTable
import Mathlib.Data.List.Flatten
import Mathlib.Data.List.Nodup
import Mathlib.Data.List.Perm.Basic

/-! The names that the generated index of a file exports, and those that its pieces import from it. -/
namespace DeclPieces
open Syntax

namespace Piece

/-- What the piece imports. -/
def references (p : Piece) : List CrossReference :=
  match p.role with
  | .declared _ _ _ references _ => references
  | _ => []

/-- The name that the line of the piece in the index exports. -/
def exported? (p : Piece) : Option Text :=
  match p.role with
  | .declared symbol _ _ _ false => some symbol
  | _ => none

/-- The line that passes a declaration on, or only takes its piece in. -/
def Listed (dir : Path) (p : Piece) (line : Text) : Prop :=
  ∃ symbol kind category references sideEffect module,
    p.role = .declared symbol kind category references sideEffect ∧
    Address.moduleReference dir p.path = .ok module ∧
    line = if sideEffect then "import '" ++ module ++ "';" ++ [Text.newline]
      else "export \x7b " ++ symbol ++ " \x7d from '" ++ module ++ "';" ++ [Text.newline]

/-- The line of a declaration, or none for the documentation of the file. -/
def Lined (dir : Path) (p : Piece) (line : Text) : Prop := p.Listed dir line ∨ p.role = .package ∧ line = []

end Piece

namespace Import

/-- The text of an import in the index: as it stands in the file, but for a module path that is replaced. -/
inductive Rewrites (f : SourceFile) (dir : Path) (im : Import) : Text → Prop
  | kept {text : Text} (fixed : im.rewritten = false) (whole : f.slice? im.start im.stop = some text) :
    Rewrites f dir im text
  | moved {before module after : Text} (relative : im.rewritten = true)
      (first : f.slice? im.start im.specifierStart = some before)
      (leads : Address.moduleReference dir (Path.join (Path.dir f.path) im.specifier) = .ok module)
      (last : f.slice? im.specifierStop im.stop = some after) : Rewrites f dir im (before ++ module ++ after)

/-- The export of all the names that an import binds. -/
def passedOn (im : Import) : Text :=
  if im.names = [] then []
  else (if im.typeOnly then "export type" else "export" : Text) ++ " \x7b " ++ Text.joinWith ", " im.names ++
    " \x7d;" ++ [Text.newline]

end Import

namespace SourceFile
variable {f : SourceFile} {o : Options} {s : Statement} {p : Piece} {dir : Path}

/-- The names that an index of `content` exports: those of the imports, then those of the pieces. -/
def exportedNames (f : SourceFile) (content : List Piece) : List Text :=
  f.imports.flatMap (·.names) ++ content.filterMap Piece.exported?

lemma rewrites_of_rewriteImport {im : Import} {text : Text} (h : f.rewriteImport dir im = .ok text) :
    im.Rewrites f dir text := by
  unfold rewriteImport at h
  cases hwhole : f.slice? im.start im.stop with
  | none => simp [hwhole] at h
  | some whole =>
    simp only [hwhole] at h
    split at h
    · next hfixed =>
      obtain rfl := Except.ok.inj h
      refine .kept ?_ hwhole
      unfold Import.rewritten
      grind
    · next hmoved =>
      have hrewritten : im.rewritten = true := by
        unfold Import.rewritten
        grind
      cases hmodule : Address.moduleReference dir (Path.join (Path.dir f.path) im.specifier) with
      | error fault => simp [hmodule] at h
      | ok module =>
        simp only [hmodule] at h
        split at h
        · next before after hfirst hlast =>
          obtain rfl := Except.ok.inj h
          exact .moved hrewritten hfirst hmodule hlast
        · cases h

lemma importLines_eq_ok {im : Import} {lines : Text} (h : f.importLines dir im = .ok lines) :
    ∃ text, im.Rewrites f dir text ∧ lines = text ++ [Text.newline] ++ im.passedOn := by
  unfold importLines at h
  obtain ⟨text, htext, h⟩ := bind_eq_ok_iff.mp h
  refine ⟨text, rewrites_of_rewriteImport htext, ?_⟩
  rw [← pure_eq_ok_iff.mp h, Import.passedOn]
  simp only [List.isEmpty_iff]

/-- The index: the imports, a gap if something follows them, and the lines of the pieces. -/
lemma heads_of_indexContent {content : List Piece} {index : Text} (h : f.indexContent dir content = .ok index) :
    ∃ heads lines : List Text,
      List.Forall₂ (fun im head => ∃ text, im.Rewrites f dir text ∧ head = text ++ [Text.newline] ++ im.passedOn)
        f.imports heads ∧
      List.Forall₂ (fun p line => pieceLine dir p = .ok line) content lines ∧
      index = heads.flatten ++ (if f.imports ≠ [] ∧ content ≠ [] then [Text.newline] else []) ++ lines.flatten := by
  unfold indexContent at h
  obtain ⟨heads, hheads, h⟩ := bind_eq_ok_iff.mp h
  obtain ⟨lines, hlines, h⟩ := bind_eq_ok_iff.mp h
  obtain rfl := pure_eq_ok_iff.mp h
  refine ⟨heads, lines, (mapM_eq_ok_iff.mp hheads).imp fun im head him => importLines_eq_ok him,
    mapM_eq_ok_iff.mp hlines, ?_⟩
  simp only [Bool.or_eq_true, List.isEmpty_iff]
  grind

lemma lined_of_pieceLine {line : Text} (hp : p.isGenerated = false) (h : pieceLine dir p = .ok line) :
    p.Lined dir line := by
  unfold pieceLine at h
  cases hr : p.role with
  | generated content => simp [Piece.isGenerated, hr] at hp
  | package =>
    simp only [hr, Except.ok.injEq] at h
    exact .inr ⟨hr, h.symm⟩
  | declared symbol kind category references sideEffect =>
    simp only [hr] at h
    split at h
    · cases h
    · next module hmodule =>
      refine .inl ⟨_, _, _, _, _, module, hr, hmodule, ?_⟩
      split at h <;> simp_all

/-- Is the symbol one that an export line can name? -/
def exportable (f : SourceFile) (s : Statement) (id : SymbolId) (symbol : Symbol) : Bool :=
  isIdentifier symbol.name && (s.exported || f.inScope id)

/-- The name that a statement adds to the exports of the index. -/
def exportOf? (f : SourceFile) (s : Statement) : Option Text :=
  match verdict s with
  | .accepted _ id =>
    let symbol := (f.symbol? id).getD ⟨[], []⟩
    if f.exportable s id symbol then some symbol.name else none
  | _ => none

lemma declarationPiece_role {category : Category} {id : SymbolId} {symbol : Symbol} {path : Path}
    (h : f.declarationPiece o s category id symbol path = .ok p) :
    p.role = .declared symbol.name s.kind category (f.crossReferences o s p.start p.stop)
      (!f.exportable s id symbol) := by
  unfold declarationPiece at h
  obtain ⟨imports, -, h⟩ := bind_eq_ok_iff.mp h
  obtain rfl := pure_eq_ok_iff.mp h
  rfl

lemma Yields.exported?_eq (h : f.Yields o s p) : p.exported? = f.exportOf? s := by
  obtain ⟨category, id, path, hv, hp⟩ := h
  unfold Piece.exported? exportOf?
  rw [declarationPiece_role hp, hv]
  cases hx : f.exportable s id ((f.symbol? id).getD ⟨[], []⟩) <;> simp [hx]

lemma exportOf?_of_not_isAccepted (h : isAccepted s = false) : f.exportOf? s = none := by
  unfold isAccepted at h
  unfold exportOf?
  cases hv : verdict s <;> simp_all

/-- What the pieces of a file's statements export is what the statements add. -/
lemma filterMap_exported? {statements : List Statement} {pieces : List Piece}
    (h : List.Forall₂ (f.Yields o) (statements.filter isAccepted) pieces) :
    pieces.filterMap Piece.exported? = statements.filterMap f.exportOf? := by
  induction statements generalizing pieces with
  | nil =>
    obtain rfl := List.forall₂_nil_left_iff.mp h
    rfl
  | cons s rest ih =>
    cases hs : isAccepted s with
    | false =>
      rw [List.filter_cons_of_neg (by simp [hs])] at h
      rw [List.filterMap_cons_none (exportOf?_of_not_isAccepted hs), ih h]
    | true =>
      rw [List.filter_cons_of_pos hs] at h
      obtain ⟨p, others, hp, hothers, rfl⟩ := List.forall₂_cons_left_iff.mp h
      rw [List.filterMap_cons, List.filterMap_cons, hp.exported?_eq, ih hothers]

/-- The first piece is the index, with a line for each of the others. -/
lemma exists_heads {opts : Options} {d : Decomposition} (h : f.decompose opts = .ok d) :
    ∃ order heads lines, order.Perm d.content ∧
      List.Forall₂ (fun im head => ∃ text, im.Rewrites f d.dir text ∧ head = text ++ [Text.newline] ++ im.passedOn)
        f.imports heads ∧
      List.Forall₂ (Piece.Lined d.dir) order lines ∧
      d.index?.map (·.role) = some (.generated (heads.flatten ++
        (if f.imports ≠ [] ∧ d.content ≠ [] then [Text.newline] else []) ++ lines.flatten)) := by
  have hgenerated : ∀ p ∈ d.content, p.isGenerated = false := by
    obtain ⟨dir, opening, pieces, hmade⟩ := Decomposition.exists_made h
    exact fun p hp => (hmade.origin hp).1
  obtain ⟨dir, opening, a, parts, content, -, -, -, hindex, rfl⟩ := decompose_eq_ok h
  obtain ⟨heads, lines, hheads, hlines, rfl⟩ := heads_of_indexContent hindex
  have horder := (List.stableSort_perm (opening ++ parts.filterMap Share.piece?)
    fun p q => decide (q.start ≤ p.start)).symm
  refine ⟨_, heads, lines, horder, hheads, ?_, ?_⟩
  · exact ((List.forall₂_and_left _ _).mpr ⟨fun p hp => hgenerated p (horder.mem_iff.mp hp), hlines⟩).imp
      fun p line hp => lined_of_pieceLine hp.1 hp.2
  · have hnil : opening ++ parts.filterMap Share.piece? = [] ↔
        (opening ++ parts.filterMap Share.piece?).stableSort (fun p q => decide (q.start ≤ p.start)) = [] := by
      rw [← List.length_eq_zero_iff, horder.length_eq, List.length_eq_zero_iff]
    simp only [ne_eq, hnil]
    rfl

/-- What a decomposition exports is told by the imports and the statements of the file. -/
lemma exportedNames_perm {opts : Options} {d : Decomposition} (h : f.decompose opts = .ok d) :
    (f.exportedNames d.content).Perm (f.imports.flatMap (·.names) ++ f.statements.filterMap f.exportOf?) := by
  obtain ⟨dir, opening, pieces, hmade⟩ := Decomposition.exists_made h
  have hopening : opening.filterMap Piece.exported? = [] := by
    rcases hmade.opening_eq with ⟨-, rfl⟩ | ⟨doc, path, -, rfl⟩ <;> rfl
  refine List.Perm.append_left _ ((hmade.content_perm.filterMap _).trans (.of_eq ?_))
  rw [List.filterMap_append, hopening, List.nil_append, filterMap_exported? hmade.yields]

end SourceFile

namespace Syntax
variable {around : Surroundings} {path text : Text} {trees : List Tree}

/-- The names that a top-level import binds. -/
def importedNames (t : Tree) : List Text :=
  if t.label = .importStatement then
    (((t.childOf? .importRequireClause).bind (·.childOf? .identifier)).map fun n => [n.text]).getD (importBindings t)
  else []

lemma names_importOf {t : Tree} (h : t.label = .importStatement) :
    (importOf around path text t).names = importedNames t := by
  rw [importedNames, if_pos h, importOf]
  cases sourceOf? t with
  | none => rfl
  | some s =>
    simp only
    split <;> rfl

lemma imports_names (around : Surroundings) (path text : Text) (trees : List Tree) :
    (outline around path text trees).imports.flatMap (·.names) = trees.flatMap importedNames := by
  simp only [outline, List.flatMap_map]
  induction trees with
  | nil => rfl
  | cons t rest ih =>
    by_cases h : t.label = .importStatement
    · rw [List.filter_cons_of_pos (by simpa using h), List.flatMap_cons, List.flatMap_cons, ih, names_importOf h]
    · rw [List.filter_cons_of_neg (by simpa using h), List.flatMap_cons, ih, importedNames, if_neg h, List.nil_append]

/-- The name under which the index passes on what a statement declares: the first one, if an export
line can name it, and if it is one of the top level or the statement is an export. -/
def Classified.offer? (path : Text) (top : List Text) (c : Classified) : Option Text :=
  if c.kind.category?.isSome then
    ((c.declared path top).head?.filter fun n => isIdentifier n.name && (c.exported || n.atTop)).map (·.name)
  else none

/-- The names that the index exports for a top-level statement. -/
def offers (path : Text) (top : List Text) (t : Tree) : List Text :=
  importedNames t ++ ((classify t).offer? path top).toList

lemma category?_of_skipped {k : Kind} (h : k.skipped = true) : k.category? = none := by
  cases k <;> first | rfl | cases h

/-- A statement adds to the exports of the index what its tree offers. -/
lemma exportOf?_draftAt {w : List Tree × Tree} (hw : w ∈ withBefore [] trees) :
    (outline around path text trees).exportOf? ((draftAt around path text trees w).statement
        (topLevel around path trees) (innerSymbols around path text trees)) =
      (classify w.2).offer? path (topNames around path trees) := by
  have htabled := outline_tabled around path text trees
  have hmain : (classify w.2).kind.skipped = false → (draftAt around path text trees w).main?.map Referent.declared =
      ((classify w.2).declared path (topNames around path trees)).head? := main?_draftOf (mem_of_mem_withBefore hw) _ _
  have hclassified : (draftAt around path text trees w).classified = classify w.2 := classified_draftOf ..
  have hd : draftAt around path text trees w ∈ drafts around path text trees := List.mem_map_of_mem hw
  have hplace := mainSymbol?_statement hd
  have hsome := fun r => idOf?_isSome hd (r := r)
  generalize draftAt around path text trees w = d at hmain hclassified hplace hsome ⊢
  have hkind (top inner : List Symbol) : (d.statement top inner).kind = (classify w.2).kind := by
    rw [Draft.statement, hclassified]
  have hexported (top inner : List Symbol) : (d.statement top inner).exported = (classify w.2).exported := by
    rw [Draft.statement, hclassified]
  unfold SourceFile.exportOf? SourceFile.verdict Classified.offer?
  rw [hkind]
  cases hskip : (classify w.2).kind.skipped with
  | true => simp [category?_of_skipped hskip]
  | false =>
    cases hcategory : (classify w.2).kind.category? with
    | none => rfl
    | some category =>
      rw [← hmain hskip, hplace]
      cases hr : d.main? with
      | none => rfl
      | some r =>
        have hmem : r ∈ d.own.toList ++ d.descendants := by
          unfold Draft.main? at hr
          rcases Option.or_eq_some_iff.mp hr with hown | ⟨-, hdesc⟩
          · exact List.mem_append_left _ (by simp [hown])
          · exact List.mem_append_right _ (List.mem_of_head? hdesc)
        obtain ⟨id, hid⟩ := Option.isSome_iff_exists.mp (hsome r hmem)
        obtain ⟨s, hs, hname⟩ := symbol?_of_idOf? htabled hid
        have hin := inScope_of_idOf? htabled hid
        simp only [Option.bind_some, hid, hs, Option.getD_some, SourceFile.exportable, hname, hin, hexported,
          Option.map_some, Option.isSome_some, Bool.false_eq_true, if_false, if_true, Option.filter_some]
        split <;> rfl

/-- The index exports what the top-level statements offer, as often as they offer it. -/
lemma exportedNames_outline {opts : Options} {d : Decomposition}
    (hd : (outline around path text trees).decompose opts = .ok d) :
    ((outline around path text trees).exportedNames d.content).Perm
      (trees.flatMap (offers path (topNames around path trees))) := by
  have hstatements : (outline around path text trees).statements.filterMap (outline around path text trees).exportOf? =
      trees.flatMap fun t => ((classify t).offer? path (topNames around path trees)).toList := by
    rw [outline_statements, drafts, List.map_map, List.filterMap_map]
    have htrees (g : Tree → Option Text) : (trees.flatMap fun t => (g t).toList) =
        (withBefore [] trees).filterMap fun w => g w.2 := by
      rw [← List.filterMap_eq_flatMap_toList]
      conv_lhs => rw [← map_snd_withBefore [] trees, List.filterMap_map]
      rfl
    rw [htrees]
    exact List.filterMap_congr fun w hw => exportOf?_draftAt hw
  refine (SourceFile.exportedNames_perm hd).trans ?_
  rw [imports_names, hstatements]
  exact List.flatMap_append_perm _ _ _

/-- A statement that binds a name without passing it on to the index. -/
inductive Withholds (c : Classified) (n : Text) : Prop
  /-- An alias, or an import behind an `export`, is no import statement. -/
  | alias (kind : c.kind = .importDecl ∨ c.kind = .importEquals) (label : c.outer.label ≠ .importStatement)
  /-- Only the first name of a list of variables counts. -/
  | later (kind : c.kind = .variableDecl) (first : c.names.head?.map (·.name) ≠ some n)
  | unspeakable (kind : c.kind.category?.isSome) (name : isIdentifier n = false)

/-- An import statement binds the names that the index exports for it. -/
lemma names_classify_import {t : Tree} (h : t.label = .importStatement) :
    ((classify t).kind = .importDecl ∨ (classify t).kind = .importEquals) ∧
      ∀ n ∈ (classify t).names.map (·.name), n ∈ importedNames t := by
  have hunwrap : unwrap t = if (t.childOf? .importRequireClause).isSome then ⟨t, .importEquals, false⟩
      else ⟨t, .importDecl, false⟩ := by
    rw [unwrap]
    simp only [h]
  rw [importedNames, if_pos h]
  cases hclause : t.childOf? .importRequireClause with
  | none =>
    simp only [hclause, Option.isSome_none, Bool.false_eq_true, if_false] at hunwrap
    simp [classify, hunwrap, Classified.names, DeclaredName.of, Function.comp_def]
  | some clause =>
    simp only [hclause, Option.isSome_some, if_true] at hunwrap
    simp only [classify, hunwrap, Classified.names, importEqualsName?, hclause]
    refine ⟨.inr trivial, fun n hn => ?_⟩
    cases hid : clause.childOf? .identifier with
    | none => simp [hid] at hn
    | some leaf => simpa [hid, DeclaredName.of] using hn

/-- Of the names that a declaration binds it declares the first one before all else. -/
lemma head?_declared {c : Classified} {top : List Text} (hk : c.kind.category?.isSome) (hn : c.names ≠ []) :
    (c.declared path top).head? = c.names.head?.map fun n => ⟨n.name, true⟩ := by
  obtain ⟨first, rest, hnames⟩ := List.exists_cons_of_ne_nil hn
  unfold Classified.declared
  cases hkind : c.kind <;> simp only [hkind, Kind.category?, Option.isSome_none, Bool.false_eq_true] at hk
  case moduleDecl =>
    have hplain : c.isGlobal = false ∧ c.stringModule? = none := by
      unfold Classified.names at hnames
      unfold Classified.stringModule?
      simp only [hkind] at hnames ⊢
      cases hg : c.isGlobal with
      | true => simp [hg] at hnames
      | false =>
        cases hm : moduleName? c.inner with
        | none => simp [hg, hm] at hnames
        | some name => cases hid : isIdentifier name <;> simp [hg, hm, hid] at hnames ⊢
    simp [hplain, hnames]
  case reExport => simp [Classified.names, hkind] at hnames
  all_goals simp [hnames]

/-- A declaration that is no list of variables binds at most one name. -/
lemma head?_names_of_mem {c : Classified} {n : Text} (hk : c.kind.category?.isSome) (hv : c.kind ≠ .variableDecl)
    (hn : n ∈ c.names.map (·.name)) : c.names.head?.map (·.name) = some n := by
  have hone : c.names.length ≤ 1 := by
    unfold Classified.names
    cases hkind : c.kind <;>
      simp only [hkind, Kind.category?, Option.isSome_none, Bool.false_eq_true, ne_eq, not_true] at hk hv ⊢
    case moduleDecl => grind
    all_goals first | exact Option.length_toList_le | exact Nat.zero_le _
  match hnames : c.names with
  | [] => simp [hnames] at hn
  | [m] => simpa [hnames, eq_comm] using hn
  | _ :: _ :: _ => simp [hnames] at hone

/-- A statement offers the names that it binds, but for those that it withholds. -/
lemma mem_offers_iff {t : Tree} {n : Text} {top : List Text} (hn : n ∈ (classify t).names.map (·.name)) :
    n ∈ offers path top t ↔ ¬ Withholds (classify t) n := by
  have houter : (classify t).outer = t := rfl
  by_cases himport : t.label = .importStatement
  · obtain ⟨hkind, hnames⟩ := names_classify_import himport
    refine iff_of_true (List.mem_append_left _ (hnames n hn)) ?_
    rintro (⟨-, hlabel⟩ | ⟨hk, -⟩ | ⟨hk, -⟩)
    · exact hlabel himport
    · rcases hkind with h | h <;> simp [h] at hk
    · rcases hkind with h | h <;> simp [h, Kind.category?] at hk
  rw [offers, importedNames, if_neg himport, List.nil_append, Option.mem_toList, Classified.offer?]
  generalize hc : classify t = c at hn houter
  by_cases hk : c.kind.category?.isSome = true
  · cases hfirst : c.names.head? with
    | none => simp [List.head?_eq_none_iff.mp hfirst] at hn
    | some first =>
      have hne : c.names ≠ [] := by
        rintro h
        simp [h] at hn
      rw [if_pos hk, head?_declared hk hne, hfirst]
      by_cases hname : first.name = n
      · by_cases hid : isIdentifier n = true
        · refine iff_of_true (by simp [hname, hid]) ?_
          rintro (⟨h | h, -⟩ | ⟨-, h⟩ | ⟨-, h⟩)
          · simp [h, Kind.category?] at hk
          · simp [h, Kind.category?] at hk
          · simp [hfirst, hname] at h
          · simp [hid] at h
        · exact iff_of_false (by simp [hname, hid]) (not_not.mpr (.unspeakable hk (by simpa using hid)))
      · have hv : c.kind = .variableDecl := by
          by_contra hv
          exact hname (by simpa [hfirst] using head?_names_of_mem hk hv hn)
        refine iff_of_false ?_ (not_not.mpr (.later hv (by simpa [hfirst] using hname)))
        simp [hname]
  · refine iff_of_false (by simp [hk]) (not_not.mpr (.alias ?_ (houter ▸ himport)))
    cases hkind : c.kind <;> simp [hkind, Kind.category?, Classified.names] at hk hn ⊢

end Syntax

namespace SourceFile
variable {f : SourceFile} {o : Options} {s : Statement} {p : Piece}

/-- What a piece imports is a symbol of the top level, from the file that declares it first. -/
lemma exists_of_mem_references {opts : Options} {d : Decomposition} (h : f.decompose opts = .ok d) (hp : p ∈ d.content)
    {r : CrossReference} (hr : r ∈ p.references) :
    ∃ id symbol first, f.inScope id = true ∧ f.symbol? id = some symbol ∧ symbol.decls.head? = some first ∧
      r = ⟨symbol.name, symbol.name, first.file⟩ := by
  obtain ⟨dir, opening, pieces, hmade⟩ := Decomposition.exists_made h
  rcases List.mem_append.mp (hmade.content_perm.mem_iff.mp hp) with hopening | hpiece
  · rcases hmade.opening_eq with ⟨-, rfl⟩ | ⟨doc, path, -, rfl⟩
    · simp at hopening
    · obtain rfl := List.mem_singleton.mp hopening
      simp [Piece.references] at hr
  · obtain ⟨s, -, category, id, path, -, hmake⟩ := hmade.yields.exists_of_mem hpiece
    rw [Piece.references, declarationPiece_role hmake] at hr
    obtain ⟨id, symbol, first, hneeds, hr⟩ := mem_crossReferences_iff.mp hr
    exact ⟨id, symbol, first, hneeds.inScope, hneeds.symbol_eq, hneeds.first_eq, hr⟩

end SourceFile

section Index
variable {around : Surroundings} {path text : Text} {trees : List Tree} {opts : Options} {d : Decomposition}

/-- The index has the imports of the file, each with the export of the names that it binds, and then one line for each
piece. So it exports a name as often as the imports and the statements of the file offer it, and none twice only if
none is offered twice. -/
theorem index_exports_as_offered (hd : (outline around path text trees).decompose opts = .ok d) :
    ∃ order heads lines, order.Perm d.content ∧
      List.Forall₂ (fun im head => ∃ line, im.Rewrites (outline around path text trees) d.dir line ∧
        head = line ++ [Text.newline] ++ im.passedOn) (outline around path text trees).imports heads ∧
      List.Forall₂ (Piece.Lined d.dir) order lines ∧
      d.index?.map (·.role) = some (.generated (heads.flatten ++
        (if (outline around path text trees).imports ≠ [] ∧ d.content ≠ [] then [Text.newline] else []) ++
        lines.flatten)) ∧
      ((outline around path text trees).exportedNames order).Perm
        (trees.flatMap (offers path (topNames around path trees))) ∧
      (((outline around path text trees).exportedNames order).Nodup ↔
        (∀ t ∈ trees, (offers path (topNames around path trees) t).Nodup) ∧
        trees.Pairwise fun t u => (offers path (topNames around path trees) t).Disjoint
          (offers path (topNames around path trees) u)) := by
  obtain ⟨order, heads, lines, horder, hheads, hlines, hrole⟩ := SourceFile.exists_heads hd
  have hperm : ((outline around path text trees).exportedNames order).Perm
      (trees.flatMap (offers path (topNames around path trees))) :=
    (List.Perm.append_left _ (horder.filterMap _)).trans (exportedNames_outline hd)
  exact ⟨order, heads, lines, horder, hheads, hlines, hrole, hperm, hperm.nodup_iff.trans List.nodup_flatMap⟩

/-- A file that is read from its text alone. -/
def readAlone (text : Text) : SourceFile := outline {} "t/x.d.ts" text (parse text)

def sampleOptions : Options := { translatedRoot := "t", piecesRoot := "p" }

def overloadedText : Text := "declare function f(a: 1): void;\ndeclare function f(a: 2): void;\n"

/-- Each overload of a function has an export line of its own. -/
theorem overload_exported_twice :
    ((readAlone overloadedText).decompose sampleOptions).map
      (fun d => (readAlone overloadedText).exportedNames d.content) = .ok ["f", "f"] := by
  decide +kernel

def importingText : Text := "import \x7b Z \x7d from './z';\ntype A = Z;\nexport \x7b A \x7d;\n"

/-- An export list is offered besides the declaration that it names. -/
theorem import_and_export_list_exported : ∃ d, (readAlone importingText).decompose sampleOptions = .ok d ∧
    ∃ order, order.Perm d.content ∧
      ((readAlone importingText).exportedNames order).Perm (["Z", "A", "A"].map Text.ofString) := by
  have hfacts : ((readAlone importingText).decompose sampleOptions).map (·.content.length) = .ok 2 ∧
      (parse importingText).flatMap (offers "t/x.d.ts" (topNames {} "t/x.d.ts" (parse importingText))) =
        ["Z", "A", "A"].map Text.ofString := by
    decide +kernel
  obtain ⟨hlength, hoffers⟩ := hfacts
  obtain ⟨d, hd, -⟩ := exists_of_map_eq_ok hlength
  obtain ⟨order, -, -, horder, -, -, -, hperm, -⟩ := index_exports_as_offered hd
  exact ⟨d, hd, order, horder, hoffers ▸ hperm⟩

/-- A piece imports from its own index a name that the file binds, or a global one that it declares.
The index exports the name just if some statement offers it; if none does, all that bind it withhold it. -/
theorem own_reference_exported_unless_withheld (hd : (outline around path text trees).decompose opts = .ok d)
    {p : Piece} (hp : p ∈ d.content) {r : CrossReference} (hr : r ∈ p.references) (hfile : r.file = path) :
    ((∃ t ∈ trees, r.source ∈ (classify t).names.map (·.name)) ∨
      (∃ g ∈ around.globals, g.name = r.source ∧ g.decls.head?.map (·.file) = some path) ∧
        ∀ t ∈ trees, r.source ∉ (classify t).names.map (·.name)) ∧
    (r.source ∈ (outline around path text trees).exportedNames d.content ↔
      ∃ t ∈ trees, r.source ∈ offers path (topNames around path trees) t) ∧
    (r.source ∉ (outline around path text trees).exportedNames d.content →
      ∀ t ∈ trees, r.source ∈ (classify t).names.map (·.name) → Withholds (classify t) r.source) := by
  have hexported : r.source ∈ (outline around path text trees).exportedNames d.content ↔
      ∃ t ∈ trees, r.source ∈ offers path (topNames around path trees) t :=
    (exportedNames_outline hd).mem_iff.trans List.mem_flatMap
  refine ⟨?_, hexported, fun hn t ht hbound => ?_⟩
  · obtain ⟨id, s, first, hin, hs, hfirst, rfl⟩ := SourceFile.exists_of_mem_references hd hp hr
    have htop := (outline_tabled around path text trees).mem_top_of_inScope hs hin
    rcases mem_topLevel htop with hlocal | ⟨hglobal, hfree⟩
    · exact .inl hlocal
    · exact .inr ⟨⟨s, hglobal, rfl, by simp [hfirst, ← hfile]⟩, hfree⟩
  · by_contra hw
    exact hn (hexported.mpr ⟨t, ht, (mem_offers_iff hbound).mpr hw⟩)

/-- A list of two variables, and a type that uses both. -/
def listedText : Text := "declare const a: 1, b: 2;\ntype T = [typeof a, typeof b];\n"

/-- The names that pieces import from their own index, each with whether the index exports it. -/
def ownReferences (f : SourceFile) (d : Decomposition) : List (Text × Bool) :=
  ((d.content.flatMap (·.references)).filter fun r => r.file = f.path).map fun r =>
    (r.source, decide (r.source ∈ f.exportedNames d.content))

/-- A piece imports the second variable of a list from the index, which does not export it. -/
theorem later_variable_imported_not_exported :
    ((readAlone listedText).decompose sampleOptions).map (ownReferences (readAlone listedText)) =
      .ok [("a", true), ("b", false)] := by
  decide +kernel

theorem first_variable_exported : ∃ d, (readAlone listedText).decompose sampleOptions = .ok d ∧
    ∃ p ∈ d.content, ∃ r ∈ p.references, r.file = Text.ofString "t/x.d.ts" ∧
      r.source ∈ (readAlone listedText).exportedNames d.content := by
  have hfacts : ((readAlone listedText).decompose sampleOptions).map (fun d => (d.content.map (·.references)).head?) =
        .ok (some [⟨"a", "a", "t/x.d.ts"⟩, ⟨"b", "b", "t/x.d.ts"⟩]) ∧
      ∃ t ∈ parse listedText, Text.ofString "a" ∈
        offers "t/x.d.ts" (topNames {} "t/x.d.ts" (parse listedText)) t := by
    decide +kernel
  obtain ⟨hfound, hoffered⟩ := hfacts
  obtain ⟨d, hd, hreferences⟩ := exists_of_map_eq_ok hfound
  obtain ⟨p, hp, hr⟩ : ∃ p ∈ d.content, p.references = [⟨"a", "a", "t/x.d.ts"⟩, ⟨"b", "b", "t/x.d.ts"⟩] := by
    rw [List.head?_map, Option.map_eq_some_iff] at hreferences
    obtain ⟨p, hp, hr⟩ := hreferences
    exact ⟨p, List.mem_of_head? hp, hr⟩
  have hmem : (⟨"a", "a", "t/x.d.ts"⟩ : CrossReference) ∈ p.references := by simp [hr]
  exact ⟨d, hd, p, hp, _, hmem, rfl, (own_reference_exported_unless_withheld hd hp hmem rfl).2.1.mpr hoffered⟩

end Index

end DeclPieces
