import DeclPieces.Piece.Decompose
import DeclPieces.Proofs.CleanPath
import DeclPieces.Proofs.Success

/-! What a decomposition is made of: the index, the package piece, and one piece for each statement that
declares something, each at a path of its own. -/
namespace DeclPieces

namespace Allocator
variable {a b : Allocator} {dir name ext : Text} {path : Path}

@[simp] lemma taken_reserve (a : Allocator) (p q : Path) :
    (a.reserve p).taken q = (decide (q.lower = p.lower) || a.taken q) := by
  unfold reserve
  split
  · next h =>
    by_cases hq : q.lower = p.lower
    · simpa [hq, taken] using h
    · simp [hq]
  · simp [taken]

lemma exists_candidate_eq_firstFree (a : Allocator) (dir name ext : Text) (n fuel : Nat) :
    ∃ k, a.firstFree dir name ext n fuel = candidate dir name ext k := by
  induction fuel generalizing n with
  | zero => exact ⟨n, rfl⟩
  | succ fuel ih =>
    unfold firstFree
    split
    · exact ih (n + 1)
    · exact ⟨n, rfl⟩

/-- A path that is given out was free, and is the only one that is no longer. -/
lemma allocateFree_eq_ok (h : a.allocateFree dir name ext = .ok (path, b)) :
    a.taken path = false ∧ b = a.reserve path ∧ ∃ k, path = candidate dir name ext k := by
  unfold allocateFree allocate at h
  simp only at h
  split at h
  · cases h
  · next ht =>
    obtain ⟨rfl, rfl⟩ := Prod.mk.inj (Except.ok.inj h)
    exact ⟨by simpa using ht, rfl, exists_candidate_eq_firstFree a dir name ext 0 a.used.length⟩

lemma exists_candidate_eq_join (dir name : Text) {ext : Text} (hext : ext ≠ []) (k : Nat) :
    ∃ file, file ≠ [] ∧ candidate dir name ext k = Path.join dir file := by
  cases k with
  | zero => exact ⟨name ++ ext, by simp [hext], rfl⟩
  | succ n => exact ⟨name ++ "-" ++ Text.ofNat (n + 1) ++ ext, by simp [hext], rfl⟩

end Allocator

namespace SourceFile

/-- Does statement `s` yield piece `p`? -/
def Yields (f : SourceFile) (o : Options) (s : Statement) (p : Piece) : Prop :=
  ∃ category id path, verdict s = .accepted category id ∧
    f.declarationPiece o s category id ((f.symbol? id).getD ⟨[], []⟩) path = .ok p

/-- Does the statement declare something that a piece is made of? -/
def isAccepted (s : Statement) : Bool :=
  match verdict s with
  | .accepted .. => true
  | _ => false

section
variable {f : SourceFile} {o : Options} {s : Statement} {p : Piece} {dir : Path} {a b : Allocator}

lemma kind_of_isAccepted (h : isAccepted s = true) : s.kind.skipped = false := by
  cases hk : s.kind.skipped
  · rfl
  · simp [isAccepted, verdict, hk] at h

/-- What is imported is a symbol that nothing in the range declares, from where its first declaration is. -/
lemma useOf_eq_imported_iff {start stop : Int} {id : SymbolId} {r : CrossReference} :
    f.useOf o start stop id = .imported r ↔ ∃ symbol first, f.symbol? id = some symbol ∧
      symbol.declaredIn f.path start stop = false ∧ symbol.decls.head? = some first ∧
      Path.within first.file o.translatedRoot = true ∧ r = ⟨symbol.name, symbol.name, first.file⟩ := by
  constructor
  · intro h
    unfold useOf at h
    split at h
    · cases h
    · next symbol hs =>
      split at h
      · cases h
      · next hown =>
        split at h
        · cases h
        · next first hfirst =>
          split at h
          · next hbelow => exact ⟨symbol, first, hs, by simpa using hown, hfirst, hbelow, (Use.imported.inj h).symm⟩
          · cases h
  · rintro ⟨symbol, first, hs, hown, hfirst, hbelow, rfl⟩
    simp [useOf, hs, hown, hfirst, hbelow]

/-- Symbol `id` has to be imported into `[start, stop)`: the statement refers to it, it is the symbol of the top level
for its name, the range declares no part of it, and its first declaration lies below the root of the sources. -/
structure Needs (f : SourceFile) (o : Options) (s : Statement) (start stop : Int) (id : SymbolId) (symbol : Symbol)
    (first : Declaration) : Prop where
  used : some id ∈ s.references
  symbol_eq : f.symbol? id = some symbol
  lookup_eq : f.lookup symbol.name = some id
  elsewhere : ∀ d ∈ symbol.decls, ¬ (d.file = f.path ∧ start ≤ d.start ∧ d.stop ≤ stop)
  first_eq : symbol.decls.head? = some first
  below : Path.within first.file o.translatedRoot = true

lemma Needs.inScope {start stop : Int} {id : SymbolId} {symbol : Symbol} {first : Declaration}
    (h : f.Needs o s start stop id symbol first) : f.inScope id = true := by
  simp [SourceFile.inScope, h.symbol_eq, h.lookup_eq]

lemma Needs.unique {start stop : Int} {id : SymbolId} {symbol symbol' : Symbol} {first first' : Declaration}
    (h : f.Needs o s start stop id symbol first) (h' : f.Needs o s start stop id symbol' first') :
    symbol = symbol' ∧ first = first' := by
  obtain rfl := Option.some.inj (h.symbol_eq.symm.trans h'.symbol_eq)
  exact ⟨rfl, Option.some.inj (h.first_eq.symm.trans h'.first_eq)⟩

lemma declaredIn_eq_false_iff {symbol : Symbol} {file : Path} {start stop : Int} :
    symbol.declaredIn file start stop = false ↔
      ∀ d ∈ symbol.decls, ¬ (d.file = file ∧ start ≤ d.start ∧ d.stop ≤ stop) := by
  rw [Symbol.declaredIn, List.any_eq_false]
  simp [Declaration.inside, and_assoc]

/-- What the statement uses and finds elsewhere is what has to be imported. -/
lemma useOf_eq_imported_iff_needs {start stop : Int} {id : SymbolId} {r : CrossReference} :
    id ∈ f.usedSymbols s ∧ f.useOf o start stop id = .imported r ↔ ∃ symbol first,
      f.Needs o s start stop id symbol first ∧ r = ⟨symbol.name, symbol.name, first.file⟩ := by
  have hused : id ∈ f.usedSymbols s ↔ some id ∈ s.references ∧ f.inScope id = true := by
    simp [usedSymbols]
  rw [hused, useOf_eq_imported_iff]
  constructor
  · rintro ⟨⟨hused, hscope⟩, symbol, first, hsymbol, hown, hfirst, hbelow, hr⟩
    rw [SourceFile.inScope, hsymbol, decide_eq_true_eq] at hscope
    exact ⟨symbol, first, ⟨hused, hsymbol, hscope, declaredIn_eq_false_iff.mp hown, hfirst, hbelow⟩, hr⟩
  · rintro ⟨symbol, first, h, hr⟩
    have hown := declaredIn_eq_false_iff.mpr h.elsewhere
    exact ⟨⟨h.used, h.inScope⟩, symbol, first, h.symbol_eq, hown, h.first_eq, h.below, hr⟩

/-- The references are to the symbols that have to be imported, each from the file of its first declaration. -/
lemma mem_crossReferences_iff {start stop : Int} {r : CrossReference} :
    r ∈ f.crossReferences o s start stop ↔ ∃ id symbol first, f.Needs o s start stop id symbol first ∧
      r = ⟨symbol.name, symbol.name, first.file⟩ := by
  simp only [← useOf_eq_imported_iff_needs, crossReferences, (List.stableSort_perm _ _).mem_iff, List.mem_filterMap, uses,
    List.mem_map, exists_exists_and_eq_and]
  refine exists_congr fun id => and_congr_right fun _ => ?_
  cases f.useOf o start stop id <;> simp

/-- The parts of the piece of a statement. -/
lemma declarationPiece_eq_ok {category : Category} {id : SymbolId} {symbol : Symbol} {path : Path}
    (h : f.declarationPiece o s category id symbol path = .ok p) :
    p.start = s.leadingStart (f.packageDoc o.docTag) ∧ p.stop = s.stop ∧ p.path = path ∧
      importText o (f.crossReferences o s p.start p.stop) path = .ok p.importText ∧
      (p.exportText = [] ∨ p.exportText = exportText o symbol.name) ∧
      ∃ refs sideEffect, p.role = .declared symbol.name s.kind category refs sideEffect := by
  unfold declarationPiece at h
  obtain ⟨imports, hi, h⟩ := bind_eq_ok_iff.mp h
  obtain rfl := pure_eq_ok_iff.mp h
  refine ⟨rfl, rfl, rfl, hi, ?_, _, _, rfl⟩
  simp only
  split
  · exact .inr rfl
  · exact .inl rfl

lemma Yields.range (h : f.Yields o s p) :
    p.start = s.leadingStart (f.packageDoc o.docTag) ∧ p.stop = s.stop := by
  obtain ⟨_, _, _, _, hp⟩ := h
  have hp := declarationPiece_eq_ok hp
  exact ⟨hp.1, hp.2.1⟩

lemma Yields.isGenerated (h : f.Yields o s p) : p.isGenerated = false := by
  obtain ⟨_, _, _, _, hp⟩ := h
  obtain ⟨-, -, -, -, -, refs, sideEffect, hr⟩ := declarationPiece_eq_ok hp
  simp [Piece.isGenerated, hr]

/-- What one statement does: it yields nothing, or a piece at a path that was free. -/
lemma share_eq_ok {part : Share} (h : f.share o dir a s = .ok (part, b)) :
    (isAccepted s = false ∧ part.piece? = none ∧ b = a) ∨
      ∃ p category k, isAccepted s = true ∧ part.piece? = some p ∧ f.Yields o s p ∧
        a.taken p.path = false ∧ b = a.reserve p.path ∧ p.category? = some category ∧
        p.path = Allocator.candidate (Path.join dir category.name) (Address.fileName p.symbol) o.extension k := by
  unfold share at h
  cases hv : verdict s with
  | silent =>
    simp only [hv] at h
    obtain ⟨rfl, rfl⟩ := Prod.mk.inj (Except.ok.inj h)
    exact .inl ⟨by simp [isAccepted, hv], rfl, rfl⟩
  | refused reason =>
    simp only [hv] at h
    obtain ⟨rfl, rfl⟩ := Prod.mk.inj (Except.ok.inj h)
    exact .inl ⟨by simp [isAccepted, hv], rfl, rfl⟩
  | accepted category id =>
    simp only [hv] at h
    obtain ⟨⟨path, c⟩, hal, h⟩ := bind_eq_ok_iff.mp h
    obtain ⟨p, hp, h⟩ := bind_eq_ok_iff.mp h
    obtain ⟨rfl, rfl⟩ := Prod.mk.inj (pure_eq_ok_iff.mp h)
    obtain ⟨hfree, hres, k, hk⟩ := Allocator.allocateFree_eq_ok hal
    obtain ⟨-, -, rfl, -, -, refs, sideEffect, hrole⟩ := declarationPiece_eq_ok hp
    refine .inr ⟨p, category, k, by simp [isAccepted, hv], rfl, ⟨category, id, p.path, hv, hp⟩, hfree, hres, ?_, ?_⟩
    · simp [Piece.category?, hrole]
    · simpa [Piece.symbol, hrole] using hk

/-- Each accepted statement yields one piece, in order, and every piece has a path that was free. -/
lemma shares_eq_ok {parts : List Share} {statements : List Statement}
    (h : f.shares o dir a statements = .ok parts) :
    List.Forall₂ (f.Yields o) (statements.filter isAccepted) (parts.filterMap Share.piece?) ∧
      (∀ p ∈ parts.filterMap Share.piece?, a.taken p.path = false ∧ ∃ (category : Category) (k : Nat),
        p.category? = some category ∧
        p.path = Allocator.candidate (Path.join dir category.name) (Address.fileName p.symbol) o.extension k) ∧
      (parts.filterMap Share.piece?).Pairwise (fun p q => p.path.lower ≠ q.path.lower) := by
  induction statements generalizing a parts with
  | nil =>
    obtain rfl : [] = parts := Except.ok.inj h
    simp
  | cons s rest ih =>
    unfold shares at h
    obtain ⟨⟨part, b⟩, hs, h⟩ := bind_eq_ok_iff.mp h
    obtain ⟨others, hr, h⟩ := bind_eq_ok_iff.mp h
    obtain rfl := pure_eq_ok_iff.mp h
    obtain ⟨hyield, hfree, hdistinct⟩ := ih hr
    rcases share_eq_ok hs with ⟨hacc, hpart, rfl⟩ | ⟨p, category, k, hacc, hpart, hp, hpfree, rfl, hplace⟩
    · simp only [List.filter_cons, hacc, Bool.false_eq_true, if_false, List.filterMap_cons, hpart]
      exact ⟨hyield, hfree, hdistinct⟩
    · simp only [List.filter_cons, hacc, if_true, List.filterMap_cons, hpart]
      refine ⟨.cons hp hyield, ?_, ?_⟩
      · intro q hq
        rcases List.mem_cons.mp hq with rfl | hq
        · exact ⟨hpfree, category, k, hplace⟩
        · have hq := hfree q hq
          simp only [Allocator.taken_reserve, Bool.or_eq_false_iff] at hq
          exact ⟨hq.1.2, hq.2⟩
      · refine List.pairwise_cons.mpr ⟨fun q hq => ?_, hdistinct⟩
        have hq := (hfree q hq).1
        simp only [Allocator.taken_reserve, Bool.or_eq_false_iff, decide_eq_false_iff_not] at hq
        exact fun he => hq.1 he.symm

/-- Files whose statements do the same, one by one, do the same. -/
lemma shares_congr {g : SourceFile} {statements others : List Statement}
    (h : List.Forall₂ (fun s s' => ∀ a, g.share o dir a s' = f.share o dir a s) statements others) (a : Allocator) :
    g.shares o dir a others = f.shares o dir a statements := by
  induction h generalizing a with
  | nil => rfl
  | cons hs _ ih => simp only [shares, hs, ih]

/-- The package piece, if there is one, has a path that is not that of the index. -/
lemma openingPieces_eq_ok {opening : List Piece} (h : f.openingPieces o dir = .ok (opening, a)) :
    (f.packageDoc o.docTag = none ∧ opening = [] ∧ a = Allocator.reserve {} (Path.join dir o.indexFile)) ∨
      ∃ doc path k, f.packageDoc o.docTag = some doc ∧
        opening = [{ start := doc.start, stop := doc.stop, path := path, role := .package }] ∧
        path.lower ≠ (Path.join dir o.indexFile).lower ∧ path = Allocator.candidate dir o.packageName o.extension k ∧
        a = (Allocator.reserve {} (Path.join dir o.indexFile)).reserve path := by
  unfold openingPieces at h
  simp only at h
  cases hp : f.packageDoc o.docTag with
  | none =>
    simp only [hp] at h
    obtain ⟨rfl, rfl⟩ := Prod.mk.inj (Except.ok.inj h)
    exact .inl ⟨rfl, rfl, rfl⟩
  | some doc =>
    simp only [hp] at h
    obtain ⟨⟨path, b⟩, hal, h⟩ := bind_eq_ok_iff.mp h
    obtain ⟨rfl, rfl⟩ := Prod.mk.inj (pure_eq_ok_iff.mp h)
    obtain ⟨hfree, hres, k, hk⟩ := Allocator.allocateFree_eq_ok hal
    simp only [Allocator.taken_reserve, Bool.or_eq_false_iff, decide_eq_false_iff_not] at hfree
    exact .inr ⟨doc, path, k, rfl, rfl, hfree.1, hk, hres⟩

lemma lift_eq_ok {α : Type} {x : Except Fault α} {r : α} (h : lift x = .ok r) : x = .ok r := by
  cases x with
  | error fault => cases h
  | ok a => exact congrArg _ (Except.ok.inj h)

/-- The parts of a decomposition. -/
lemma decompose_eq_ok {opts : Options} {d : Decomposition} (h : f.decompose opts = .ok d) :
    ∃ dir opening a parts index, Address.pieceDirectory opts.withDefaults f.path = .ok dir ∧
      f.openingPieces opts.withDefaults dir = .ok (opening, a) ∧
      f.shares opts.withDefaults dir a f.statements = .ok parts ∧
      f.indexContent dir (opening ++ parts.filterMap Share.piece?) = .ok index ∧
      d = {
        source := f.path
        dir := dir
        pieces := { path := Path.join dir opts.withDefaults.indexFile, role := .generated index } ::
          (opening ++ parts.filterMap Share.piece?).stableSort fun p q => decide (q.start ≤ p.start)
        skipped := parts.filterMap Share.skip? } := by
  unfold decompose at h
  obtain ⟨dir, hdir, h⟩ := bind_eq_ok_iff.mp h
  obtain ⟨⟨opening, a⟩, hop, h⟩ := bind_eq_ok_iff.mp h
  obtain ⟨parts, hs, h⟩ := bind_eq_ok_iff.mp h
  obtain ⟨index, hx, h⟩ := bind_eq_ok_iff.mp h
  exact ⟨dir, opening, a, parts, index, lift_eq_ok hdir, lift_eq_ok hop, lift_eq_ok hs, hx, (pure_eq_ok_iff.mp h).symm⟩

/-- The index holds the lines of the pieces, after those of the imports. -/
lemma indexContent_eq_ok {content : List Piece} {index : Text} (h : f.indexContent dir content = .ok index) :
    ∃ head lines, index = head ++ lines.flatten ∧
      List.Forall₂ (fun p line => pieceLine dir p = .ok line) content lines := by
  unfold indexContent at h
  obtain ⟨imports, -, h⟩ := bind_eq_ok_iff.mp h
  obtain ⟨lines, hlines, h⟩ := bind_eq_ok_iff.mp h
  exact ⟨_, lines, (pure_eq_ok_iff.mp h).symm, mapM_eq_ok_iff.mp hlines⟩

/-- The first piece is the index, with a line for each of the others. -/
lemma exists_indexLines {opts : Options} {d : Decomposition} (h : f.decompose opts = .ok d) :
    ∃ index order head lines, d.index? = some index ∧ index.role = .generated (head ++ lines.flatten) ∧
      order.Perm d.content ∧ List.Forall₂ (fun p line => pieceLine d.dir p = .ok line) order lines := by
  obtain ⟨dir, opening, a, parts, content, -, -, -, hindex, rfl⟩ := decompose_eq_ok h
  obtain ⟨head, lines, rfl, hlines⟩ := indexContent_eq_ok hindex
  exact ⟨_, _, head, lines, rfl, rfl, (List.stableSort_perm _ _).symm, hlines⟩

end

end SourceFile

lemma Options.extension_withDefaults_ne_nil (opts : Options) : opts.withDefaults.extension ≠ [] := by
  simp only [withDefaults, orElse]
  split
  · decide
  · next he => simpa using he

namespace Decomposition

/-- What is known of the pieces of a file before they are sorted: the package piece first, then one for
each accepted statement, at paths that differ also without regard to case. -/
structure Made (f : SourceFile) (o : Options) (d : Decomposition) (dir : Path) (opening pieces : List Piece) : Prop where
  dir_eq : d.dir = dir
  dir_ne_nil : dir ≠ []
  dir_clean : dir.clean = dir
  content_perm : d.content.Perm (opening ++ pieces)
  content_sorted : d.content.Pairwise fun p q => q.start ≤ p.start
  index_generated : ∀ p ∈ d.index?, p.isGenerated = true
  index_path : ∀ p ∈ d.index?, p.path = Path.join dir o.indexFile
  index_apart : ∀ p ∈ opening ++ pieces, p.path.lower ≠ (Path.join dir o.indexFile).lower
  opening_eq : (f.packageDoc o.docTag = none ∧ opening = []) ∨ ∃ doc path, f.packageDoc o.docTag = some doc ∧
    opening = [{ start := doc.start, stop := doc.stop, path := path, role := .package }]
  yields : List.Forall₂ (f.Yields o) (f.statements.filter SourceFile.isAccepted) pieces
  paths_distinct : (opening ++ pieces).Pairwise fun p q => p.path.lower ≠ q.path.lower
  placed : ∀ p ∈ pieces, ∃ (category : Category) (k : Nat), p.category? = some category ∧
    p.path = Allocator.candidate (Path.join dir category.name) (Address.fileName p.symbol) o.extension k
  path_eq_join : ∀ p ∈ opening ++ pieces, ∃ base file : Path, base ≠ [] ∧ file ≠ [] ∧ base.isAbs = dir.isAbs ∧
    p.path = Path.join base file

theorem exists_made {f : SourceFile} {opts : Options} {d : Decomposition} (h : f.decompose opts = .ok d) :
    ∃ dir opening pieces, Made f opts.withDefaults d dir opening pieces := by
  obtain ⟨dir, opening, a, parts, index, hdir, hop, hs, -, rfl⟩ := SourceFile.decompose_eq_ok h
  obtain ⟨hyield, hfree, hdistinct⟩ := SourceFile.shares_eq_ok hs
  have hne := Address.pieceDirectory_ne_nil hdir
  have hext := opts.extension_withDefaults_ne_nil
  have hopening := SourceFile.openingPieces_eq_ok hop
  refine ⟨dir, opening, parts.filterMap Share.piece?, rfl, hne, Address.clean_pieceDirectory hdir,
    List.stableSort_perm _ _, ?content_sorted,
    ?index_generated, ?index_path, ?index_apart, ?opening_eq, hyield, ?paths_distinct,
    fun p hp => (hfree p hp).2, ?path_eq_join⟩
  case content_sorted =>
    have hsorted : ((opening ++ parts.filterMap Share.piece?).stableSort
        fun p q => decide (q.start ≤ p.start)).Pairwise fun p q => decide (q.start ≤ p.start) = true :=
      List.pairwise_stableSort (by intro p q r; simp; omega) (by intro p q; simp; omega) _
    exact hsorted.imp fun hpq => by simpa using hpq
  case index_generated =>
    intro p hp
    obtain rfl := Option.some.inj hp
    rfl
  case index_path =>
    intro p hp
    obtain rfl := Option.some.inj hp
    rfl
  case index_apart =>
    intro p hp
    rcases List.mem_append.mp hp with hp | hp
    · rcases hopening with ⟨-, rfl, -⟩ | ⟨doc, path, k, -, rfl, hfirst, -⟩
      · simp at hp
      · rw [List.mem_singleton.mp hp]
        exact hfirst
    · have hp := (hfree p hp).1
      rcases hopening with ⟨-, -, rfl⟩ | ⟨doc, path, k, -, -, -, -, rfl⟩
      · simp only [Allocator.taken_reserve, Bool.or_eq_false_iff, decide_eq_false_iff_not] at hp
        exact hp.1
      · simp only [Allocator.taken_reserve, Bool.or_eq_false_iff, decide_eq_false_iff_not] at hp
        exact hp.2.1
  case opening_eq =>
    rcases hopening with ⟨hn, ho, -⟩ | ⟨doc, path, k, hd, ho, -⟩
    · exact .inl ⟨hn, ho⟩
    · exact .inr ⟨doc, path, hd, ho⟩
  case paths_distinct =>
    refine List.pairwise_append.mpr ⟨?_, hdistinct, ?_⟩
    · rcases hopening with ⟨-, rfl, -⟩ | ⟨doc, path, k, -, rfl, -⟩ <;> simp
    · intro p hp q hq
      rcases hopening with ⟨-, rfl, -⟩ | ⟨doc, path, k, -, rfl, -, -, rfl⟩
      · simp at hp
      · obtain rfl := List.mem_singleton.mp hp
        have hq := (hfree q hq).1
        simp only [Allocator.taken_reserve, Bool.or_eq_false_iff, decide_eq_false_iff_not] at hq
        exact fun he => hq.1 he.symm
  case path_eq_join =>
    intro p hp
    rcases List.mem_append.mp hp with hp | hp
    · rcases hopening with ⟨-, rfl, -⟩ | ⟨doc, path, k, -, rfl, -, rfl, -⟩
      · simp at hp
      · obtain rfl := List.mem_singleton.mp hp
        obtain ⟨file, hf, he⟩ := Allocator.exists_candidate_eq_join dir opts.withDefaults.packageName hext k
        exact ⟨dir, file, hne, hf, rfl, he⟩
    · obtain ⟨-, category, k, -, hk⟩ := hfree p hp
      obtain ⟨file, hf, he⟩ := Allocator.exists_candidate_eq_join (Path.join dir category.name) _ hext k
      have hcat : category.name ≠ [] := by cases category <;> decide
      exact ⟨Path.join dir category.name, file, Path.join_ne_nil dir hcat, hf, Path.isAbs_join hne _, hk.trans he⟩

/-- The pieces of a file have paths that differ also without regard to case. -/
lemma lower_paths_distinct {f : SourceFile} {opts : Options} {d : Decomposition} (h : f.decompose opts = .ok d) :
    d.pieces.Pairwise fun p q => p.path.lower ≠ q.path.lower := by
  obtain ⟨dir, opening, pieces, hm⟩ := exists_made h
  have hcontent : d.content.Pairwise fun p q => p.path.lower ≠ q.path.lower :=
    (hm.content_perm.pairwise_iff fun hpq => hpq.symm).mpr hm.paths_distinct
  have hindex : ∀ p ∈ d.index?, ∀ q ∈ d.content, p.path.lower ≠ q.path.lower := by
    intro p hp q hq
    rw [hm.index_path p hp]
    exact (hm.index_apart q (hm.content_perm.mem_iff.mp hq)).symm
  unfold content index? at *
  cases hp : d.pieces with
  | nil => exact .nil
  | cons index rest =>
    rw [hp] at hcontent hindex
    exact List.pairwise_cons.mpr ⟨hindex index rfl, hcontent⟩

/-- The pieces of a file have paths that are clean, all rooted or none, and differ. -/
theorem paths_apart {f : SourceFile} {opts : Options} {d : Decomposition} (h : f.decompose opts = .ok d) :
    (∃ rooted, ∀ p ∈ d.pieces, Path.clean p.path = p.path ∧ Path.isAbs p.path = rooted) ∧
      d.pieces.Pairwise fun p q => p.path ≠ q.path := by
  refine ⟨?_, (lower_paths_distinct h).imp fun hpq he => hpq (by rw [he])⟩
  obtain ⟨dir, opening, pieces, hm⟩ := exists_made h
  have hcontent : ∀ p ∈ d.content, Path.clean p.path = p.path ∧ Path.isAbs p.path = dir.isAbs := by
    intro p hp
    obtain ⟨base, file, hb, hfile, habs, hpath⟩ := hm.path_eq_join p (hm.content_perm.mem_iff.mp hp)
    rw [hpath]
    exact ⟨Path.clean_join base hfile, (Path.isAbs_join hb file).trans habs⟩
  have hindex : ∀ p ∈ d.index?, Path.clean p.path = p.path ∧ Path.isAbs p.path = dir.isAbs := by
    intro p hp
    have hfile : opts.withDefaults.indexFile ≠ [] := by
      simp [Options.indexFile, opts.extension_withDefaults_ne_nil]
    rw [hm.index_path p hp]
    exact ⟨Path.clean_join dir hfile, Path.isAbs_join hm.dir_ne_nil _⟩
  unfold content index? at *
  cases hp : d.pieces with
  | nil => exact ⟨true, by simp⟩
  | cons index rest =>
    rw [hp] at hcontent hindex
    refine ⟨dir.isAbs, fun p hmem => ?_⟩
    rcases List.mem_cons.mp hmem with rfl | hmem
    · exact hindex p rfl
    · exact hcontent p hmem

/-- The pieces lie where their root does. -/
lemma isAbs_of_mem_pieces {f : SourceFile} {opts : Options} {d : Decomposition} (h : f.decompose opts = .ok d)
    (hroot : opts.piecesRoot.isAbs = true) {q : Piece} (hq : q ∈ d.pieces) : q.path.isAbs = true := by
  obtain ⟨⟨rooted, hrooted⟩, -⟩ := paths_apart h
  obtain ⟨dir, opening, a, parts, index, hdir, -, -, -, rfl⟩ := SourceFile.decompose_eq_ok h
  have hindex : (Path.join dir opts.withDefaults.indexFile).isAbs = rooted :=
    (hrooted _ (List.mem_cons_self ..)).2
  rw [(hrooted q hq).2, ← hindex, Path.isAbs_join (Address.pieceDirectory_ne_nil hdir)]
  exact Address.isAbs_pieceDirectory hdir hroot

end Decomposition

end DeclPieces
