import DeclPieces.Proofs.Decomposition
import DeclPieces.Proofs.Markers
import DeclPieces.Proofs.ModuleReference
import DeclPieces.Proofs.TextOrder

/-! What a piece imports: each symbol it needs once, on the one line for the index of the file that declares the symbol
first. How often a statement refers to a symbol, and in which order, does not matter. -/
namespace DeclPieces

namespace SourceFile
variable {f : SourceFile} {o : Options} {s s' : Statement} {start stop : Int}

/-- No two references are to one name. -/
lemma pairwise_crossReferences (f : SourceFile) (o : Options) (s : Statement) (start stop : Int) :
    (f.crossReferences o s start stop).Pairwise fun a b => Text.lt a.target b.target = true := by
  have hlookup {id : SymbolId} {r : CrossReference} (hid : id ∈ f.usedSymbols s)
      (huse : f.useOf o start stop id = .imported r) : f.lookup r.target = some id := by
    obtain ⟨symbol, first, hneeds, rfl⟩ := useOf_eq_imported_iff_needs.mp ⟨hid, huse⟩
    exact hneeds.lookup_eq
  refine Text.pairwise_stableSort_lt CrossReference.target ?_
  rw [List.pairwise_filterMap, uses, List.pairwise_map]
  refine (List.nodup_eraseDups _ : (f.usedSymbols s).Nodup).imp_of_mem fun {id id'} hid hid' hne => ?_
  cases huse : f.useOf o start stop id <;> cases huse' : f.useOf o start stop id' <;>
    simp only [reduceCtorEq, false_implies, implies_true, Option.some.injEq, forall_eq']
  intro htarget
  have hsame := (hlookup hid huse).symm.trans (htarget ▸ hlookup hid' huse')
  exact hne (Option.some.inj hsame)

/-- The symbols that are needed, one for each reference. -/
lemma exists_needed (f : SourceFile) (o : Options) (s : Statement) (start stop : Int) :
    ∃ ids : List SymbolId, ids.Nodup ∧
      (∀ id, id ∈ ids ↔ ∃ symbol first, f.Needs o s start stop id symbol first) ∧
      List.Forall₂ (fun id r => ∃ symbol first, f.Needs o s start stop id symbol first ∧
        r = ⟨symbol.name, symbol.name, first.file⟩) ids (f.crossReferences o s start stop) := by
  have hneeds : ∀ r ∈ f.crossReferences o s start stop, ∃ symbol first,
      f.Needs o s start stop ((f.lookup r.target).getD 0) symbol first ∧ r = ⟨symbol.name, symbol.name, first.file⟩ := by
    intro r hr
    obtain ⟨id, symbol, first, h, rfl⟩ := mem_crossReferences_iff.mp hr
    exact ⟨symbol, first, by simpa [h.lookup_eq] using h, rfl⟩
  refine ⟨(f.crossReferences o s start stop).map fun r => (f.lookup r.target).getD 0, ?_, fun id => ⟨?_, ?_⟩, ?_⟩
  · rw [List.Nodup, List.pairwise_map]
    refine (pairwise_crossReferences f o s start stop).imp_of_mem fun {r r'} hr hr' hlt hsame => ?_
    obtain ⟨symbol, first, h, rfl⟩ := hneeds r hr
    obtain ⟨symbol', first', h', rfl⟩ := hneeds r' hr'
    obtain ⟨rfl, -⟩ := (hsame ▸ h).unique h'
    exact (Text.lt_iff.mp hlt).2 rfl
  · intro hid
    obtain ⟨r, hr, rfl⟩ := List.mem_map.mp hid
    obtain ⟨symbol, first, h, -⟩ := hneeds r hr
    exact ⟨symbol, first, h⟩
  · rintro ⟨symbol, first, h⟩
    have hr := mem_crossReferences_iff.mpr ⟨id, symbol, first, h, rfl⟩
    exact List.mem_map.mpr ⟨_, hr, by simp [h.lookup_eq]⟩
  · exact List.forall₂_map_left_iff.mpr (List.forall₂_same.mpr hneeds)

/-- Only which symbols a statement refers to matters. -/
lemma crossReferences_congr (h : ∀ x, x ∈ s'.references ↔ x ∈ s.references) :
    f.crossReferences o s' start stop = f.crossReferences o s start stop := by
  have hneeds (id : SymbolId) (symbol : Symbol) (first : Declaration) :
      f.Needs o s' start stop id symbol first ↔ f.Needs o s start stop id symbol first :=
    ⟨fun n => { n with used := (h _).mp n.used }, fun n => { n with used := (h _).mpr n.used }⟩
  refine Text.eq_of_pairwise_lt CrossReference.target (pairwise_crossReferences f o s' start stop)
    (pairwise_crossReferences f o s start stop) fun r => ?_
  simp only [mem_crossReferences_iff, hneeds]

end SourceFile

/-- Do the statements differ at most in how often and in which order they refer to symbols? -/
def Statement.SameUses (s s' : Statement) : Prop :=
  s' = { s with references := s'.references } ∧ ∀ x, x ∈ s'.references ↔ x ∈ s.references

namespace SourceFile
variable {f : SourceFile} {o : Options} {s s' : Statement}

lemma share_congr (h : s.SameUses s') (dir : Path) (a : Allocator) : f.share o dir a s' = f.share o dir a s := by
  obtain ⟨heq, hmem⟩ := h
  have hrefs (start stop : Int) : f.crossReferences o s' start stop = f.crossReferences o s start stop :=
    crossReferences_congr hmem
  rw [heq] at hrefs ⊢
  have hverdict : verdict { s with references := s'.references } = verdict s := rfl
  have hstart (doc : Option Comment) :
      { s with references := s'.references }.leadingStart doc = s.leadingStart doc := rfl
  simp only [share, hverdict, declarationPiece, hstart, hrefs]

/-- References that come again, or in another order, make no other pieces. -/
lemma decompose_congr (f : SourceFile) {statements : List Statement}
    (h : List.Forall₂ Statement.SameUses f.statements statements) (opts : Options) :
    ({ f with statements := statements } : SourceFile).decompose opts = f.decompose opts := by
  have hshares (o : Options) (dir : Path) (a : Allocator) :
      ({ f with statements := statements } : SourceFile).shares o dir a statements = f.shares o dir a f.statements :=
    shares_congr (h.imp fun _ _ hs a => share_congr hs dir a) a
  have hopening (o : Options) (dir : Path) :
      ({ f with statements := statements } : SourceFile).openingPieces o dir = f.openingPieces o dir := rfl
  have hindex (dir : Path) (content : List Piece) :
      ({ f with statements := statements } : SourceFile).indexContent dir content = f.indexContent dir content := rfl
  simp only [decompose, hshares, hopening, hindex]

end SourceFile

namespace Address
open Path

/-- Does the module path lead from the directory to the file, whose ending it may leave out? -/
def Reaches (folder : Path) (module : Text) (target : Path) : Prop :=
  join folder module = target ∨ ∃ e ∈ suffixes, target = join folder module ++ e

instance (folder : Path) (module : Text) (target : Path) : Decidable (Reaches folder module target) :=
  inferInstanceAs (Decidable (_ ∨ _))

/-- A path that a module path can tell: it is not all climbs, it has no backslash, and what is left of its last name
without an ending is still a name. -/
structure Referable (target : Path) : Prop where
  named : target.Named
  no_backslash : 92 ∉ target
  stem : ∀ e ∈ suffixes, (base target).hasSuffix e = true → Plain ((base target).dropSuffix e)

lemma Referable.reaches {source target : Path} {m : Text} (h : Referable target) (hs : source ≠ [])
    (hclean : target.clean = target) (hm : moduleReference source target = .ok m) : Reaches source m target :=
  (join_moduleReference hs h.named hclean h.no_backslash (plain_of_ending h.stem) hm).2

lemma clean_indexPath {o : Options} {file index : Path} (h : indexPath o file = .ok index) : index.clean = index := by
  obtain ⟨dir, -, rfl⟩ := exists_of_map_eq_ok h
  exact clean_join dir (by simp [Options.indexFile, o.extension_withDefaults_ne_nil])

end Address

section Lines
variable {o : Options} {path : Path} {refs : List CrossReference} {entries : List (Text × Text)}

/-- The lines that import `refs` into the piece at `path`, each given by its module and its names: one for each module,
and each name on the one that leads to the index of the file it is from. -/
structure ImportLines (o : Options) (path : Path) (refs : List CrossReference) (lines : List (Text × List Text)) :
    Prop where
  modules_increasing : lines.Pairwise fun l l' => Text.lt l.1 l'.1 = true
  names_increasing : ∀ l ∈ lines, l.2.Pairwise fun a b => Text.lt a b = true
  nothing_else : ∀ l ∈ lines, l.2 ≠ [] ∧ ∀ name ∈ l.2, ∃ r ∈ refs, r.target = name
  once : ∀ r ∈ refs, ∃! l, l ∈ lines ∧ r.target ∈ l.2
  leads : ∀ r ∈ refs, ∀ l ∈ lines, r.target ∈ l.2 → ∃ index, Address.indexPath o r.file = .ok index ∧
    Address.moduleReference (Path.dir path) index = .ok l.1 ∧
      (Address.Referable index → Address.Reaches (Path.dir path) l.1 index)

lemma pairwise_groupByKey (entries : List (Text × Text)) :
    (groupByKey entries).Pairwise fun g g' => Text.lt g.1 g'.1 = true := by
  rw [groupByKey, List.pairwise_map]
  exact Text.pairwise_stableSort_lt id (List.nodup_eraseDups _)

/-- References to different names, each under its own name, are grouped by the modules they come from. -/
lemma importLines_of_adds (h : List.Forall₂ (Adds o path) refs entries) (hclause : ∀ r ∈ refs, r.clause = r.target)
    (hrefs : refs.Pairwise fun r r' => Text.lt r.target r'.target = true) :
    ImportLines o path refs (groupByKey entries) := by
  have hnames : entries.map (·.2) = refs.map (·.target) := by
    have hclauses : List.Forall₂ (· = ·) (refs.map (·.clause)) (entries.map (·.2)) := by
      refine List.forall₂_map_left_iff.mpr (List.forall₂_map_right_iff.mpr (h.imp ?_))
      rintro r e ⟨_, -, -, he⟩
      exact he.symm
    rw [List.forall₂_eq_eq_eq] at hclauses
    rw [← hclauses]
    exact List.map_congr_left hclause
  have hsorted : (entries.map (·.2)).Pairwise fun a b => Text.lt a b = true := hnames ▸ List.pairwise_map.mpr hrefs
  have hunique : ∀ e ∈ entries, ∀ e' ∈ entries, e.2 = e'.2 → e = e' :=
    fun e he e' he' => List.inj_on_of_nodup_map hsorted.nodup he he'
  have hadds : ∀ r ∈ refs, ∃ e ∈ entries, Adds o path r e ∧ e.2 = r.target := by
    intro r hr
    obtain ⟨e, he, hadd⟩ := h.flip.exists_of_mem hr
    obtain ⟨_, -, -, heq⟩ := id hadd
    exact ⟨e, he, hadd, heq.trans (hclause r hr)⟩
  have hgroup : ∀ l ∈ groupByKey entries, ∀ r ∈ refs, r.target ∈ l.2 → Adds o path r (l.1, r.target) := by
    intro l hl r hr hname
    obtain ⟨e, he, hadd, heq⟩ := hadds r hr
    rwa [hunique _ ((mem_group_iff hl).mp hname) e he heq.symm]
  refine ⟨pairwise_groupByKey entries, fun l hl => ?_, fun l hl => ⟨?_, fun name hname => ?_⟩, fun r hr => ?_, ?_⟩
  · rw [(mem_groupByKey_iff.mp hl).2]
    exact hsorted.sublist (List.filter_sublist.map _)
  · obtain ⟨e, he, hkey⟩ := List.mem_map.mp (mem_groupByKey_iff.mp hl).1
    have hmem : (l.1, e.2) ∈ entries := by rwa [← hkey]
    exact List.ne_nil_of_mem ((mem_group_iff hl).mpr hmem)
  · obtain ⟨r, hr, _, -, -, heq⟩ := h.exists_of_mem ((mem_group_iff hl).mp hname)
    exact ⟨r, hr, ((hclause r hr).symm.trans heq.symm)⟩
  · obtain ⟨e, he, -, heq⟩ := hadds r hr
    have hl : (e.1, _) ∈ groupByKey entries := mem_groupByKey_iff.mpr ⟨List.mem_map_of_mem he, rfl⟩
    refine ⟨_, ⟨hl, (mem_group_iff hl).mpr (heq ▸ he)⟩, ?_⟩
    rintro ⟨module, names⟩ ⟨hl', hname⟩
    obtain rfl := hunique _ ((mem_group_iff hl').mp hname) e he heq.symm
    exact Prod.ext rfl (mem_groupByKey_iff.mp hl').2
  · intro r hr l hl hname
    obtain ⟨index, hindex, hmodule, -⟩ := hgroup l hl r hr hname
    refine ⟨index, hindex, hmodule, fun hreferable => ?_⟩
    exact hreferable.reaches (Path.clean_ne_nil _) (Address.clean_indexPath hindex) hmodule

end Lines

namespace SourceFile

/-- A piece refers to the symbols that it needs, to each once and in the order of their names. If it can import them, each
name is on just one line: the one with the module path from the piece to the index of the file that declares the symbol
first, which leads to that index if a module path can. Statements that refer to the same symbols make the same pieces. -/
theorem crossReferences_imported_once (f : SourceFile) (o : Options) (s : Statement) (start stop : Int) :
    (∃ ids : List SymbolId, ids.Nodup ∧
      (∀ id, id ∈ ids ↔ ∃ symbol first, f.Needs o s start stop id symbol first) ∧
      List.Forall₂ (fun id r => ∃ symbol first, f.Needs o s start stop id symbol first ∧
        r = ⟨symbol.name, symbol.name, first.file⟩) ids (f.crossReferences o s start stop)) ∧
    ((f.crossReferences o s start stop).Pairwise fun r r' => Text.lt r.target r'.target = true) ∧
    (∀ path t, importText o (f.crossReferences o s start stop) path = .ok t →
      ∃ lines, t = Text.joinWith [Text.newline] (lines.map fun l => importLine o l.1 l.2) ∧
        ImportLines o path (f.crossReferences o s start stop) lines) ∧
    ∀ statements, List.Forall₂ Statement.SameUses f.statements statements →
      ∀ opts, ({ f with statements := statements } : SourceFile).decompose opts = f.decompose opts := by
  have hsorted := pairwise_crossReferences f o s start stop
  refine ⟨exists_needed f o s start stop, hsorted, fun path t ht => ?_, fun statements h opts => decompose_congr f h opts⟩
  obtain ⟨entries, hadds, rfl⟩ := importText_eq_ok ht
  refine ⟨groupByKey entries, rfl, importLines_of_adds hadds (fun r hr => ?_) hsorted⟩
  obtain ⟨id, symbol, first, -, rfl⟩ := mem_crossReferences_iff.mp hr
  simp [CrossReference.clause]

/-- Symbols of two other files, one that the statement declares itself, one from outside and one without declarations. -/
def sharedSymbols : List Symbol :=
  [⟨"B", [⟨"t/a/b.ts", 4, 8⟩]⟩, ⟨"A", [⟨"t/a/b.ts", 0, 4⟩, ⟨"t/x.ts", 20, 24⟩]⟩, ⟨"C", [⟨"t/x.ts", 2, 5⟩]⟩,
    ⟨"D", [⟨"lib/d.ts", 0, 4⟩]⟩, ⟨"E", []⟩, ⟨"A", [⟨"t/x.ts", 6, 7⟩]⟩]

/-- A statement that refers to all of them, some of them twice. -/
def sharingStatement : Statement :=
  { kind := .interface, start := 0, stop := 9, symbol := some 2,
    references := [some 0, none, some 1, some 0, some 5, some 2, some 3, some 4] }

def sharingFile : SourceFile :=
  { path := "t/x.ts", text := "", symbols := sharedSymbols, statements := [sharingStatement],
    scope := [("A", 1), ("B", 0), ("C", 2), ("D", 3), ("E", 4)] }

def nearRoots : Options := { translatedRoot := "t", piecesRoot := "p", importMarker := Options.importMarkerDefault }

theorem shared_symbols_imported :
    sharingFile.crossReferences nearRoots sharingStatement 0 9 = [⟨"A", "A", "t/a/b.ts"⟩, ⟨"B", "B", "t/a/b.ts"⟩] ∧
    importText nearRoots [⟨"A", "A", "t/a/b.ts"⟩, ⟨"B", "B", "t/a/b.ts"⟩] "p/x/interfaces/C.d.ts" =
      .ok "/*@piece-import*/ import \x7b A, B \x7d from '../../a/b/index';" ∧
    Address.Reaches "p/x/interfaces" "../../a/b/index" "p/a/b/index.d.ts" ∧
    ∀ references, (∀ x, x ∈ references ↔ x ∈ sharingStatement.references) →
      ({ sharingFile with statements := [{ sharingStatement with references := references }] } : SourceFile).decompose
        nearRoots = sharingFile.decompose nearRoots := by
  have hfacts : sharingFile.crossReferences nearRoots sharingStatement 0 9 =
        [⟨"A", "A", "t/a/b.ts"⟩, ⟨"B", "B", "t/a/b.ts"⟩] ∧
      importText nearRoots [⟨"A", "A", "t/a/b.ts"⟩, ⟨"B", "B", "t/a/b.ts"⟩] "p/x/interfaces/C.d.ts" =
        .ok "/*@piece-import*/ import \x7b A, B \x7d from '../../a/b/index';" ∧
      Address.indexPath nearRoots "t/a/b.ts" = .ok "p/a/b/index.d.ts" ∧
      Address.moduleReference (Path.dir "p/x/interfaces/C.d.ts") "p/a/b/index.d.ts" = .ok "../../a/b/index" := by
    decide +kernel
  obtain ⟨hrefs, htext, hpath, hway⟩ := hfacts
  obtain ⟨-, -, himport, hsame⟩ := crossReferences_imported_once sharingFile nearRoots sharingStatement 0 9
  obtain ⟨lines, -, hlines⟩ := himport "p/x/interfaces/C.d.ts" _ (by rw [hrefs]; exact htext)
  rw [hrefs] at hlines
  obtain ⟨l, ⟨hl, hname⟩, -⟩ := hlines.once _ (List.mem_cons_self ..)
  obtain ⟨index, hindex, hmodule, hreaches⟩ := hlines.leads _ (List.mem_cons_self ..) l hl hname
  obtain rfl := Except.ok.inj (hpath.symm.trans hindex)
  have hfirst := Except.ok.inj (hway.symm.trans hmodule)
  have hreferable : Address.Referable "p/a/b/index.d.ts" :=
    ⟨.inr ⟨"p", by decide +kernel, by decide⟩, by decide +kernel, by decide +kernel⟩
  have hreach := hreaches hreferable
  rw [← hfirst] at hreach
  refine ⟨hrefs, htext, hreach, fun references h => ?_⟩
  exact hsame _ (.cons ⟨rfl, h⟩ .nil) nearRoots

/-- Symbols of two files whose names differ in a slash. -/
def slashedFile : SourceFile :=
  { path := "t/x.ts", text := "", symbols := [⟨"A", [⟨"t/a\\b.ts", 0, 1⟩]⟩, ⟨"B", [⟨"t/a/b.ts", 0, 1⟩]⟩],
    scope := [("A", 0), ("B", 1)] }

def bothSymbols : Statement := { kind := .typeAlias, start := 0, stop := 1, references := [some 0, some 1] }

/-- A backslash is written as a slash, a name of dots is lost with its ending, and out of climbs there is no way up: the
line leads elsewhere. -/
theorem import_line_misses_index :
    (slashedFile.crossReferences nearRoots bothSymbols 0 1 = [⟨"A", "A", "t/a\\b.ts"⟩, ⟨"B", "B", "t/a/b.ts"⟩] ∧
      importText nearRoots [⟨"A", "A", "t/a\\b.ts"⟩, ⟨"B", "B", "t/a/b.ts"⟩] "p/x/types/C.d.ts" =
        .ok "/*@piece-import*/ import \x7b A, B \x7d from '../../a/b/index';" ∧
      Address.indexPath nearRoots "t/a\\b.ts" = .ok "p/a\\b/index.d.ts" ∧
      ¬ Address.Reaches "p/x/types" "../../a/b/index" "p/a\\b/index.d.ts") ∧
    (importText { nearRoots with indexName := "." } [⟨"B", "B", "t/a/b.ts"⟩] "p/x/types/C.d.ts" =
        .ok "/*@piece-import*/ import \x7b B \x7d from '../../a/b/.';" ∧
      Address.indexPath { nearRoots with indexName := "." } "t/a/b.ts" = .ok "p/a/b/..d.ts" ∧
      ¬ Address.Reaches "p/x/types" "../../a/b/." "p/a/b/..d.ts") ∧
    importText { nearRoots with piecesRoot := "..", extension := "/../../.." } [⟨"B", "B", "t/a/b.ts"⟩] "../../C" =
        .ok "/*@piece-import*/ import \x7b B \x7d from '..';" ∧
      Address.indexPath { nearRoots with piecesRoot := "..", extension := "/../../.." } "t/a/b.ts" = .ok ".." ∧
      ¬ Address.Reaches "../.." ".." ".." := by
  decide +kernel

end SourceFile

end DeclPieces
