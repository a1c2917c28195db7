import DeclPieces.Proofs.Emission
import DeclPieces.Proofs.Layout
import DeclPieces.Proofs.Markers

/-! Splitting a file, writing its pieces and folding them back gives the file again. -/
namespace DeclPieces
open Text

namespace SourceFile

/-- No marker, name or path has a line break in it. -/
structure OneLine (f : SourceFile) (o : Options) : Prop where
  importMarker : newline ∉ o.importMarker
  exportMarker : newline ∉ o.exportMarker
  piecesRoot : newline ∉ o.piecesRoot
  indexFile : newline ∉ o.indexFile
  symbols : ∀ s ∈ f.symbols, newline ∉ s.name ∧ ∀ d ∈ s.decls, newline ∉ d.file

instance (f : SourceFile) (o : Options) : Decidable (f.OneLine o) :=
  decidable_of_iff (newline ∉ o.importMarker ∧ newline ∉ o.exportMarker ∧ newline ∉ o.piecesRoot ∧
      newline ∉ o.indexFile ∧ ∀ s ∈ f.symbols, newline ∉ s.name ∧ ∀ d ∈ s.decls, newline ∉ d.file)
    ⟨fun ⟨himport, hexport, hroot, hindex, hsymbols⟩ => ⟨himport, hexport, hroot, hindex, hsymbols⟩,
      fun h => ⟨h.importMarker, h.exportMarker, h.piecesRoot, h.indexFile, h.symbols⟩⟩

section
variable {f : SourceFile} {o : Options} {s : Statement}

lemma mem_symbols_of_symbol? {id : SymbolId} {symbol : Symbol} (h : f.symbol? id = some symbol) :
    symbol ∈ f.symbols := List.mem_of_getElem? h

lemma OneLine.reference (h : f.OneLine o) {start stop : Int} {r : CrossReference}
    (hr : r ∈ f.crossReferences o s start stop) :
    newline ∉ r.source ∧ newline ∉ r.target ∧ newline ∉ r.file := by
  obtain ⟨_, symbol, first, hneeds, rfl⟩ := mem_crossReferences_iff.mp hr
  obtain ⟨hname, hfile⟩ := h.symbols symbol (mem_symbols_of_symbol? hneeds.symbol_eq)
  exact ⟨hname, hname, hfile first (List.mem_of_head? hneeds.first_eq)⟩

lemma OneLine.symbol? (h : f.OneLine o) (id : SymbolId) : newline ∉ ((f.symbol? id).getD ⟨[], []⟩).name := by
  cases hs : f.symbol? id with
  | none => simp
  | some symbol => exact (h.symbols symbol (mem_symbols_of_symbol? hs)).1

/-- The lines around the text of a declaration are all marked. -/
lemma Yields.marked {opts : Options} {p : Piece} (h : f.OneLine opts.withDefaults)
    (hp : f.Yields opts.withDefaults s p) :
    (p.importText = [] ∨ Marked opts.withDefaults p.importText) ∧
      (p.exportText = [] ∨ Marked opts.withDefaults p.exportText) := by
  obtain ⟨category, id, path, -, hp⟩ := hp
  obtain ⟨-, -, -, himport, hexport, -⟩ := declarationPiece_eq_ok hp
  constructor
  · refine importText_marked himport h.importMarker h.piecesRoot ?_ fun r hr => h.reference hr
    rw [Options.withDefaults_withDefaults]
    exact h.indexFile
  · refine hexport.imp_right fun he => ?_
    rw [he]
    exact exportText_marked _ _ h.exportMarker (h.symbol? id)

end

end SourceFile

lemma Piece.render?_eq {p : Piece} (h : p.isGenerated = false) (source : Text) :
    p.render? source = (source.slice? p.start p.stop).map p.wrap := by
  unfold Piece.isGenerated at h
  unfold Piece.render?
  cases hrole : p.role with
  | generated content => simp [hrole] at h
  | package => rfl
  | declared symbol kind category references sideEffect => rfl

namespace Decomposition
variable {f : SourceFile} {opts : Options} {d : Decomposition} {p : Piece}

/-- Can the pieces be told from the lines around them: does no piece start or end with white space, and
has none a marked line? -/
def Clear (d : Decomposition) (o : Options) (text : Text) : Prop :=
  ∀ p ∈ d.content, ∀ body ∈ text.slice? p.start p.stop, Trimmed body ∧ Unmarked o body

instance (d : Decomposition) (o : Options) (text : Text) : Decidable (d.Clear o text) :=
  inferInstanceAs (Decidable (∀ p ∈ d.content, ∀ body ∈ text.slice? p.start p.stop, Trimmed body ∧ Unmarked o body))

lemma slice?_of_mem (hf : f.Laid) (hd : f.decompose opts = .ok d) (hp : p ∈ d.content) :
    f.text.slice? p.start p.stop = some ((f.text.take p.stop.toNat).drop p.start.toNat) := by
  have hr := (mergeable_of_laid hf hd).range p hp
  exact if_pos ⟨hr.1, by omega, hr.2.2⟩

/-- What is written for a piece comes back as the text that the piece was cut from. -/
theorem stripMarkers_render (hf : f.Laid) (hd : f.decompose opts = .ok d)
    (hclear : d.Clear opts.withDefaults f.text) (hline : f.OneLine opts.withDefaults) (hp : p ∈ d.content)
    {data : Text} (hr : p.render? f.text = some data) :
    stripMarkers opts data = (f.text.take p.stop.toNat).drop p.start.toNat := by
  obtain ⟨dir, opening, pieces, hm⟩ := exists_made hd
  have hslice := slice?_of_mem hf hd hp
  obtain ⟨htrim, hunmarked⟩ := hclear p hp _ hslice
  have hwrap : p.render? f.text = some (p.wrap ((f.text.take p.stop.toNat).drop p.start.toNat)) := by
    rw [Piece.render?_eq (hm.origin hp).1, hslice, Option.map_some]
  obtain rfl := Option.some.inj (hwrap.symm.trans hr)
  have hmarked : (p.importText = [] ∨ Marked opts.withDefaults p.importText) ∧
      (p.exportText = [] ∨ Marked opts.withDefaults p.exportText) := by
    rcases List.mem_append.mp (hm.content_perm.mem_iff.mp hp) with hp | hp
    · rcases hm.opening_eq with ⟨-, rfl⟩ | ⟨doc, path, -, rfl⟩
      · simp at hp
      · rw [List.mem_singleton.mp hp]
        exact ⟨.inl rfl, .inl rfl⟩
    · obtain ⟨s, -, hs⟩ := hm.yields.exists_of_mem hp
      exact hs.marked hline
  exact stripMarkers_wrap opts p _ hmarked.1 hmarked.2 hunmarked htrim

end Decomposition

namespace Memory

/-- Different paths that are clean, both rooted or neither, are stored apart, except `.` and `..`. -/
lemma canonical_ne {p q : Path} (hp : p.clean = p) (hq : q.clean = q) (habs : p.isAbs = q.isAbs) (hne : p ≠ q)
    (hroot : ¬ (p = Path.dot ∧ q = Path.dotDot)) (hroot' : ¬ (q = Path.dot ∧ p = Path.dotDot)) :
    canonical p ≠ canonical q := by
  have hslash {r : Path} (hr : r.isAbs = true) : r ≠ Path.dot ∧ r ≠ Path.dotDot := by
    constructor <;> rintro rfl <;> cases hr
  unfold canonical
  simp only [hp, hq, Bool.or_eq_true, decide_eq_true_eq]
  split <;> split
  · next h h' =>
    rcases h with rfl | rfl <;> rcases h' with rfl | rfl <;> simp_all
  · next h h' =>
    intro he
    subst he
    exact absurd h (by simpa using hslash habs)
  · next h h' =>
    intro he
    subst he
    exact absurd h' (by simpa using hslash habs.symm)
  · exact hne

end Memory

namespace Decomposition

section
variable {f : SourceFile} {opts : Options} {d : Decomposition} {m m' : Memory}

/-- Memory keeps the pieces of a file at different places, unless `.` and `..` are both among their paths. -/
lemma places_apart (hd : f.decompose opts = .ok d)
    (hroot : ¬ (Path.dot ∈ d.content.map (·.path) ∧ Path.dotDot ∈ d.content.map (·.path))) :
    d.content.Pairwise fun p q => Memory.canonical p.path ≠ Memory.canonical q.path := by
  obtain ⟨⟨rooted, hclean⟩, hdistinct⟩ := paths_apart hd
  refine (hdistinct.sublist (List.drop_sublist 1 _)).imp_of_mem fun {p q} hp hq hne => ?_
  have mem {r : Piece} (hr : r ∈ d.content) : r.path ∈ d.content.map (·.path) := List.mem_map.mpr ⟨r, hr, rfl⟩
  have hp' := hclean p (List.mem_of_mem_drop hp)
  have hq' := hclean q (List.mem_of_mem_drop hq)
  refine Memory.canonical_ne hp'.1 hq'.1 (hp'.2.trans hq'.2.symm) hne ?_ ?_
  · rintro ⟨hdot, hdots⟩
    exact hroot ⟨hdot ▸ mem hp, hdots ▸ mem hq⟩
  · rintro ⟨hdot, hdots⟩
    exact hroot ⟨hdot ▸ mem hq, hdots ▸ mem hp⟩

/-- Each piece that is written can be read as it was rendered. -/
lemma exists_read_of_write {text : Text}
    (hplaces : d.content.Pairwise fun p q => Memory.canonical p.path ≠ Memory.canonical q.path)
    (hopen : ∀ p ∈ d.content, m.isBroken .opening p.path = false) (hw : d.write text m = (.ok (), m')) :
    ∀ p ∈ d.content, ∃ data, p.render? text = some data ∧ Storage.read m' p.path = .content data := by
  have hwrite := write_eq_ok hw
  have hbroken : m'.broken = m.broken := by
    rw [← Memory.broken_writePieces text d.pieces m, hwrite]
  intro p hp
  have hstored : ∃ content, p.render? text = some content ∧ m'.Holds p.path content := by
    cases hpieces : d.pieces with
    | nil => simp [content, hpieces] at hp
    | cons index rest =>
      rw [hpieces] at hwrite
      obtain ⟨s, -, hrest⟩ := writePieces_cons_eq_ok hwrite
      simp only [content, hpieces, List.drop_succ_cons, List.drop_zero] at hplaces hp
      exact Memory.writePieces_holds hplaces hrest p hp
  obtain ⟨data, hr, hholds⟩ := hstored
  refine ⟨data, hr, hholds.read_eq ?_⟩
  have ho := hopen p hp
  unfold Memory.isBroken at ho ⊢
  rwa [hbroken]

/-- A file whose pieces are written to memory and folded back from there comes back byte for byte, with
every piece applied. The pieces may start or end anywhere but in white space and may hold any line that
does not look marked; and not both `.` and `..` may be paths of pieces, since memory keeps them at one
place. -/
theorem merge_write_eq_text (hf : f.Laid) (hd : f.decompose opts = .ok d)
    (hclear : d.Clear opts.withDefaults f.text) (hline : f.OneLine opts.withDefaults)
    (hroot : ¬ (Path.dot ∈ d.content.map (·.path) ∧ Path.dotDot ∈ d.content.map (·.path)))
    (hopen : ∀ p ∈ d.content, m.isBroken .opening p.path = false)
    (hw : d.write f.text m = (.ok (), m')) :
    d.merge opts (Storage.read m') f.text =
      .ok { text := f.text, applied := d.content.length, missing := [], changed := false } := by
  have hmergeable := mergeable_of_laid hf hd
  have hread := exists_read_of_write (places_apart hd hroot) hopen hw
  have hpresent : ∀ p ∈ d.content, Merged.isPresent (Storage.read m') p = true := by
    intro p hp
    obtain ⟨data, -, hdata⟩ := hread p hp
    simp [Merged.isPresent, hdata]
  have hreadable : ∀ p ∈ d.content, Merged.isUnreadable (Storage.read m') p = false := by
    intro p hp
    obtain ⟨data, -, hdata⟩ := hread p hp
    simp [Merged.isUnreadable, hdata]
  have hreturns : ∀ p ∈ d.content, Merged.Returns opts (Storage.read m') f.text p := by
    intro p hp data hdata
    obtain ⟨data', hr, hdata'⟩ := hread p hp
    obtain rfl : data' = data := by
      rw [hdata'] at hdata
      exact Reading.content.inj hdata
    exact stripMarkers_render hf hd hclear hline hp hr
  have hall : d.content.filter (Merged.isPresent (Storage.read m')) = d.content := List.filter_eq_self.mpr hpresent
  have hnone : d.content.filter (fun p => !Merged.isPresent (Storage.read m') p) = [] :=
    List.filter_eq_nil_iff.mpr fun p hp => by simp [hpresent p hp]
  have hmerge : d.merge opts (Storage.read m') f.text = .ok
      { text := f.text
        applied := (d.cut.filter (Merged.isPresent (Storage.read m'))).length
        missing := (d.cut.filter fun p => !Merged.isPresent (Storage.read m') p).map (·.path)
        changed := false } := by
    refine merge_eq_self hmergeable.descending ?_ ?_ <;> rw [hmergeable.cut_eq]
    · exact hreadable
    · exact hreturns
  rw [hmerge, hmergeable.cut_eq, hall, hnone]
  rfl

end

/-- Two declarations, the first with its documentation and the second referring to the first. -/
def sampleFile : SourceFile :=
  { path := "t/x.d.ts"
    text := "/** a */\ntype A=1\n\ntype B=A\n"
    symbols := [⟨"A", [⟨"t/x.d.ts", 9, 17⟩]⟩, ⟨"B", [⟨"t/x.d.ts", 19, 27⟩]⟩]
    statements := [
      { kind := .typeAlias, start := 9, stop := 17, symbol := some 0, docs := [⟨0, 8, "/** a */"⟩] },
      { kind := .typeAlias, start := 19, stop := 27, symbol := some 1, references := [some 0] }]
    docs := [⟨0, 8, "/** a */"⟩]
    scope := [("A", 0), ("B", 1)] }

def sampleOptions : Options := { translatedRoot := "t", piecesRoot := "p" }

def samplePieces : Decomposition :=
  { source := "t/x.d.ts"
    dir := "p/x"
    pieces := [
      { path := "p/x/index.d.ts"
        role := .generated "export \x7b A \x7d from './types/A';\nexport \x7b B \x7d from './types/B';\n" },
      { start := 19, stop := 27, path := "p/x/types/B.d.ts"
        importText := "/*@piece-import*/ import \x7b A \x7d from '../index';"
        exportText := "/*@piece-export*/ export \x7b B \x7d;"
        role := .declared "B" .typeAlias .types [⟨"A", "A", "t/x.d.ts"⟩] false },
      { start := 0, stop := 17, path := "p/x/types/A.d.ts"
        exportText := "/*@piece-export*/ export \x7b A \x7d;"
        role := .declared "A" .typeAlias .types [] false }] }

lemma sampleFile_laid : sampleFile.Laid where
  node_range := by decide +kernel
  doc_range := by decide +kernel
  nodes_apart := by decide +kernel
  docs_apart := by decide +kernel
  docs_nodes_apart := by decide +kernel
  docs_run := by
    intro before s after h
    have hnodes : sampleFile.nodes = sampleFile.statements := by decide +kernel
    rw [hnodes] at h
    rcases before with _ | ⟨a, _ | ⟨b, rest⟩⟩
    · obtain ⟨rfl, -⟩ := List.cons.inj h
      refine ⟨by simp, 0, fun c => ?_⟩
      simp only [sampleFile, List.mem_singleton]
      constructor
      · rintro rfl
        decide
      · exact fun hc => hc.1
    · obtain ⟨rfl, htail⟩ := List.cons.inj h
      obtain ⟨rfl, -⟩ := List.cons.inj htail
      refine ⟨by simp, 0, fun c => ?_⟩
      simp only [sampleFile, List.mem_singleton, List.not_mem_nil, false_iff]
      rintro ⟨rfl, hc⟩
      revert hc
      decide
    · simp [sampleFile] at h

theorem merge_write_sample : sampleFile.decompose sampleOptions = .ok samplePieces ∧
    samplePieces.merge sampleOptions (Storage.read (samplePieces.write sampleFile.text ({} : Memory)).2)
      sampleFile.text = .ok { text := sampleFile.text, applied := 2, missing := [], changed := false } := by
  have hfacts : sampleFile.decompose sampleOptions = .ok samplePieces ∧
      (samplePieces.write sampleFile.text ({} : Memory)).1 = .ok () ∧
      samplePieces.Clear sampleOptions.withDefaults sampleFile.text ∧
      sampleFile.OneLine sampleOptions.withDefaults := by decide +kernel
  obtain ⟨hd, hw, hclear, hline⟩ := hfacts
  exact ⟨hd, merge_write_eq_text sampleFile_laid hd hclear hline (by decide +kernel) (by simp [Memory.isBroken])
    (Prod.ext hw rfl)⟩

/-- A class and a module whose pieces have the paths `.` and `..`. -/
def twoRoots : SourceFile :=
  { path := "t/x.d.ts"
    text := "class A \x7b\x7d\ndeclare module '.' \x7b\x7d\n"
    symbols := [⟨"A", []⟩, ⟨"'.'", []⟩]
    statements := [
      { kind := .cls, start := 0, stop := 10, exported := true, symbol := some 0 },
      { kind := .moduleDecl, start := 11, stop := 32, symbol := some 1 }] }

def climbingOptions : Options := { translatedRoot := "t", extension := "/../../..", indexName := "i/j/k/l" }

def twoRootsPieces : Decomposition :=
  { source := "t/x.d.ts"
    dir := "x"
    pieces := [
      { path := "x/i", role := .generated "export \x7b A \x7d from '..';\nimport '../..';\n" },
      { start := 11, stop := 32, path := "..", role := .declared "'.'" .moduleDecl .modules [] true },
      { start := 0, stop := 10, path := ".", role := .declared "A" .cls .classes [] false }] }

lemma twoRoots_laid : twoRoots.Laid where
  node_range := by decide +kernel
  doc_range := by decide +kernel
  nodes_apart := by decide +kernel
  docs_apart := by decide +kernel
  docs_nodes_apart := by decide +kernel
  docs_run := by
    intro before s after h
    have hdocs : ∀ s ∈ twoRoots.nodes, s.docs = [] := by decide +kernel
    rw [hdocs s (by simp [h])]
    exact ⟨.nil, 0, fun c => by simp [twoRoots]⟩

/-- Without the condition on `.` and `..` one piece overwrites another, and comes back in its place. -/
theorem merge_write_two_roots : twoRoots.Laid ∧ twoRoots.decompose climbingOptions = .ok twoRootsPieces ∧
    twoRootsPieces.Clear climbingOptions.withDefaults twoRoots.text ∧
    twoRoots.OneLine climbingOptions.withDefaults ∧
    (twoRootsPieces.write twoRoots.text ({} : Memory)).1 = .ok () ∧
    twoRootsPieces.merge climbingOptions (Storage.read (twoRootsPieces.write twoRoots.text ({} : Memory)).2)
      twoRoots.text =
      .ok { text := "class A \x7b\x7d\nclass A \x7b\x7d\n", applied := 2, missing := [], changed := true } ∧
    twoRoots.text ≠ "class A \x7b\x7d\nclass A \x7b\x7d\n" := by
  refine ⟨twoRoots_laid, ?_⟩
  decide +kernel

end Decomposition

end DeclPieces
