import DeclPieces.Proofs.Outline

/-! The symbol table of a file: which symbol a name of the top level stands for, and which one a
statement is named for. -/
namespace DeclPieces

lemma lookup_zipIdx (names : List Text) (n : Text) (k : Nat) :
    (names.zipIdx k).lookup n = (names.findIdx? (· = n)).map (· + k) := by
  induction names generalizing k with
  | nil => rfl
  | cons name rest ih =>
    rw [List.zipIdx_cons, List.lookup_cons, List.findIdx?_cons]
    by_cases h : name = n
    · simp [h]
    · simp only [beq_false_of_ne (Ne.symm h), ih, decide_eq_true_eq, h, if_false, Option.map_map]
      congr 1
      funext i
      simp only [Function.comp_apply]
      omega

/-- The symbols of a file are those of its top level, known by their names, and those declared
further in. -/
structure SourceFile.Tabled (f : SourceFile) (top inner : List Symbol) : Prop where
  symbols : f.symbols = top ++ inner
  scope : f.scope = (top.map (·.name)).zipIdx

namespace SourceFile.Tabled
variable {f : SourceFile} {top inner : List Symbol} {id : SymbolId} {s : Symbol}

lemma lookup_eq (h : f.Tabled top inner) (n : Text) : f.lookup n = top.findIdx? (·.name = n) := by
  unfold SourceFile.lookup
  rw [h.scope, lookup_zipIdx, List.findIdx?_map]
  simp [Function.comp_def]

/-- A symbol is in scope if it is the first of its name at the top level. -/
lemma inScope_iff (h : f.Tabled top inner) (hs : f.symbol? id = some s) :
    f.inScope id = true ↔ top.findIdx? (·.name = s.name) = some id := by
  simp only [inScope, hs, h.lookup_eq, decide_eq_true_eq]

lemma mem_top_of_inScope (h : f.Tabled top inner) (hs : f.symbol? id = some s) (hin : f.inScope id = true) :
    s ∈ top := by
  obtain ⟨hlt, -, -⟩ := List.findIdx?_eq_some_iff_getElem.mp ((h.inScope_iff hs).mp hin)
  rw [SourceFile.symbol?, h.symbols, List.getElem?_append_left hlt] at hs
  exact List.mem_of_getElem? hs

end SourceFile.Tabled

namespace Syntax

/-- A name that is declared; `atTop` says whether it is one of the top level. -/
structure Declared where
  name : Text
  atTop : Bool
  deriving DecidableEq, Repr

def Referent.declared : Referent → Declared
  | top name => ⟨name, true⟩
  | inner s => ⟨s.name, false⟩

section Places
variable {f : SourceFile} {top inner : List Symbol} {r : Referent} {id : SymbolId}

lemma symbol?_of_idOf? (h : f.Tabled top inner) (hr : idOf? top inner r = some id) :
    ∃ s, f.symbol? id = some s ∧ s.name = r.declared.name := by
  cases r with
  | top n =>
    obtain ⟨hlt, hn, -⟩ := List.findIdx?_eq_some_iff_getElem.mp hr
    refine ⟨top[id], ?_, by simpa [Referent.declared] using hn⟩
    rw [SourceFile.symbol?, h.symbols, List.getElem?_append_left hlt, List.getElem?_eq_getElem hlt]
  | inner s =>
    obtain ⟨i, hi, rfl⟩ := Option.map_eq_some_iff.mp hr
    obtain ⟨hlt, hs, -⟩ := List.findIdx?_eq_some_iff_getElem.mp hi
    refine ⟨s, ?_, rfl⟩
    have hget : inner[i] = s := by simpa using hs
    rw [SourceFile.symbol?, h.symbols, List.getElem?_append_right (Nat.le_add_right _ _), Nat.add_sub_cancel_left,
      List.getElem?_eq_getElem hlt, hget]

/-- Of the symbols that statements declare, just those of the top level are in scope. -/
lemma inScope_of_idOf? (h : f.Tabled top inner) (hr : idOf? top inner r = some id) : f.inScope id = r.declared.atTop := by
  obtain ⟨s, hs, hname⟩ := symbol?_of_idOf? h hr
  cases r with
  | top n => exact (h.inScope_iff hs).mpr (by rw [hname]; exact hr)
  | inner t =>
    rw [Referent.declared, Bool.eq_false_iff, ne_eq, h.inScope_iff hs]
    intro hin
    obtain ⟨i, -, rfl⟩ := Option.map_eq_some_iff.mp hr
    obtain ⟨hlt, -, -⟩ := List.findIdx?_eq_some_iff_getElem.mp hin
    omega

end Places

section Symbols
variable {path : Text} {n : Text}

lemma mem_names_addDeclaration (name : Text) (d : Declaration) (symbols : List Symbol) :
    n ∈ (addDeclaration name d symbols).map (·.name) ↔ n ∈ symbols.map (·.name) ∨ n = name := by
  induction symbols with
  | nil => simp [addDeclaration]
  | cons s rest ih =>
    unfold addDeclaration
    split
    · next h =>
      simp only [List.map_cons, List.mem_cons, ← h]
      tauto
    · rw [List.map_cons, List.map_cons, List.mem_cons, List.mem_cons, ih]
      tauto

/-- The symbols of a list of names are those names. -/
lemma mem_names_symbolsOf (path : Text) (names : List DeclaredName) :
    n ∈ (symbolsOf path names).map (·.name) ↔ n ∈ names.map (·.name) := by
  unfold symbolsOf
  suffices h : ∀ acc : List Symbol,
      n ∈ (names.foldl (fun acc m => addDeclaration m.name ⟨path, m.start, m.stop⟩ acc) acc).map (·.name) ↔
        n ∈ acc.map (·.name) ∨ n ∈ names.map (·.name) by
    simpa using h []
  induction names with
  | nil => simp
  | cons m rest ih =>
    intro acc
    rw [List.foldl_cons, ih, mem_names_addDeclaration, List.map_cons, List.mem_cons]
    tauto

end Symbols

section Outline
variable {around : Surroundings} {path text : Text} {trees : List Tree}

/-- The symbols of the top level of a file, those of other files that it sees included. -/
def topLevel (around : Surroundings) (path : Text) (trees : List Tree) : List Symbol :=
  topSymbols around.globals (symbolsOf path ((trees.map classify).flatMap (·.names)))

/-- The names that a file sees at its top level. -/
def topNames (around : Surroundings) (path : Text) (trees : List Tree) : List Text :=
  (topLevel around path trees).map (·.name)

/-- The modules of a file that are named by strings. -/
def stringModules (path : Text) (trees : List Tree) : List Symbol :=
  symbolsOf path ((trees.map classify).filterMap (·.stringModule?))

/-- A statement of a file, given with the trees before it, while its symbols have no places yet. -/
def draftAt (around : Surroundings) (path text : Text) (trees : List Tree) (w : List Tree × Tree) : Draft :=
  draftOf path (topNames around path trees) (stringModules path trees) (leadingDocs text w.1) (classify w.2)

def drafts (around : Surroundings) (path text : Text) (trees : List Tree) : List Draft :=
  (withBefore [] trees).map (draftAt around path text trees)

/-- The symbols that the statements of a file declare further in, or name by strings. -/
def innerSymbols (around : Surroundings) (path text : Text) (trees : List Tree) : List Symbol :=
  ((drafts around path text trees).flatMap (·.inner)).eraseDups

lemma outline_tabled (around : Surroundings) (path text : Text) (trees : List Tree) :
    (outline around path text trees).Tabled (topLevel around path trees) (innerSymbols around path text trees) :=
  ⟨rfl, rfl⟩

lemma outline_statements (around : Surroundings) (path text : Text) (trees : List Tree) :
    (outline around path text trees).statements = (drafts around path text trees).map
      (·.statement (topLevel around path trees) (innerSymbols around path text trees)) := rfl

/-- The names of the top level are those that statements bind and the global ones. -/
lemma mem_topLevel {s : Symbol} (h : s ∈ topLevel around path trees) :
    (∃ t ∈ trees, s.name ∈ (classify t).names.map (·.name)) ∨
      s ∈ around.globals ∧ ∀ t ∈ trees, s.name ∉ (classify t).names.map (·.name) := by
  have hlocal (n : Text) : n ∈ (symbolsOf path ((trees.map classify).flatMap (·.names))).map (·.name) ↔
      ∃ t ∈ trees, n ∈ (classify t).names.map (·.name) := by
    rw [mem_names_symbolsOf]
    simp only [List.mem_map, List.mem_flatMap, exists_exists_and_eq_and]
    exact ⟨fun ⟨m, ⟨t, ht, hm⟩, hn⟩ => ⟨t, ht, m, hm, hn⟩, fun ⟨t, ht, m, hm, hn⟩ => ⟨m, ⟨t, ht, hm⟩, hn⟩⟩
  rcases List.mem_append.mp h with h | h
  · obtain ⟨hglobal, hfree⟩ := List.mem_filter.mp h
    refine .inr ⟨hglobal, fun t ht hn => ?_⟩
    obtain ⟨u, hu, hname⟩ := List.mem_map.mp ((hlocal s.name).mpr ⟨t, ht, hn⟩)
    simp only [Bool.not_eq_true', List.any_eq_false, decide_eq_true_eq] at hfree
    exact hfree u hu hname
  · exact .inl ((hlocal s.name).mp (List.mem_map_of_mem h))

lemma mem_names_topLevel {t : Tree} {n : Text} (ht : t ∈ trees) (hn : n ∈ (classify t).names.map (·.name)) :
    n ∈ topNames around path trees := by
  unfold topNames topLevel topSymbols
  rw [List.map_append, List.mem_append, mem_names_symbolsOf]
  refine .inr ?_
  obtain ⟨m, hm, rfl⟩ := List.mem_map.mp hn
  exact List.mem_map_of_mem (List.mem_flatMap.mpr ⟨_, List.mem_map_of_mem ht, hm⟩)

/-- What a draft is named for: the symbol it declares, or else the first one declared inside it. -/
def Draft.main? (d : Draft) : Option Referent := d.own.or d.descendants.head?

/-- The names that a statement declares, outermost first; `top` are the names that the file sees. -/
def Classified.declared (path : Text) (top : List Text) (c : Classified) : List Declared :=
  let outermost : List Declared := match c.kind with
    | .cls | .function | .interface | .enum | .typeAlias | .variableDecl => c.names.map fun n => ⟨n.name, true⟩
    | .moduleDecl =>
      if c.isGlobal then [⟨"global", false⟩]
      else match c.stringModule? with
        | some m => [⟨m.name, false⟩]
        | none => c.names.map fun n => ⟨n.name, true⟩
    | .reExport => (exportSymbols path c.outer).map fun s => ⟨s.name, false⟩
    | _ => []
  outermost ++ (declarations (mentions path { top } c.inner)).map fun s => ⟨s.name, false⟩

/-- A module that a statement names by a string is one of those of the file. -/
lemma exists_stringModule (path : Text) {t : Tree} (ht : t ∈ trees) {m : DeclaredName}
    (hm : (classify t).stringModule? = some m) :
    ∃ s, (stringModules path trees).find? (·.name = m.name) = some s ∧ s.name = m.name := by
  have hmem : m.name ∈ (stringModules path trees).map (·.name) :=
    (mem_names_symbolsOf path _).mpr (List.mem_map_of_mem (List.mem_filterMap.mpr ⟨_, List.mem_map_of_mem ht, hm⟩))
  obtain ⟨u, hu, hun⟩ := List.mem_map.mp hmem
  obtain ⟨s, hs⟩ := Option.isSome_iff_exists.mp
    (List.find?_isSome (p := fun s : Symbol => decide (s.name = m.name)) |>.mpr ⟨u, hu, by simpa using hun⟩)
  exact ⟨s, hs, by simpa using List.find?_some hs⟩

/-- A statement is named for the first name that it declares. -/
lemma main?_draftOf {t : Tree} (ht : t ∈ trees) (top : List Text) (docs : List Comment)
    (hk : (classify t).kind.skipped = false) :
    ((draftOf path top (stringModules path trees) docs (classify t)).main?).map Referent.declared =
      ((classify t).declared path top).head? := by
  generalize hc : classify t = c at hk
  unfold draftOf Draft.main? Classified.declared Classified.own?
  simp only [hk, Bool.false_eq_true, if_false, List.head?_append, List.head?_map]
  cases hkind : c.kind
  case moduleDecl =>
    by_cases hg : c.isGlobal = true
    · simp [hg, Referent.declared, Tree.symbol]
    · cases hm : c.stringModule? with
      | none => simp [hg, Option.map_or, Referent.declared, Function.comp_def]
      | some m =>
        obtain ⟨s, hs, hname⟩ := exists_stringModule path ht (hc ▸ hm)
        simp [hg, hs, Referent.declared, hname]
  all_goals simp [Option.map_or, Referent.declared, Function.comp_def]

/-- The names of the top level that a statement declares are names that it binds. -/
lemma mem_names_of_declares {top : List Text} {modules : List Symbol} {docs : List Comment} {c : Classified} {n : Text}
    (h : .top n ∈ (draftOf path top modules docs c).own.toList ++ (draftOf path top modules docs c).descendants) :
    n ∈ c.names.map (·.name) := by
  have hfirst (h : ∃ a, c.names.head? = some a ∧ a.name = n) : n ∈ c.names.map (·.name) := by
    obtain ⟨a, ha, hname⟩ := h
    exact List.mem_map.mpr ⟨a, List.mem_of_head? ha, hname⟩
  unfold draftOf Classified.own? at h
  cases hk : c.kind <;> simp [hk, Kind.skipped] at h
  case variableDecl => exact List.mem_map.mpr h
  case moduleDecl =>
    split at h
    · cases h
    · split at h
      · simp at h
      · exact hfirst (by simpa using h)
  all_goals exact hfirst h

lemma classified_draftOf (path : Text) (top : List Text) (modules : List Symbol) (docs : List Comment) (c : Classified) :
    (draftOf path top modules docs c).classified = c := by
  unfold draftOf
  split <;> rfl

lemma mem_of_mem_withBefore {w : List Tree × Tree} (hw : w ∈ withBefore [] trees) : w.2 ∈ trees := by
  rw [← map_snd_withBefore [] trees]
  exact List.mem_map_of_mem hw

/-- All that the statements of a file declare has a place in its table. -/
lemma idOf?_isSome {d : Draft} (hd : d ∈ drafts around path text trees) {r : Referent}
    (hr : r ∈ d.own.toList ++ d.descendants) :
    (idOf? (topLevel around path trees) (innerSymbols around path text trees) r).isSome := by
  obtain ⟨w, hw, hd'⟩ := List.mem_map.mp hd
  cases r with
  | top n =>
    rw [← hd'] at hr
    have htop : n ∈ topNames around path trees :=
      mem_names_topLevel (mem_of_mem_withBefore hw) (mem_names_of_declares hr)
    obtain ⟨s, hs, hname⟩ := List.mem_map.mp htop
    rw [idOf?, List.findIdx?_isSome, List.any_eq_true]
    exact ⟨s, hs, by simpa using hname⟩
  | inner s =>
    have hs : s ∈ innerSymbols around path text trees := by
      refine List.mem_eraseDups.mpr (List.mem_flatMap.mpr ⟨d, hd, ?_⟩)
      exact List.mem_filterMap.mpr ⟨_, List.mem_append_left _ hr, rfl⟩
    rw [idOf?, Option.isSome_map, List.findIdx?_isSome, List.any_eq_true]
    exact ⟨s, hs, by simp⟩

lemma mainSymbol?_statement {d : Draft} (hd : d ∈ drafts around path text trees) :
    (d.statement (topLevel around path trees) (innerSymbols around path text trees)).mainSymbol? =
      d.main?.bind (idOf? (topLevel around path trees) (innerSymbols around path text trees)) := by
  have hresolve := fun r => idOf?_isSome hd (r := r)
  unfold Statement.mainSymbol? Draft.statement Draft.main?
  cases hown : d.own with
  | some r =>
    obtain ⟨id, hid⟩ := Option.isSome_iff_exists.mp (hresolve r (by simp [hown]))
    simp [hid]
  | none =>
    cases hdesc : d.descendants with
    | nil => rfl
    | cons r rest =>
      obtain ⟨id, hid⟩ := Option.isSome_iff_exists.mp (hresolve r (by simp [hdesc]))
      simp [hid]

end Outline

end Syntax

end DeclPieces
