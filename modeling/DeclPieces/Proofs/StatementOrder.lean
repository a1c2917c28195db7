import DeclPieces.Proofs.Shape

/-! Statements of a file can be put in any order. What each is named for and what it refers to stays the same, and so do
the names that the file sees; the declarations of a symbol follow the order of the statements. -/
namespace DeclPieces
open Syntax

/-- What a place in the symbol table is told by: a name, and whether it is that of the top level. -/
def SourceFile.told (f : SourceFile) (id : Option SymbolId) : Option Declared :=
  id.bind fun i => (f.symbol? i).map fun s => ⟨s.name, f.inScope i⟩

namespace Syntax

/-! The symbol table. -/

section Table
variable {f : SourceFile} {top inner : List Symbol} {path : Text} {n : Text}

lemma told_idOf? (h : f.Tabled top inner) {r : Referent} (hr : (idOf? top inner r).isSome) :
    f.told (idOf? top inner r) = some r.declared := by
  obtain ⟨id, hid⟩ := Option.isSome_iff_exists.mp hr
  obtain ⟨s, hs, hname⟩ := symbol?_of_idOf? h hid
  simp only [hid, SourceFile.told, Option.bind_some, hs, Option.map_some, hname, inScope_of_idOf? h hid]

lemma idOf?_top_isSome : (idOf? top inner (.top n)).isSome ↔ n ∈ top.map (·.name) := by
  simp [idOf?, List.findIdx?_isSome]

lemma idOf?_inner_isSome {s : Symbol} : (idOf? top inner (.inner s)).isSome ↔ s ∈ inner := by
  simp [idOf?, List.findIdx?_isSome]

/-- What a name of the top level stands for is the first symbol of that name. -/
lemma symbol_of_lookup (h : f.Tabled top inner) : (f.lookup n).bind f.symbol? = top.find? (·.name = n) := by
  rw [h.lookup_eq]
  cases hi : top.findIdx? (·.name = n) with
  | none => exact (List.find?_eq_none.mpr (by simpa using List.findIdx?_eq_none_iff.mp hi)).symm
  | some i =>
    obtain ⟨hlt, hname, hfirst⟩ := List.findIdx?_eq_some_iff_getElem.mp hi
    rw [Option.bind_some, SourceFile.symbol?, h.symbols, List.getElem?_append_left hlt, List.getElem?_eq_getElem hlt]
    have hfind : top.find? (·.name = n) = some top[i] :=
      List.find?_eq_some_iff_getElem.mpr ⟨hname, i, hlt, rfl, fun j hj => by simpa using hfirst j hj⟩
    exact hfind.symm

lemma find?_addDeclaration (name : Text) (d : Declaration) (symbols : List Symbol) :
    (addDeclaration name d symbols).find? (·.name = n) =
      if name = n then some ⟨n, (((symbols.find? (·.name = n)).map (·.decls)).getD []) ++ [d]⟩
      else symbols.find? (·.name = n) := by
  induction symbols with
  | nil => by_cases h : name = n <;> simp [addDeclaration, h]
  | cons s rest ih =>
    unfold addDeclaration
    by_cases hs : s.name = name
    · by_cases h : name = n
      · subst hs h
        simp
      · simp [hs, h]
    · by_cases hn : s.name = n
      · subst hn
        simp [hs, Ne.symm hs]
      · simp [hs, hn, ih]

/-- The symbol of a name has a declaration for each time that the name is bound, in that order. -/
lemma find?_symbolsOf (names : List DeclaredName) : (symbolsOf path names).find? (·.name = n) =
    if n ∈ names.map (·.name) then
      some ⟨n, (names.filter (·.name = n)).map fun m => ⟨path, m.start, m.stop⟩⟩
    else none := by
  induction names using List.reverseRecOn with
  | nil => rfl
  | append_singleton names m ih =>
    have hsymbols : symbolsOf path (names ++ [m]) =
        addDeclaration m.name ⟨path, m.start, m.stop⟩ (symbolsOf path names) := by
      simp [symbolsOf]
    rw [hsymbols, find?_addDeclaration, ih]
    by_cases hm : m.name = n
    · by_cases hn : n ∈ names.map (·.name)
      · simp [hm, hn]
      · have hnone : names.filter (·.name = n) = [] := by
          refine List.filter_eq_nil_iff.mpr fun x hx hname => hn ?_
          simpa using ⟨x, hx, by simpa using hname⟩
        simp [hm, hn, hnone]
    · simp [hm, Ne.symm hm]

end Table

/-! One file. -/

/-- The names that the statements of a file bind, in source order. -/
def boundNames (trees : List Tree) : List DeclaredName := (trees.map classify).flatMap (·.names)

/-- The name of the one symbol that a statement declares. -/
def Classified.named? (c : Classified) : Option Declared :=
  match c.kind with
  | .cls | .function | .interface | .enum | .typeAlias => c.names.head?.map (⟨·.name, true⟩)
  | .moduleDecl =>
    if c.isGlobal then some ⟨"global", false⟩
    else match c.stringModule? with
      | some m => some ⟨m.name, false⟩
      | none => c.names.head?.map (⟨·.name, true⟩)
  | _ => none

section File
variable {around : Surroundings} {path text : Text} {trees : List Tree} {n : Text}

/-- A name of the file hides the global symbols of that name. -/
lemma find?_topSymbols (globals locals : List Symbol) : (topSymbols globals locals).find? (·.name = n) =
    if n ∈ locals.map (·.name) then locals.find? (·.name = n) else globals.find? (·.name = n) := by
  have hglobals : (globals.filter fun g => !locals.any (·.name = g.name)).find? (·.name = n) =
      if n ∈ locals.map (·.name) then none else globals.find? (·.name = n) := by
    induction globals with
    | nil => simp
    | cons g rest ih =>
      have hany : locals.any (·.name = g.name) = true ↔ g.name ∈ locals.map (·.name) := by simp
      by_cases hlocal : g.name ∈ locals.map (·.name)
      · rw [List.filter_cons_of_neg (by simp [hany.mpr hlocal]), ih]
        split
        · rfl
        · next hn =>
          have hne : g.name ≠ n := by
            rintro rfl
            exact hn hlocal
          simp [hne]
      · rw [List.filter_cons_of_pos (by simpa using mt hany.mp hlocal), List.find?_cons, ih, List.find?_cons]
        by_cases hg : g.name = n
        · simp only [hg] at hlocal
          simp [hg, hlocal]
        · simp [hg]
  unfold topSymbols
  rw [List.find?_append, hglobals]
  split
  · rfl
  · next hn =>
    have hnone : locals.find? (·.name = n) = none := by simpa using hn
    rw [hnone, Option.or_none]

/-- A name that is bound in the file has its declarations there. -/
lemma find?_topLevel : (topLevel around path trees).find? (·.name = n) =
    if n ∈ (boundNames trees).map (·.name) then
      some ⟨n, ((boundNames trees).filter (·.name = n)).map fun m => ⟨path, m.start, m.stop⟩⟩
    else around.globals.find? (·.name = n) := by
  change (topSymbols around.globals (symbolsOf path (boundNames trees))).find? _ = _
  rw [find?_topSymbols, find?_symbolsOf]
  simp only [mem_names_symbolsOf]
  split <;> rfl

lemma own_draftOf (path : Text) (top : List Text) (modules : List Symbol) (docs : List Comment) (c : Classified) :
    (draftOf path top modules docs c).own = c.own? path modules := by
  unfold draftOf
  split
  · next hskipped => cases hk : c.kind <;> simp_all [Classified.own?, Kind.skipped]
  · rfl

lemma declared_own? (path : Text) {t : Tree} (ht : t ∈ trees) :
    ((classify t).own? path (stringModules path trees)).map Referent.declared = (classify t).named? := by
  generalize hc : classify t = c
  have hfirst : (c.names.head?.map (.top ·.name)).map Referent.declared = c.names.head?.map (⟨·.name, true⟩) := by
    cases c.names.head? <;> rfl
  unfold Classified.own? Classified.named?
  cases c.kind
  case cls | function | interface | enum | typeAlias => exact hfirst
  case moduleDecl =>
    by_cases hg : c.isGlobal = true
    · simp [hg, Referent.declared, Tree.symbol]
    · cases hm : c.stringModule? with
      | none => simpa [hg] using hfirst
      | some m =>
        obtain ⟨s, hs, hname⟩ := exists_stringModule path ht (hc ▸ hm)
        simp [hg, hs, Referent.declared, hname]
  all_goals rfl

lemma named?_shape (c : Classified) : c.shape.named? = c.named? := by
  have hfirst : c.shape.names.head?.map (fun a => Declared.mk a.name true) =
      c.names.head?.map fun a => Declared.mk a.name true := by
    have hhead := congrArg (fun l => l.head?.map fun n => Declared.mk n true) (names_shape c)
    simpa only [List.head?_map, Option.map_map, Function.comp_def] using hhead
  have hmodule := stringModule?_shape c
  have hkind : c.shape.kind = c.kind := rfl
  have hglobal : c.shape.isGlobal = c.isGlobal := rfl
  unfold Classified.named?
  rw [hkind, hglobal]
  cases c.kind
  case cls | function | interface | enum | typeAlias => exact hfirst
  case moduleDecl =>
    cases c.isGlobal
    · cases hm : c.stringModule? <;> cases hm' : c.shape.stringModule? <;> simp_all
    · rfl
  all_goals rfl

lemma lookupIn_congr {top top' : List Text} (h : ∀ n, n ∈ top ↔ n ∈ top') (name : Text) (want : Meaning)
    (frames : List Frame) : Scope.lookupIn top name want frames = Scope.lookupIn top' name want frames := by
  induction frames with
  | nil => simp [Scope.lookupIn, h]
  | cons f rest ih => simp only [Scope.lookupIn, ih]

lemma mem_top_of_lookupIn {top : List Text} {name : Text} {want : Meaning} {frames : List Frame}
    (h : Scope.lookupIn top name want frames = some (.top n)) : n ∈ top := by
  induction frames with
  | nil =>
    simp only [Scope.lookupIn, Option.ite_none_right_eq_some, Option.some.injEq, Referent.top.injEq] at h
    exact h.2 ▸ h.1
  | cons f rest ih =>
    rw [Scope.lookupIn] at h
    split at h
    · split at h
      · cases h
      · exact ih h
    · exact ih h

/-- What a statement refers to, told by names; `top` are the names that the file sees. -/
def Classified.referred (path : Text) (top : List Text) (c : Classified) : List Declared :=
  (c.visits.filterMap (·.referent? path top)).map Referent.declared

lemma referred_shape (path : Text) (top : List Text) (c : Classified) :
    c.shape.referred path top = c.referred path top :=
  declared_references_shape path top c

lemma referred_congr {top top' : List Text} (h : ∀ n, n ∈ top ↔ n ∈ top') (path : Text) (c : Classified) :
    c.referred path top = c.referred path top' := by
  unfold Classified.referred Visit.referent? Visit.scope Scope.lookup
  simp only [lookupIn_congr h]

/-- All that a statement refers to has a place in the table of its file. -/
lemma idOf?_isSome_of_reference {d : Draft} (hd : d ∈ drafts around path text trees) {r : Referent}
    (hr : r ∈ d.references) : (idOf? (topLevel around path trees) (innerSymbols around path text trees) r).isSome := by
  cases r with
  | top n =>
    obtain ⟨w, -, rfl⟩ := List.mem_map.mp hd
    rw [draftAt, references_draftOf] at hr
    obtain ⟨v, -, hv⟩ := List.mem_filterMap.mp hr
    obtain ⟨u, -, hlookup⟩ := Option.bind_eq_some_iff.mp hv
    exact idOf?_top_isSome.mpr (mem_top_of_lookupIn hlookup)
  | inner s =>
    refine idOf?_inner_isSome.mpr (List.mem_eraseDups.mpr (List.mem_flatMap.mpr ⟨d, hd, ?_⟩))
    exact List.mem_filterMap.mpr ⟨_, List.mem_append_right _ hr, rfl⟩

/-- What is told of a statement in its file. -/
lemma told_statement (around : Surroundings) (path text : Text) {i : Nat} {t : Tree} (ht : trees[i]? = some t) :
    ∃ s, (outline around path text trees).statements[i]? = some s ∧
      (outline around path text trees).told s.symbol = (classify t).named? ∧
      s.symbol.isSome = (classify t).named?.isSome ∧
      s.references.map (outline around path text trees).told =
        ((classify t).referred path (topNames around path trees)).map some := by
  let top := topLevel around path trees
  let inner := innerSymbols around path text trees
  let d := draftAt around path text trees ((trees.take i).reverse, t)
  have hw : (withBefore [] trees)[i]? = some ((trees.take i).reverse, t) := by
    rw [getElem?_withBefore, ht]
    simp
  have hd : d ∈ drafts around path text trees := List.mem_map_of_mem (List.mem_of_getElem? hw)
  have htabled := outline_tabled around path text trees
  have hown : d.own.map Referent.declared = (classify t).named? := by
    rw [← declared_own? path (List.mem_of_getElem? ht)]
    exact congrArg _ (own_draftOf path _ _ _ _)
  refine ⟨d.statement top inner, ?_, ?_, ?_, ?_⟩
  · rw [outline_statements, drafts, List.getElem?_map, List.getElem?_map, hw]
    rfl
  · rw [← hown]
    change (outline around path text trees).told (d.own.bind (idOf? top inner)) = _
    cases hr : d.own with
    | none => rfl
    | some r => exact told_idOf? htabled (idOf?_isSome hd (by simp [hr]))
  · rw [← hown]
    change (d.own.bind (idOf? top inner)).isSome = _
    cases hr : d.own with
    | none => rfl
    | some r => exact idOf?_isSome hd (by simp [hr])
  · have hreferences : (classify t).referred path (topNames around path trees) = d.references.map Referent.declared :=
      congrArg _ (references_draftOf path _ _ _ _).symm
    rw [hreferences, List.map_map]
    change (d.references.map (idOf? top inner)).map _ = _
    rw [List.map_map]
    exact List.map_congr_left fun r hr => told_idOf? htabled (idOf?_isSome_of_reference hd hr)

lemma mem_topNames : n ∈ topNames around path trees ↔
    n ∈ (boundNames trees).map (·.name) ∨ n ∈ around.globals.map (·.name) := by
  have hfind (symbols : List Symbol) : n ∈ symbols.map (·.name) ↔ (symbols.find? (·.name = n)).isSome := by simp
  rw [topNames, hfind, hfind, find?_topLevel]
  split
  · next hn => simp [hn]
  · next hn => simp [hn]

end File

/-! Two files with the same statements. -/

section Files
variable {trees trees' : List Tree} {n : Text}

lemma mem_boundNames_congr (h : (trees.map Tree.shape).Perm (trees'.map Tree.shape)) :
    n ∈ (boundNames trees).map (·.name) ↔ n ∈ (boundNames trees').map (·.name) := by
  have hshape (trees : List Tree) : (boundNames trees).map (·.name) =
      (trees.map Tree.shape).flatMap fun u => (classify u).names.map (·.name) := by
    simp only [boundNames, List.map_flatMap, List.flatMap_map, classify_shape, names_shape]
  rw [hshape, hshape]
  exact (h.flatMap_right _).mem_iff

/-- Two files with the same statements, in any order and at any places: each statement is named alike and refers to
the same names, of the top level or not, and the files see the same names. The symbol of a name that is bound in a
file has just the declarations there, in source order; any other is the global one. -/
theorem resolution_of_perm (around : Surroundings) (path text text' : Text)
    (h : (trees.map Tree.shape).Perm (trees'.map Tree.shape)) :
    let f := outline around path text trees
    let f' := outline around path text' trees'
    (∀ (i j : Nat) (t t' : Tree), trees[i]? = some t → trees'[j]? = some t' → t.shape = t'.shape →
      ∃ s s', f.statements[i]? = some s ∧ f'.statements[j]? = some s' ∧
        s.symbol.isSome = s'.symbol.isSome ∧ f.told s.symbol = f'.told s'.symbol ∧
        s.references.map f.told = s'.references.map f'.told ∧ none ∉ s.references.map f.told) ∧
    (∀ n, n ∈ f.scope.map (·.1) ↔ n ∈ f'.scope.map (·.1)) ∧
    ∀ n, (f.lookup n).bind f.symbol? =
      if n ∈ (boundNames trees).map (·.name) then
        some ⟨n, ((boundNames trees).filter (·.name = n)).map fun m => ⟨path, m.start, m.stop⟩⟩
      else around.globals.find? (·.name = n) := by
  intro f f'
  have htop (n : Text) : n ∈ topNames around path trees ↔ n ∈ topNames around path trees' := by
    rw [mem_topNames, mem_topNames, mem_boundNames_congr h]
  refine ⟨fun i j t t' ht ht' hshape => ?_, fun n => ?_, fun n => ?_⟩
  · obtain ⟨s, hs, hown, hsome, hrefs⟩ := told_statement around path text ht
    obtain ⟨s', hs', hown', hsome', hrefs'⟩ := told_statement around path text' ht'
    -- both what a statement is named for and what it refers to are read off its shape and the names of the file
    have hclassify : (classify t).shape = (classify t').shape := by rw [← classify_shape, ← classify_shape, hshape]
    have hnamed : (classify t).named? = (classify t').named? := by rw [← named?_shape, hclassify, named?_shape]
    have hreferred : (classify t).referred path (topNames around path trees) =
        (classify t').referred path (topNames around path trees') := by
      rw [← referred_shape, hclassify, referred_shape, referred_congr htop]
    refine ⟨s, s', hs, hs', ?_, ?_, ?_, ?_⟩
    · rw [hsome, hsome', hnamed]
    · rw [hown, hown', hnamed]
    · rw [hrefs, hrefs', hreferred]
    · rw [hrefs]
      simp
  · have hscope (text : Text) (trees : List Tree) :
        (outline around path text trees).scope.map (·.1) = topNames around path trees := by
      rw [(outline_tabled around path text trees).scope]
      exact List.zipIdx_map_fst 0 _
    rw [hscope, hscope]
    exact htop n
  · exact (symbol_of_lookup (outline_tabled around path text trees)).trans find?_topLevel

end Files

/-- A name that is bound twice, after its first use, again in a namespace, and among the global ones. -/
def usedFirstText : Text := "type A=[B,G];\nnamespace N { type B=1; type C=B }\ninterface B {}\nclass B {}\n"

def usedLastText : Text := "class B {}\ninterface B {}\nnamespace N { type B=1; type C=B }\ntype A=[B,G];\n"

def sampleGlobals : Surroundings where
  globals := [⟨"B", [⟨"lib.d.ts", 0, 9⟩]⟩, ⟨"G", [⟨"lib.d.ts", 10, 19⟩]⟩]

theorem resolution_of_reversed :
    ((parse usedFirstText).map Tree.shape).Perm ((parse usedLastText).map Tree.shape) ∧
    let f := outline sampleGlobals "t/x.d.ts" usedFirstText (parse usedFirstText)
    let f' := outline sampleGlobals "t/x.d.ts" usedLastText (parse usedLastText)
    (∃ s s', f.statements[0]? = some s ∧ f'.statements[3]? = some s' ∧ f.told s.symbol = f'.told s'.symbol ∧
      s.references.map f.told = s'.references.map f'.told ∧ s.references.length = 2) ∧
    (f.lookup "B").bind f.symbol? = some ⟨"B", [⟨"t/x.d.ts", 49, 63⟩, ⟨"t/x.d.ts", 64, 74⟩]⟩ ∧
    (f.lookup "G").bind f.symbol? = some ⟨"G", [⟨"lib.d.ts", 10, 19⟩]⟩ := by
  have hfacts : (parse usedLastText).map Tree.shape = ((parse usedFirstText).map Tree.shape).reverse ∧
      ((parse usedFirstText)[0]?).isSome ∧ ((parse usedLastText)[3]?).isSome ∧
      (parse usedFirstText)[0]?.map Tree.shape = (parse usedLastText)[3]?.map Tree.shape ∧
      boundNames (parse usedFirstText) = [⟨"A", 0, 13⟩, ⟨"N", 14, 48⟩, ⟨"B", 49, 63⟩, ⟨"B", 64, 74⟩] ∧
      ((outline sampleGlobals "t/x.d.ts" usedFirstText (parse usedFirstText)).statements[0]?).map
        (·.references.length) = some 2 := by
    decide +kernel
  generalize parse usedFirstText = trees at *
  generalize parse usedLastText = trees' at *
  obtain ⟨hreverse, hsome, hsome', hshape, hbound, hlength⟩ := hfacts
  have hperm : (trees.map Tree.shape).Perm (trees'.map Tree.shape) := hreverse ▸ (List.reverse_perm _).symm
  obtain ⟨hsame, -, hsymbol⟩ := resolution_of_perm sampleGlobals "t/x.d.ts" usedFirstText usedLastText hperm
  refine ⟨hperm, ?_, ?_, ?_⟩
  · obtain ⟨t, ht⟩ := Option.isSome_iff_exists.mp hsome
    obtain ⟨t', ht'⟩ := Option.isSome_iff_exists.mp hsome'
    rw [ht, ht', Option.map_some, Option.map_some, Option.some.injEq] at hshape
    obtain ⟨s, s', hs, hs', -, hown, hrefs, -⟩ := hsame 0 3 t t' ht ht' hshape
    rw [hs] at hlength
    exact ⟨s, s', hs, hs', hown, hrefs, Option.some.inj hlength⟩
  · refine (hsymbol "B").trans ?_
    rw [hbound]
    decide
  · refine (hsymbol "G").trans ?_
    rw [hbound]
    decide

end Syntax

end DeclPieces
