import DeclPieces.Proofs.TypeUses

/-! Trees without their places in the file. What a tree binds and mentions by name depends on its shape alone, so that
statements can be moved about. -/
namespace DeclPieces.Syntax

/-- The tree with all offsets taken out. -/
def Tree.shape (t : Tree) : Tree :=
  match t with
  | leaf label field _ text => leaf label field 0 text
  | node label field _ _ children => node label field 0 0 (children.attach.map fun ⟨c, _⟩ => c.shape)
termination_by sizeOf t
decreasing_by exact Tree.sizeOf_child (by assumption)

section Trees
variable (t : Tree)

@[simp] lemma Tree.label_shape : t.shape.label = t.label := by cases t <;> simp [shape, label]

@[simp] lemma Tree.field_shape : t.shape.field = t.field := by cases t <;> simp [shape, field]

@[simp] lemma Tree.text_shape : t.shape.text = t.text := by cases t <;> simp [shape, text]

@[simp] lemma Tree.children_shape : t.shape.children = t.children.map shape := by cases t <;> simp [shape, children]

@[simp] lemma Tree.isNamed_shape : t.shape.isNamed = t.isNamed := by simp [isNamed]

@[simp] lemma Tree.namedChildren_shape : t.shape.namedChildren = t.namedChildren.map shape := by
  simp [namedChildren, List.filter_map, Function.comp_def]

@[simp] lemma Tree.child?_shape (f : Field) : t.shape.child? f = (t.child? f).map shape := by
  simp [child?, List.find?_map, Function.comp_def]

@[simp] lemma Tree.childOf?_shape (l : Label) : t.shape.childOf? l = (t.childOf? l).map shape := by
  simp [childOf?, List.find?_map, Function.comp_def]

@[simp] lemma Tree.hasToken_shape (text : Text) : t.shape.hasToken text = t.hasToken text := by
  simp [hasToken, Function.comp_def]

variable {t} in
lemma Tree.find?_children_shape {p : Tree → Bool} (hp : ∀ c, p c.shape = p c) :
    t.shape.children.find? p = (t.children.find? p).map shape := by
  rw [children_shape, List.find?_map]
  congr 2
  exact funext hp

@[simp] lemma firstPart?_shape : firstPart? t.shape = (firstPart? t).map Tree.shape := by
  unfold firstPart?
  cases hl : t.label <;> simp [hl, Option.map_or]

@[simp] lemma leftmost_shape : leftmost t.shape = (leftmost t).shape := by
  fun_induction leftmost t with
  | case1 t next hnext ih => rw [leftmost_of_firstPart? (by rw [firstPart?_shape, hnext]; rfl), ih]
  | case2 t hnone => exact leftmost_of_firstPart?_eq_none (by rw [firstPart?_shape, hnone]; rfl)

@[simp] lemma exportKind_shape : exportKind t.shape = exportKind t := by
  simp [exportKind, Function.comp_def]

end Trees

/-! Statements. -/

def Unwrapped.shape (u : Unwrapped) : Unwrapped := { u with inner := u.inner.shape }

def Classified.shape (c : Classified) : Classified := { c with outer := c.outer.shape, inner := c.inner.shape }

lemma unwrap_shape (t : Tree) : unwrap t.shape = (unwrap t).shape := by
  fun_induction unwrap t with
  | case1 t hl d hd ih =>
    rw [unwrap]
    simp only [Tree.label_shape, hl]
    split <;> simp_all
  | case2 t hl hnone =>
    rw [unwrap]
    simp only [Tree.label_shape, hl]
    split <;> simp_all [Unwrapped.shape]
  | case3 t hl hglobal =>
    rw [unwrap]
    simp [hl, hglobal, Unwrapped.shape]
  | case4 t hl hglobal d hd ih =>
    have hd' := Tree.find?_children_shape (t := t) (p := fun c => c.isNamed && c.label ≠ .comment) (by simp)
    rw [hd] at hd'
    rw [unwrap]
    simp only [Tree.label_shape, Tree.hasToken_shape, hl, if_neg hglobal]
    split
    · next hsome => rw [Option.some.inj (hsome.symm.trans hd'), ih]
    · next hnone => cases hnone.symm.trans hd'
  | case5 t hl hglobal hnone =>
    have hnone' := Tree.find?_children_shape (t := t) (p := fun c => c.isNamed && c.label ≠ .comment) (by simp)
    rw [hnone] at hnone'
    rw [unwrap]
    simp only [Tree.label_shape, Tree.hasToken_shape, hl, if_neg hglobal]
    split
    · next hsome => cases hsome.symm.trans hnone'
    · rfl
  | case6 t hl c hc hnamespace | case7 t hl c hc hnamespace =>
    rw [unwrap]
    simp [hl, hc, hnamespace, Unwrapped.shape]
  | case8 t hl hnone =>
    rw [unwrap]
    simp [hl, hnone, Unwrapped.shape]
  | case9 t hl hclause | case10 t hl hclause =>
    rw [unwrap]
    simp_all [Unwrapped.shape]
  | case11 t =>
    rw [unwrap]
    simp [*, Unwrapped.shape]

lemma classify_shape (t : Tree) : classify t.shape = (classify t).shape := by
  simp [classify, unwrap_shape, Unwrapped.shape, Classified.shape]

lemma specifierName?_shape (t : Tree) : specifierName? t.shape = specifierName? t := by
  simp [specifierName?, Option.map_or, Function.comp_def]

lemma importBindings_shape (t : Tree) : importBindings t.shape = importBindings t := by
  unfold importBindings
  rw [Tree.childOf?_shape]
  cases t.childOf? .importClause with
  | none => rfl
  | some clause =>
    simp only [Option.map_some, Tree.namedChildren_shape, List.flatMap_map, Tree.label_shape]
    congr 1
    funext c
    split <;> simp [List.filter_map, List.filterMap_map, Function.comp_def, specifierName?_shape]

lemma importEqualsName?_shape (t : Tree) : importEqualsName? t.shape = importEqualsName? t := by
  unfold importEqualsName?
  rw [Tree.childOf?_shape]
  cases t.childOf? .importRequireClause <;> simp [Function.comp_def]

lemma moduleName?_shape (t : Tree) : moduleName? t.shape = moduleName? t := by
  simp [moduleName?, Function.comp_def]

lemma names_variableNames_shape (t : Tree) : (variableNames t.shape).map (·.name) = (variableNames t).map (·.name) := by
  simp only [variableNames, Tree.namedChildren_shape, List.filter_map, List.filterMap_map, Function.comp_def,
    Tree.label_shape, List.map_filterMap]
  congr 1
  funext d
  rw [Tree.child?_shape]
  cases d.child? .name with
  | none => rfl
  | some n => by_cases hn : n.label = .identifier <;> simp [hn, DeclaredName.of]

lemma names_shape (c : Classified) : c.shape.names.map (·.name) = c.names.map (·.name) := by
  have hname : ((c.inner.shape.child? .name).map fun n => DeclaredName.of n.text c.inner.shape).toList.map (·.name) =
      ((c.inner.child? .name).map fun n => DeclaredName.of n.text c.inner).toList.map (·.name) := by
    cases h : c.inner.child? .name <;> simp [h, DeclaredName.of]
  unfold Classified.names Classified.shape
  simp only
  split
  · exact names_variableNames_shape c.inner
  all_goals try exact hname
  · rw [moduleName?_shape]
    split
    · rfl
    · split
      · split <;> rfl
      · rfl
  · simp [importBindings_shape, DeclaredName.of]
  · rw [importEqualsName?_shape]
    cases importEqualsName? c.inner <;> rfl
  · rfl

lemma stringModule?_shape (c : Classified) : c.shape.stringModule?.map (·.name) = c.stringModule?.map (·.name) := by
  unfold Classified.stringModule? Classified.shape
  simp only [moduleName?_shape]
  split
  · rfl
  · split
    · split <;> rfl
    · rfl

/-! Bindings. -/

/-- The name that is bound and its world. -/
def Binding.told (b : Binding) : Text × Meaning := (b.symbol.name, b.meaning)

section Bindings
variable (path : Text) (t : Tree)

@[simp] lemma told_binding_shape (m : Meaning) : (t.shape.binding path m).told = (t.binding path m).told := by
  simp [Tree.binding, Tree.symbol, Binding.told]

variable {t} in
lemma told_parts {f : Tree → List Binding}
    (h : ∀ c ∈ t.children, (f c.shape).map Binding.told = (f c).map Binding.told) :
    (t.shape.children.attach.flatMap fun ⟨c, _⟩ => if c.isNamed then f c else []).map Binding.told =
      (t.children.attach.flatMap fun ⟨c, _⟩ => if c.isNamed then f c else []).map Binding.told := by
  have hparts (u : Tree) : (u.children.attach.flatMap fun ⟨c, _⟩ => if c.isNamed then f c else []) =
      u.children.flatMap fun c => if c.isNamed then f c else [] := by simp
  rw [hparts, hparts, Tree.children_shape, List.flatMap_map, List.map_flatMap, List.map_flatMap]
  refine List.flatMap_congr fun c hc => ?_
  rw [Tree.isNamed_shape]
  split
  · exact h c hc
  · rfl

lemma told_patternBindings :
    (patternBindings path t.shape).map Binding.told = (patternBindings path t).map Binding.told := by
  fun_induction patternBindings path t with
  | case1 t hl | case2 t hl =>
    rw [patternBindings]
    simp [hl]
  | case3 t hl c hc ih | case5 t hl c hc ih =>
    rw [patternBindings]
    simp only [Tree.label_shape, hl]
    split <;> simp_all
  | case4 t hl hnone | case6 t hl hnone =>
    rw [patternBindings]
    simp only [Tree.label_shape, hl]
    split <;> simp_all
  | case7 t hl ih | case8 t hl ih | case9 t hl ih | case10 t hl ih =>
    rw [patternBindings]
    simp only [Tree.label_shape, hl]
    exact told_parts ih
  | case11 t =>
    rw [patternBindings]
    simp [*]

lemma told_inferBindings :
    (inferBindings path t.shape).map Binding.told = (inferBindings path t).map Binding.told := by
  fun_induction inferBindings path t with
  | case1 t hl c hc hname | case2 t hl c hc hname =>
    rw [inferBindings]
    simp [hl, hc, hname]
  | case3 t hl hnone =>
    rw [inferBindings]
    simp [hl, hnone]
  | case4 t hl =>
    rw [inferBindings]
    simp [hl]
  | case5 t hinfer hconditional ih =>
    rw [inferBindings]
    simp only [Tree.label_shape]
    exact told_parts ih

/-- The members of lists of nodes, each by one of its parts. -/
lemma parts_shape (l : List Tree) (f : Field) :
    ((l.map Tree.shape).flatMap Tree.namedChildren).filterMap (·.child? f) =
      ((l.flatMap Tree.namedChildren).filterMap (·.child? f)).map Tree.shape := by
  simp only [List.flatMap_map, Tree.namedChildren_shape, ← List.map_flatMap, List.filterMap_map, List.map_filterMap]
  simp

lemma told_flatMap_patternBindings (l : List Tree) :
    ((l.map Tree.shape).flatMap (patternBindings path)).map Binding.told =
      (l.flatMap (patternBindings path)).map Binding.told := by
  rw [List.flatMap_map, List.map_flatMap, List.map_flatMap]
  exact List.flatMap_congr fun c _ => told_patternBindings path c

lemma told_signatureBindings? : (signatureBindings? path t.shape).map (·.map Binding.told) =
    (signatureBindings? path t).map (·.map Binding.told) := by
  have hsingle (o : Option Tree) : (o.map Tree.shape).toList = o.toList.map Tree.shape := by cases o <;> rfl
  unfold signatureBindings?
  simp only [Tree.child?_shape, Option.isNone_map]
  split
  · rfl
  · simp only [Option.map_some, List.map_append, parts_shape, hsingle, told_flatMap_patternBindings, List.map_map,
      Function.comp_def, told_binding_shape]

lemma told_keyBindings : (keyBindings path t.shape).map Binding.told = (keyBindings path t).map Binding.told := by
  have hsingle (o : Option Tree) (m : Meaning) : ((o.map Tree.shape).toList.map (·.binding path m)).map Binding.told =
      (o.toList.map (·.binding path m)).map Binding.told := by cases o <;> simp
  have hclause : (t.shape.childOf? .mappedClause).bind (·.child? .name) =
      ((t.childOf? .mappedClause).bind (·.child? .name)).map Tree.shape := by
    rw [Tree.childOf?_shape]
    cases t.childOf? .mappedClause <;> simp
  simp only [keyBindings, List.map_append, Tree.child?_shape, hclause, hsingle]

lemma names_addDeclaration (name : Text) (d : Declaration) (symbols : List Symbol) :
    (addDeclaration name d symbols).map (·.name) =
      if name ∈ symbols.map (·.name) then symbols.map (·.name) else symbols.map (·.name) ++ [name] := by
  induction symbols with
  | nil => rfl
  | cons s rest ih =>
    unfold addDeclaration
    by_cases h : s.name = name
    · simp [h]
    · rw [if_neg h, List.map_cons, ih, List.map_cons]
      by_cases hrest : name ∈ rest.map (·.name)
      · rw [if_pos hrest, if_pos (List.mem_cons_of_mem _ hrest)]
      · rw [if_neg hrest, if_neg (by simpa [Ne.symm h] using hrest)]
        rfl

/-- Which symbols a list of names makes is told by the names alone. -/
lemma names_symbolsOf_congr {names names' : List DeclaredName} (h : names.map (·.name) = names'.map (·.name)) :
    (symbolsOf path names).map (·.name) = (symbolsOf path names').map (·.name) := by
  have hfold (names : List DeclaredName) (acc : List Symbol) :
      (names.foldl (fun acc m => addDeclaration m.name ⟨path, m.start, m.stop⟩ acc) acc).map (·.name) =
        (names.map (·.name)).foldl (fun acc n => if n ∈ acc then acc else acc ++ [n]) (acc.map (·.name)) := by
    induction names generalizing acc with
    | nil => rfl
    | cons m rest ih => rw [List.foldl_cons, ih, names_addDeclaration, List.map_cons, List.foldl_cons]
  unfold symbolsOf
  rw [hfold, hfold, h]

lemma names_blockSymbols : (blockSymbols path t.shape.namedChildren).map (·.name) =
    (blockSymbols path t.namedChildren).map (·.name) := by
  refine names_symbolsOf_congr path ?_
  simp only [Tree.namedChildren_shape, List.map_map, List.filter_map, List.map_flatMap, List.flatMap_map,
    Function.comp_def, classify_shape]
  exact List.flatMap_congr fun c _ => names_shape (classify c)

end Bindings

/-! The walk. -/

section Walk
variable (path : Text) (t : Tree)

lemma usedName?_shape : usedName? t.shape = usedName? t := by
  simp [usedName?]

lemma exportsFrom_shape : exportsFrom t.shape = exportsFrom t := by
  simp [exportsFrom]

lemma entered_shape : entered t.shape = (entered t).map Tree.shape := by
  unfold entered
  simp only [Tree.label_shape, usedName?_shape, exportsFrom_shape, Tree.child?_shape, Tree.namedChildren_shape,
    firstPart?_shape]
  split
  · split
    · rfl
    · cases firstPart? t <;> rfl
  split
  · split
    · rfl
    · simp [List.filter_map, Function.comp_def]
  split
  · rfl
  · simp [List.filter_map, Function.comp_def]
  · cases t.child? .right with
    | none => rfl
    | some right =>
      have hpart (o : Option Tree) : (o.map Tree.shape).toList = o.toList.map Tree.shape := by cases o <;> rfl
      simp [hpart]
  · cases t.namedChildren with
    | nil => rfl
    | cons c rest => by_cases hc : c.label = .typeIdentifier <;> simp [hc]
  · cases t.child? .name <;> rfl
  · rfl

lemma told_opened (a c : Tree) : (opened path a.shape c.shape).map (·.map Binding.told) =
    (opened path a c).map (·.map Binding.told) := by
  have hreverse {bs bs' : List Binding} (h : bs.map Binding.told = bs'.map Binding.told) :
      bs.reverse.map Binding.told = bs'.reverse.map Binding.told := by rw [List.map_reverse, h, List.map_reverse]
  unfold opened
  rw [Tree.label_shape, Tree.field_shape]
  split
  · have hsignature := told_signatureBindings? path a
    cases h : signatureBindings? path a <;> cases h' : signatureBindings? path a.shape <;> simp_all
  split
  · have hblock := congrArg (List.map fun n => (n, Meaning.both)) (names_blockSymbols path a)
    simp only [List.map_map] at hblock
    refine congrArg some (hreverse ?_)
    rw [List.map_map, List.map_map]
    exact hblock
  · exact congrArg some (hreverse (told_keyBindings path a))
  · split
    · cases hr : a.child? .right with
      | none => simp [hr]
      | some right => simpa [hr] using hreverse (told_inferBindings path right)
    · rfl
  · rfl

def Visit.shape (v : Visit) : Visit := ⟨v.node.shape, v.around.map Tree.shape⟩

lemma steps_shape (around : List Tree) (u : Tree) :
    steps (around.map Tree.shape) u.shape = (steps around u).map fun s => (s.1.shape, s.2.shape) := by
  induction around generalizing u with
  | nil => rfl
  | cons a rest ih => simp [steps, ih]

lemma visits_shape (around : List Tree) :
    visits (around.map Tree.shape) t.shape = (visits around t).map Visit.shape := by
  induction t using walk_induction generalizing around with
  | h t ih =>
    rw [visits_eq, visits_eq, entered_shape, List.map_cons, List.flatMap_map, List.map_flatMap]
    refine congrArg _ (List.flatMap_congr fun c hc => ?_)
    exact ih c hc (t :: around)

lemma told_find? {f f' : Frame} (name : Text) (h : f.map Binding.told = f'.map Binding.told) :
    (f.find? name).map Binding.told = (f'.find? name).map Binding.told := by
  have hfind (g : Frame) : (g.find? name).map Binding.told = (g.map Binding.told).find? fun p => p.1 = name := by
    rw [List.find?_map]
    rfl
  rw [hfind, hfind, h]

/-- What a name stands for is told by the names that are bound around it. -/
lemma declared_lookupIn_congr {frames frames' : List Frame} (top : List Text) (name : Text) (want : Meaning)
    (h : frames.map (·.map Binding.told) = frames'.map (·.map Binding.told)) :
    (Scope.lookupIn top name want frames).map Referent.declared =
      (Scope.lookupIn top name want frames').map Referent.declared := by
  induction frames generalizing frames' with
  | nil =>
    obtain rfl := List.map_eq_nil_iff.mp h.symm
    rfl
  | cons f rest ih =>
    obtain ⟨f', rest', rfl, hf, hrest⟩ := List.map_eq_cons_iff.mp h.symm
    have hfind := told_find? name hf
    rw [Scope.lookupIn, Scope.lookupIn]
    cases hb : f.find? name <;> cases hb' : f'.find? name <;>
      simp only [hb, hb', Option.map_none, Option.map_some] at hfind
    · exact ih hrest.symm
    · cases hfind
    · cases hfind
    · simp only [Binding.told, Option.some.injEq, Prod.mk.injEq] at hfind
      dsimp only
      rw [hfind.2]
      split
      · simp [Referent.declared, hfind.1]
      · exact ih hrest.symm

lemma declared_referent?_shape (top : List Text) (v : Visit) :
    (v.shape.referent? path top).map Referent.declared = (v.referent? path top).map Referent.declared := by
  have hframes : (v.shape.steps.filterMap fun s => opened path s.1 s.2).map (·.map Binding.told) =
      (v.steps.filterMap fun s => opened path s.1 s.2).map (·.map Binding.told) := by
    have hsteps : v.shape.steps = v.steps.map fun s => (s.1.shape, s.2.shape) := steps_shape v.around v.node
    rw [hsteps, List.filterMap_map, List.map_filterMap, List.map_filterMap]
    congr 1
    exact funext fun s => told_opened path s.1 s.2
  unfold Visit.referent?
  have hused : usedName? v.shape.node = usedName? v.node := usedName?_shape v.node
  rw [hused]
  cases usedName? v.node with
  | none => rfl
  | some u => exact declared_lookupIn_congr top u.2 u.1 hframes

end Walk

/-! Statements that are moved. -/

/-- What the names in a statement stand for depends on its shape alone. -/
lemma declared_references_shape (path : Text) (top : List Text) (c : Classified) :
    (c.shape.visits.filterMap (·.referent? path top)).map Referent.declared =
      (c.visits.filterMap (·.referent? path top)).map Referent.declared := by
  have hvisits : c.shape.visits = c.visits.map Visit.shape := by
    unfold Classified.visits Classified.shape
    split
    · rfl
    · exact visits_shape c.inner []
  rw [hvisits, List.filterMap_map, List.map_filterMap, List.map_filterMap]
  congr 1
  exact funext fun v => declared_referent?_shape path top v

end DeclPieces.Syntax
