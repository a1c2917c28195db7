import DeclPieces.Proofs.SymbolTable
import DeclPieces.Proofs.Walk

/-! What a type name stands for at a place in a statement. Type parameters, keys of mapped types, inferred types and the
names of a block hide the names of the top level, within their scopes. -/
namespace DeclPieces.Syntax

/-! Names in frames. -/

/-- Is the latest binding of the name in the frame one of the wanted meaning? -/
def Frame.Answers (f : Frame) (name : Text) (want : Meaning) : Prop :=
  ∃ b, f.find? name = some b ∧ b.meaning.answers want = true

def Frame.names (f : Frame) : List Text := f.map (·.symbol.name)

section Frames
variable {f g : Frame} {frames : List Frame} {name : Text} {want : Meaning} {top : List Text}

lemma find?_eq_none_iff : f.find? name = none ↔ name ∉ f.names := by
  simp [Frame.find?, Frame.names]

lemma answers_append :
    Frame.Answers (f ++ g) name want ↔ f.Answers name want ∨ name ∉ f.names ∧ g.Answers name want := by
  unfold Frame.Answers
  have happend : Frame.find? (f ++ g) name = (f.find? name).or (g.find? name) := List.find?_append
  rw [happend, ← find?_eq_none_iff]
  cases f.find? name <;> simp

/-- Bindings that all have the wanted meaning answer to all their names. -/
lemma answers_iff_mem (h : ∀ b ∈ f, b.meaning.answers want = true) : f.Answers name want ↔ name ∈ f.names := by
  unfold Frame.Answers
  cases hb : f.find? name with
  | none => simpa using find?_eq_none_iff.mp hb
  | some b =>
    have hmem : name ∈ f.names := by
      by_contra hn
      rw [find?_eq_none_iff.mpr hn] at hb
      cases hb
    simpa [hmem] using h b (List.mem_of_find?_eq_some hb)

/-- Bindings none of which has it answer to none. -/
lemma not_answers (h : ∀ b ∈ f, b.meaning.answers want = false) : ¬ f.Answers name want := by
  rintro ⟨b, hb, hanswers⟩
  rw [h b (List.mem_of_find?_eq_some hb)] at hanswers
  cases hanswers

/-- A name stands for that of the top level if no frame around it answers. -/
lemma lookupIn_eq_top_iff : Scope.lookupIn top name want frames = some (.top name) ↔
    name ∈ top ∧ ∀ f ∈ frames, ¬ f.Answers name want := by
  induction frames with
  | nil => simp [Scope.lookupIn]
  | cons f rest ih =>
    rw [Scope.lookupIn, List.forall_mem_cons]
    unfold Frame.Answers at ih ⊢
    cases hb : f.find? name with
    | none => simp [ih]
    | some b => cases hm : b.meaning.answers want <;> simp [ih, hm]

end Frames

/-! Names that nodes declare, each list for one part of a node. -/

/-- The names in the list of type parameters of a node. -/
def Tree.typeParameterNames (t : Tree) : List Text :=
  (((t.child? .typeParameters).toList.flatMap Tree.namedChildren).filterMap (·.child? .name)).map (·.text)

/-- The names in the parameters of a node, each parameter with all the names of its pattern. -/
def Tree.parameterNames (path : Text) (t : Tree) : List Text :=
  Frame.names ((((t.child? .parameters).toList.flatMap Tree.namedChildren).filterMap (·.child? .pattern)).flatMap
    (patternBindings path) ++ (t.child? .parameter).toList.flatMap (patternBindings path))

/-- The key of a mapped type. -/
def Tree.mappedKey? (t : Tree) : Option Text := ((t.childOf? .mappedClause).bind (·.child? .name)).map (·.text)

/-- The names that the condition of a conditional type infers. -/
def Tree.inferredNames (path : Text) (t : Tree) : List Text :=
  Frame.names ((t.child? .right).toList.flatMap (inferBindings path))

/-- The names that the statements of a block bind, those of some kinds. -/
def Tree.blockNames (p : Kind → Bool) (t : Tree) : List Text :=
  (((t.namedChildren.map classify).filter (p ·.kind)).flatMap (·.names)).map (·.name)

/-- Is what statements of this kind declare a type, or can it hold types? -/
def declaresTypes : Kind → Bool
  | .cls | .interface | .enum | .typeAlias | .moduleDecl | .importDecl | .importEquals => true
  | _ => false

/-- Is what statements of this kind declare a value and nothing else? -/
def declaresValues : Kind → Bool
  | .variableDecl | .function => true
  | _ => false

/-- The types that a node declares for one of its parts. An inferred type is declared for the true branch. -/
def typesDeclared (path : Text) (a c : Tree) : List Text :=
  if isSignature a.label then a.typeParameterNames
  else match a.label with
  | .block => a.blockNames declaresTypes
  | .indexSignature => a.mappedKey?.toList
  | .conditionalType => if c.field = some .consequence then a.inferredNames path else []
  | _ => []

/-- The names that a node keeps from standing for types of the top level in one of its parts. -/
def hidden (path : Text) (a c : Tree) : List Text :=
  if isSignature a.label then a.typeParameterNames.filter (· ∉ a.parameterNames path)
  else match a.label with
  | .block => a.blockNames (· ≠ .importDecl)
  | .indexSignature => a.mappedKey?.toList
  | .conditionalType => if c.field = some .right ∨ c.field = some .consequence then a.inferredNames path else []
  | _ => []

/-- The names among those hidden that are no types there: the values of a block, and the inferred types in the condition
that infers them. -/
def overhidden (path : Text) (a c : Tree) : List Text :=
  match a.label with
  | .block => a.blockNames declaresValues
  | .conditionalType => if c.field = some .right then a.inferredNames path else []
  | _ => []

section Bindings
variable {path : Text} {t a c : Tree} {b : Binding} {name : Text} {p : Kind → Bool}

lemma exists_part_of_mem {f : Tree → List Binding}
    (h : b ∈ t.children.attach.flatMap fun ⟨c, _⟩ => if c.isNamed then f c else []) : ∃ c ∈ t.children, b ∈ f c := by
  obtain ⟨⟨c, hc⟩, -, hb⟩ := List.mem_flatMap.mp h
  by_cases hn : c.isNamed = true
  · exact ⟨c, hc, by simpa [hn] using hb⟩
  · simp [hn] at hb

lemma meaning_of_mem_patternBindings (h : b ∈ patternBindings path t) : b.meaning = .value := by
  fun_induction patternBindings path t generalizing b with
  | case1 | case2 =>
    obtain rfl := List.mem_singleton.mp h
    rfl
  | case3 _ _ _ _ ih | case5 _ _ _ _ ih => exact ih h
  | case4 | case6 | case11 => cases h
  | case7 _ _ ih | case8 _ _ ih | case9 _ _ ih | case10 _ _ ih =>
    obtain ⟨c, hc, hb⟩ := exists_part_of_mem h
    exact ih c hc hb

lemma meaning_of_mem_inferBindings (h : b ∈ inferBindings path t) : b.meaning = .type := by
  fun_induction inferBindings path t generalizing b with
  | case1 =>
    obtain rfl := List.mem_singleton.mp h
    rfl
  | case2 | case3 | case4 => cases h
  | case5 _ _ _ ih =>
    obtain ⟨c, hc, hb⟩ := exists_part_of_mem h
    exact ih c hc hb

lemma mem_blockNames : name ∈ t.blockNames p ↔
    ∃ c ∈ t.namedChildren, p (classify c).kind = true ∧ name ∈ (classify c).names.map (·.name) := by
  simp only [Tree.blockNames, List.map_flatMap, List.mem_flatMap, List.mem_filter, List.mem_map]
  constructor
  · rintro ⟨_, ⟨⟨c, hc, rfl⟩, hp⟩, hname⟩
    exact ⟨c, hc, hp, hname⟩
  · rintro ⟨c, hc, hp, hname⟩
    exact ⟨_, ⟨⟨c, hc, rfl⟩, hp⟩, hname⟩

/-- A statement that binds a name declares types or values, if it is no import. -/
lemma declares_of_mem_names {k : Classified} (h : name ∈ k.names.map (·.name)) :
    declaresTypes k.kind = true ∨ declaresValues k.kind = true := by
  unfold Classified.names at h
  cases hk : k.kind <;> simp_all [declaresTypes, declaresValues]

/-- What a block hides and does not declare as a type is a value. -/
lemma mem_blockNames_values (h : name ∉ t.blockNames declaresTypes) :
    name ∈ t.blockNames (· ≠ .importDecl) ↔ name ∈ t.blockNames declaresValues := by
  simp only [mem_blockNames] at h ⊢
  refine exists_congr fun c => and_congr_right fun hc => and_congr_left fun hname => ?_
  have htypes : declaresTypes (classify c).kind ≠ true := fun hp => h ⟨c, hc, hp, hname⟩
  have hvalues := (declares_of_mem_names hname).resolve_left htypes
  refine ⟨fun _ => hvalues, fun _ => ?_⟩
  cases hk : (classify c).kind <;> simp_all [declaresTypes]

/-- A label by what it opens a frame for. -/
lemma scope_cases (l : Label) : l = .block ∨ l = .indexSignature ∨ l = .conditionalType ∨ isSignature l = true ∨
    (isSignature l = false ∧ l ≠ .block ∧ l ≠ .indexSignature ∧ l ≠ .conditionalType) := by
  cases l <;> simp [isSignature, isSilent]

lemma overhidden_of_signature (h : isSignature a.label = true) : overhidden path a c = [] := by
  cases hl : a.label <;> simp_all [overhidden, isSignature]

/-- Where no type of the name is declared, the name is hidden only by what is no type there. -/
lemma mem_hidden_iff_of_not_declared (h : name ∉ typesDeclared path a c) :
    name ∈ hidden path a c ↔ name ∈ overhidden path a c := by
  rcases scope_cases a.label with hl | hl | hl | hs | ⟨hs, _, _, _⟩
  · have hblock : name ∉ a.blockNames declaresTypes := by simpa [typesDeclared, hl, isSignature] using h
    simpa [hidden, overhidden, hl, isSignature] using mem_blockNames_values hblock
  · have hkey : a.mappedKey? ≠ some name := by simpa [typesDeclared, hl, isSignature] using h
    simp [hidden, overhidden, hl, isSignature, hkey]
  · have hbranch : c.field = some .consequence → name ∉ a.inferredNames path := by
      simpa [typesDeclared, hl, isSignature] using h
    by_cases hc : c.field = some .consequence
    · simp [hidden, overhidden, hl, isSignature, hc, hbranch hc]
    · simp [hidden, overhidden, hl, isSignature, hc]
  · have hparameter : name ∉ a.typeParameterNames := by simpa [typesDeclared, hs] using h
    simp [overhidden_of_signature hs, hidden, hs, hparameter]
  · simp [hidden, overhidden, *]

lemma mem_names_reverse {f : Frame} : name ∈ Frame.names f.reverse ↔ name ∈ f.names := by
  simp [Frame.names]

/-- The frame that a signature opens answers to its type parameters, except those that a parameter is named like. -/
lemma signature_answers : (∃ bs, signatureBindings? path t = some bs ∧ Frame.Answers bs.reverse name .type) ↔
    name ∈ t.typeParameterNames ∧ name ∉ t.parameterNames path := by
  let types := ((t.child? .typeParameters).toList.flatMap Tree.namedChildren).filterMap (·.child? .name)
  let patterns := ((t.child? .parameters).toList.flatMap Tree.namedChildren).filterMap (·.child? .pattern)
  let values := patterns.flatMap (patternBindings path) ++ (t.child? .parameter).toList.flatMap (patternBindings path)
  have hvalues : ¬ Frame.Answers values.reverse name .type := by
    refine not_answers fun b hb => ?_
    have hmeaning : b.meaning = .value := by
      rcases List.mem_append.mp (List.mem_reverse.mp hb) with hb | hb
      all_goals
        obtain ⟨c, -, hb⟩ := List.mem_flatMap.mp hb
        exact meaning_of_mem_patternBindings hb
    rw [hmeaning]
    rfl
  have htypes : Frame.Answers (types.map (·.binding path .type)).reverse name .type ↔ name ∈ t.typeParameterNames := by
    rw [answers_iff_mem (by simp [Tree.binding, Meaning.answers]), mem_names_reverse]
    simp [Frame.names, Tree.typeParameterNames, types, Tree.binding, Tree.symbol]
  have hframe : Frame.Answers (types.map (·.binding path .type) ++ values).reverse name .type ↔
      name ∈ t.typeParameterNames ∧ name ∉ t.parameterNames path := by
    -- the latest binding counts, and parameters are bound after type parameters
    rw [List.reverse_append, answers_append, htypes, mem_names_reverse]
    simp only [hvalues, false_or, and_comm]
    rfl
  by_cases hnone : (t.child? .typeParameters).isNone && (t.child? .parameters).isNone && (t.child? .parameter).isNone
  · have hbindings : signatureBindings? path t = none := by
      rw [signatureBindings?]
      exact if_pos hnone
    have htype : t.child? .typeParameters = none := by simp_all
    simp [hbindings, Tree.typeParameterNames, htype]
  · have hbindings : signatureBindings? path t = some (types.map (·.binding path .type) ++ values) := by
      rw [signatureBindings?]
      simp only [hnone]
      rw [← List.append_assoc]
      rfl
    simp only [hbindings, Option.some.injEq, exists_eq_left', hframe]

/-- A frame of the walk answers to just the names that are hidden as types. -/
lemma opened_answers : (∃ f, opened path a c = some f ∧ Frame.Answers f name .type) ↔ name ∈ hidden path a c := by
  rcases scope_cases a.label with hl | hl | hl | hs | ⟨hs, _, _, _⟩
  · have hframe : Frame.Answers ((blockSymbols path a.namedChildren).map (Binding.mk · .both)).reverse name .type ↔
        name ∈ a.blockNames (· ≠ .importDecl) := by
      rw [answers_iff_mem (by simp [Meaning.answers]), mem_names_reverse]
      simp only [Frame.names, List.map_map, Function.comp_def]
      exact mem_names_symbolsOf path _
    simp [opened, hidden, hl, isSignature, hframe]
  · have hframe : Frame.Answers (keyBindings path a).reverse name .type ↔ a.mappedKey? = some name := by
      have hkey : ¬ Frame.Answers ((a.child? .name).toList.map (·.binding path .value)).reverse name .type :=
        not_answers (by simp [Tree.binding, Meaning.answers])
      rw [keyBindings, List.reverse_append, answers_append, answers_iff_mem (by simp [Tree.binding, Meaning.answers]),
        mem_names_reverse]
      simp only [hkey, and_false, or_false]
      unfold Tree.mappedKey?
      cases (a.childOf? .mappedClause).bind (·.child? .name) <;> simp [Frame.names, Tree.binding, Tree.symbol, eq_comm]
    simp [opened, hidden, hl, isSignature, hframe]
  · have hframe : (∃ f, ((a.child? .right).map fun right => (inferBindings path right).reverse) = some f ∧
        Frame.Answers f name .type) ↔ name ∈ a.inferredNames path := by
      unfold Tree.inferredNames
      cases a.child? .right with
      | none => simp [Frame.names]
      | some right =>
        have hmeaning : ∀ b ∈ (inferBindings path right).reverse, b.meaning.answers .type = true := by
          intro b hb
          rw [meaning_of_mem_inferBindings (List.mem_reverse.mp hb)]
          rfl
        simp [answers_iff_mem hmeaning, mem_names_reverse]
    by_cases hc : c.field = some .right ∨ c.field = some .consequence
    · simpa [opened, hidden, hl, isSignature, hc] using hframe
    · simp [opened, hidden, hl, isSignature, hc]
  · simp [opened, hidden, hs, signature_answers]
  · simp [opened, hidden, *]

end Bindings

section Uses
variable {path : Text} {top : List Text} {v : Visit} {name : Text}

/-- A type name stands for that of the top level if there is one and no node on the way hides it. -/
lemma referent?_type_iff (hv : usedName? v.node = some (.type, name)) :
    v.referent? path top = some (.top name) ↔ name ∈ top ∧ ∀ s ∈ v.steps, name ∉ hidden path s.1 s.2 := by
  have hframes : (∀ f ∈ v.steps.filterMap fun s => opened path s.1 s.2, ¬ Frame.Answers f name .type) ↔
      ∀ s ∈ v.steps, name ∉ hidden path s.1 s.2 := by
    simp only [List.mem_filterMap, ← opened_answers]
    constructor
    · rintro h s hs ⟨f, hf, hanswers⟩
      exact h f ⟨s, hs, hf⟩ hanswers
    · rintro h f ⟨s, hs, hf⟩ hanswers
      exact h s hs ⟨f, hf, hanswers⟩
  rw [Visit.referent?, hv, Option.bind_some, ← hframes]
  exact lookupIn_eq_top_iff

/-- A reference to a type is one to the top level if no node around it hides the name. A node that has the name among
its type parameters does so if no parameter of the node is named like it. -/
theorem type_parameter_leaks_iff (path : Text) (top : List Text) (modules : List Symbol) (docs : List Comment)
    (t : Tree) :
    (draftOf path top modules docs (classify t)).references = (classify t).visits.filterMap (·.referent? path top) ∧
    ∀ v ∈ (classify t).visits, ∀ name, usedName? v.node = some (.type, name) →
      (v.referent? path top = some (.top name) ↔ name ∈ top ∧ ∀ s ∈ v.steps, name ∉ hidden path s.1 s.2) ∧
      ∀ a ∈ v.around, isSignature a.label = true → name ∈ a.typeParameterNames → name ∉ a.parameterNames path →
        v.referent? path top ≠ some (.top name) := by
  refine ⟨references_draftOf path top modules docs _, fun v _ name hname => ?_⟩
  refine ⟨referent?_type_iff hname, fun a ha hs htype hvalue htop => ?_⟩
  obtain ⟨c, hc⟩ := exists_step_of_mem ha
  refine ((referent?_type_iff hname).mp htop).2 _ hc ?_
  simp [hidden, hs, htype, hvalue]

/-- A type parameter that is used beside a parameter of the same name, which belongs to a signature further in. -/
def nestedNamesakeText : Text := "declare function f<T>(g: (T: number) => T): T;\ninterface T {}\n"

theorem nested_namesake_hidden :
    ∃ t ∈ parse nestedNamesakeText, ∃ v ∈ (classify t).visits,
      v.node.label = .typeIdentifier ∧ v.node.text = Text.ofString "T" ∧
      (∃ b ∈ v.around, Text.ofString "T" ∈ b.parameterNames "t/x.d.ts") ∧
      (∃ a ∈ v.around, isSignature a.label = true ∧ Text.ofString "T" ∈ a.typeParameterNames ∧
        Text.ofString "T" ∉ a.parameterNames "t/x.d.ts") ∧
      v.referent? "t/x.d.ts" ["T", "f"] ≠ some (.top "T") := by
  have hplace : ∃ t ∈ parse nestedNamesakeText, ∃ v ∈ (classify t).visits,
      v.node.label = .typeIdentifier ∧ v.node.text = Text.ofString "T" ∧
      (∃ b ∈ v.around, Text.ofString "T" ∈ b.parameterNames "t/x.d.ts") ∧
      ∃ a ∈ v.around, isSignature a.label = true ∧ Text.ofString "T" ∈ a.typeParameterNames ∧
        Text.ofString "T" ∉ a.parameterNames "t/x.d.ts" := by
    decide +kernel
  obtain ⟨t, ht, v, hv, hl, htext, hother, a, ha, hs, htype, hvalue⟩ := hplace
  have hname : usedName? v.node = some (.type, Text.ofString "T") := htext ▸ usedName?_of_typeIdentifier hl
  have hleaks := type_parameter_leaks_iff "t/x.d.ts" ["T", "f"] [] [] t
  exact ⟨t, ht, v, hv, hl, htext, hother, ⟨a, ha, hs, htype, hvalue⟩, (hleaks.2 v hv _ hname).2 a ha hs htype hvalue⟩

/-- A parameter that is named like a type parameter beside it. -/
def namesakeText : Text := "declare function f<T>(T: T): T;\ninterface T {}\n"

theorem parameter_unhides_type_parameter :
    (∃ t ∈ parse namesakeText, ∃ v ∈ (classify t).visits,
      v.node.label = .typeIdentifier ∧ v.node.text = Text.ofString "T" ∧
      (∃ a ∈ v.around, Text.ofString "T" ∈ a.typeParameterNames) ∧
      v.referent? "t/x.d.ts" ["T", "f"] = some (.top "T")) ∧
    let f := outline {} "t/x.d.ts" namesakeText (parse namesakeText)
    (f.lookup "T").isSome ∧ f.statements.map (·.references) = [[f.lookup "T", f.lookup "T"], []] := by
  decide +kernel

end Uses

end DeclPieces.Syntax
