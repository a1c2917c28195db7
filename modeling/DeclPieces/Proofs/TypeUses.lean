import DeclPieces.Proofs.TypeScope

/-! Which uses of a type name reach the top level. Values of the same name hide no type, but for those that the
statements of a block declare; what stands in a pattern, or before the declaration of a statement, is not looked at. -/
namespace DeclPieces.Syntax

/-! Parts of a node. -/

/-- A part of a node which no name is used in: it names what the node binds or takes from elsewhere, or it goes on with
a name that is used as a whole. -/
@[mk_iff]
inductive Unused (a c : Tree) : Prop
  /-- the name that a declaration binds -/
  | bound (hname : c.label = .typeIdentifier) (hfield : c.field.isSome) (hbinds : c.field = bindingField? a.label)
  /-- the name that is inferred -/
  | inferred (ha : a.label = .inferType) (hfirst : a.namedChildren.head? = some c) (hname : c.label = .typeIdentifier)
  /-- a segment of a plain qualified name, or one that follows the head of another -/
  | segment (ha : isQualified a.label = true) (h : (usedName? a).isSome ∨ firstPart? a ≠ some c)
  /-- what another module exports -/
  | foreign (h : exportsFrom a = true)
  /-- the name that something is exported under -/
  | renamed (ha : a.label = .exportSpecifier) (h : a.child? .name ≠ some c)
  /-- what stands beside the four parts of a conditional type -/
  | beside (ha : a.label = .conditionalType) (hright : (a.child? .right).isSome)
      (h : ∀ f ∈ [Field.left, .right, .consequence, .alternative], a.child? f ≠ some c)
  /-- what makes up a single word -/
  | word (h : isSilent a.label = true ∨ a.label ∈ [.identifier, .shorthandPattern, .typeIdentifier])

/-- The pattern that a node binds. Types may stand in it, for its parts can have defaults. -/
def InPattern (a c : Tree) : Prop := c.field.isSome ∧ c.field = bindingField? a.label ∧ c.label ≠ .typeIdentifier

instance (a c : Tree) : Decidable (Unused a c) := decidable_of_iff' _ (unused_iff a c)

instance (a c : Tree) : Decidable (InPattern a c) := inferInstanceAs (Decidable (_ ∧ _ ∧ _))

section Parts
variable {a c t u : Tree} {around inside : List Tree}

lemma not_inPattern (hb : bindingField? a.label = none) : ¬ InPattern a c := by
  rintro ⟨hsome, hfield, -⟩
  rw [hfield, hb] at hsome
  cases hsome

/-- The walk goes into all parts in which names are used, but for patterns. -/
lemma mem_entered_iff (hc : c ∈ a.children) (hn : c.isNamed = true) (hu : ¬ Unused a c) :
    c ∈ entered a ↔ ¬ InPattern a c := by
  have hnamed : c ∈ a.namedChildren := List.mem_filter.mpr ⟨hc, hn⟩
  have hbound : InPattern a c ↔ c.field.isSome ∧ c.field = bindingField? a.label :=
    ⟨fun h => ⟨h.1, h.2.1⟩, fun h => ⟨h.1, h.2, fun hname => hu (.bound hname h.1 h.2)⟩⟩
  rcases label_cases a.label with h | h | h | h | h
  · have hforeign : exportsFrom a = false := by simpa using fun h => hu (.foreign h)
    simp [entered_of_signature h, hforeign, hnamed, hbound, imp_iff_not_or]
  · have hb : bindingField? a.label = none := by cases hl : a.label <;> simp_all [isQualified, bindingField?]
    have hsegment : usedName? a = none ∧ firstPart? a = some c := by
      simpa [not_or] using fun hs => hu (.segment h hs)
    simp [entered, h, hsegment.1, hsegment.2, not_inPattern hb]
  · exact absurd (.word (.inl h)) hu
  · exact absurd (.word (.inr h)) hu
  · simp only [List.mem_cons, List.not_mem_nil, or_false] at h
    rcases h with h | h | h | h | h
    · simp [entered_of_block h, hnamed, not_inPattern (a := a) (c := c) (by rw [h]; rfl)]
    · have hfield : InPattern a c ↔ c.field = some .name := by
        rw [hbound, h]
        simp only [bindingField?]
        exact ⟨And.right, fun hf => ⟨by simp [hf], hf⟩⟩
      simp [entered_of_indexSignature h, hnamed, hfield]
    · have hpattern : ¬ InPattern a c := not_inPattern (by rw [h]; rfl)
      rw [entered_of_conditionalType h]
      cases hright : a.child? .right with
      | none => simp [hnamed, hpattern]
      | some right =>
        have hpart : ∃ f ∈ [Field.left, .right, .consequence, .alternative], a.child? f = some c := by
          by_contra hbeside
          exact hu (.beside h (by simp [hright]) (by simpa using hbeside))
        simp only [hpattern, not_false_eq_true, iff_true]
        simpa [hright, eq_comm] using hpart
    · have hpattern : ¬ InPattern a c := not_inPattern (by rw [h]; rfl)
      have hrest : a.namedChildren.head?.any (·.label = .typeIdentifier) = true → c ∈ a.namedChildren.tail := by
        intro hfirst
        cases hchildren : a.namedChildren with
        | nil => simp [hchildren] at hfirst
        | cons d rest =>
          have hd : c ≠ d := by
            rintro rfl
            exact hu (.inferred h (by simp [hchildren]) (by simpa [hchildren] using hfirst))
          simpa [hchildren, hd] using hnamed
      simp only [entered_of_inferType h, hpattern, not_false_eq_true, iff_true]
      split
      · exact hrest ‹_›
      · exact hnamed
    · have hname : a.child? .name = some c := by
        by_contra hother
        exact hu (.renamed h hother)
      simp [entered_of_exportSpecifier h, hname, not_inPattern (a := a) (c := c) (by rw [h]; rfl)]

/-- Where names are used, there are no bare tokens on the way to a node that is none itself. -/
lemma isNamed_of_used (hn : u.isNamed = true) (hu : ∀ s ∈ steps around u, ¬ Unused s.1 s.2) :
    ∀ s ∈ steps around u, s.2.isNamed = true := by
  induction around generalizing u with
  | nil => exact fun s hs => nomatch hs
  | cons a rest ih =>
    have ha : a.isNamed = true := by
      by_contra htoken
      refine hu _ List.mem_cons_self (.word (.inl ?_))
      have hl : a.label = .token := by simpa [Tree.isNamed] using htoken
      rw [hl]
      rfl
    exact List.forall_mem_cons.mpr ⟨hn, ih ha fun s hs => hu s (List.mem_cons_of_mem _ hs)⟩

/-- A node in the places of which names are used is visited unless it stands in a pattern. -/
lemma mem_visits_iff_of_used (hlies : Lies t around u) (hn : u.isNamed = true)
    (hu : ∀ s ∈ steps around u, ¬ Unused s.1 s.2) :
    ⟨u, around⟩ ∈ visits [] t ↔ ∀ s ∈ steps around u, ¬ InPattern s.1 s.2 := by
  rw [mem_visits_iff, and_iff_right hlies]
  refine forall₂_congr fun s hs => ?_
  exact mem_entered_iff (hlies.mem_children s hs) (isNamed_of_used hn hu s hs) (hu s hs)

end Parts

/-! The declaration in a statement. -/

/-- The nodes around the declaration in a statement, innermost first: `export` and `declare`. -/
def wrappers (t : Tree) : List Tree :=
  match t.label with
  | .exportStatement =>
    match _h : t.child? .declaration with
    | some d => wrappers d ++ [t]
    | none => []
  | .ambientDeclaration =>
    if t.hasToken "global" then []
    else match _h : t.children.find? fun c => c.isNamed && c.label ≠ .comment with
      | some d => wrappers d ++ [t]
      | none => []
  | .expressionStatement =>
    match t.namedChildren.head? with
    | some c => if c.label = .namespaceDeclaration then [t] else []
    | none => []
  | _ => []
termination_by sizeOf t
decreasing_by
  · exact Tree.sizeOf_child (List.mem_of_find?_eq_some _h)
  · exact Tree.sizeOf_child (List.mem_of_find?_eq_some _h)

lemma lies_inner (t : Tree) : Lies t (wrappers t) (classify t).inner := by
  change Lies t (wrappers t) (unwrap t).inner
  have hinside {t d : Tree} (hd : d ∈ t.children) (hw : wrappers t = wrappers d ++ [t])
      (ih : Lies d (wrappers d) (unwrap d).inner) : Lies t (wrappers t) (unwrap d).inner :=
    hw ▸ (Lies.here.part hd).trans ih
  have hbare {t : Tree} (hw : wrappers t = []) : Lies t (wrappers t) t := hw ▸ Lies.here
  fun_induction unwrap t with
  | case1 t hl d hd ih =>
    exact hinside (mem_children_of_child? hd) (by rw [wrappers]; simp only [hl]; split <;> simp_all) ih
  | case4 t hl hglobal d hd ih =>
    have hw : wrappers t = wrappers d ++ [t] := by
      rw [wrappers]
      simp only [hl, if_neg hglobal]
      split <;> simp_all
    exact hinside (List.mem_of_find?_eq_some hd) hw ih
  | case6 t hl c hc hnamespace =>
    have hw : wrappers t = [t] := by rw [wrappers]; simp [hl, hc, hnamespace]
    rw [hw]
    exact Lies.here.part (List.mem_filter.mp (List.mem_of_head? hc)).1
  | case2 t hl hd => exact hbare (by rw [wrappers]; simp only [hl]; split <;> simp_all)
  | case5 t hl hglobal hd =>
    refine hbare ?_
    rw [wrappers]
    simp only [hl, if_neg hglobal]
    split
    · next hsome => cases hd.symm.trans hsome
    · rfl
  | case3 | case7 | case8 | case9 | case10 | case11 => exact hbare (by rw [wrappers]; simp [*])

/-- A use of a type name, where no type of that name is declared around it in the statement, is a reference to the top
level, if that has the name. This holds of all uses in the declaration of the statement but those in patterns, those in
blocks that declare a value of the name, and those in conditions that infer it. -/
theorem type_use_resolves_iff (path : Text) (top : List Text) (modules : List Symbol) (docs : List Comment) (t : Tree) :
    (draftOf path top modules docs (classify t)).references = (classify t).visits.filterMap (·.referent? path top) ∧
    Lies t (wrappers t) (classify t).inner ∧
    ∀ around u, Lies t around u → u.label = .typeIdentifier → u.text ∈ top →
      (∀ s ∈ steps around u, ¬ Unused s.1 s.2 ∧ u.text ∉ typesDeclared path s.1 s.2) →
      ((∃ inside, around = inside ++ wrappers t ∧ ⟨u, inside⟩ ∈ (classify t).visits ∧
          Visit.referent? path top ⟨u, inside⟩ = some (.top u.text)) ↔
        (classify t).kind.skipped = false ∧ ∃ inside, around = inside ++ wrappers t ∧
          Lies (classify t).inner inside u ∧
          ∀ s ∈ steps inside u, ¬ InPattern s.1 s.2 ∧ u.text ∉ overhidden path s.1 s.2) := by
  refine ⟨references_draftOf path top modules docs _, lies_inner t, fun around u _ hl htop hsteps => ?_⟩
  have hn : u.isNamed = true := by simp [Tree.isNamed, hl]
  -- inside the declaration both questions are asked at every step
  have hresolves : ∀ inside, around = inside ++ wrappers t → Lies (classify t).inner inside u →
      ((⟨u, inside⟩ ∈ visits [] (classify t).inner ∧ Visit.referent? path top ⟨u, inside⟩ = some (.top u.text)) ↔
        ∀ s ∈ steps inside u, ¬ InPattern s.1 s.2 ∧ u.text ∉ overhidden path s.1 s.2) := by
    rintro inside rfl hlies
    obtain ⟨d, hd⟩ := steps_append inside (wrappers t) u
    have hinside : ∀ s ∈ steps inside u, ¬ Unused s.1 s.2 ∧ u.text ∉ typesDeclared path s.1 s.2 := fun s hs =>
      hsteps s (hd ▸ List.mem_append_left _ hs)
    have hvisit := mem_visits_iff_of_used hlies hn fun s hs => (hinside s hs).1
    have hreferent : Visit.referent? path top ⟨u, inside⟩ = some (.top u.text) ↔
        ∀ s ∈ steps inside u, u.text ∉ hidden path s.1 s.2 := by
      rw [referent?_type_iff (usedName?_of_typeIdentifier hl), and_iff_right htop]
      rfl
    rw [hvisit, hreferent, ← forall₂_and]
    refine forall₂_congr fun s hs => and_congr_right fun _ => not_congr ?_
    exact mem_hidden_iff_of_not_declared (hinside s hs).2
  unfold Classified.visits
  by_cases hskipped : (classify t).kind.skipped = true
  · simp [hskipped]
  · simp only [hskipped]
    constructor
    · rintro ⟨inside, haround, hvisit, hreferent⟩
      have hlies := (mem_visits_iff.mp hvisit).1
      exact ⟨by simp, inside, haround, hlies, (hresolves inside haround hlies).mp ⟨hvisit, hreferent⟩⟩
    · rintro ⟨-, inside, haround, hlies, hall⟩
      obtain ⟨hvisit, hreferent⟩ := (hresolves inside haround hlies).mpr hall
      exact ⟨inside, haround, hvisit, hreferent⟩

/-- A parameter and a key that are named like a type used beside them. -/
def sharedNameText : Text := "export declare function f(T: T, k: { [T: string]: T }): void;\ninterface T {}\n"

theorem shared_name_resolves :
    ∃ t ∈ parse sharedNameText, ∃ v ∈ (classify t).visits, v.node.label = .typeIdentifier ∧
      (∃ a ∈ v.around, v.node.text ∈ a.parameterNames "t/x.d.ts") ∧
      (∃ a ∈ v.around, a.label = .indexSignature ∧ (a.child? .name).any (·.text = v.node.text)) ∧
      (∀ s ∈ steps (v.around ++ wrappers t) v.node, ¬ Unused s.1 s.2 ∧ v.node.text ∉ typesDeclared "t/x.d.ts" s.1 s.2) ∧
      v.referent? "t/x.d.ts" ["T", "f"] = some (.top v.node.text) := by
  have hplace : ∃ t ∈ parse sharedNameText, (classify t).kind.skipped = false ∧ ∃ v ∈ (classify t).visits,
      v.node.label = .typeIdentifier ∧ v.node.text ∈ [Text.ofString "T"] ∧
      (∃ a ∈ v.around, v.node.text ∈ a.parameterNames "t/x.d.ts") ∧
      (∃ a ∈ v.around, a.label = .indexSignature ∧ (a.child? .name).any (·.text = v.node.text)) ∧
      (∀ s ∈ steps (v.around ++ wrappers t) v.node,
        ¬ Unused s.1 s.2 ∧ v.node.text ∉ typesDeclared "t/x.d.ts" s.1 s.2) ∧
      ∀ s ∈ steps v.around v.node, ¬ InPattern s.1 s.2 ∧ v.node.text ∉ overhidden "t/x.d.ts" s.1 s.2 := by
    decide +kernel
  obtain ⟨t, ht, hkind, v, hv, hl, htext, hparameter, hkey, hused, hinside⟩ := hplace
  have hlies : Lies (classify t).inner v.around v.node := by
    rw [Classified.visits, if_neg (by simp [hkind])] at hv
    exact (mem_visits_iff.mp hv).1
  obtain ⟨-, hinner, hresolves⟩ := type_use_resolves_iff "t/x.d.ts" ["T", "f"] [] [] t
  have htop : v.node.text ∈ [Text.ofString "T", Text.ofString "f"] := by simp_all
  obtain ⟨inside, haround, -, hreferent⟩ := (hresolves _ v.node (hinner.trans hlies) hl htop hused).mpr
    ⟨hkind, v.around, rfl, hlies, hinside⟩
  obtain rfl := List.append_cancel_right haround
  exact ⟨t, ht, v, hv, hl, hparameter, hkey, hused, hreferent⟩

/-- A constant of a namespace that is named like a type used beside it. -/
def constantText : Text := "declare namespace N { const T: 1; function f(x: T): void; }\ninterface T {}\n"

/-- A type that is used in the condition in which one of its name is inferred for the true branch. -/
def conditionText : Text := "type A<X> = X extends [infer U, U] ? 1 : 2;\ninterface U {}\n"

/-- A type in the default of a parameter. -/
def defaultText : Text := "function f({ a = <T>1 }: U) {}\ninterface T {}\ninterface U {}\n"

/-- A type before the words that a declaration starts with. -/
def decoratorText : Text := "@d(x as T) export class A {}\ninterface T {}\n"

/-- Types that are hidden although no type of the name is declared around them, and types that are passed over. -/
theorem needed_types_missed :
    (∃ t ∈ parse constantText, ∃ v ∈ (classify t).visits,
      v.node.label = .typeIdentifier ∧ v.node.text = Text.ofString "T" ∧
      (∀ s ∈ steps (v.around ++ wrappers t) v.node,
        ¬ Unused s.1 s.2 ∧ v.node.text ∉ typesDeclared "t/x.ts" s.1 s.2) ∧
      v.referent? "t/x.ts" ["N", "T"] = some (.inner ⟨"T", [⟨"t/x.ts", 28, 32⟩]⟩)) ∧
    (∃ t ∈ parse conditionText, ∃ v ∈ (classify t).visits,
      v.node.label = .typeIdentifier ∧ v.node.text = Text.ofString "U" ∧
      (∀ s ∈ steps (v.around ++ wrappers t) v.node,
        ¬ Unused s.1 s.2 ∧ v.node.text ∉ typesDeclared "t/x.ts" s.1 s.2) ∧
      v.referent? "t/x.ts" ["A", "U"] = some (.inner ⟨"U", [⟨"t/x.ts", 29, 30⟩]⟩)) ∧
    (let f := outline {} "t/x.ts" defaultText (parse defaultText);
      (f.lookup "T").isSome ∧ (f.lookup "U").isSome ∧ f.statements.map (·.references) = [[f.lookup "U"], [], []]) ∧
    (let f := outline {} "t/x.ts" decoratorText (parse decoratorText);
      (f.lookup "T").isSome ∧ f.statements.map (·.references) = [[], []]) := by
  decide +kernel

end DeclPieces.Syntax
