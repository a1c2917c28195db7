import DeclPieces.Syntax.Outline
import Mathlib.Data.List.Basic

/-! The walk through a statement, place by place: which parts of a node it goes into, and which names it finds bound
there. What a statement refers to is what the names at these places stand for. -/
namespace DeclPieces.Syntax

/-! Trees compared. -/

mutual

/-- Are two trees the same, offsets included? -/
def Tree.decEq : (t u : Tree) → Decidable (t = u)
  | .leaf label field start text, .leaf label' field' start' text' =>
    decidable_of_iff (label = label' ∧ field = field' ∧ start = start' ∧ text = text') (by simp)
  | .node label field start stop children, .node label' field' start' stop' children' =>
    have := Tree.decEqList children children'
    decidable_of_iff (label = label' ∧ field = field' ∧ start = start' ∧ stop = stop' ∧ children = children') (by simp)
  | .leaf .., .node .. => isFalse nofun
  | .node .., .leaf .. => isFalse nofun

def Tree.decEqList : (ts us : List Tree) → Decidable (ts = us)
  | [], [] => isTrue rfl
  | t :: ts, u :: us =>
    have := Tree.decEq t u
    have := Tree.decEqList ts us
    decidable_of_iff (t = u ∧ ts = us) (by simp)
  | [], _ :: _ => isFalse nofun
  | _ :: _, [] => isFalse nofun

end

instance : DecidableEq Tree := Tree.decEq

/-! One step of the walk. -/

/-- The name that a node uses by itself, with the world it is meant in. -/
def usedName? (t : Tree) : Option (Meaning × Text) :=
  match t.label with
  | .identifier | .shorthandPattern => some (.value, t.text)
  | .typeIdentifier => some (.type, t.text)
  | .nestedTypeIdentifier | .nestedIdentifier | .memberExpression =>
    if (leftmost t).label = .identifier || (leftmost t).label = .typeIdentifier then
      some (if t.label = .nestedTypeIdentifier then .type else .value, (leftmost t).text)
    else none
  | _ => none

/-- Can a node of this label have type parameters and parameters? -/
def isSignature : Label → Bool
  | .identifier | .shorthandPattern | .typeIdentifier | .nestedTypeIdentifier | .nestedIdentifier | .memberExpression
  | .block | .indexSignature | .conditionalType | .inferType | .exportSpecifier => false
  | label => !isSilent label

/-- Does an export take its names from another module? -/
def exportsFrom (t : Tree) : Bool :=
  t.label = .exportStatement && ((t.child? .source).isSome || (t.childOf? .string).isSome)

/-- The parts of a node that the walk goes into, in this order. -/
def entered (t : Tree) : List Tree :=
  if isQualified t.label then
    if (usedName? t).isSome then [] else (firstPart? t).toList
  else if isSignature t.label then
    if exportsFrom t then []
    else t.namedChildren.filter fun c => !(c.field.isSome && c.field = bindingField? t.label)
  else match t.label with
  | .block => t.namedChildren
  | .indexSignature => t.namedChildren.filter (·.field ≠ some .name)
  | .conditionalType =>
    match t.child? .right with
    | none => t.namedChildren
    | some right =>
      (t.child? .left).toList ++ right :: (t.child? .consequence).toList ++ (t.child? .alternative).toList
  | .inferType =>
    if t.namedChildren.head?.any (·.label = .typeIdentifier) then t.namedChildren.tail else t.namedChildren
  | .exportSpecifier => (t.child? .name).toList
  | _ => []

/-- The frame that is opened between a node and a part of it. -/
def opened (path : Text) (a c : Tree) : Option Frame :=
  if isSignature a.label then (signatureBindings? path a).map List.reverse
  else match a.label with
  | .block => some ((blockSymbols path a.namedChildren).map (Binding.mk · .both)).reverse
  | .indexSignature => some (keyBindings path a).reverse
  | .conditionalType =>
    if c.field = some .right ∨ c.field = some .consequence then
      (a.child? .right).map fun right => (inferBindings path right).reverse
    else none
  | _ => none

/-- The symbols that a node declares for all that is inside it. -/
def declaredIn (path : Text) (t : Tree) : List Symbol :=
  if t.label = .block then blockSymbols path t.namedChildren else []

/-- The scope inside a frame, if there is one. -/
def Scope.enter (s : Scope) (f : Option Frame) : Scope := ⟨f.toList ++ s.frames, s.top⟩

@[simp] lemma Scope.enter_none (s : Scope) : s.enter none = s := rfl

@[simp] lemma Scope.enter_some (s : Scope) (f : Frame) : s.enter (some f) = s.push f := rfl

section Step
variable {path : Text} {s : Scope} {t c : Tree} {f : Field}

lemma field_of_child? (h : t.child? f = some c) : c.field = some f := by
  simpa using List.find?_some h

lemma mem_children_of_child? (h : t.child? f = some c) : c ∈ t.children := List.mem_of_find?_eq_some h

lemma mem_children_of_mem_entered (h : c ∈ entered t) : c ∈ t.children := by
  have hpart {f : Field} (h : t.child? f = some c) : c ∈ t.children := mem_children_of_child? h
  have hnamed (h : c ∈ t.namedChildren) : c ∈ t.children := (List.mem_filter.mp h).1
  unfold entered at h
  split at h
  · split at h
    · cases h
    · exact mem_children_of_firstPart? (Option.mem_toList.mp h)
  split at h
  · split at h
    · cases h
    · exact hnamed (List.mem_filter.mp h).1
  split at h
  · exact hnamed h
  · exact hnamed (List.mem_filter.mp h).1
  · split at h
    · exact hnamed h
    · next right hright =>
      simp only [List.append_assoc, List.cons_append, List.mem_append, List.mem_cons, Option.mem_toList] at h
      rcases h with h | rfl | h | h
      · exact hpart h
      · exact hpart hright
      · exact hpart h
      · exact hpart h
  · split at h
    · exact hnamed (List.mem_of_mem_tail h)
    · exact hnamed h
  · exact hpart (Option.mem_toList.mp h)
  · cases h

lemma entered_of_signature (h : isSignature t.label = true) : entered t = if exportsFrom t then [] else
    t.namedChildren.filter fun c => !(c.field.isSome && c.field = bindingField? t.label) := by
  have hq : isQualified t.label = false := by cases hl : t.label <;> simp_all [isSignature, isQualified]
  simp only [entered, h, hq, Bool.false_eq_true, if_false, if_true]

lemma entered_of_block (hl : t.label = .block) : entered t = t.namedChildren := by
  simp [hl, entered, isSignature, isQualified]

lemma entered_of_indexSignature (hl : t.label = .indexSignature) :
    entered t = t.namedChildren.filter fun c => !decide (c.field = some .name) := by
  simp [hl, entered, isSignature, isQualified]

lemma entered_of_conditionalType (hl : t.label = .conditionalType) : entered t = match t.child? .right with
    | none => t.namedChildren
    | some right =>
      (t.child? .left).toList ++ right :: (t.child? .consequence).toList ++ (t.child? .alternative).toList := by
  simp [hl, entered, isSignature, isQualified]

lemma entered_of_inferType (hl : t.label = .inferType) : entered t =
    if t.namedChildren.head?.any (·.label = .typeIdentifier) then t.namedChildren.tail else t.namedChildren := by
  simp [hl, entered, isSignature, isQualified]

lemma entered_of_exportSpecifier (hl : t.label = .exportSpecifier) : entered t = (t.child? .name).toList := by
  simp [hl, entered, isSignature, isQualified]

lemma leftmost_of_firstPart? {next : Tree} (h : firstPart? t = some next) : leftmost t = leftmost next := by
  rw [leftmost, h]

lemma leftmost_of_firstPart?_eq_none (h : firstPart? t = none) : leftmost t = t := by
  rw [leftmost, h]

lemma firstPart?_of_not_qualified (hq : isQualified t.label = false) : firstPart? t = none := by
  unfold firstPart?
  cases hl : t.label <;> simp_all [isQualified]

@[simp] lemma leftmost_leftmost (t : Tree) : leftmost (leftmost t) = leftmost t := by
  fun_induction leftmost t with
  | case1 t next hnext ih => exact ih
  | case2 t hnone => exact leftmost_of_firstPart?_eq_none hnone

lemma mentions_of_unnamed (path : Text) (s : Scope) (h : c.isNamed = false) : mentions path s c = [] := by
  have hl : c.label = .token := by simpa [Tree.isNamed] using h
  rw [mentions, if_pos (by rw [hl]; rfl)]

lemma flatMap_unless {α β : Type} (p : α → Bool) (f : α → List β) (l : List α) :
    (l.flatMap fun a => if p a then [] else f a) = (l.filter fun a => !p a).flatMap f := by
  induction l with
  | nil => rfl
  | cons a rest ih => cases h : p a <;> simp [h, ih]

lemma flatMap_filter_of_nil {α β : Type} {p : α → Bool} {f : α → List β} (h : ∀ a, p a = false → f a = [])
    (l : List α) : (l.filter p).flatMap f = l.flatMap f := by
  induction l with
  | nil => rfl
  | cons a rest ih => cases hp : p a <;> simp [hp, ih, h]

/-- Bare tokens mention nothing. -/
lemma flatMap_namedChildren (path : Text) (s : Tree → Scope) (t : Tree) (p : Tree → Bool) :
    ((t.namedChildren.filter p).flatMap fun c => mentions path (s c) c) =
      (t.children.filter p).flatMap fun c => mentions path (s c) c := by
  rw [Tree.namedChildren, List.filter_comm]
  exact flatMap_filter_of_nil (fun c hc => mentions_of_unnamed path (s c) hc) _

lemma mentions_of_signature (path : Text) (s : Scope) (h : isSignature t.label = true) :
    mentions path s t = (entered t).flatMap fun c => mentions path (s.enter (opened path t c)) c := by
  have hsilent : isSilent t.label = false := by
    cases hl : t.label <;> simp_all [isSignature, isSilent]
  have hopened (c : Tree) : opened path t c = (signatureBindings? path t).map List.reverse := by
    simp only [opened, h, if_true]
  simp only [hopened, entered_of_signature h]
  rw [mentions, if_neg (by simp [hsilent])]
  split
  all_goals try simp_all [isSignature]; done
  change (if exportsFrom t = true then [] else _) = _
  by_cases hfrom : exportsFrom t = true
  · rw [if_pos hfrom, if_pos hfrom]
    rfl
  · rw [if_neg hfrom, if_neg hfrom, flatMap_namedChildren, ← flatMap_unless]
    cases signatureBindings? path t <;> simp

/-- What stands in a part of a node, if the node has that part. -/
lemma mentions_part (path : Text) (s : Scope) (t : Tree) (f : Field) :
    (match _h : t.child? f with
      | some c => mentions path s c
      | none => []) = (t.child? f).toList.flatMap (mentions path s) := by
  split <;> simp [*]

lemma mentions_of_block (path : Text) (s : Scope) (hl : t.label = .block) :
    mentions path s t = (blockSymbols path t.namedChildren).map .declare ++
      (entered t).flatMap fun c => mentions path (s.enter (opened path t c)) c := by
  have hentered : entered t = t.namedChildren.filter fun _ => true := by simp [entered_of_block hl]
  rw [hentered, flatMap_namedChildren, mentions]
  simp [hl, isSilent, opened, isSignature]

lemma mentions_of_indexSignature (path : Text) (s : Scope) (hl : t.label = .indexSignature) :
    mentions path s t = (entered t).flatMap fun c => mentions path (s.enter (opened path t c)) c := by
  rw [mentions, entered_of_indexSignature hl, flatMap_namedChildren, ← flatMap_unless]
  simp [hl, isSilent, opened, isSignature]

lemma mentions_of_conditionalType (path : Text) (s : Scope) (hl : t.label = .conditionalType) :
    mentions path s t = (entered t).flatMap fun c => mentions path (s.enter (opened path t c)) c := by
  have hopened (c : Tree) : opened path t c = if c.field = some .right ∨ c.field = some .consequence then
      (t.child? .right).map fun right => (inferBindings path right).reverse else none := by
    simp [hl, opened, isSignature]
  have hpart {f : Field} (s' : Scope) (h : ∀ c, t.child? f = some c → s.enter (opened path t c) = s') :
      (t.child? f).toList.flatMap (mentions path s') =
        (t.child? f).toList.flatMap fun c => mentions path (s.enter (opened path t c)) c := by
    cases hc : t.child? f with
    | none => rfl
    | some c => simp [h c hc]
  rw [mentions, entered_of_conditionalType hl]
  simp only [hl, isSilent, Bool.false_eq_true, if_false]
  split
  · next hright =>
    have hnamed : (t.children.filter Tree.isNamed).flatMap (mentions path s) = t.children.flatMap (mentions path s) :=
      flatMap_filter_of_nil (fun c hc => mentions_of_unnamed path s hc) t.children
    simp only [hopened, hright, Option.map_none, ite_self, Scope.enter_none, Tree.namedChildren, hnamed]
    simp
  · next right hright =>
    have hinner {f : Field} (hf : f = .right ∨ f = .consequence) (c : Tree) (hc : t.child? f = some c) :
        s.enter (opened path t c) = s.push (inferBindings path right).reverse := by
      have hfield := field_of_child? hc
      rcases hf with rfl | rfl <;> simp [hopened, hfield, hright]
    have houter {f : Field} (hf : f = .left ∨ f = .alternative) (c : Tree) (hc : t.child? f = some c) :
        s.enter (opened path t c) = s := by
      have hfield := field_of_child? hc
      rcases hf with rfl | rfl <;> simp [hopened, hfield]
    have hparts : (t.child? .left).toList.flatMap (mentions path s) ++
        mentions path (s.push (inferBindings path right).reverse) right ++
        (t.child? .consequence).toList.flatMap (mentions path (s.push (inferBindings path right).reverse)) ++
        (t.child? .alternative).toList.flatMap (mentions path s) =
        ((t.child? .left).toList ++ right :: (t.child? .consequence).toList ++ (t.child? .alternative).toList).flatMap
          fun c => mentions path (s.enter (opened path t c)) c := by
      rw [hpart s (houter (.inl rfl)), hpart _ (hinner (.inr rfl)), hpart s (houter (.inr rfl)),
        ← hinner (.inl rfl) right hright]
      simp
    simp only [hright]
    rw [← hparts]
    exact congrArg₂ (· ++ ·) (congrArg₂ (· ++ ·) (congrArg₂ (· ++ ·) (mentions_part path s t .left) rfl)
      (mentions_part path _ t .consequence)) (mentions_part path s t .alternative)

/-- Leaving out the first member of a list that counts, if it is of a kind, is leaving it out by its place. -/
lemma flatMap_zipIdx_dropWhile {α β : Type} {l : List α} (p q : α → Bool) (f : α → List β) :
    ((l.attach.dropWhile fun a => p a.1).zipIdx.flatMap fun a => if a.2 = 0 && q a.1.1 then [] else f a.1.1) =
      (if (l.dropWhile p).head?.any q then (l.dropWhile p).tail else l.dropWhile p).flatMap f := by
  have hmap : (l.attach.dropWhile fun a => p a.1).map (·.1) = l.dropWhile p := by
    have := List.dropWhile_map (p := p) (f := Subtype.val) (l := l.attach)
    rw [List.attach_map_subtype_val] at this
    exact this.symm
  rw [← hmap]
  have hlater (m : List { a // a ∈ l }) (k : Nat) :
      ((m.zipIdx (k + 1)).flatMap fun a => if a.2 = 0 && q a.1.1 then [] else f a.1.1) = (m.map (·.1)).flatMap f := by
    induction m generalizing k with
    | nil => rfl
    | cons a rest ih =>
      simp only [List.zipIdx_cons, List.flatMap_cons, List.map_cons, ih]
      simp
  cases l.attach.dropWhile fun a => p a.1 with
  | nil => rfl
  | cons a rest =>
    simp only [List.zipIdx_cons, List.flatMap_cons, List.map_cons, hlater rest 0]
    cases hq : q a.1 <;> simp [hq]

/-- Members that give nothing can be left in, except before the first that counts. -/
lemma flatMap_filter_but_first {α β : Type} {p : α → Bool} (q : α → Bool) {f : α → List β}
    (h : ∀ a, p a = false → f a = []) (l : List α) :
    (if (l.filter p).head?.any q then (l.filter p).tail else l.filter p).flatMap f =
      (if (l.dropWhile (!p ·)).head?.any q then (l.dropWhile (!p ·)).tail else l.dropWhile (!p ·)).flatMap f := by
  induction l with
  | nil => rfl
  | cons a rest ih =>
    cases hp : p a with
    | false => simpa [hp] using ih
    | true => cases hq : q a <;> simp [hp, hq, flatMap_filter_of_nil h]

lemma mentions_of_inferType (path : Text) (s : Scope) (hl : t.label = .inferType) :
    mentions path s t = (entered t).flatMap fun c => mentions path (s.enter (opened path t c)) c := by
  have hopened (c : Tree) : opened path t c = none := by simp [hl, opened, isSignature]
  simp only [hopened, Scope.enter_none]
  rw [entered_of_inferType hl, Tree.namedChildren,
    flatMap_filter_but_first _ fun c hc => mentions_of_unnamed path s hc, mentions]
  simp only [hl, isSilent, Bool.false_eq_true, if_false]
  exact flatMap_zipIdx_dropWhile (fun c : Tree => !c.isNamed) (fun c => decide (c.label = .typeIdentifier))
    (mentions path s)

lemma mentions_of_exportSpecifier (path : Text) (s : Scope) (hl : t.label = .exportSpecifier) :
    mentions path s t = (entered t).flatMap fun c => mentions path (s.enter (opened path t c)) c := by
  have hopened (c : Tree) : opened path t c = none := by simp [hl, opened, isSignature]
  simp only [entered_of_exportSpecifier hl, hopened, Scope.enter_none]
  rw [mentions]
  simp only [hl, isSilent, Bool.false_eq_true, if_false]
  exact mentions_part path s t .name

lemma usedName?_eq_none_iff (h : isQualified t.label = true) :
    usedName? t = none ↔ (leftmost t).label ≠ .identifier ∧ (leftmost t).label ≠ .typeIdentifier := by
  cases hl : t.label <;> simp_all [isQualified, usedName?]

/-- What a qualified name that starts with no plain name mentions. -/
lemma mentions_leftmost (path : Text) (s : Scope) (h : isQualified t.label = true) (hused : usedName? t = none) :
    mentions path s t = if (leftmost t).label = t.label then [] else mentions path s (leftmost t) := by
  rw [mentions]
  cases hl : t.label <;> simp_all [isQualified, isSilent, usedName?]

/-- The walk goes down a qualified name part by part. What it comes to is walked as usual. -/
lemma mentions_of_qualified (path : Text) (s : Scope) (h : isQualified t.label = true) (hused : usedName? t = none) :
    mentions path s t = (firstPart? t).toList.flatMap (mentions path s) := by
  have hmentions := mentions_leftmost path s h hused
  cases hc : firstPart? t with
  | none => simp [hmentions, leftmost_of_firstPart?_eq_none hc]
  | some next =>
    have hleft := leftmost_of_firstPart? hc
    rw [hmentions, hleft]
    simp only [Option.toList_some, List.flatMap_cons, List.flatMap_nil, List.append_nil]
    by_cases hnext : isQualified next.label = true
    · have hnone : usedName? next = none := by
        rwa [usedName?_eq_none_iff hnext, ← hleft, ← usedName?_eq_none_iff h]
      rw [mentions_leftmost path s hnext hnone]
      by_cases hhead : isQualified (leftmost next).label = true
      · -- the name ends without a first segment, so that there is nothing to walk
        have hstuck : usedName? (leftmost next) = none := by
          rwa [usedName?_eq_none_iff hhead, leftmost_leftmost, ← usedName?_eq_none_iff hnext]
        have hnil : mentions path s (leftmost next) = [] := by
          rw [mentions_leftmost path s hhead hstuck, leftmost_leftmost, if_pos rfl]
        simp [hnil]
      · rw [if_neg (by rintro e; exact hhead (e ▸ h)), if_neg (by rintro e; exact hhead (e ▸ hnext))]
    · have hnext : isQualified next.label = false := by simpa using hnext
      rw [leftmost_of_firstPart?_eq_none (firstPart?_of_not_qualified hnext),
        if_neg (by rintro e; rw [e, h] at hnext; cases hnext)]

lemma mentions_of_usedName (path : Text) (s : Scope) {u : Meaning × Text} (h : usedName? t = some u) :
    mentions path s t = useOf s u.1 u.2 := by
  rw [mentions]
  cases hl : t.label <;> simp_all [isSilent, usedName?]
  all_goals obtain ⟨-, rfl⟩ := h; rfl

lemma entered_of_usedName {u : Meaning × Text} (h : usedName? t = some u) : entered t = [] := by
  cases hl : t.label <;> simp_all [usedName?, entered, isQualified, isSignature]

lemma usedName?_of_typeIdentifier (h : t.label = .typeIdentifier) : usedName? t = some (.type, t.text) := by
  simp [usedName?, h]

lemma label_cases (l : Label) : isSignature l = true ∨ isQualified l = true ∨ isSilent l = true ∨
    l ∈ [.identifier, .shorthandPattern, .typeIdentifier] ∨
    l ∈ [.block, .indexSignature, .conditionalType, .inferType, .exportSpecifier] := by
  cases l <;> simp [isSignature, isQualified, isSilent]

/-- One step of the walk: what a node declares, the name it uses itself, and then its parts, each in its scope. -/
theorem mentions_eq (path : Text) (s : Scope) (t : Tree) :
    mentions path s t = (declaredIn path t).map .declare ++
      (usedName? t).toList.flatMap (fun u => useOf s u.1 u.2) ++
      (entered t).flatMap fun c => mentions path (s.enter (opened path t c)) c := by
  have hplain (hd : t.label ≠ .block) : declaredIn path t = [] := if_neg hd
  cases hu : usedName? t with
  | some u =>
    have hd : declaredIn path t = [] := hplain (by rintro hl; simp [usedName?, hl] at hu)
    rw [mentions_of_usedName path s hu, entered_of_usedName hu, hd]
    simp
  | none =>
    suffices h : mentions path s t = (declaredIn path t).map .declare ++
        (entered t).flatMap fun c => mentions path (s.enter (opened path t c)) c by simpa using h
    rcases label_cases t.label with h | h | h | h | h
    · rw [mentions_of_signature path s h, hplain (by rintro hl; simp [hl, isSignature] at h)]
      rfl
    · have ho (c : Tree) : opened path t c = none := by
        cases hl : t.label <;> simp_all [isQualified, opened, isSignature]
      simp [hplain (by rintro hl; simp [hl, isQualified] at h), mentions_of_qualified path s h hu, ho, entered, h, hu]
    · have he : entered t = [] := by
        cases hl : t.label <;> simp_all [isSilent, entered, isQualified, isSignature]
      rw [mentions, if_pos h, he, hplain (by rintro hl; simp [hl, isSilent] at h)]
      rfl
    · simp only [List.mem_cons, List.not_mem_nil, or_false] at h
      rcases h with h | h | h <;> simp [usedName?, h] at hu
    · simp only [List.mem_cons, List.not_mem_nil, or_false] at h
      rcases h with h | h | h | h | h
      · rw [mentions_of_block path s h, declaredIn, if_pos h]
      · rw [mentions_of_indexSignature path s h, hplain (by simp [h])]
        rfl
      · rw [mentions_of_conditionalType path s h, hplain (by simp [h])]
        rfl
      · rw [mentions_of_inferType path s h, hplain (by simp [h])]
        rfl
      · rw [mentions_of_exportSpecifier path s h, hplain (by simp [h])]
        rfl

end Step

/-! The whole walk. -/

/-- The way down to a place: each node around it with the part that leads on, innermost first. -/
def steps : List Tree → Tree → List (Tree × Tree)
  | [], _ => []
  | a :: around, t => (a, t) :: steps around a

lemma exists_step_of_mem {around : List Tree} {a t : Tree} (h : a ∈ around) : ∃ c, (a, c) ∈ steps around t := by
  induction around generalizing t with
  | nil => cases h
  | cons b rest ih =>
    rcases List.mem_cons.mp h with rfl | h
    · exact ⟨t, List.mem_cons_self⟩
    · obtain ⟨c, hc⟩ := ih h
      exact ⟨c, List.mem_cons_of_mem _ hc⟩

lemma steps_append (inside around : List Tree) (t : Tree) :
    ∃ u, steps (inside ++ around) t = steps inside t ++ steps around u := by
  induction inside generalizing t with
  | nil => exact ⟨t, rfl⟩
  | cons a rest ih =>
    obtain ⟨u, hu⟩ := ih a
    exact ⟨u, by simp [steps, hu]⟩

/-- A place that the walk comes to: a node and the nodes around it, innermost first. -/
structure Visit where
  node : Tree
  around : List Tree

namespace Visit

def steps (v : Visit) : List (Tree × Tree) := Syntax.steps v.around v.node

/-- What is bound at a place, seen from the names of the top level. -/
def scope (path : Text) (top : List Text) (v : Visit) : Scope :=
  ⟨v.steps.filterMap fun s => opened path s.1 s.2, top⟩

/-- What the name that the node uses itself stands for. -/
def referent? (path : Text) (top : List Text) (v : Visit) : Option Referent :=
  (usedName? v.node).bind fun u => (v.scope path top).lookup u.2 u.1

/-- What the node mentions itself. -/
def mentions (path : Text) (top : List Text) (v : Visit) : List Mention :=
  (declaredIn path v.node).map .declare ++ (usedName? v.node).toList.flatMap fun u => useOf (v.scope path top) u.1 u.2

end Visit

/-- The places that the walk through a tree comes to, in its order. -/
def visits (around : List Tree) (t : Tree) : List Visit :=
  ⟨t, around⟩ :: (entered t).attach.flatMap fun ⟨c, _⟩ => visits (t :: around) c
termination_by sizeOf t
decreasing_by exact Tree.sizeOf_child (mem_children_of_mem_entered (by assumption))

section Visits
variable {path : Text} {top : List Text} {around : List Tree} {t u c : Tree} {v : Visit}

lemma visits_eq (around : List Tree) (t : Tree) :
    visits around t = ⟨t, around⟩ :: (entered t).flatMap (visits (t :: around)) := by
  rw [visits]
  simp

/-- What holds of all parts that the walk goes into, and so of the tree, holds of every tree. -/
lemma walk_induction {motive : Tree → Prop} (h : ∀ t, (∀ c ∈ entered t, motive c) → motive t) (t : Tree) : motive t :=
  h t fun c _ => walk_induction h c
termination_by sizeOf t
decreasing_by exact Tree.sizeOf_child (mem_children_of_mem_entered (by assumption))

/-- What the walk keeps from a place to the next holds of every place it comes to. -/
lemma visits_keep {motive : Visit → Prop}
    (hpart : ∀ v c, motive v → c ∈ entered v.node → motive ⟨c, v.node :: v.around⟩) (t : Tree) (around : List Tree)
    (h : motive ⟨t, around⟩) : ∀ v ∈ visits around t, motive v := by
  induction t using walk_induction generalizing around with
  | h t ih =>
    intro v hv
    rw [visits_eq, List.mem_cons, List.mem_flatMap] at hv
    rcases hv with rfl | ⟨c, hc, hv⟩
    · exact h
    · exact ih c hc _ (hpart _ c h hc) v hv

/-- The walk goes on from every place it comes to. -/
lemma mem_visits_part (h : v ∈ visits around t) (hc : c ∈ entered v.node) :
    ⟨c, v.node :: v.around⟩ ∈ visits around t := by
  induction t using walk_induction generalizing around with
  | h t ih =>
    rw [visits_eq, List.mem_cons, List.mem_flatMap] at h ⊢
    rcases h with rfl | ⟨d, hd, hv⟩
    · refine .inr ⟨c, hc, ?_⟩
      rw [visits_eq]
      exact List.mem_cons_self
    · exact .inr ⟨d, hd, ih d hd hv⟩

/-- What a tree mentions is what its places mention. -/
theorem mentions_eq_visits (path : Text) (top : List Text) (around : List Tree) (t : Tree) :
    mentions path (Visit.scope path top ⟨t, around⟩) t = (visits around t).flatMap (·.mentions path top) := by
  induction t using walk_induction generalizing around with
  | h t ih =>
    have hpart : ∀ c ∈ entered t, mentions path ((Visit.scope path top ⟨t, around⟩).enter (opened path t c)) c =
        (visits (t :: around) c).flatMap (·.mentions path top) := by
      intro c hc
      rw [← ih c hc]
      congr 1
      simp only [Visit.scope, Visit.steps, steps, Scope.enter, List.filterMap_cons]
      cases opened path t c <;> rfl
    rw [mentions_eq, visits_eq, List.flatMap_cons, List.flatMap_assoc]
    congr 1
    exact List.flatMap_congr hpart

/-- What a tree refers to is what its places refer to, in their order. -/
lemma referents_mentions (path : Text) (top : List Text) (t : Tree) :
    referents (mentions path { top } t) = (visits [] t).filterMap (·.referent? path top) := by
  have hscope : ({ top } : Scope) = Visit.scope path top ⟨t, []⟩ := rfl
  have hdeclared (symbols : List Symbol) : referents (symbols.map .declare) = [] := by simp [referents]
  have hplace (v : Visit) : referents (v.mentions path top) = (v.referent? path top).toList := by
    have happend (ms ns : List Mention) : referents (ms ++ ns) = referents ms ++ referents ns := List.filterMap_append
    rw [Visit.mentions, happend, hdeclared, List.nil_append, Visit.referent?]
    cases usedName? v.node with
    | none => rfl
    | some u =>
      simp only [Option.toList_some, List.flatMap_cons, List.flatMap_nil, List.append_nil, Option.bind_some, useOf]
      cases (v.scope path top).lookup u.2 u.1 <;> rfl
  rw [hscope, mentions_eq_visits, List.filterMap_eq_flatMap_toList]
  simp only [← hplace]
  exact List.filterMap_flatMap

/-- A node lies in a tree, `around` being the nodes around it, innermost first. -/
inductive Lies (t : Tree) : List Tree → Tree → Prop
  | here : Lies t [] t
  | part {around a c} (h : Lies t around a) (hc : c ∈ a.children) : Lies t (a :: around) c

lemma Lies.trans {a : Tree} {inside : List Tree} (h : Lies t around a) (hu : Lies a inside u) :
    Lies t (inside ++ around) u := by
  induction hu with
  | here => exact h
  | part _ hc ih => exact ih.part hc

lemma Lies.mem_children (h : Lies t around u) : ∀ s ∈ steps around u, s.2 ∈ s.1.children := by
  induction h with
  | here => exact fun s hs => nomatch hs
  | part _ hc ih => exact List.forall_mem_cons.mpr ⟨hc, ih⟩

/-- The walk comes to just the places to which every step leads into a part that it enters. -/
lemma mem_visits_iff : ⟨u, around⟩ ∈ visits [] t ↔ Lies t around u ∧ ∀ s ∈ steps around u, s.2 ∈ entered s.1 := by
  constructor
  · intro h
    refine visits_keep (motive := fun v => Lies t v.around v.node ∧ ∀ s ∈ v.steps, s.2 ∈ entered s.1) ?_ t [] ?_ _ h
    · rintro v c ⟨hlies, hsteps⟩ hc
      refine ⟨hlies.part (mem_children_of_mem_entered hc), fun s hs => ?_⟩
      rcases List.mem_cons.mp hs with rfl | hs
      · exact hc
      · exact hsteps s hs
    · exact ⟨.here, fun s hs => by cases hs⟩
  · rintro ⟨hlies, hsteps⟩
    induction hlies with
    | here =>
      rw [visits_eq]
      exact List.mem_cons_self
    | part _ _ ih =>
      have hlast := hsteps _ List.mem_cons_self
      exact mem_visits_part (ih fun s hs => hsteps s (List.mem_cons_of_mem _ hs)) hlast

end Visits

/-- The places in a statement that the walk comes to. Statements that are passed over are not walked. -/
def Classified.visits (c : Classified) : List Visit := if c.kind.skipped then [] else Syntax.visits [] c.inner

/-- What a statement refers to is what its places refer to, in their order. -/
lemma references_draftOf (path : Text) (top : List Text) (modules : List Symbol) (docs : List Comment) (c : Classified) :
    (draftOf path top modules docs c).references = c.visits.filterMap (·.referent? path top) := by
  unfold draftOf Classified.visits
  split
  · rfl
  · exact referents_mentions path top c.inner

end DeclPieces.Syntax
