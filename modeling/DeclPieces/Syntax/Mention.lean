import DeclPieces.Syntax.Scope
import DeclPieces.Syntax.Statement

/-! The names that a statement mentions: what every identifier in it stands for, and what its nested
blocks declare, in source order. -/
namespace DeclPieces.Syntax

inductive Mention where
  | use (referent : Referent)
  | declare (symbol : Symbol)
  deriving DecidableEq, Repr

/-- The symbol bound at a node of the file `path`. -/
def Tree.symbol (path name : Text) (t : Tree) : Symbol := ⟨name, [⟨path, t.start, t.stop⟩]⟩

/-- The binding of the name that a leaf spells. -/
def Tree.binding (path : Text) (meaning : Meaning) (t : Tree) : Binding := ⟨t.symbol path t.text, meaning⟩

/-- The child of a node that introduces a name and does not use one. -/
def bindingField? : Label → Option Field
  | .classDeclaration | .abstractClassDeclaration | .classExpression | .interfaceDeclaration
  | .enumDeclaration | .typeAliasDeclaration | .functionDeclaration | .generatorDeclaration
  | .functionSignature | .moduleDeclaration | .namespaceDeclaration | .variableDeclarator
  | .typeParameter | .mappedClause | .indexSignature => some .name
  | .requiredParameter | .optionalParameter => some .pattern
  | _ => none

/-- Nodes that mention nothing. -/
def isSilent : Label → Bool
  | .token | .comment | .string | .literal | .propertyIdentifier | .privateIdentifier
  | .shorthandProperty | .labelIdentifier | .this | .super | .thisType | .predefinedType => true
  | _ => false

def isQualified : Label → Bool
  | .nestedTypeIdentifier | .nestedIdentifier | .memberExpression => true
  | _ => false

theorem leftmost_eq_or_lt (t : Tree) : leftmost t = t ∨ sizeOf (leftmost t) < sizeOf t := by
  fun_induction leftmost t with
  | case1 t next h ih =>
    have := Tree.sizeOf_child (mem_children_of_firstPart? h)
    rcases ih with ih | ih
    · rw [ih]; exact .inr this
    · exact .inr (Nat.lt_trans ih this)
  | case2 => exact .inl rfl

/-- The names of a parameter pattern, as values. -/
def patternBindings (path : Text) (t : Tree) : List Binding :=
  match t.label with
  | .identifier | .shorthandPattern => [t.binding path .value]
  | .pairPattern =>
    match _h : t.child? .value with
    | some c => patternBindings path c
    | none => []
  | .assignmentPattern =>
    match _h : t.child? .left with
    | some c => patternBindings path c
    | none => []
  | .objectPattern | .arrayPattern | .restPattern | .objectAssignmentPattern =>
    t.children.attach.flatMap fun ⟨c, _⟩ => if c.isNamed then patternBindings path c else []
  | _ => []
termination_by sizeOf t
decreasing_by
  all_goals first
    | exact Tree.sizeOf_child (List.mem_of_find?_eq_some _h)
    | exact Tree.sizeOf_child (by assumption)

/-- The names that `infer` binds in a tree. Conditional types inside own theirs. -/
def inferBindings (path : Text) (t : Tree) : List Binding :=
  match t.label with
  | .inferType =>
    match t.namedChildren.head? with
    | some c => if c.label = .typeIdentifier then [c.binding path .type] else []
    | none => []
  | .conditionalType => []
  | _ => t.children.attach.flatMap fun ⟨c, _⟩ => if c.isNamed then inferBindings path c else []
termination_by sizeOf t
decreasing_by exact Tree.sizeOf_child (by assumption)

/-- The type parameters and parameters of a signature, in binding order; none if it has no such list. -/
def signatureBindings? (path : Text) (t : Tree) : Option (List Binding) :=
  let types := t.child? .typeParameters
  let params := t.child? .parameters
  let single := t.child? .parameter
  if types.isNone && params.isNone && single.isNone then none
  else
    let named (c : Tree) : List Tree := c.namedChildren
    some
      (((types.toList.flatMap named).filterMap (·.child? .name)).map (·.binding path .type) ++
        ((params.toList.flatMap named).filterMap (·.child? .pattern)).flatMap (patternBindings path) ++
        single.toList.flatMap (patternBindings path))

/-- The key of an index signature, as a value, and that of a mapped type, as a type. -/
def keyBindings (path : Text) (t : Tree) : List Binding :=
  (t.child? .name).toList.map (·.binding path .value) ++
    ((t.childOf? .mappedClause).bind (·.child? .name)).toList.map (·.binding path .type)

/-- Adds a declaration to the symbol of its name, or a new symbol at the end. -/
def addDeclaration (name : Text) (d : Declaration) : List Symbol → List Symbol
  | [] => [⟨name, [d]⟩]
  | s :: rest =>
    if s.name = name then { s with decls := s.decls ++ [d] } :: rest
    else s :: addDeclaration name d rest

/-- The symbols that the statements declare, one a name, in the order of their first declarations. -/
def symbolsOf (path : Text) (names : List DeclaredName) : List Symbol :=
  names.foldl (fun acc n => addDeclaration n.name ⟨path, n.start, n.stop⟩ acc) []

/-- The symbols of a block. Imports inside a block bind nothing. -/
def blockSymbols (path : Text) (statements : List Tree) : List Symbol :=
  symbolsOf path (((statements.map classify).filter (·.kind ≠ .importDecl)).flatMap (·.names))

/-- The use of a name, when it is bound. -/
def useOf (s : Scope) (want : Meaning) (name : Text) : List Mention :=
  ((s.lookup name want).map Mention.use).toList

/-- What the tree mentions, seen from scope `s`. -/
def mentions (path : Text) (s : Scope) (t : Tree) : List Mention :=
  if isSilent t.label then []
  else match t.label with
  | .identifier | .shorthandPattern => useOf s .value t.text
  | .typeIdentifier => useOf s .type t.text
  | .nestedTypeIdentifier | .nestedIdentifier | .memberExpression =>
    let want : Meaning := if t.label = .nestedTypeIdentifier then .type else .value
    let head := leftmost t
    if head.label = .identifier || head.label = .typeIdentifier then useOf s want head.text
    else if _h : head.label = t.label then []
    else mentions path s head
  | .block =>
    let declared := blockSymbols path t.namedChildren
    let inner := s.push ((declared.map (Binding.mk · .both)).reverse)
    declared.map .declare ++ t.children.attach.flatMap fun ⟨c, _⟩ => mentions path inner c
  | .indexSignature =>
    let inner := s.push (keyBindings path t).reverse
    t.children.attach.flatMap fun ⟨c, _⟩ => if c.field = some .name then [] else mentions path inner c
  | .conditionalType =>
    match _h : t.child? .right with
    | none => t.children.attach.flatMap fun ⟨c, _⟩ => mentions path s c
    | some right =>
      let inner := s.push (inferBindings path right).reverse
      let part (f : Field) (s : Scope) : List Mention :=
        match _hp : t.child? f with
        | some c => mentions path s c
        | none => []
      part .left s ++ mentions path inner right ++ part .consequence inner ++ part .alternative s
  | .inferType =>
    let rest := t.children.attach.dropWhile fun ⟨c, _⟩ => !c.isNamed
    rest.zipIdx.flatMap fun (⟨c, _⟩, i) =>
      if i = 0 && c.label = .typeIdentifier then [] else mentions path s c
  | .exportSpecifier =>
    match _h : t.child? .name with
    | some c => mentions path s c
    | none => []
  | label =>
    if label = .exportStatement && ((t.child? .source).isSome || (t.childOf? .string).isSome) then []
    else
      let inner := match signatureBindings? path t with
        | some bs => s.push bs.reverse
        | none => s
      t.children.attach.flatMap fun ⟨c, _⟩ =>
        if c.field.isSome && c.field = bindingField? label then [] else mentions path inner c
termination_by sizeOf t
decreasing_by
  all_goals first
    | exact Tree.sizeOf_child (List.mem_of_find?_eq_some _h)
    | exact Tree.sizeOf_child (List.mem_of_find?_eq_some _hp)
    | exact Tree.sizeOf_child (by assumption)
    | exact (leftmost_eq_or_lt t).resolve_left fun e => _h (congrArg Tree.label e)

/-- The referents of the names used. -/
def referents (ms : List Mention) : List Referent :=
  ms.filterMap fun
    | .use r => some r
    | .declare _ => none

/-- The symbols declared further in. -/
def declarations (ms : List Mention) : List Symbol :=
  ms.filterMap fun
    | .use _ => none
    | .declare s => some s

end DeclPieces.Syntax
