import DeclPieces.Declaration
import DeclPieces.Syntax.Tree

/-! What a statement declares: its kind, once `export` and `declare` are taken off, and the names it binds. -/
namespace DeclPieces.Syntax

/-- A statement seen through the words in front of it. -/
structure Classified where
  /-- The whole statement. -/
  outer : Tree
  /-- The declaration inside, or the statement itself. -/
  inner : Tree
  kind : Kind
  exported : Bool := false
  /-- Is this a block that adds to the global scope? -/
  isGlobal : Bool := false

def kindOfLabel : Label → Kind
  | .classDeclaration | .abstractClassDeclaration | .classExpression => .cls
  | .functionDeclaration | .generatorDeclaration | .functionSignature => .function
  | .interfaceDeclaration => .interface
  | .enumDeclaration => .enum
  | .typeAliasDeclaration => .typeAlias
  | .lexicalDeclaration | .variableDeclaration => .variableDecl
  | .moduleDeclaration | .namespaceDeclaration => .moduleDecl
  | .importAlias => .importEquals
  | .comment | .hashBang => .comment
  | _ => .other

/-- The kind of an export without a declaration. -/
def exportKind (t : Tree) : Kind :=
  let exports := t.children.any fun c => c.label = .exportClause || c.label = .namespaceExport
  if exports || t.hasToken "*" then .reExport
  else if t.hasToken "=" || t.hasToken "default" then .exportAssignment
  else .other

/-- The declaration inside a tree, with its kind and whether it is a global block. -/
structure Unwrapped where
  inner : Tree
  kind : Kind
  isGlobal : Bool := false

/-- Takes `export` and `declare` off. -/
def unwrap (t : Tree) : Unwrapped :=
  match t.label with
  | .exportStatement =>
    match _h : t.child? .declaration with
    | some d => unwrap d
    | none => ⟨t, exportKind t, false⟩
  | .ambientDeclaration =>
    if t.hasToken "global" then ⟨t, .moduleDecl, true⟩
    else match _h : t.children.find? fun c => c.isNamed && c.label ≠ .comment with
      | some d => unwrap d
      | none => ⟨t, .other, false⟩
  | .expressionStatement =>
    match t.namedChildren.head? with
    | some c => if c.label = .namespaceDeclaration then ⟨c, .moduleDecl, false⟩ else ⟨t, .other, false⟩
    | none => ⟨t, .other, false⟩
  | .importStatement =>
    if (t.childOf? .importRequireClause).isSome then ⟨t, .importEquals, false⟩ else ⟨t, .importDecl, false⟩
  | label => ⟨t, kindOfLabel label, false⟩
termination_by sizeOf t
decreasing_by
  · exact Tree.sizeOf_child (List.mem_of_find?_eq_some _h)
  · exact Tree.sizeOf_child (List.mem_of_find?_eq_some _h)

def classify (t : Tree) : Classified :=
  let u := unwrap t
  let exported := t.label = .exportStatement
  { outer := t, inner := u.inner, kind := u.kind, exported := exported, isGlobal := u.isGlobal }

/-- The part that a qualified name starts with. -/
def firstPart? (t : Tree) : Option Tree :=
  match t.label with
  | .nestedTypeIdentifier => t.child? .module
  | .memberExpression => t.child? .object
  | .nestedIdentifier => (t.child? .object).or t.namedChildren.head?
  | _ => none

theorem mem_children_of_firstPart? {t c : Tree} (h : firstPart? t = some c) : c ∈ t.children := by
  unfold firstPart? at h
  split at h
  · exact List.mem_of_find?_eq_some h
  · exact List.mem_of_find?_eq_some h
  · rcases Option.or_eq_some_iff.mp h with h | ⟨-, h⟩
    · exact List.mem_of_find?_eq_some h
    · exact (List.mem_filter.mp (List.mem_of_mem_head? h)).1
  · cases h

/-- The first segment of a qualified name. -/
def leftmost (t : Tree) : Tree :=
  match _h : firstPart? t with
  | some next => leftmost next
  | none => t
termination_by sizeOf t
decreasing_by exact Tree.sizeOf_child (mem_children_of_firstPart? _h)

/-- A name that a statement binds, with the range of its declaration. -/
structure DeclaredName where
  name : Text
  start : Nat
  stop : Nat
  deriving DecidableEq, Repr

def DeclaredName.of (name : Text) (t : Tree) : DeclaredName := ⟨name, t.start, t.stop⟩

/-- The name of a module or namespace: the first segment of a dotted one, a string with its quotes. -/
def moduleName? (t : Tree) : Option Text := (t.child? .name).map fun n => (leftmost n).text

/-- The name under which a specifier binds or exports. -/
def specifierName? (t : Tree) : Option Text := ((t.child? .newName).or (t.child? .name)).map Tree.text

/-- The names that an import binds. -/
def importBindings (t : Tree) : List Text :=
  match t.childOf? .importClause with
  | none => []
  | some clause => clause.namedChildren.flatMap fun c =>
    match c.label with
    | .identifier => [c.text]
    | .namespaceImport => ((c.childOf? .identifier).map Tree.text).toList
    | .namedImports => (c.namedChildren.filter (·.label = .importSpecifier)).filterMap specifierName?
    | _ => []

/-- The name that `import x = …` binds. -/
def importEqualsName? (t : Tree) : Option Text :=
  match t.childOf? .importRequireClause with
  | some clause => (clause.childOf? .identifier).map Tree.text
  | none => (t.childOf? .identifier).map Tree.text

/-- The names that a list of variables binds; patterns bind none. -/
def variableNames (t : Tree) : List DeclaredName :=
  (t.namedChildren.filter (·.label = .variableDeclarator)).filterMap fun d =>
    match d.child? .name with
    | some n => if n.label = .identifier then some (.of n.text d) else none
    | none => none

namespace Classified

/-- The names a statement binds where it stands. Modules named by strings and global blocks bind none. -/
def names (c : Classified) : List DeclaredName :=
  match c.kind with
  | .variableDecl => variableNames c.inner
  | .cls | .function | .interface | .enum | .typeAlias =>
    ((c.inner.child? .name).map fun n => DeclaredName.of n.text c.inner).toList
  | .moduleDecl =>
    if c.isGlobal then []
    else match moduleName? c.inner with
      | some name => if isIdentifier name then [.of name c.inner] else []
      | none => []
  | .importDecl => (importBindings c.outer).map (DeclaredName.of · c.outer)
  | .importEquals => ((importEqualsName? c.inner).map fun n => DeclaredName.of n c.outer).toList
  | _ => []

end Classified

end DeclPieces.Syntax
