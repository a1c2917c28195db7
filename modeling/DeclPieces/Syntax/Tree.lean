import DeclPieces.Text.Rune

/-! Syntax trees of declaration files. The labels tell apart what binds or uses a name; constructs
that merely hold others share a label. -/
namespace DeclPieces.Syntax

/-- What a node of a syntax tree is. -/
inductive Label where
  -- leaves
  | token
  | comment
  | hashBang
  | identifier
  | typeIdentifier
  | propertyIdentifier
  | privateIdentifier
  | shorthandProperty
  | shorthandPattern
  | labelIdentifier
  | string
  | literal
  | this
  | super
  | thisType
  | predefinedType
  -- qualified names
  | nestedIdentifier
  | nestedTypeIdentifier
  | memberExpression
  -- modules
  | importStatement
  | importClause
  | namespaceImport
  | namedImports
  | importSpecifier
  | importRequireClause
  | importAlias
  | exportStatement
  | exportClause
  | exportSpecifier
  | namespaceExport
  -- declarations
  | ambientDeclaration
  | moduleDeclaration
  | namespaceDeclaration
  | classDeclaration
  | abstractClassDeclaration
  | classExpression
  | functionDeclaration
  | generatorDeclaration
  | functionSignature
  | interfaceDeclaration
  | enumDeclaration
  | typeAliasDeclaration
  | lexicalDeclaration
  | variableDeclaration
  | variableDeclarator
  -- parameters and patterns
  | typeParameters
  | typeParameter
  | parameters
  | requiredParameter
  | optionalParameter
  | objectPattern
  | arrayPattern
  | restPattern
  | pairPattern
  | assignmentPattern
  | objectAssignmentPattern
  -- types
  | indexSignature
  | mappedClause
  | conditionalType
  | inferType
  -- statements
  | block
  | expressionStatement
  | emptyStatement
  -- what only holds other nodes
  | statement
  | expression
  | type
  | clause
  | unreadable
  deriving DecidableEq, Repr

/-- The part a child plays in its node. -/
inductive Field where
  | name
  | newName
  | typeParameters
  | parameters
  | parameter
  | pattern
  | left
  | right
  | consequence
  | alternative
  | source
  | declaration
  | value
  | object
  | module
  deriving DecidableEq, Repr

/-- A syntax tree. A leaf carries its text; `start` and `stop` are byte offsets into the file. -/
inductive Tree where
  | leaf (label : Label) (field : Option Field) (start : Nat) (text : Text)
  | node (label : Label) (field : Option Field) (start stop : Nat) (children : List Tree)
  deriving Repr

namespace Tree

def label : Tree → Label
  | leaf label .. => label
  | node label .. => label

def field : Tree → Option Field
  | leaf _ field .. => field
  | node _ field .. => field

def start : Tree → Nat
  | leaf _ _ start _ => start
  | node _ _ start .. => start

def stop : Tree → Nat
  | leaf _ _ start text => start + text.length
  | node _ _ _ stop _ => stop

/-- The text of a leaf. -/
def text : Tree → Text
  | leaf _ _ _ text => text
  | node .. => []

def children : Tree → List Tree
  | leaf .. => []
  | node _ _ _ _ children => children

/-- The tree in the part `field` of its parent. -/
def as (field : Field) : Tree → Tree
  | leaf label _ start text => leaf label (some field) start text
  | node label _ start stop children => node label (some field) start stop children

/-- Everything but a bare token is named. -/
def isNamed (t : Tree) : Bool := t.label ≠ .token

def namedChildren (t : Tree) : List Tree := t.children.filter isNamed

/-- The first child that plays a part. -/
def child? (t : Tree) (field : Field) : Option Tree := t.children.find? (·.field = some field)

def childOf? (t : Tree) (label : Label) : Option Tree := t.children.find? (·.label = label)

def hasToken (t : Tree) (text : Text) : Bool :=
  t.children.any fun c => c.label = .token && c.text = text

theorem sizeOf_child {t c : Tree} (h : c ∈ t.children) : sizeOf c < sizeOf t := by
  cases t with
  | leaf => simp [children] at h
  | node label field start stop children =>
    have := List.sizeOf_lt_of_mem (show c ∈ children from h)
    simp only [node.sizeOf_spec]
    omega

end Tree

end DeclPieces.Syntax
