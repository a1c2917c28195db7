import DeclPieces.Text.Rune

/-! What is known of a declaration file once it is read: its top-level statements with their byte
ranges, the symbols they declare and use, its documentation blocks and its imports. -/
namespace DeclPieces

/-- The kind of a top-level statement. -/
inductive Kind where
  | other
  | enum
  | cls
  | function
  | interface
  | moduleDecl
  | typeAlias
  | variableDecl
  | reExport
  | importDecl
  | importEquals
  | exportAssignment
  | endOfFile
  | comment
  | unknown
  deriving DecidableEq, Repr

/-- The directory that pieces of a kind are filed under. -/
inductive Category where
  | enums
  | classes
  | functions
  | interfaces
  | modules
  | types
  | bindings
  deriving DecidableEq, Repr

def Category.name : Category → Text
  | enums => "enums"
  | classes => "classes"
  | functions => "functions"
  | interfaces => "interfaces"
  | modules => "modules"
  | types => "types"
  | bindings => "variables"

namespace Kind

def name : Kind → Text
  | other => "other"
  | enum => "enum"
  | cls => "class"
  | function => "function"
  | interface => "interface"
  | moduleDecl => "module"
  | typeAlias => "type_alias"
  | variableDecl => "variable"
  | reExport => "re_export"
  | importDecl => "import"
  | importEquals => "import_equals"
  | exportAssignment => "export_assignment"
  | endOfFile => "end_of_file"
  | comment => "comment"
  | unknown => "unknown"

/-- The kinds in the order of their numbers. -/
def all : List Kind :=
  [other, enum, cls, function, interface, moduleDecl, typeAlias, variableDecl, reExport, importDecl,
    importEquals, exportAssignment, endOfFile, comment]

def ofNumber (n : Int) : Kind := if n < 0 then unknown else (all[n.toNat]?).getD unknown

def ofName (t : Text) : Kind := (all.find? fun k => k.name = t).getD unknown

/-- Kinds without a category are never emitted as pieces. -/
def category? : Kind → Option Category
  | enum => some .enums
  | cls => some .classes
  | function => some .functions
  | interface => some .interfaces
  | moduleDecl => some .modules
  | typeAlias => some .types
  | reExport => some .types
  | variableDecl => some .bindings
  | _ => none

/-- Statements of these kinds stay in the source and produce neither a piece nor a report. -/
def skipped : Kind → Bool
  | importDecl | importEquals | endOfFile | comment => true
  | _ => false

end Kind

/-- One place where a symbol is declared. -/
structure Declaration where
  file : Text
  start : Int
  stop : Int
  deriving DecidableEq, Repr

/-- Does the declaration lie inside `[start, stop)` of `file`? -/
def Declaration.inside (d : Declaration) (file : Text) (start stop : Int) : Bool :=
  d.file = file && start ≤ d.start && d.stop ≤ stop

/-- A named entity with all its declarations, in source order. -/
structure Symbol where
  name : Text
  decls : List Declaration := []
  deriving DecidableEq, Repr

/-- A symbol of a file is known by its place in the file's table: two places are two symbols, even
with equal names. -/
abbrev SymbolId := Nat

/-- Can the character stand in an identifier, at its start or after it? -/
def identifierChar (first : Bool) (c : Char) : Bool :=
  c = '_' || c = '$' || c.isAlpha || (c.isDigit && !first) || 0x7f < c.toNat

/-- Is the text a plain identifier, fit for an import or export clause? -/
def isIdentifier (name : Text) : Bool :=
  match name.runes with
  | [] => false
  | r :: rest => identifierChar true r.char && rest.all fun s => identifierChar false s.char

/-- A documentation block. -/
structure Comment where
  start : Int
  stop : Int
  text : Text
  deriving DecidableEq, Repr

def isTagByte (b : UInt8) : Bool := b = 95 || b = 45 || Text.isLetter b || Text.isDigit b

/-- Does the block carry `tag`? Its first occurrence decides, and must not run on into a longer tag. -/
def Comment.hasTag (c : Comment) (tag : Text) : Bool :=
  match Text.after? tag c.text with
  | none => false
  | some [] => true
  | some (b :: _) => !isTagByte b

/-- One top-level statement. -/
structure Statement where
  kind : Kind
  start : Int
  stop : Int
  /-- Does the statement carry an export modifier of its own, or is it an export? -/
  exported : Bool := false
  /-- The symbol the statement declares, if it declares just one. -/
  symbol : Option SymbolId := none
  /-- The symbols declared inside the statement, outermost first. -/
  descendants : List (Option SymbolId) := []
  /-- The symbols that names in the statement stand for, in order, with repetitions. -/
  references : List (Option SymbolId) := []
  /-- The documentation blocks directly before the statement. -/
  docs : List Comment := []
  deriving DecidableEq, Repr

/-- A top-level import. `specifier` is the module path without its quotes, and
`[specifierStart, specifierStop)` is where it stands; all three are empty if there is none. -/
structure Import where
  start : Int
  stop : Int
  text : Text := []
  specifier : Text := []
  specifierStart : Int := 0
  specifierStop : Int := 0
  /-- The names the import binds. -/
  names : List Text := []
  isNamespace : Bool := false
  typeOnly : Bool := false
  equals : Bool := false
  /-- The file the specifier leads to, empty if there is none. -/
  resolved : Text := []
  deriving DecidableEq, Repr

/-- Is a module path relative? -/
def isRelativeSpecifier (s : Text) : Bool :=
  s.hasPrefix "./" || s.hasPrefix "../" || s = Text.ofString "." || s = Text.ofString ".."

def Import.isRelative (im : Import) : Bool := isRelativeSpecifier im.specifier

/-- A declaration file. `scope` says which symbol a name stands for at the top level. -/
structure SourceFile where
  path : Text
  text : Text
  symbols : List Symbol := []
  statements : List Statement := []
  imports : List Import := []
  docs : List Comment := []
  scope : List (Text × SymbolId) := []
  deriving DecidableEq, Repr

namespace SourceFile

def symbol? (f : SourceFile) (id : SymbolId) : Option Symbol := f.symbols[id]?

/-- The top-level symbol of a name. -/
def lookup (f : SourceFile) (name : Text) : Option SymbolId := f.scope.lookup name

/-- Is this the top-level symbol of its name? -/
def inScope (f : SourceFile) (id : SymbolId) : Bool :=
  match f.symbol? id with
  | none => false
  | some s => f.lookup s.name = some id

/-- The documentation of the file as a whole: the first block that carries `tag`. -/
def packageDoc (f : SourceFile) (tag : Text) : Option Comment :=
  if tag.isEmpty then none else f.docs.find? (·.hasTag tag)

def slice? (f : SourceFile) (start stop : Int) : Option Text := f.text.slice? start stop

end SourceFile

end DeclPieces
