import DeclPieces.Log
import DeclPieces.Storage
import DeclPieces.Syntax.Mention
import DeclPieces.Syntax.Parse
import DeclPieces.Syntax.Specifier

/-! From the trees of a declaration file to what is known of it. All top-level names are bound
before any statement is looked into, so the order of statements does not matter to what they mean. -/
namespace DeclPieces.Syntax

/-- What a file sees beyond its own text. -/
structure Surroundings where
  isFile : Path → Bool := fun _ => false
  /-- The symbols that every file sees. -/
  globals : List Symbol := []

/-- The documentation block that a comment is, if it is one. -/
def docOf? (t : Tree) : Option Comment :=
  if t.label = .comment && t.text.hasPrefix "/**" && t.text ≠ Text.ofString "/**/" then
    some ⟨t.start, t.stop, t.text⟩
  else none

def between (text : Text) (start stop : Nat) : Text := (text.take stop).drop start

/-- The documentation blocks directly before a statement, given what stands before it, nearest first.
A block on the line on which the previous statement ends belongs to that one. -/
def leadingDocs (text : Text) (before : List Tree) : List Comment :=
  let docs := ((before.takeWhile (·.label = .comment)).filterMap docOf?).reverse
  match before.dropWhile (·.label = .comment), docs with
  | previous :: _, first :: rest =>
    if (between text previous.stop first.start.toNat).contains Text.newline then first :: rest else rest
  | _, docs => docs

/-- Each statement with those before it, nearest first. -/
def withBefore {α : Type} (before : List α) : List α → List (List α × α)
  | [] => []
  | a :: rest => (before, a) :: withBefore (a :: before) rest

/-- The string that names the module an import is from. -/
def sourceOf? (t : Tree) : Option Tree :=
  let ofClause := (t.childOf? .importRequireClause).bind fun c => (c.child? .source).or (c.childOf? .string)
  ofClause.or ((t.child? .source).or (t.childOf? .string))

/-- A top-level import. -/
def importOf (around : Surroundings) (path text : Text) (t : Tree) : Import :=
  let clause := t.childOf? .importRequireClause
  let names := ((clause.bind (·.childOf? .identifier)).map fun n => [n.text]).getD (importBindings t)
  let im : Import :=
    { start := t.start, stop := t.stop, text := between text t.start t.stop, names := names
      isNamespace := ((t.childOf? .importClause).bind (·.childOf? .namespaceImport)).isSome
      typeOnly := t.hasToken "type", equals := clause.isSome }
  match sourceOf? t with
  | some s =>
    if s.stop < s.start + 2 then im
    else
      let specifier := between text (s.start + 1) (s.stop - 1)
      { im with
        specifier := specifier, specifierStart := s.start + 1, specifierStop := s.stop - 1
        resolved := (Specifier.resolve? around.isFile path specifier).getD [] }
  | none => im

/-- The names that an export list exports, each as a symbol of its own. -/
def exportSymbols (path : Text) (t : Tree) : List Symbol :=
  t.namedChildren.flatMap fun c =>
    match c.label with
    | .exportClause => (c.namedChildren.filter (·.label = .exportSpecifier)).filterMap fun spec =>
        (specifierName? spec).map (spec.symbol path)
    | .namespaceExport => ((c.childOf? .identifier).map fun n => c.symbol path n.text).toList
    | _ => []

/-- The module that a statement names by a string. -/
def Classified.stringModule? (c : Classified) : Option DeclaredName :=
  if c.kind ≠ .moduleDecl || c.isGlobal then none
  else match moduleName? c.inner with
    | some name => if isIdentifier name then none else some (.of name c.inner)
    | none => none

/-- The one symbol a statement declares; modules named by the same string are one. -/
def Classified.own? (path : Text) (modules : List Symbol) (c : Classified) : Option Referent :=
  match c.kind with
  | .cls | .function | .interface | .enum | .typeAlias => (c.names.head?).map (.top ·.name)
  | .moduleDecl =>
    if c.isGlobal then some (.inner (c.inner.symbol path "global"))
    else match c.stringModule? with
      | some m => (modules.find? (·.name = m.name)).map .inner
      | none => (c.names.head?).map (.top ·.name)
  | _ => none

/-- A statement whose symbols are still told by what they stand for. -/
structure Draft where
  classified : Classified
  docs : List Comment
  own : Option Referent := none
  descendants : List Referent := []
  references : List Referent := []

def draftOf (path : Text) (top : List Text) (modules : List Symbol) (docs : List Comment) (c : Classified) :
    Draft :=
  if c.kind.skipped then { classified := c, docs := docs }
  else
    let listed : List Referent := match c.kind with
      | .variableDecl => c.names.map (.top ·.name)
      | .reExport => (exportSymbols path c.outer).map .inner
      | _ => []
    let ms := mentions path { top } c.inner
    { classified := c, docs := docs, own := c.own? path modules
      descendants := listed ++ (declarations ms).map .inner, references := referents ms }

def Draft.inner (d : Draft) : List Symbol :=
  (d.own.toList ++ d.descendants ++ d.references).filterMap fun
    | .inner s => some s
    | .top _ => none

/-- The place of a referent in the symbol table. -/
def idOf? (top inner : List Symbol) : Referent → Option SymbolId
  | .top name => top.findIdx? (·.name = name)
  | .inner s => (inner.findIdx? (· = s)).map (top.length + ·)

def Draft.statement (top inner : List Symbol) (d : Draft) : Statement :=
  { kind := d.classified.kind, start := d.classified.outer.start, stop := d.classified.outer.stop
    exported := d.classified.exported, symbol := d.own.bind (idOf? top inner)
    descendants := d.descendants.map (idOf? top inner), references := d.references.map (idOf? top inner)
    docs := d.docs }

/-- The symbols of the top level: those of the file, and the global ones whose names it does not use. -/
def topSymbols (globals locals : List Symbol) : List Symbol :=
  globals.filter (fun g => !locals.any (·.name = g.name)) ++ locals

/-- What is known of a file, given its trees. -/
def outline (around : Surroundings) (path text : Text) (trees : List Tree) : SourceFile :=
  let classified := trees.map classify
  let top := topSymbols around.globals (symbolsOf path (classified.flatMap (·.names)))
  let modules := symbolsOf path (classified.filterMap (·.stringModule?))
  let names := top.map (·.name)
  let drafts := (withBefore [] trees).map fun (before, t) =>
    draftOf path names modules (leadingDocs text before) (classify t)
  let inner := (drafts.flatMap (·.inner)).eraseDups
  { path := path, text := text, symbols := top ++ inner
    statements := drafts.map (·.statement top inner)
    imports := (trees.filter (·.label = .importStatement)).map (importOf around path text)
    docs := trees.filterMap docOf?, scope := names.zipIdx }

end DeclPieces.Syntax

namespace DeclPieces

open Syntax

/-- Reads a declaration file from its text. -/
def SourceFile.ofText (around : Surroundings) (path text : Text) : SourceFile :=
  outline around path text (Syntax.parse text)

/-- The text of the declaration file at a path. -/
def SourceFile.load (read : Path → Reading Text) (path : Path) : Except Fault Text :=
  match (read path).toExcept with
  | .ok text => .ok text
  | .error e => .error (.caused Code.sourceUnreadable "reading declaration file" path e)

/-- What is logged about a file that was read, with or without errors. -/
def SourceFile.parseLog (f : SourceFile) (hasError : Bool) : List Log.Record :=
  let unresolved := f.imports.filter fun im => im.isRelative && im.resolved.isEmpty
  (if hasError then
    [Log.record .warn "Declaration file has syntax errors; unparsed statements stay in place"
      [("file", .text f.path)]]
  else []) ++
  unresolved.map (fun im => Log.record .debug "Unresolved relative import"
    [("file", .text f.path), ("specifier", .text im.specifier), ("offset", .int im.start)]) ++
  [Log.record .debug "Parsed declaration file"
    [("file", .text f.path), ("nodes", .int f.statements.length), ("imports", .int f.imports.length),
      ("scope", .int f.scope.length)]]

end DeclPieces
