import DeclPieces.Syntax.Grammar
import DeclPieces.Syntax.Outline

/-! Global names: what ambient files make visible in every other file. -/
namespace DeclPieces.Ambient

open Syntax

/-- A file without a top-level import or export puts all its names into the global scope. -/
def isScript (trees : List Tree) : Bool :=
  !trees.any fun t => t.label = .importStatement || t.label = .exportStatement

/-- The global names of a file: all names of a script, and the names in global blocks. -/
def names (trees : List Tree) : List DeclaredName :=
  trees.flatMap fun t =>
    let c := classify t
    if c.isGlobal then
      match c.inner.childOf? .block with
      | some body => body.namedChildren.flatMap fun s => (classify s).names
      | none => []
    else if isScript trees then c.names
    else []

/-- Adds the global names of a file. -/
def add (path : Path) (trees : List Tree) (globals : List Symbol) : List Symbol :=
  (names trees).foldl (fun acc n => addDeclaration n.name ⟨path, n.start, n.stop⟩ acc) globals

def log (path : Path) (trees : List Tree) : Log.Record :=
  Log.record .debug "Loaded ambient declarations"
    [("file", .text path), ("script", .bool (isScript trees)), ("names", .int (names trees).length)]

/-- The trees of one ambient file. -/
def trees (grammar : Grammar) (read : Path → Except Fault Text) (path : Path) : Except Fault (List Tree) :=
  match read path with
  | .error e => .error (.caused Code.sourceUnreadable "reading ambient declaration file" path e)
  | .ok text => match grammar text with
    | .error e => .error (.caused Code.parseFailed "parsing ambient declaration file" path e)
    | .ok root => .ok root.trees

/-- Reads ambient files in order. -/
def load (grammar : Grammar) (read : Path → Except Fault Text) (paths : List Path) : Except Fault (List Symbol) :=
  paths.foldlM (fun globals path => (trees grammar read path).map fun ts => add path ts globals) []

/-- What reading them logs, up to the first that cannot be read. -/
def loadLog (grammar : Grammar) (read : Path → Except Fault Text) : List Path → List Log.Record
  | [] => []
  | path :: rest => match trees grammar read path with
    | .ok ts => log path ts :: loadLog grammar read rest
    | .error _ => []

end DeclPieces.Ambient
