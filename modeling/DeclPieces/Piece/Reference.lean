import DeclPieces.Declaration
import DeclPieces.Log
import DeclPieces.Piece.Address

/-! The names a piece needs from elsewhere, and the lines that import and export them. -/
namespace DeclPieces

/-- A piece uses `source`, declared in `file`, under the name `target`. -/
structure CrossReference where
  source : Text
  target : Text
  file : Path
  deriving DecidableEq, Repr

namespace CrossReference

/-- The member of an import clause. -/
def clause (r : CrossReference) : Text :=
  if r.source = r.target then r.target else r.source ++ " as " ++ r.target

end CrossReference

/-- Does some declaration of the symbol lie inside the range? -/
def Symbol.declaredIn (s : Symbol) (file : Path) (start stop : Int) : Bool :=
  s.decls.any (·.inside file start stop)

/-- What becomes of a symbol that a statement refers to. -/
inductive Use where
  /-- It is local to the statement or not visible at the top level. -/
  | own
  /-- It is declared outside the translated root. -/
  | foreign (name : Text) (file : Path)
  | imported (reference : CrossReference)
  deriving DecidableEq, Repr

namespace SourceFile

/-- The distinct top-level symbols that a statement refers to, in order of first occurrence. -/
def usedSymbols (f : SourceFile) (s : Statement) : List SymbolId :=
  ((s.references.filterMap id).filter f.inScope).eraseDups

def useOf (f : SourceFile) (o : Options) (start stop : Int) (id : SymbolId) : Use :=
  match f.symbol? id with
  | none => .own
  | some s =>
    if s.declaredIn f.path start stop then .own
    else match s.decls.head? with
      | none => .own
      | some first =>
        if Path.within first.file o.translatedRoot then .imported ⟨s.name, s.name, first.file⟩
        else .foreign s.name first.file

def uses (f : SourceFile) (o : Options) (s : Statement) (start stop : Int) : List Use :=
  (f.usedSymbols s).map (f.useOf o start stop)

/-- What a statement, taken as the range `[start, stop)`, needs to import, sorted by name. -/
def crossReferences (f : SourceFile) (o : Options) (s : Statement) (start stop : Int) : List CrossReference :=
  let refs := (f.uses o s start stop).filterMap fun
    | .imported r => some r
    | _ => none
  refs.stableSort fun a b => Text.le a.target b.target

/-- The records about references that are left out. -/
def droppedReferences (f : SourceFile) (o : Options) (s : Statement) (start stop : Int) : List Log.Record :=
  (f.uses o s start stop).filterMap fun
    | .foreign name file => some <| Log.record .debug "Dropping reference declared outside translated root"
        [("file", .text f.path), ("symbol", .text name), ("declaredIn", .text file), ("offset", .int s.start)]
    | _ => none

end SourceFile

/-- Collects the values of equal keys, the keys sorted and the values in order. -/
def groupByKey (entries : List (Text × Text)) : List (Text × List Text) :=
  let keys := Text.sort (entries.map (·.1)).eraseDups
  keys.map fun key => (key, (entries.filter (·.1 = key)).map (·.2))

def importLine (o : Options) (module : Text) (members : List Text) : Text :=
  o.importMarker ++ " import \x7b " ++ Text.joinWith ", " members ++ " \x7d from '" ++ module ++ "';"

/-- The lines that import `refs` into the piece at `path`: one for each source file, sorted by module
path, and each from the index of that file. -/
def importText (o : Options) (refs : List CrossReference) (path : Path) : Except Fault Text := do
  let entries ← refs.mapM fun r => do
    let index ← Address.indexPath o r.file
    let module ← Address.moduleReference (Path.dir path) index
    return (module, r.clause)
  return Text.joinWith [Text.newline] ((groupByKey entries).map fun (module, members) => importLine o module members)

/-- The line that exports a declaration without an export modifier of its own. -/
def exportText (o : Options) (name : Text) : Text := o.exportMarker ++ " export \x7b " ++ name ++ " \x7d;"

end DeclPieces
