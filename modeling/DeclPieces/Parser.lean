import DeclPieces.Syntax.Ambient

/-! Reading declaration files. What is done with them does not depend on how they are read. -/
namespace DeclPieces

/-- How the text of a declaration file is read, and what is logged meanwhile. A parser may ask which files there
are. -/
abbrev Parser := (Path → Bool) → Path → Text → Except Fault SourceFile × List Log.Record

namespace Parser

/-- Reads by a grammar, and sees the symbols of the ambient files. -/
def ofGrammar (grammar : Grammar) (globals : List Symbol) : Parser := fun isFile path text =>
  match grammar text with
  | .error e => (.error (.caused Code.parseFailed "parsing declaration file" path e), [])
  | .ok root =>
    let f := Syntax.outline { isFile := isFile, globals := globals } path text root.trees
    (.ok f, f.parseLog root.hasError)

/-- A parser that sees the symbols of the ambient files `paths`, and what reading these logs. -/
def withAmbient (grammar : Grammar) (read : Path → Except Fault Text) (paths : List Path) :
    Except Fault Parser × List Log.Record :=
  ((Ambient.load grammar read paths).map (ofGrammar grammar), Ambient.loadLog grammar read paths)

end Parser

end DeclPieces
