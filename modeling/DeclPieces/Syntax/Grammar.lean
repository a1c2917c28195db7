import DeclPieces.Fault
import DeclPieces.Syntax.Parse

/-! Grammars of declaration files: how a text becomes trees. -/
namespace DeclPieces

/-- What a grammar makes of a text: the nodes at the top, and whether some of the text is an error to it. -/
structure Syntax.Root where
  trees : List Syntax.Tree
  hasError : Bool := false
  deriving Repr

/-- Reads a text, or fails to. Text that cannot be understood is no failure, but an error in what is read. -/
abbrev Grammar := Text → Except Fault Syntax.Root

/-- The grammar of this library. It reads every text. -/
def Grammar.builtIn : Grammar := fun text =>
  let trees := Syntax.parse text
  .ok { trees := trees, hasError := trees.any (·.label = .unreadable) }

end DeclPieces
