import DeclPieces.Jobs
import DeclPieces.Workspace.Split

/-! Finding the sources of a project. -/
namespace DeclPieces.Workspace

open Activity

/-- Is a directory below the translated root left out: hidden, or the root of the pieces? -/
def leavesOut (o : Options) (dir : Path) : Bool :=
  (Path.base dir).head? = some 46 || dir = Path.clean o.piecesRoot

/-- Is a file named like a source? -/
def isNamedSource (o : Options) (p : Path) : Bool := (Path.base p).hasSuffix (Options.orElse o.extension ".d.ts")

/-- The sources of a project, in the order in which a walk from the translated root comes upon them. -/
def discover (w : Workspace) : Activity (List Path) := do
  let root := w.options.translatedRoot
  let disk := (← get).disk
  match disk.look root with
  | .error o => fail (.note ("discovering declaration files under " ++ root) (.access "lstat" root o))
  | .ok (.file _) => return [root].filter (isNamedSource w.options)
  | .ok .directory =>
    return (disk.visit (fun dir => !leavesOut w.options dir) disk.depth root).filter (isNamedSource w.options)

/-- Splits every source of the project. Tells what became of each, and the faults of all. -/
def splitAll (w : Workspace) (force : Bool) : Activity (List (Option SplitResult) × List Fault) := do
  let files ← w.discover
  files.foldlM (fun (results, faults) path => fun p =>
    match (w.split path force).run p with
    | (.ok r, p) => (.ok (results ++ [some r], faults), p)
    | (.error (.fault e), p) => (.ok (results ++ [none], faults ++ [e]), p)
    | (.error .outOfRange, p) => (.error .outOfRange, p)) ([], [])

end DeclPieces.Workspace
