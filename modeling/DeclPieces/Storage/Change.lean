import DeclPieces.Storage.Disk

/-! What must be done to the files of one disk to make them those of another. -/
namespace DeclPieces

/-- One step from a disk to another. -/
inductive Change where
  | makeDir (path : Path)
  /-- Writes a file, which may be new. -/
  | write (path : Path) (data : Text) (isNew : Bool)
  | removeFile (path : Path)
  | removeDir (path : Path)
  deriving DecidableEq, Repr

namespace Disk

/-- Is the same kind of thing at a path? -/
def sameKind : Option Node → Option Node → Bool
  | some (.file _), some (.file _) => true
  | some .directory, some .directory => true
  | _, _ => false

/-- What must go: the members of a directory before the directory. -/
def removals (before after : Disk) : List Change :=
  let gone := before.nodes.filter fun (p, n) => !sameKind (some n) (after.get? p)
  (gone.stableSort fun a b => Text.le b.1 a.1).map fun (p, n) => match n with
    | .file _ => .removeFile p
    | .directory => .removeDir p

/-- What must come or differs: a directory before its members. -/
def additions (before after : Disk) : List Change :=
  let fresh := after.nodes.filter fun (p, n) => before.get? p ≠ some n
  (fresh.stableSort fun a b => Text.le a.1 b.1).map fun (p, n) => match n with
    | .file data => .write p data !(sameKind (some n) (before.get? p))
    | .directory => .makeDir p

def changes (before after : Disk) : List Change := before.removals after ++ before.additions after

end Disk

end DeclPieces
