import DeclPieces.Path

/-! Names under which a project records its files, and the places of its own state. -/
namespace DeclPieces.Project

def stateDirName : Text := ".dtsplit"

/-- The directory that holds the settings, the manifest and the backups of a project. -/
def stateDir (root : Path) : Path := Path.join root stateDirName

def manifestPath (root : Path) : Path := Path.join (stateDir root) "state.db"

def backupsDir (root : Path) : Path := Path.join (stateDir root) "backups"

/-- The path from the project root with forward slashes, or the path itself if it lies outside. -/
def key (root path : Path) : Text :=
  if root.isEmpty then path
  else match Path.rel? root path with
    | none => path
    | some r => if Path.climbs r then path else Path.normalize r

/-- The path that a key stands for. -/
def ofKey (root : Path) (key : Text) : Path :=
  if Path.isAbs key || root.isEmpty then key else Path.joinRoot root key

end DeclPieces.Project
