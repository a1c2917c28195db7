import DeclPieces.CommandLine.Inspect

/-! The commands that write files: the pieces, their sources and the settings. -/
namespace DeclPieces.CommandLine

open Console

/-- A line of its own for each path. -/
def Session.pathLines (s : Session) (front : Text) (paths : List Path) (tail : Text) : Text :=
  paths.flatMap fun p => "  " ++ front ++ " " ++ s.shown p ++ tail ++ "\n"

/-- Works through the files of a command, if there are any. -/
def Session.onTargets (s : Session) (a : Arguments) (f : Path → Console Unit) : Console Unit := do
  let files ← s.targets a
  if files.isEmpty then say "No declaration files found\n" else Session.onEach files f

def Session.splitText (s : Session) (r : Workspace.SplitResult) : Text :=
  let skipped : Text :=
    if r.skipped.isEmpty then "" else ", " ++ Text.ofNat r.skipped.length ++ " skipped"
  let headline : Text := "split " ++ s.shown r.source ++ ": " ++ Text.ofNat r.written ++ " pieces" ++ skipped
    ++ " -> " ++ s.shown r.dir ++ "\n"
  headline ++ s.pathLines "kept edited" r.kept " (not merged yet)" ++ s.pathLines "removed" r.removed ""
    ++ s.pathLines "kept edited" r.stale " (no longer produced)"

def split (a : Arguments) : Console Unit := do
  let s ← openSession a
  s.onTargets a fun path => do
    say (s.splitText (← s.perform (s.workspace.split path (a.flag "force"))))

/-- Merges a source, and fails also if only splitting it again fails. -/
def Session.merged (s : Session) (path : Path) (o : Workspace.MergeOptions) : Console Workspace.MergeResult := do
  let r ← s.perform (s.workspace.merge path o)
  match r.failure with
  | some e => throw e
  | none => return r.done

def Session.dryText (s : Session) (r : Workspace.MergeResult) : Text :=
  if r.diff.isEmpty then s.shown r.source ++ ": no changes\n" else r.diff

def Session.mergeText (s : Session) (r : Workspace.MergeResult) : Text :=
  let state : Text := if r.written then "updated" else "unchanged"
  let headline : Text := "merge " ++ s.shown r.source ++ ": " ++ Text.ofNat r.applied ++ " pieces applied, " ++ state ++ "\n"
  let removed := (r.split.map Workspace.SplitResult.removed).getD []
  headline ++ s.pathLines "missing" r.missing "" ++ s.pathLines "removed" removed ""

/-- Is a copy of a source kept before it is overwritten? -/
def Session.keepsCopies (s : Session) (a : Arguments) : Bool := s.settings.backup && !a.flag "no-backup"

def merge (a : Arguments) : Console Unit := do
  let s ← openSession a
  let dryRun := a.flag "dry-run"
  s.onTargets a fun path => do
    let r ← s.merged path { dryRun := dryRun, backup := s.keepsCopies a, resplit := !dryRun }
    say (if dryRun then s.dryText r else s.mergeText r)

def restore (a : Arguments) : Console Unit := do
  let s ← openSession a
  let path := (← host).abs a.operand
  let copy ← s.perform (s.workspace.restore path)
  say ("restored " ++ s.shown path ++ " from backup of " ++ momentText (copy.createdAt.fdiv 1000000000) ++ "\n")

def createSettings (a : Arguments) : Console Unit := do
  let h ← host
  let root := projectRoot h a
  let disk ← ofExcept (Settings.create {} root (a.flag "force") h.disk)
  onHost fun h => { h with disk := disk }
  say ("wrote " ++ Settings.filePath root ++ "\n")

end DeclPieces.CommandLine
