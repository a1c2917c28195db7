import DeclPieces.CommandLine.Run
import DeclPieces.Diff
import Std.Time.DateTime.Timestamp

/-! The program. It reads the files that a command line is about, runs the command line on them, and
then makes the changes that the run asks for. -/
namespace DeclPieces.Main

open CommandLine

def toName (t : Text) : String := t.toString?.getD ""

/-- Directories in which nothing is looked for unless they are named. -/
def passedOver : List String := [".git", "node_modules"]

/-- Adds what is at a path, and all that is below it, to a disk. -/
partial def gather (disk : Disk) (path : Path) : IO Disk := do
  let here := (← IO.currentDir) / toName path
  if ← here.isDir then
    let mut disk := disk.set path .directory
    for member in ← here.readDir do
      if !passedOver.contains member.fileName then
        disk ← gather disk (Path.join path (Text.ofString member.fileName))
    return disk
  else if ← here.pathExists then
    return disk.set path (.file (← IO.FS.readBinFile here).toList)
  else return disk

/-- Adds the directories above a path, then what is there. -/
def gatherAt (disk : Disk) (path : Path) : IO Disk := do
  let parts := path.components
  let above := (List.range parts.length).map fun n => Path.ofComponents true (parts.take n)
  let mut disk := disk
  for dir in above.drop 1 do
    if ← ((← IO.currentDir) / toName dir).isDir then disk := disk.set dir .directory
  gather disk path

/-- The files that a command line is about. Settings are found first, and then what they name. -/
def gatherAll (words : List Text) (h : Host) : IO Disk := do
  let disk ← (places words h).foldlM gatherAt {}
  (places words { h with disk := disk }).foldlM gatherAt disk

/-- Which of the lock files does another program hold? -/
def heldLocks (disk : Disk) : IO (List Path) :=
  disk.nodes.filterMapM fun (path, _) => do
    if Path.base path ≠ Workspace.lockName then return none
    let handle ← IO.FS.Handle.mk (toName path) .readWrite
    if ← handle.tryLock then
      handle.unlock
      return none
    else return some path

/-- A clock that goes on by a nanosecond with each reading. -/
def clock : IO (Nat → Int) := do
  let now := (← Std.Time.Timestamp.now).toNanosecondsSinceUnixEpoch.val
  return fun n => now + n

def environment : IO Environment :=
  Settings.allVariables.filterMapM fun name => do
    return (← IO.getEnv (toName name)).map fun value => (name, Text.ofString value)

def carryOut : Change → IO Unit
  | .makeDir p => IO.FS.createDir (toName p)
  | .write p data _ => IO.FS.writeBinFile (toName p) ⟨data.toArray⟩
  | .removeFile p => IO.FS.removeFile (toName p)
  | .removeDir p => IO.FS.removeDir (toName p)

/-- Makes the changes of a run and shows what it wrote. -/
def settle (before : Disk) (s : Screen) : IO Unit := do
  (before.changes s.host.disk).forM carryOut
  (← IO.getStdout).write ⟨s.out.toArray⟩
  (← IO.getStderr).write ⟨s.err.toArray⟩
  (← IO.getStdout).flush

/-- Watches until the program is stopped. -/
partial def attend (words : List Text) (x : Watching) (h : Host) : IO Unit := do
  IO.sleep x.watcher.settings.debounceMs.toNat.toUInt32
  let clock ← clock
  let disk ← gatherAll words { h with disk := {} }
  let h := { h with held := ← heldLocks disk, clock := clock }
  match ((x.withClock clock).observe disk).run { host := h } with
  | (.ok x, s) =>
    settle disk s
    attend words x s.host
  | (.error e, s) => settle disk (finish ((.error e : Except Failure Unit), s)).1

def run (words : List Text) : IO UInt32 := do
  let cwd := Text.ofString (← IO.currentDir).toString
  let h : Host :=
    { cwd := cwd, grammar := .builtIn, codec := .framed, differ := Diff.unified, env := ← environment
      named := ← IO.rand 0 140737488355328, clock := ← clock }
  let disk ← gatherAll words h
  let h := { h with disk := disk, held := ← heldLocks disk }
  let ended := (start words).run { host := h }
  let (s, code) := finish ended
  settle disk s
  if let .ok (some x) := ended.1 then attend words x s.host
  return code.toUInt32

end DeclPieces.Main

def main (args : List String) : IO UInt32 := DeclPieces.Main.run (args.map DeclPieces.Text.ofString)
