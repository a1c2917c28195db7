import DeclPieces.CommandLine.Change
import DeclPieces.Storage.Change
import DeclPieces.Watch

/-! Watching pieces and merging them when they are edited. -/
namespace DeclPieces.CommandLine

open Console

/-- Work that goes on until the program is stopped. -/
structure Watching where
  session : Session
  watcher : Watcher
  options : Workspace.MergeOptions

/-- Watches the pieces of one file, unless it was never split. -/
def Session.watchFile (s : Session) (w : Watcher) (file : Path) : Console (Option Watcher) := do
  let dir ← ofExcept (Address.pieceDirectory s.workspace.options file)
  let disk := (← host).disk
  if (disk.look dir).toOption.isNone then
    s.log [Log.record .warn "Skipping file that was never split" [("file", .text file), ("dir", .text dir)]]
    return none
  let (r, w) := w.add disk file dir
  s.log (← ofExcept r)
  return some w

/-- Watches the pieces of files, and counts those that have been split. -/
def Session.watchFiles (s : Session) : Watcher → Nat → List Path → Console (Watcher × Nat)
  | w, n, [] => return (w, n)
  | w, n, file :: rest => do
    match ← s.watchFile w file with
    | some w => s.watchFiles w (n + 1) rest
    | none => s.watchFiles w n rest

/-- Starts to watch. -/
def watch (a : Arguments) : Console Watching := do
  let s ← openSession a
  let files ← s.targets a
  let (watcher, count) ← s.watchFiles { settings := s.settings.watching } 0 files
  if count = 0 then fail (.plain "nothing to watch: split the files first")
  say ("watching " ++ Text.ofNat count ++ " files (Ctrl-C to stop)\n")
  return { session := s, watcher := watcher, options := { backup := s.keepsCopies a, resplit := true } }

namespace Watching

/-- The same work by another clock. -/
def withClock (x : Watching) (clock : Nat → Int) : Watching :=
  { x with session := { x.session with workspace := { x.session.workspace with clock := clock } } }

/-- Takes in what is reported about a path. -/
def take (x : Watching) (path : Path) (notices : List Notice) : Console Watching := do
  let h ← host
  let (records, watcher) := x.watcher.handle h.disk (h.clock h.ticks) path notices
  x.session.log records
  return { x with watcher := watcher }

/-- Merges one source whose pieces were edited. A failure is told and does not end the watch. -/
def deliver (x : Watching) (d : Watcher.Delivery) : Console Unit := do
  let s := x.session
  try
    let r ← s.merged d.source x.options
    if r.written then
      say ("merged " ++ s.shown d.source ++ ": " ++ Text.ofNat d.events.length ++ " edits, "
        ++ Text.ofNat r.applied ++ " pieces applied\n")
  catch e => complain ("Error: " ++ e.toFault.message ++ "\n")

/-- Merges all sources whose pieces were edited, now that the edits have come to rest. -/
def settle (x : Watching) : Console Watching := do
  let (deliveries, records, watcher) := x.watcher.flush
  x.session.log records
  deliveries.forM x.deliver
  return { x with watcher := watcher }

/-- Files that are written while the program watches. -/
abbrev Edits := List (Path × Text)

/-- Writes files and merges what they change. -/
def edit (x : Watching) (edits : Edits) : Console Watching := do
  let mut x := x
  for (path, data) in edits do
    onHost fun h => { h with disk := (h.disk.put path data).toOption.getD h.disk }
    x ← x.take path [.write]
  x.settle

/-- What a change reports about its path. -/
def reported : Change → Path × List Notice
  | .makeDir p => (p, [.create])
  | .write p _ isNew => (p, [if isNew then .create else .write])
  | .removeFile p | .removeDir p => (p, [.remove])

/-- Looks at the files again. Edits are merged at the first look that shows no new ones. -/
def observe (x : Watching) (disk : Disk) : Console Watching := do
  let changes := (← host).disk.changes disk
  onHost fun h => { h with disk := disk }
  if changes.isEmpty then x.settle
  else (changes.map reported).foldlM (fun x (path, notices) => x.take path notices) x

end Watching

end DeclPieces.CommandLine
