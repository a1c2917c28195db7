import DeclPieces.Glob
import DeclPieces.Log
import DeclPieces.Storage.Disk
import DeclPieces.Watch.Batch

/-! Watching piece directories. Each event goes to the source whose piece directory is the deepest one
around it, unless it concerns no piece. -/
namespace DeclPieces

/-- What a file system reports about a path. -/
inductive Notice where
  | create
  | write
  | remove
  | rename
  | chmod
  deriving DecidableEq, Repr

/-- The kind of event that several notices make; a change of permissions is none. -/
def Event.Kind.ofNotices? (ns : List Notice) : Option Event.Kind :=
  if ns.contains .create then some .create
  else if ns.contains .write then some .modify
  else if ns.contains .remove then some .delete
  else if ns.contains .rename then some .rename
  else none

/-- Which events are no edits of pieces. -/
structure Watch.Settings where
  debounceMs : Int := 500
  ignorePatterns : List Text := [".lock", "*.tmp", "*.swp", "*~", ".#*", "4913"]
  /-- The generated index at the top of each piece directory; empty if there is none. -/
  indexFile : Text := "index.d.ts"
  deriving DecidableEq, Repr

/-- A source whose pieces are watched. -/
structure Watch where
  source : Path
  dir : Path
  pending : Debouncer := {}
  deriving DecidableEq, Repr

structure Watcher where
  settings : Watch.Settings := {}
  watches : List Watch := []
  /-- The directories under watch. -/
  dirs : List Path := []
  deriving DecidableEq, Repr

namespace Watcher

/-- The directories at and below a path. -/
def treeOf (d : Disk) (root : Path) : Except Fault (List Path) :=
  match d.look root with
  | .ok .directory => .ok (root :: (d.dirsBelow root))
  | .ok (.file _) => .ok []
  | .error o => .error (.note ("walking " ++ root) (.access "lstat" root o))

def addDirs (w : Watcher) (ds : List Path) : Watcher :=
  { w with dirs := w.dirs ++ ds.filter fun p => !w.dirs.contains p }

/-- Watches a piece directory for `source`. The first source of a directory keeps it, and keeps it
even if the directory turns out to be missing. -/
def add (w : Watcher) (d : Disk) (source dir : Path) : Except Fault (List Log.Record) × Watcher :=
  let dir := dir.clean
  if w.watches.any (·.dir = dir) then (.ok [], w)
  else
    let w := { w with watches := w.watches ++ [{ source, dir }] }
    match treeOf d dir with
    | .error e => (.error e, w)
    | .ok ds =>
      (.ok [Log.record .info "Watching piece directory" [("source", .text source), ("dir", .text dir)]], w.addDirs ds)

/-- The one of two watches that has the deeper directory. -/
def deeper : Option Watch → Watch → Option Watch
  | none, x => some x
  | some best, x => if best.dir.length < x.dir.length then some x else some best

/-- The watch with the deepest directory that holds the path. -/
def owner? (w : Watcher) (p : Path) : Option Watch :=
  (w.watches.filter fun x => p.hasPrefix (x.dir ++ [Path.slash])).foldl deeper none

/-- Is an event on a path below `dir` no edit of a piece? -/
def ignores (s : Watch.Settings) (dir p : Path) : Bool :=
  (!s.indexFile.isEmpty && p = Path.join dir s.indexFile) || s.ignorePatterns.any (Glob.accepts · (Path.base p))

/-- Adds an event to what waits for one directory. -/
def enqueue (w : Watcher) (dir : Path) (e : Event) : Watcher :=
  { w with watches := w.watches.map fun x => if x.dir = dir then { x with pending := x.pending.add e } else x }

/-- Takes in what is reported about a path at the moment `now`. A new directory is watched from then on. -/
def handle (w : Watcher) (d : Disk) (now : Int) (p : Path) (ns : List Notice) : List Log.Record × Watcher :=
  match Event.Kind.ofNotices? ns with
  | none => ([], w)
  | some kind =>
    let p := p.clean
    if kind = .create && d.isDir p then
      match treeOf d p with
      | .ok ds => ([], w.addDirs ds)
      | .error e =>
        ([Log.record .warn "Failed to watch new directory" [("dir", .text p), ("error", .text e.message)]], w)
    else match w.owner? p with
      | none => ([], w)
      | some x => if ignores w.settings x.dir p then ([], w) else ([], w.enqueue x.dir { kind, path := p, timestamp := now })

/-- What the handler of a source is given. -/
structure Delivery where
  source : Path
  events : Batch
  deriving DecidableEq, Repr

/-- Delivers everything that waits, by directory. -/
def flush (w : Watcher) : List Delivery × List Log.Record × Watcher :=
  let ordered := w.watches.stableSort fun a b => Text.le a.dir b.dir
  let out := ordered.flatMap fun x => x.pending.flush.1.map fun events => (⟨x.source, events⟩ : Delivery)
  let log := out.map fun x =>
    Log.record .debug "Piece edits detected" [("source", .text x.source), ("eventCount", .int x.events.length)]
  (out, log, { w with watches := w.watches.map fun x => { x with pending := x.pending.flush.2 } })

/-- Drops everything that waits. -/
def cancel (w : Watcher) : Watcher :=
  { w with watches := w.watches.map fun x => { x with pending := x.pending.cancel } }

end Watcher

end DeclPieces
