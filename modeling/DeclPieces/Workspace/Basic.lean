import DeclPieces.Backup
import DeclPieces.Manifest.Database
import DeclPieces.Parser
import DeclPieces.Piece.Decompose
import DeclPieces.Storage.Disk
import DeclPieces.Workspace.Key

/-! A project and what its commands act on: the files, the manifest, the locks and the clock. -/
namespace DeclPieces

/-- How the files of a project are split and merged. -/
structure Workspace where
  root : Path
  options : Options
  /-- Reads the sources. -/
  parser : Parser
  /-- Tells two versions of a file apart: its name, the text before and the text after. -/
  differ : Text → Text → Text → Text
  /-- Are runs recorded? -/
  records : Bool := true
  /-- The number of runs to keep for each source; all if it is not positive. -/
  keepRuns : Int := 10
  backups : Option Backups := none
  /-- Is it logged when a copy is kept? -/
  logsCopies : Bool := false
  /-- The digest by which contents are told apart. -/
  digest : Text → Text := Digest.hash
  /-- The readings of the clock, in nanoseconds. -/
  clock : Nat → Int := fun n => (1700000001 + n) * 1000000000

/-- The state of a project. -/
structure Project where
  disk : Disk := {}
  database : Database := {}
  /-- The lock files that are held. -/
  held : List Path := []
  /-- How often the clock was read. -/
  ticks : Nat := 0
  /-- How many runs were named. -/
  named : Nat := 0
  log : List Log.Record := []

/-- What acts on a project. What was done before a failure stays done. -/
abbrev Activity := ExceptT Failure (StateM Project)

namespace Activity

def fail {α : Type} (fault : Fault) : Activity α := throw (.fault fault)

def ofExcept {α : Type} : Except Fault α → Activity α
  | .ok a => return a
  | .error e => fail e

def tell (records : List Log.Record) : Activity Unit := modify fun p => { p with log := p.log ++ records }

def tellOne (level : Log.Level) (message : Text) (attrs : List Log.Attr) : Activity Unit :=
  tell [Log.record level message attrs]

/-- Runs `body`, then `after`, also if `body` fails. -/
def finally_ {α : Type} (body : Activity α) (after : Project → Project) : Activity α := fun p =>
  let (r, p) := body.run p
  (r, after p)

end Activity

open Activity

/-- Changes the files. -/
def onDisk (f : Disk → Except Fault Disk) : Activity Unit := do
  let p ← get
  match f p.disk with
  | .ok disk => set { p with disk := disk }
  | .error e => fail e

/-- The name of the `n`-th run. -/
def runName (n : Nat) : Text :=
  let digits := (Nat.toDigits 16 n).map Text.byte
  let head : Text := "00000000-0000-4000-8000-"
  head ++ List.replicate (12 - digits.length) 48 ++ digits

def nextRunName : Activity Text := do
  let p ← get
  set { p with named := p.named + 1 }
  return runName p.named

namespace Workspace

def now (w : Workspace) : Activity Int := do
  let p ← get
  set { p with ticks := p.ticks + 1 }
  return w.clock p.ticks

def abs (w : Workspace) (path : Path) : Path := Path.resolve w.root path

def key (w : Workspace) (path : Path) : Text := Project.key w.root path

def ofKey (w : Workspace) (key : Text) : Path := Project.ofKey w.root key

/-! Locks. -/

def lockName : Text := ".lock"

def lockPath (dir : Path) : Path := Path.join dir lockName

/-- Takes the lock of a piece directory, which is created if it is missing. -/
def acquire (dir : Path) : Activity Path := do
  let p ← get
  match p.disk.makeDirs dir with
  | .error e => fail (.caused .pieceWriteFailed "creating piece directory" dir e)
  | .ok disk =>
    set { p with disk := disk }
    let path := lockPath dir
    match disk.look path with
    | .ok .directory => fail (.note ("locking " ++ path) (.access "open" path .isDirectory))
    | .ok (.file _) =>
      if p.held.contains path then
        fail (.coded .locked
          "piece directory is locked by another process. Another dtsplit command may be running" dir)
    | .error _ => onDisk (·.write path [])
    modify fun p => { p with held := path :: p.held }
    return path

def release (path : Path) (p : Project) : Project := { p with held := p.held.filter (· ≠ path) }

/-- Runs `body` while the lock of a piece directory is held. -/
def withLock {α : Type} (dir : Path) (body : Activity α) : Activity α := do
  let path ← acquire dir
  finally_ body (release path)

/-! Plans. -/

/-- The decomposition of a file as it reads now. -/
structure Plan where
  source : Path
  hash : Text
  text : Text
  decomposition : Decomposition

/-- The plan of a text of a source. -/
def planOf (w : Workspace) (source : Path) (text : Text) : Activity Plan := do
  let p ← get
  tell (w.parser p.disk.isFile source text).2
  match (w.parser p.disk.isFile source text).1 with
  | .error e => fail e
  | .ok f =>
    tell (f.decomposeLog w.options)
    match f.decompose w.options with
    | .ok d => return { source := source, hash := w.digest text, text := text, decomposition := d }
    | .error e => throw e

/-- The text of a source. -/
def sourceText (path : Path) : Activity Text := do
  ofExcept (SourceFile.load (← get).disk.read path)

/-- What a split of the file would write. -/
def plan (w : Workspace) (path : Path) : Activity Plan := do
  let path := w.abs path
  w.planOf path (← sourceText path)

end Workspace

end DeclPieces
