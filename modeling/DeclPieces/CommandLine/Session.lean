import DeclPieces.CommandLine.Request
import DeclPieces.Jobs
import DeclPieces.Manifest.File
import DeclPieces.Report
import DeclPieces.Settings.File
import DeclPieces.Settings.Load
import DeclPieces.Workspace.Discover
import DeclPieces.Workspace.Merge
import DeclPieces.Workspace.Status

/-! What commands act on and write: files, the two output streams and the log. -/
namespace DeclPieces.CommandLine

/-- The surroundings of the program. -/
structure Host where
  /-- The directory from which relative paths start. -/
  cwd : Path
  /-- Reads declaration files. -/
  grammar : Grammar
  /-- The form in which copies of sources are kept. -/
  codec : Backup.Codec
  /-- Shows how two versions of a file differ. -/
  differ : Text → Text → Text → Text
  env : Environment := []
  disk : Disk := {}
  /-- The lock files that other programs hold. -/
  held : List Path := []
  /-- How often the clock was read, and how many runs were named. -/
  ticks : Nat := 0
  named : Nat := 0
  /-- The readings of the clock, in nanoseconds. -/
  clock : Nat → Int := fun n => (1700000001 + n) * 1000000000

/-- The host, and what was written to the two streams. -/
structure Screen where
  host : Host
  out : Text := []
  err : Text := []

/-- The work of a command. What was written before a failure stays written. -/
abbrev Console := ExceptT Failure (StateM Screen)

namespace Console

def fail {α : Type} (e : Fault) : Console α := throw (.fault e)

def ofExcept {α : Type} : Except Fault α → Console α
  | .ok a => return a
  | .error e => fail e

def say (t : Text) : Console Unit := modify fun s => { s with out := s.out ++ t }

def complain (t : Text) : Console Unit := modify fun s => { s with err := s.err ++ t }

def host : Console Host := return (← get).host

def onHost (f : Host → Host) : Console Unit := modify fun s => { s with host := f s.host }

end Console

open Console

/-- The path that a word of the command line stands for. -/
def Host.abs (h : Host) (path : Path) : Path := if path.isAbs then path.clean else Path.join h.cwd path

/-- A project as the commands see it. -/
structure Session where
  root : Path
  settings : Settings
  /-- Writes the log to the error stream. -/
  handler : Log.Handler
  workspace : Workspace

/-- The root of the project: the directory asked for, else the current one. -/
def projectRoot (h : Host) (a : Arguments) : Path :=
  let project := a.text "project" []
  if project.isEmpty then h.cwd else h.abs project

def loadSettings (h : Host) (root : Path) : Except Fault Settings.Loaded :=
  let content (p : Path) : Text := match h.disk.read p with
    | .content t => t
    | _ => []
  Settings.load h.disk.isFile content h.env root

/-- Writes records to the error stream, and all of them to the log file if there is one. -/
def logTo (handler : Log.Handler) (file : Text) (rs : List Log.Record) : Console Unit := do
  let time := (← host).clock (← host).ticks / 1000000000
  let rs := rs.map fun r => { r with time := time }
  complain ((rs.filter fun r => handler.enabled r.level).flatMap handler.line)
  if !file.isEmpty then
    let all : Log.Handler := { level := .debug }
    let text := (rs.filter fun r => all.enabled r.level).flatMap all.line
    onHost fun h =>
      let path := h.abs file
      let before := match h.disk.read path with
        | .content t => t
        | _ => []
      { h with disk := (h.disk.write path (before ++ text)).toOption.getD h.disk }

def Session.log (s : Session) (rs : List Log.Record) : Console Unit := logTo s.handler s.settings.logFile rs

/-- Creates the log file unless it exists. -/
def openLogFile (file : Text) : Console Unit := do
  if file.isEmpty then return ()
  let h ← host
  let path := h.abs file
  let refused (o : Obstacle) : Fault := .note "opening log file" (.access "open" file o)
  match h.disk.look path with
  | .ok (.file _) => return ()
  | .ok .directory => fail (refused .isDirectory)
  | .error _ => match h.disk.write path [] with
    | .ok disk => onHost fun h => { h with disk := disk }
    | .error (.access _ _ o) => fail (refused o)
    | .error e => fail (.note "opening log file" e)

/-- The manifest of a project as its file holds it. -/
def Host.manifest? (h : Host) (root : Path) : Option Database :=
  match h.disk.read (Project.manifestPath root) with
  | .content t => Database.decode? t
  | _ => none

/-- Writes the file of a manifest. -/
def storeManifest (root : Path) (d : Database) : Console Unit := do
  match (← host).disk.write (Project.manifestPath root) d.encode with
  | .ok disk => onHost fun h => { h with disk := disk }
  | .error e => fail e

/-- Opens the manifest of a project, a new one if there is none. -/
def openManifest (root : Path) (log : List Log.Record → Console Unit) : Console Unit := do
  let path := Project.manifestPath root
  let inside {α : Type} (e : Fault) : Console α := fail (.note "failed to open manifest database" e)
  match (← host).disk.makeDirs (Project.stateDir root) with
  | .error e => inside (.note "failed to create state directory" e)
  | .ok disk => onHost fun h => { h with disk := disk }
  let h ← host
  match h.manifest? root with
  | some d =>
    let (r, records) := d.openExisting path
    log records
    match r with
    | .ok d => storeManifest root d
    | .error e => inside e
  | none =>
    if (h.disk.look path).toOption.isSome then inside (.plain "failed to set pragma")
    else
      let (d, records) := Database.create path
      log records
      storeManifest root d

/-- Starts work on a project. -/
def openSession (a : Arguments) : Console Session := do
  let h ← host
  let root := projectRoot h a
  let settings := (← ofExcept (loadSettings h root)).settings
  let level := Log.Level.ofVerbosity (a.number "verbose") (a.flag "quiet") (Log.Level.ofName settings.logLevel)
  let handler : Log.Handler := { level := level }
  openLogFile settings.logFile
  let log := logTo handler settings.logFile
  openManifest root log
  let h ← host
  let read (p : Path) := (h.disk.read p).toExcept
  let (parser, records) := Parser.withAmbient h.grammar read (settings.ambientFiles root)
  log records
  let workspace : Workspace :=
    { root := root, options := settings.options root, parser := ← ofExcept parser, differ := h.differ
      logsCopies := true, clock := h.clock
      backups := some ⟨Project.backupsDir root, settings.keepBackups, h.codec⟩ }
  return { root := root, settings := settings, handler := handler, workspace := workspace }

namespace Session

/-- Carries out an activity on the project and logs what it tells. -/
def perform {α : Type} (s : Session) (activity : Activity α) : Console α := do
  let h ← host
  let before := (h.manifest? s.root).getD {}
  let project : Project :=
    { disk := h.disk, database := before, held := h.held, ticks := h.ticks, named := h.named }
  let (r, p) := activity.run project
  onHost fun h => { h with disk := p.disk, ticks := p.ticks, named := p.named }
  if p.database ≠ before then storeManifest s.root p.database
  s.log p.log
  match r with
  | .ok x => return x
  | .error e => throw e

/-- The path as it is shown: from the root of the project, if it lies inside. -/
def shown (s : Session) (path : Path) : Path :=
  match Path.rel? s.root path with
  | some r => if Path.climbs r then path else r
  | none => path

/-- The files named on the command line, or all sources of the project. -/
def targets (s : Session) (a : Arguments) : Console (List Path) := do
  if a.operands.isEmpty then s.perform s.workspace.discover
  else
    let h ← host
    return a.operands.map h.abs

/-- Works through files; one that fails does not stop the others. -/
def onEach (files : List Path) (f : Path → Console Unit) : Console Unit := fun s =>
  let step (path : Path) (s : Screen) : Except Fault Unit × Screen :=
    let (r, s) := (f path).run s
    (r.mapError Failure.toFault, s)
  let (r, s) := runAll false step files s
  match r.failure with
  | some e => (.error (.fault e), s)
  | none => (.ok (), s)

end Session

end DeclPieces.CommandLine
