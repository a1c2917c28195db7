import DeclPieces.Log
import DeclPieces.Manifest

/-! The file that holds a manifest, with the version of its layout. -/
namespace DeclPieces

structure Database where
  /-- The table of the layout version, which may be missing or empty. -/
  version : Option (Option Int) := some (some 1)
  /-- The runs and pieces, unless their tables are missing. -/
  manifest : Option Manifest := some {}
  deriving DecidableEq, Repr

namespace Database

def currentVersion : Int := 1

def initialized : Log.Record := Log.record .info "Database schema initialized" [("version", .int currentVersion)]

/-- Creates the tables that are missing. -/
def completed (d : Database) : Database :=
  { version := some (some currentVersion), manifest := some (d.manifest.getD {}) }

/-- A new database. -/
def create (path : Path) : Database × List Log.Record :=
  (({} : Database), [Log.record .info "Creating new state database" [("path", .text path)], initialized])

/-- Opens a database that exists, bringing its layout up to date. -/
def openExisting (d : Database) (path : Path) : Except Fault Database × List Log.Record :=
  let start := Log.record .debug "Running database migrations" [("path", .text path)]
  let version := (d.version.join).getD 0
  if version = currentVersion then
    (.ok d, [start, Log.record .debug "Database schema is up to date" [("version", .int version)]])
  else if currentVersion < version then
    let text : Text := "database schema version " ++ Text.ofInt version ++ " is newer than supported version " ++
      Text.ofInt currentVersion
    (.error (.note "failed to run migrations" (.plain text)), [start])
  else
    let migrating := Log.record .info "Running database migrations"
      [("from_version", .int version), ("to_version", .int currentVersion)]
    if version = 0 then (.ok d.completed, [start, migrating, initialized]) else (.ok d, [start, migrating])

/-- What `f` makes of the tables, or `what` failed because they are missing. -/
def query {α : Type} (d : Database) (what : Text) (f : Manifest → α) : Except Fault α :=
  match d.manifest with
  | some m => .ok (f m)
  | none => .error (.plain what)

def latest? (d : Database) (source : Text) : Except Fault (Option Run) :=
  d.query "failed to query latest run" (·.latest? source)

def latestRuns (d : Database) : Except Fault (List Run) := d.query "failed to query latest runs" Manifest.latestRuns

def piecesOf (d : Database) (run : Text) : Except Fault (List RecordedPiece) :=
  d.query "failed to query pieces" (·.piecesOf run)

def record (d : Database) (run : Run) (pieces : List RecordedPiece) : Except Fault Database := do
  let m ← d.query "failed to record split run" id
  return { d with manifest := some (← m.record run pieces) }

def prune (d : Database) (source : Text) (keep : Int) : Except Fault (Nat × Database) := do
  let m ← d.query "failed to prune pieces" id
  let (m, n) := m.prune source keep
  return (n, { d with manifest := some m })

/-- Adds a run without pieces. -/
def insertRun (d : Database) (run : Run) : Except Fault Database := do
  let m ← d.query [] id
  if m.runs.any (·.id = run.id) then throw (.plain [])
  return { d with manifest := some { m with runs := m.runs ++ [run] } }

end Database

end DeclPieces
