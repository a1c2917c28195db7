import DeclPieces.Fault

/-! The record of splits: which pieces each run wrote, and from which text. -/
namespace DeclPieces

/-- One split of one source. `createdAt` counts nanoseconds of universal time. -/
structure Run where
  id : Text
  source : Text
  hash : Text
  dir : Text
  pieceCount : Int
  skippedCount : Int
  createdAt : Int
  deriving DecidableEq, Repr

/-- A piece as a run wrote it. -/
structure RecordedPiece where
  run : Text
  path : Text
  symbol : Text
  category : Text
  start : Int
  stop : Int
  hash : Text
  generated : Bool
  deriving DecidableEq, Repr

/-- The runs in the order in which they were recorded, and their pieces. -/
structure Manifest where
  runs : List Run := []
  pieces : List RecordedPiece := []
  deriving DecidableEq, Repr

namespace Manifest

/-- The first path that occurs a second time. -/
def repeated? (seen : List Text) : List RecordedPiece → Option Text
  | [] => none
  | p :: rest => if p.path ∈ seen then some p.path else repeated? (p.path :: seen) rest

/-- Records a run with its pieces, or leaves everything as it was. -/
def record (m : Manifest) (run : Run) (pieces : List RecordedPiece) : Except Fault Manifest :=
  if m.runs.any (·.id = run.id) then .error (.plain "failed to record split run")
  else match repeated? [] pieces with
    | some path => .error (.plain ("failed to record piece " ++ path))
    | none => .ok
        { runs := m.runs ++ [run], pieces := m.pieces ++ pieces.map fun p => { p with run := run.id } }

/-- The runs of a source, the latest first. Of two runs at one moment the one recorded later is later. -/
def history (m : Manifest) (source : Text) : List Run :=
  ((m.runs.filter (·.source = source)).reverse).stableSort fun a b => b.createdAt ≤ a.createdAt

def latest? (m : Manifest) (source : Text) : Option Run := (m.history source).head?

/-- The sources that have a run, sorted. -/
def sources (m : Manifest) : List Text := Text.sort (m.runs.map (·.source)).eraseDups

/-- The latest run of every source, by source. -/
def latestRuns (m : Manifest) : List Run := m.sources.filterMap m.latest?

/-- The pieces of a run, by path. -/
def piecesOf (m : Manifest) (run : Text) : List RecordedPiece :=
  (m.pieces.filter (·.run = run)).stableSort fun a b => Text.le a.path b.path

/-- Drops all runs of a source but the `keep` latest, at least one of which stays. Also tells how many
were dropped. -/
def prune (m : Manifest) (source : Text) (keep : Int) : Manifest × Nat :=
  let stale := ((m.history source).drop (max keep 1).toNat).map (·.id)
  ({ runs := m.runs.filter fun r => !stale.contains r.id
     pieces := m.pieces.filter fun p => !stale.contains p.run }, stale.length)

end Manifest

end DeclPieces
