import DeclPieces.Piece.Emit
import DeclPieces.Workspace.Basic

/-! Splitting a source into pieces. Pieces edited since the last split are kept, and pieces that are no
longer produced are removed unless they were edited. -/
namespace DeclPieces.Workspace

open Activity

/-- The outcome of a split. -/
structure SplitResult where
  runId : Text := []
  source : Path
  dir : Path
  written : Nat := 0
  skipped : List Skip := []
  /-- Pieces that were edited and so were not overwritten. -/
  kept : List Path := []
  /-- Pieces that are no longer produced, and were not edited. -/
  removed : List Path := []
  /-- Pieces that are no longer produced, but were edited and so were left. -/
  stale : List Path := []

/-- The pieces of the last recorded run of a source. -/
def recordedPieces (w : Workspace) (source : Path) : Activity (List RecordedPiece) := do
  if !w.records then return []
  let database := (← get).database
  match ← ofExcept (database.latest? (w.key source)) with
  | none => return []
  | some run => ofExcept (database.piecesOf run.id)

/-- Was the file of a piece edited: does it differ from what the last run wrote there, and from what
this one would write? -/
def isEdited (w : Workspace) (recorded : List RecordedPiece) (disk : Disk) (text : Text) (p : Piece) : Bool :=
  match recorded.find? fun r => !r.generated && r.path = w.key p.path, disk.read p.path with
  | some r, .content data => w.digest data ≠ r.hash && p.render? text ≠ some data
  | _, _ => false

/-- The paths of the pieces that were edited. -/
def editedPaths (w : Workspace) (recorded : List RecordedPiece) (disk : Disk) (plan : Plan) : List Path :=
  (plan.decomposition.content.filter (w.isEdited recorded disk plan.text)).map (·.path)

/-- An edited piece has been compared with what would be written, which has to lie in the text. -/
def checkEdited (plan : Plan) (edited : List Path) : Activity Unit :=
  if plan.decomposition.pieces.any fun p => edited.contains p.path && (p.render? plan.text).isNone then
    throw .outOfRange
  else return ()

/-- Removes the pieces of the last run that are no longer produced. -/
def clearStale (w : Workspace) (d : Decomposition) : List RecordedPiece → SplitResult → Activity SplitResult
  | [], result => return result
  | r :: rest, result => do
    if d.pieces.any fun p => w.key p.path = r.path then w.clearStale d rest result
    else
      let path := w.ofKey r.path
      match (← get).disk.read path with
      | .content data =>
        if w.digest data ≠ r.hash then
          tellOne .warn "Keeping edited piece the split no longer produces"
            [("file", .text d.source), ("piece", .text path)]
          w.clearStale d rest { result with stale := result.stale ++ [path] }
        else
          match (← get).disk.remove path with
          | .error e => fail (.caused .pieceWriteFailed "removing stale piece" path e)
          | .ok disk =>
            modify fun p => { p with disk := disk }
            w.clearStale d rest { result with removed := result.removed ++ [path] }
      | _ => w.clearStale d rest result

/-- The pieces of a plan as a run records them. -/
def toRecord (w : Workspace) (run : Text) (plan : Plan) (p : Piece) : RecordedPiece :=
  { run := run, path := w.key p.path, symbol := p.symbol
    category := (p.category?.map Category.name).getD [], start := p.start, stop := p.stop
    hash := w.digest ((p.render? plan.text).getD []), generated := p.isGenerated }

/-- Records a split and drops runs that are too old. -/
def recordRun (w : Workspace) (plan : Plan) (result : SplitResult) : Activity SplitResult := do
  let d := plan.decomposition
  let id ← nextRunName
  let createdAt ← w.now
  let run : Run :=
    { id := id, source := w.key plan.source, hash := plan.hash, dir := w.key d.dir
      pieceCount := d.pieces.length, skippedCount := d.skipped.length, createdAt := createdAt }
  let database ← ofExcept ((← get).database.record run (d.pieces.map (w.toRecord id plan)))
  modify fun p => { p with database := database }
  if 0 < w.keepRuns then
    match (← get).database.prune run.source w.keepRuns with
    | .error e =>
      tellOne .warn "Failed to prune split runs" [("file", .text plan.source), ("error", .text e.message)]
    | .ok (pruned, database) =>
      modify fun p => { p with database := database }
      if 0 < pruned then
        tellOne .debug "Pruned split runs" [("file", .text plan.source), ("count", .int pruned)]
  return { result with runId := id }

/-- Writes pieces to disk. -/
def writeAll (d : Decomposition) (text : Text) : Activity Unit := do
  let p ← get
  let (r, disk) := d.write text p.disk
  set { p with disk := disk }
  match r with
  | .ok () => return ()
  | .error e => throw e

/-- Carries out a plan. The lock of the piece directory is held. -/
def splitPlan (w : Workspace) (plan : Plan) (force : Bool) : Activity SplitResult := do
  let d := plan.decomposition
  let recorded ← w.recordedPieces plan.source
  let disk := (← get).disk
  let edited := if force then [] else w.editedPaths recorded disk plan
  checkEdited plan edited
  let kept := (d.pieces.filter fun p => edited.contains p.path).map (·.path)
  tell (kept.map fun path => Log.record .warn "Keeping edited piece that was not merged yet"
    [("file", .text plan.source), ("piece", .text path)])
  let rest := { d with pieces := d.pieces.filter fun p => !edited.contains p.path }
  writeAll rest plan.text
  let result : SplitResult :=
    { source := plan.source, dir := d.dir, written := rest.pieces.length, skipped := d.skipped, kept := kept }
  let result ← if w.records then
      w.recordRun plan (← w.clearStale d recorded result)
    else pure result
  tellOne .info "Split declaration file"
    [("file", .text plan.source), ("pieces", .int result.written), ("kept", .int result.kept.length),
      ("skipped", .int result.skipped.length), ("runId", .text result.runId)]
  return result

/-- Splits a source. With `force`, edited pieces are overwritten. -/
def split (w : Workspace) (path : Path) (force : Bool) : Activity SplitResult := do
  let plan ← w.plan path
  withLock plan.decomposition.dir (w.splitPlan plan force)

end DeclPieces.Workspace
