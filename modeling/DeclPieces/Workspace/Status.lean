import DeclPieces.Workspace.Basic

/-! What became of a source and its pieces since the last split. -/
namespace DeclPieces.Workspace

open Activity

inductive PieceState where
  | unchanged
  | edited
  | missing
  deriving DecidableEq, Repr

def PieceState.name : PieceState → Text
  | unchanged => "unchanged"
  | edited => "edited"
  | missing => "missing"

structure PieceStatus where
  path : Path
  symbol : Text
  generated : Bool
  state : PieceState
  deriving DecidableEq, Repr

structure Status where
  source : Path
  runId : Text
  splitAt : Int
  sourceChanged : Bool
  pieces : List PieceStatus
  deriving DecidableEq, Repr

def Status.count (s : Status) (state : PieceState) : Nat := (s.pieces.filter (·.state = state)).length

/-- The state of a recorded piece. -/
def pieceStatus (w : Workspace) (disk : Disk) (r : RecordedPiece) : Except Fault PieceStatus :=
  let path := w.ofKey r.path
  let found (state : PieceState) : PieceStatus :=
    { path := path, symbol := r.symbol, generated := r.generated, state := state }
  match disk.read path with
  | .missing _ => .ok (found .missing)
  | .failed e => .error (.caused .pieceReadFailed "reading piece" path e)
  | .content data => .ok (found (if w.digest data = r.hash then .unchanged else .edited))

def status (w : Workspace) (path : Path) : Activity Status := do
  let path := w.abs path
  if !w.records then fail (.coded .noManifest "no manifest store configured" path)
  let p ← get
  match ← ofExcept (p.database.latest? (w.key path)) with
  | none => fail (.coded .noManifest "file was never split" path)
  | some run =>
    let recorded ← ofExcept (p.database.piecesOf run.id)
    let sourceChanged ← match p.disk.read path with
      | .content text => pure (decide (w.digest text ≠ run.hash))
      | .missing _ => pure true
      | .failed e => fail (.caused .sourceUnreadable "reading declaration file" path e)
    let pieces ← ofExcept (recorded.mapM (w.pieceStatus p.disk))
    return { source := path, runId := run.id, splitAt := run.createdAt, sourceChanged := sourceChanged, pieces := pieces }

end DeclPieces.Workspace
