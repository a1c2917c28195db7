import DeclPieces.Piece
import DeclPieces.Storage

/-! Writing pieces to files. -/
namespace DeclPieces

variable {σ : Type} [Storage σ]

namespace Piece

def writeFault (p : Piece) (what : Text) (cause : Fault) : Fault :=
  .caused .pieceWriteFailed what p.path cause

/-- Writes the file of a piece, and its directory before it. -/
def write (p : Piece) (source : Text) (store : σ) : Except Failure Unit × σ :=
  match Storage.makeDirs store (Path.dir p.path) with
  | .error fault => (.error (.fault (p.writeFault "creating piece directory" fault)), store)
  | .ok store =>
    match p.render? source with
    | none => (.error .outOfRange, store)
    | some content =>
      match Storage.write store p.path content with
      | .error fault => (.error (.fault (p.writeFault "writing piece" fault)), store)
      | .ok store => (.ok (), store)

end Piece

/-- Writes the pieces in order and collects the faults. A piece that fails does not stop the others; a
range outside the text does. -/
def writePieces (source : Text) : List Piece → σ → Except Failure (List Fault) × σ
  | [], store => (.ok [], store)
  | p :: rest, store =>
    match p.write source store with
    | (.error .outOfRange, store) => (.error .outOfRange, store)
    | (.error (.fault fault), store) =>
      let (others, store) := writePieces source rest store
      (others.map (fault :: ·), store)
    | (.ok (), store) => writePieces source rest store

namespace Decomposition

/-- Writes every piece. -/
def write (d : Decomposition) (source : Text) (store : σ) : Except Failure Unit × σ :=
  match writePieces source d.pieces store with
  | (.error failure, store) => (.error failure, store)
  | (.ok [], store) => (.ok (), store)
  | (.ok faults, store) => (.error (.fault (.joined faults)), store)

end Decomposition

end DeclPieces
