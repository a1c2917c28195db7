import DeclPieces.Piece
import DeclPieces.Storage

/-! Folding edited pieces back into their source. -/
namespace DeclPieces

/-- Is this a line that splitting added? -/
def isMarked (o : Options) (line : Text) : Bool :=
  line.hasPrefix o.importMarker || line.hasPrefix o.exportMarker

/-- The content of a piece without marked lines and without white space around it. -/
def stripMarkers (opts : Options) (content : Text) : Text :=
  let o := opts.withDefaults
  let kept := (Text.splitBy Text.newline content).filter fun line => !isMarked o line
  Text.trim (Text.joinWith [Text.newline] kept)

/-- The outcome of folding pieces back. -/
structure Merged where
  text : Text
  /-- How many pieces were read and put in place. -/
  applied : Nat
  /-- The pieces that have no file. -/
  missing : List Path
  changed : Bool
  deriving DecidableEq, Repr

namespace Merged

def rangeFault (p : Piece) : Fault :=
  .coded .internalError
    ("piece range [" ++ Text.ofInt p.start ++ ", " ++ Text.ofInt p.stop ++ ") out of order or outside the text")
    p.path

def readFault (p : Piece) (cause : Fault) : Fault := .caused .pieceReadFailed "reading piece" p.path cause

/-- Replaces `[start, stop)` of `text`. -/
def splice (text : Text) (start stop : Nat) (body : Text) : Text := text.take start ++ body ++ text.drop stop

/-- What is known while pieces are folded back: the text so far, where the next range has to end, and
what happened to the pieces before. -/
structure Progress where
  text : Text
  limit : Int
  applied : Nat := 0
  missing : List Path := []
  deriving DecidableEq, Repr

/-- Folds one piece into the text. -/
def step (o : Options) (read : Path → Reading Text) (s : Progress) (p : Piece) : Except Fault Progress :=
  if p.isGenerated then .ok s
  else if p.start < 0 ∨ p.stop < p.start ∨ s.limit < p.stop then .error (rangeFault p)
  else match read p.path with
    | .missing _ => .ok { s with limit := p.start, missing := s.missing ++ [p.path] }
    | .failed fault => .error (readFault p fault)
    | .content data => .ok { s with
        text := splice s.text p.start.toNat p.stop.toNat (stripMarkers o data)
        limit := p.start
        applied := s.applied + 1 }

end Merged

namespace Decomposition

/-- Folds the pieces, as they are read, into the text they were cut from. They are taken in order,
from the end of the text to its start, so that each range still holds when it is replaced. -/
def merge (d : Decomposition) (o : Options) (read : Path → Reading Text) (text : Text) : Except Fault Merged := do
  let last ← d.pieces.foldlM (Merged.step o read) { text := text, limit := text.length }
  return {
    text := last.text
    applied := last.applied
    missing := last.missing
    changed := decide (last.text ≠ text) }

end Decomposition

end DeclPieces
