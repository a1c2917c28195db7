import DeclPieces.Piece.Reference

/-! Pieces: the files that a declaration file is split into. -/
namespace DeclPieces

/-- What a piece stands for. -/
inductive Role where
  /-- A file that is made up rather than cut from the source. -/
  | generated (content : Text)
  /-- The documentation of the file as a whole. -/
  | package
  /-- One declaration. A piece with side effects only has a name that cannot be exported. -/
  | declared (symbol : Text) (kind : Kind) (category : Category) (references : List CrossReference)
      (sideEffect : Bool)
  deriving DecidableEq, Repr

/-- One piece, cut from `[start, stop)` of the source unless it is generated. -/
structure Piece where
  start : Int := 0
  stop : Int := 0
  path : Path
  importText : Text := []
  exportText : Text := []
  role : Role
  deriving DecidableEq, Repr

namespace Piece

def isGenerated (p : Piece) : Bool :=
  match p.role with
  | .generated _ => true
  | _ => false

def isPackage (p : Piece) : Bool := p.role = .package

def symbol (p : Piece) : Text :=
  match p.role with
  | .declared symbol .. => symbol
  | _ => []

def category? (p : Piece) : Option Category :=
  match p.role with
  | .declared _ _ category .. => some category
  | _ => none

/-- The file that holds `body`, between the lines that import and export names. -/
def wrap (p : Piece) (body : Text) : Text :=
  let head : Text := if p.importText.isEmpty then [] else p.importText ++ [Text.newline, Text.newline]
  let tail : Text := if p.exportText.isEmpty then [] else Text.newline :: p.exportText ++ [Text.newline]
  head ++ body ++ [Text.newline] ++ tail

/-- The content of the piece's file, given the source text. -/
def render? (p : Piece) (source : Text) : Option Text :=
  match p.role with
  | .generated content => some content
  | _ => (source.slice? p.start p.stop).map p.wrap

end Piece

/-- A statement that no piece was made of. -/
structure Skip where
  kind : Kind
  start : Int
  reason : Text
  deriving DecidableEq, Repr

/-- All pieces of a file: the generated index, then the others from the end of the file to its start. -/
structure Decomposition where
  source : Path
  dir : Path
  pieces : List Piece
  skipped : List Skip := []
  deriving DecidableEq, Repr

namespace Decomposition

def index? (d : Decomposition) : Option Piece := d.pieces.head?

/-- The pieces after the index. -/
def content (d : Decomposition) : List Piece := d.pieces.drop 1

def paths (d : Decomposition) : List Path := d.pieces.map (·.path)

end Decomposition

end DeclPieces
