import DeclPieces.Manifest.Database
import DeclPieces.Number.Literal

/-! The bytes in which a database is kept: a list of fields, each after its length. -/
namespace DeclPieces

namespace Fields

/-- The mark between the length of a field and the field. -/
def colon : UInt8 := 58

def encode (ts : List Text) : Text := ts.flatMap fun t => Text.ofNat t.length ++ colon :: t

/-- Splits off the first field. -/
def first? (t : Text) : Option (Text × Text) := do
  let digits := t.takeWhile Text.isDigit
  let size ← Text.toNat? digits
  match t.drop digits.length with
  | [] => none
  | b :: rest => if b = colon && size ≤ rest.length then some (rest.take size, rest.drop size) else none

/-- The fields of a text; `fuel` bounds their number. -/
def decode? : Nat → Text → Option (List Text)
  | _, [] => some []
  | 0, _ => none
  | fuel + 1, t => do
    let (field, rest) ← first? t
    return field :: (← decode? fuel rest)

end Fields

namespace Database

/-- The first field of every file. -/
def heading : Text := "manifest"

/-- What marks the fields of a run, and those of a piece. -/
def runMark : Text := "run"

def pieceMark : Text := "piece"

/-- What is written for the layout version: nothing without its table, a hyphen if the table is empty. -/
def versionField : Option (Option Int) → Text
  | none => ""
  | some none => "-"
  | some (some v) => Text.ofInt v

def runFields (r : Run) : List Text :=
  [runMark, r.id, r.source, r.hash, r.dir, Text.ofInt r.pieceCount, Text.ofInt r.skippedCount, Text.ofInt r.createdAt]

def pieceFields (p : RecordedPiece) : List Text :=
  [pieceMark, p.run, p.path, p.symbol, p.category, Text.ofInt p.start, Text.ofInt p.stop, p.hash, Text.ofBool p.generated]

def encode (d : Database) : Text :=
  let rows := match d.manifest with
    | none => [Text.ofBool false]
    | some m => Text.ofBool true :: m.runs.flatMap runFields ++ m.pieces.flatMap pieceFields
  Fields.encode (heading :: versionField d.version :: rows)

/-- Reads runs, then pieces. -/
def rows? : List Text → Manifest → Option Manifest
  | [], m => some m
  | mark :: a :: b :: c :: d :: e :: f :: g :: rest, m =>
    if mark = runMark then
      match Number.int64? e, Number.int64? f, Number.int64? g with
      | some pieceCount, some skippedCount, some createdAt =>
        rows? rest { m with runs := m.runs ++ [⟨a, b, c, d, pieceCount, skippedCount, createdAt⟩] }
      | _, _, _ => none
    else if mark = pieceMark then
      match Number.int64? e, Number.int64? f, rest with
      | some start, some stop, generated :: rest =>
        rows? rest { m with pieces := m.pieces ++ [⟨a, b, c, d, start, stop, g, generated = Text.ofBool true⟩] }
      | _, _, _ => none
    else none
  | _, _ => none

def version? (t : Text) : Option (Option (Option Int)) :=
  if t.isEmpty then some none
  else if t = versionField (some none) then some (some none)
  else (Number.int64? t).map fun v => some (some v)

/-- Reads the content of a file; an empty one holds no tables. -/
def decode? (t : Text) : Option Database := do
  match ← Fields.decode? t.length t with
  | [] => some { version := none, manifest := none }
  | head :: version :: hasTables :: rows =>
    if head ≠ heading then none
    else if hasTables = Text.ofBool true then
      return { version := ← version? version, manifest := some (← rows? rows {}) }
    else return { version := ← version? version, manifest := none }
  | _ => none

end Database

end DeclPieces
