import DeclPieces.Data
import DeclPieces.Number.Literal
import DeclPieces.Number.Shortest
import DeclPieces.Settings

/-! How the values of settings are taken from data: by kind only, or with conversions between kinds. -/
namespace DeclPieces.Setting

/-- A way of reading each kind of value. -/
structure Reader where
  int? : Data → Option Int
  bool? : Data → Option Bool
  text? : Data → Option Text
  texts? : Data → Option (List Text)

/-- Reads the value of a setting, which is of the kind of its default. -/
def Reader.value? (r : Reader) (s : Setting) (d : Data) : Option Value :=
  match Settings.get {} s with
  | .int _ => (r.int? d).map .int
  | .bool _ => (r.bool? d).map .bool
  | .text _ => (r.text? d).map .text
  | .texts _ => (r.texts? d).map .texts

namespace Strict

def int? : Data → Option Int
  | .int i => some i
  | _ => none

def bool? : Data → Option Bool
  | .bool b => some b
  | _ => none

def text? : Data → Option Text
  | .text t => some t
  | _ => none

def texts? : Data → Option (List Text)
  | .list items => items.mapM text?
  | _ => none

end Strict

/-- Takes a value only if it is of the right kind. -/
def strict : Reader := ⟨Strict.int?, Strict.bool?, Strict.text?, Strict.texts?⟩

namespace Loose

/-- The whole part of a number, the least integer of 64 bits if it is not one of them. -/
def truncate (x : Float) : Int := if x.abs < 9223372036854775808.0 then x.toInt64.toInt else -9223372036854775808

/-- The integer of 64 bits with the same low bits. -/
def wrap (i : Int) : Int := Int.bmod i 18446744073709551616

def int? : Data → Option Int
  | .int i => some (wrap i)
  | .float x => some (truncate x)
  | .bool b => some (if b then 1 else 0)
  | .text t => if t.isEmpty then some 0 else Number.int64? t
  | _ => none

def words : List (Text × Bool) :=
  let give (b : Bool) (ws : List String) : List (Text × Bool) := ws.map fun w => (Text.ofString w, b)
  give true ["1", "t", "T", "true", "TRUE", "True"] ++ give false ["0", "f", "F", "false", "FALSE", "False", ""]

def bool? : Data → Option Bool
  | .bool b => some b
  | .int i => some (i ≠ 0)
  | .float x => some (!(x == 0.0))
  | .text t => words.lookup t
  | _ => none

/-- All digits of a number, without an exponent. -/
def floatText (x : Float) : Text :=
  if x.isNaN then "NaN"
  else if x.isInf then (if x < 0.0 then "-Inf" else "+Inf")
  else
    let d := Decimal.ofFloat x
    if d.negative then 45 :: d.positional else d.positional

def text? : Data → Option Text
  | .text t => some t
  | .bool b => some (if b then "1" else "0")
  | .int i => some (Text.ofInt i)
  | .float x => some (floatText x)
  | _ => none

/-- An item of a list of texts; what is missing is empty. -/
def item? : Data → Option Text
  | .null => some []
  | d => text? d

def texts? : Data → Option (List Text)
  | .list items => items.mapM item?
  | .table [] => some []
  | .text t => some (if t.isEmpty then [] else Text.splitBy 44 t)
  | d => (item? d).map ([·])

end Loose

/-- Converts between kinds where a value has a plain reading as another kind. -/
def loose : Reader := ⟨Loose.int?, Loose.bool?, Loose.text?, Loose.texts?⟩

end DeclPieces.Setting
