import DeclPieces.Text

/-! Structured values, as settings are written in files and reports are put together. -/
namespace DeclPieces

inductive Data where
  | null
  | bool (b : Bool)
  | int (i : Int)
  | float (x : Float)
  | text (t : Text)
  /-- A date, a time of day or both, as it is written. -/
  | moment (t : Text)
  | list (items : List Data)
  | table (members : List (Text × Data))

namespace Data

instance : Inhabited Data := ⟨null⟩

/-- Sets a member; one of that name is replaced where it stands. -/
def put (key : Text) (value : Data) : List (Text × Data) → List (Text × Data)
  | [] => [(key, value)]
  | (k, v) :: rest => if k = key then (key, value) :: rest else (k, v) :: put key value rest

end Data

end DeclPieces
