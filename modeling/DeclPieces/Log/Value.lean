import DeclPieces.Calendar

/-! Values of log attributes and their text. -/
namespace DeclPieces.Log

inductive Value where
  | text (t : Text)
  | int (i : Int)
  | bool (b : Bool)
  | float (x : Float)
  /-- A duration in nanoseconds. -/
  | duration (nanoseconds : Int)
  /-- A second of universal time. -/
  | instant (unix : Int)
  | nothing
  | list (ts : List Text)
  | group (attrs : List (Text × Value))

instance : Inhabited Value := ⟨.nothing⟩

abbrev Attr := Text × Value

namespace Value

def listText (ts : List Text) : Text := "[" ++ Text.joinWith " " ts ++ "]"

mutual
/-- The text of a value inside a group. -/
def inner : Value → Text
  | text t => t
  | int i => Text.ofInt i
  | bool b => Text.ofBool b
  | float x => (Decimal.ofFloat x).render Decimal.general
  | duration n => durationText n
  | instant s => instantLongText s
  | nothing => "<nil>"
  | list ts => listText ts
  | group attrs => listText (members attrs)

def members : List (Text × Value) → List Text
  | [] => []
  | attr :: rest => member attr :: members rest

def member : Text × Value → Text
  | (key, value) => key ++ "=" ++ inner value
end

/-- The text of an attribute's value. -/
def render : Value → Text
  | instant s => instantText s
  | v => inner v

/-- Is this a group without members? -/
def isEmptyGroup : Value → Bool
  | group [] => true
  | _ => false

/-- A group of the given attributes, less the empty groups among them. -/
def ofAttrs (attrs : List (Text × Value)) : Value := group (attrs.filter fun a => !a.2.isEmptyGroup)

end Value

instance : Coe Text Value := ⟨Value.text⟩

end DeclPieces.Log
