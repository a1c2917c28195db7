import DeclPieces.Calendar
import DeclPieces.Data
import DeclPieces.Number.Literal
import DeclPieces.Text.Rune

/-! What an unquoted word of YAML stands for. -/
namespace DeclPieces.Yaml

def infinity : Float := 1.0 / 0.0

def notANumber : Float := 0.0 / 0.0

/-- The words with a meaning of their own. -/
def words : List (Text × Data) :=
  let give (d : Data) (ws : List String) : List (Text × Data) := ws.map fun w => (Text.ofString w, d)
  give (.bool true) ["true", "True", "TRUE"] ++ give (.bool false) ["false", "False", "FALSE"]
    ++ give .null ["", "~", "null", "Null", "NULL"]
    ++ give (.float notANumber) [".nan", ".NaN", ".NAN"]
    ++ give (.float infinity) [".inf", ".Inf", ".INF", "+.inf", "+.Inf", "+.INF"]
    ++ give (.float (-infinity)) ["-.inf", "-.Inf", "-.INF"]

/-- A number of one or two digits at the front. -/
def oneOrTwo? (t : Text) : Option (Nat × Text) :=
  let digits := (t.take 2).takeWhile Text.isDigit
  (Text.toNat? digits).map (·, t.drop digits.length)

/-- What follows a date, whose month and day may have one digit. -/
def afterDate? (t : Text) : Option Text := do
  let digits := t.takeWhile Text.isDigit
  let year ← Text.toNat? digits
  if digits.length ≠ 4 then none
  match t.drop 4 with
  | 45 :: t =>
    let (month, t) ← oneOrTwo? t
    match t with
    | 45 :: t =>
      let (day, t) ← oneOrTwo? t
      if Date.isReal ⟨year, month, day⟩ then some t else none
    | _ => none
  | _ => none

def afterTime? (t : Text) : Option Text := do
  let (hour, t) ← oneOrTwo? t
  match t with
  | 58 :: t =>
    let (minute, t) ← oneOrTwo? t
    match t with
    | 58 :: t =>
      let (second, t) ← oneOrTwo? t
      if 24 ≤ hour ∨ 60 ≤ minute ∨ 60 ≤ second then none
      match t with
      | 46 :: t => if t.head?.any Text.isDigit then some (t.dropWhile Text.isDigit) else none
      | t => some t
    | _ => none
  | _ => none

/-- The distance from universal time at the end of a time. -/
def isZone (t : Text) : Bool :=
  match t with
  | [90] => true
  | [s, a, b, 58, c, d] =>
    (s = 43 || s = 45) && (Text.toNat? [a, b]).any (· < 25) && (Text.toNat? [c, d]).any (· < 60)
  | _ => false

/-- Is the word a date, alone or with a time? -/
def isMoment (t : Text) : Bool :=
  match afterDate? t with
  | some [] => true
  | some (b :: rest) =>
    if b = 84 || b = 116 then (afterTime? rest).any isZone
    else if b = 32 then (afterTime? (rest.dropWhile (· = 32))).any List.isEmpty
    else false
  | none => false

/-- A decimal with digits before or after its point, and an exponent that has digits. -/
def decimal? (t : Text) : Option Data := (Number.float? t).map .float

/-- An integer of at most 64 bits, with or without a sign. -/
def integer? (t : Text) : Option Data :=
  (Number.integer? t).bind fun i =>
    if Number.fits64 i || (0 ≤ i && i < 18446744073709551616 && t.head? ≠ some 43) then some (.int i) else none

/-- The value of an unquoted word. -/
def scalar (t : Text) : Data :=
  match words.lookup t with
  | some d => d
  | none => match t with
    | [] => .null
    | b :: _ =>
      if b = 46 then (decimal? t).getD (.text t)
      else if Text.isDigit b || b = 43 || b = 45 then
        if isMoment t then .moment t
        else
          let plain := t.filter fun b => !Number.isUnderscore b
          ((integer? plain).or (decimal? plain)).getD (.text t)
      else .text t

end DeclPieces.Yaml
