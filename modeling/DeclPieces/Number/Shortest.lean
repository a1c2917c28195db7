import DeclPieces.Text

/-! The shortest decimal that reads back as a given binary floating-point number. -/
namespace DeclPieces

/-- The number `0.d₁d₂… · 10 ^ point`, with no zero digit at either end. -/
structure Decimal where
  negative : Bool
  digits : List Nat
  point : Int
  deriving DecidableEq, Repr

namespace Decimal

/-- The numbers around `value / unit` that round to it: from `low / unit` to `high / unit`, the ends
included when `closed`. -/
structure Interval where
  low : Nat
  value : Nat
  high : Nat
  unit : Nat
  closed : Bool

/-- The rounding interval of `mantissa * 2 ^ exponent`. Below a power of two the gap is half as wide. -/
def Interval.of (mantissa : Nat) (exponent : Int) (narrowBelow : Bool) : Interval :=
  let scale := Nat.pow 2 (exponent - 2).toNat
  { low := (4 * mantissa - if narrowBelow then 1 else 2) * scale
    value := 4 * mantissa * scale
    high := (4 * mantissa + 2) * scale
    unit := Nat.pow 2 (2 - exponent).toNat
    closed := mantissa % 2 = 0 }

/-- Does `n / d` lie in the interval? -/
def Interval.holds (i : Interval) (n d : Nat) : Bool :=
  if i.closed then i.low * d ≤ n * i.unit && n * i.unit ≤ i.high * d
  else i.low * d < n * i.unit && n * i.unit < i.high * d

/-- How many zeros follow the point of a fraction `n / d` below one; `fuel` bounds the search. -/
def leadingZeros (n d : Nat) : Nat → Nat
  | 0 => 0
  | fuel + 1 => if d ≤ 10 * n then 0 else leadingZeros (10 * n) d fuel + 1

/-- The place of the first digit of `value / unit`, counted from the point. -/
def Interval.point (i : Interval) : Int :=
  let whole := i.value / i.unit
  if whole = 0 then -(leadingZeros i.value i.unit 400 : Int) else (Nat.toDigits 10 whole).length

/-- A decimal of `count` digits inside the interval, the nearest one if there are two; halfway between
them it is the even one. -/
def Interval.candidate? (i : Interval) (count : Nat) : Option (Nat × Int) :=
  let shift : Int := i.point - count
  let up := Nat.pow 10 shift.toNat
  let down := Nat.pow 10 (-shift).toNat
  let below := i.value * down / (i.unit * up)
  let fits (n : Nat) := i.holds (n * up) down
  -- Twice the distance of `below` from the value against one grid step.
  let twice := 2 * (i.value * down - below * i.unit * up)
  let nearer := twice < i.unit * up || (twice = i.unit * up && below % 2 = 0)
  if fits below && (nearer || !fits (below + 1)) then some (below, shift)
  else if fits (below + 1) then some (below + 1, shift)
  else none

def ofDigits (negative : Bool) (n : Nat) (shift : Int) : Decimal :=
  let ds := (Nat.toDigits 10 n).map fun c => c.toNat - 48
  let trimmed := (ds.reverse.dropWhile (· = 0)).reverse
  if trimmed.isEmpty then ⟨negative, [], 0⟩ else ⟨negative, trimmed, ds.length + shift⟩

/-- The shortest decimal for a finite number. -/
def ofFloat (x : Float) : Decimal :=
  let bits := x.toBits.toNat
  let negative := decide (Nat.pow 2 63 ≤ bits)
  let field : Nat := bits / Nat.pow 2 52 % 2048
  let fraction := bits % Nat.pow 2 52
  if field = 0 && fraction = 0 then ⟨negative, [], 0⟩
  else
    let interval :=
      if field = 0 then Interval.of fraction (-1074) false
      else Interval.of (fraction + Nat.pow 2 52) ((field : Int) - 1075) (decide (fraction = 0) && decide (1 < field))
    match (List.range 17).findSome? fun k => interval.candidate? (k + 1) with
    | some (n, shift) => ofDigits negative n shift
    | none => ⟨negative, [], 0⟩

/-- When a number is written positionally, and how an exponent is written otherwise. -/
structure Style where
  /-- The least and the first too large exponent of the leading digit that are written positionally. -/
  least : Int
  limit : Int
  /-- The least number of digits of an exponent. -/
  width : Nat

def digitTexts (ds : List Nat) : Text := ds.map fun d => UInt8.ofNat (48 + d)

def pad (width : Nat) (t : Text) : Text := List.replicate (width - t.length) 48 ++ t

def positional (d : Decimal) : Text :=
  let point : Text := "."
  if d.digits.isEmpty then "0"
  else if d.point ≤ 0 then
    48 :: point ++ List.replicate (-d.point).toNat 48 ++ digitTexts d.digits
  else
    let whole := d.digits.take d.point.toNat
    let rest := d.digits.drop d.point.toNat
    digitTexts whole ++ List.replicate (d.point.toNat - whole.length) 48
      ++ if rest.isEmpty then [] else point ++ digitTexts rest

def scientific (width : Nat) (d : Decimal) : Text :=
  let exponent := d.point - 1
  let point : Text := if d.digits.length ≤ 1 then "" else "."
  let mark : Text := if exponent < 0 then "e-" else "e+"
  digitTexts (d.digits.take 1) ++ point ++ digitTexts (d.digits.drop 1) ++ mark
    ++ pad width (Text.ofNat exponent.natAbs)

def render (style : Style) (d : Decimal) : Text :=
  let exponent := d.point - 1
  let sign : Text := if d.negative then "-" else ""
  if d.digits.isEmpty || (style.least ≤ exponent && exponent < style.limit) then sign ++ d.positional
  else sign ++ d.scientific style.width

/-- The form of numbers in the log: an exponent from a million on and below a ten-thousandth. -/
def general : Style := ⟨-4, 6, 2⟩

end Decimal

end DeclPieces
