import DeclPieces.Text

/-! Reading numbers. -/
namespace DeclPieces.Number

def isUnderscore (b : UInt8) : Bool := b = 95

/-- The value of a digit or letter as a digit. -/
def digit? (b : UInt8) : Option Nat :=
  if Text.isDigit b then some (b.toNat - 48)
  else if 97 ≤ b && b ≤ 122 then some (b.toNat - 87)
  else if 65 ≤ b && b ≤ 90 then some (b.toNat - 55)
  else none

/-- The value of digits in a base; underscores are passed over. -/
def inBase? (base : Nat) (t : Text) : Option Nat :=
  (t.filter fun b => !isUnderscore b).foldlM
    (fun n b => (digit? b).bind fun d => if d < base then some (base * n + d) else none) 0

/-- Does every underscore stand between two digits? `afterDigit` says if a digit came before. -/
def separated (afterDigit : Bool) : Text → Bool
  | [] => true
  | [b] => !isUnderscore b
  | b :: c :: rest =>
    if isUnderscore b then afterDigit && !isUnderscore c && separated false (c :: rest)
    else separated true (c :: rest)

/-- Splits off a sign: is it a minus, and what follows? -/
def sign : Text → Bool × Text
  | 45 :: rest => (true, rest)
  | 43 :: rest => (false, rest)
  | t => (false, t)

def signed (negative : Bool) (n : Nat) : Int := if negative then -(n : Int) else n

/-- The base that the front of a number announces, and its digits. A zero in front announces octal. -/
def base : Text → Nat × Text
  | 48 :: mark :: d :: rest =>
    if mark = 98 || mark = 66 then (2, d :: rest)
    else if mark = 111 || mark = 79 then (8, d :: rest)
    else if mark = 120 || mark = 88 then (16, d :: rest)
    else (8, mark :: d :: rest)
  | 48 :: rest => (8, rest)
  | t => (10, t)

def fits64 (i : Int) : Bool := -9223372036854775808 ≤ i && i < 9223372036854775808

/-- An integer with an optional sign, in the base its front announces, of any size. -/
def integer? (t : Text) : Option Int :=
  let (negative, t) := sign t
  if t.isEmpty then none
  else
    let (b, digits) := base t
    if separated (t.length ≠ digits.length) digits then (inBase? b digits).map (signed negative) else none

/-- An integer of 64 bits. -/
def int64? (t : Text) : Option Int := (integer? t).filter fits64

/-- `mantissa * 10 ^ exponent` as a floating-point number, unless it is too large for one. -/
def toFloat? (negative : Bool) (mantissa : Nat) (exponent : Int) : Option Float :=
  let size := (Nat.toDigits 10 mantissa).length + exponent
  let x :=
    if mantissa = 0 || size < -400 then 0.0
    else if 400 < size then 1.0 / 0.0
    else Float.ofScientific mantissa (exponent < 0) exponent.natAbs
  if x.isInf then none else some (if negative then -x else x)

/-- Reads an exponent such as `e-7`; no exponent is zero. -/
def exponent? : Text → Option Int
  | [] => some 0
  | b :: rest =>
    if b = 101 || b = 69 then
      let (negative, digits) := sign rest
      (Text.toNat? digits).map (signed negative)
    else none

/-- A decimal such as `-1.5e3`. There must be a digit before or after the point. -/
def float? (t : Text) : Option Float :=
  let (negative, t) := sign t
  let whole := t.takeWhile Text.isDigit
  let (fraction, tail) : Text × Text := match t.drop whole.length with
    | 46 :: rest => (rest.takeWhile Text.isDigit, rest.dropWhile Text.isDigit)
    | rest => ([], rest)
  match exponent? tail, Text.toNat? (whole ++ fraction) with
  | some e, some m => toFloat? negative m (e - fraction.length)
  | _, _ => none

/-- Does the number have digits on both sides of its point, no zero in front of another digit and no plus? -/
def isProper (t : Text) : Bool :=
  let digits := match t with
    | 45 :: rest => rest
    | t => t
  let whole := digits.takeWhile Text.isDigit
  let tail := digits.dropWhile Text.isDigit
  let wholeFits := match whole with
    | [] => false
    | [_] => true
    | b :: _ => b ≠ 48
  wholeFits && match tail with
    | 46 :: d :: _ => Text.isDigit d
    | [46] => false
    | _ => true

end DeclPieces.Number
