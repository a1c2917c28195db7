import DeclPieces.Data
import DeclPieces.Number.Literal
import DeclPieces.Text.Rune

/-! Reading JSON. Of members of one name the last counts; numbers are floating-point numbers. -/
namespace DeclPieces.Json

def isBlank (b : UInt8) : Bool := b = 32 || b = 9 || b = 10 || b = 13

def skipBlank (t : Text) : Text := t.dropWhile isBlank

/-- A member of a string: a byte as it stands, or a unit of UTF-16 from an escape. -/
inductive Unit16 where
  | byte (b : UInt8)
  | unit (n : Nat)

def hex4? (a b c d : UInt8) : Option Nat := Number.inBase? 16 [a, b, c, d]

def escape? (b : UInt8) : Option UInt8 :=
  [(34, 34), (92, 92), (47, 47), (98, 8), (102, 12), (110, 10), (114, 13), (116, 9)].lookup b

/-- The members of a string after its opening quote, and what follows the closing one. -/
def stringUnits? : Text → Option (List Unit16 × Text)
  | [] => none
  | 34 :: rest => some ([], rest)
  | 92 :: 117 :: a :: b :: c :: d :: rest => do
    let n ← hex4? a b c d
    let (units, rest) ← stringUnits? rest
    return (.unit n :: units, rest)
  | 92 :: e :: rest => do
    let b ← escape? e
    let (units, rest) ← stringUnits? rest
    return (.byte b :: units, rest)
  | b :: rest =>
    if b < 32 then none
    else do
      let (units, rest) ← stringUnits? rest
      return (.byte b :: units, rest)

def isHigh (n : Nat) : Bool := 0xD800 ≤ n && n < 0xDC00

def isLow (n : Nat) : Bool := 0xDC00 ≤ n && n < 0xE000

/-- The bytes of a string; half of a surrogate pair stands for U+FFFD. -/
def unitBytes : List Unit16 → Text
  | [] => []
  | .byte b :: rest => b :: unitBytes rest
  | [.unit n] => Text.ofChars [single n]
  | .unit n :: .unit m :: rest =>
    if isHigh n && isLow m then
      Text.ofChars [Char.ofNat (0x10000 + (n - 0xD800) * 0x400 + (m - 0xDC00))] ++ unitBytes rest
    else Text.ofChars [single n] ++ unitBytes (.unit m :: rest)
  | .unit n :: .byte b :: rest => Text.ofChars [single n] ++ b :: unitBytes rest
where
  single (n : Nat) : Char := if isHigh n || isLow n then Rune.replacement else Char.ofNat n

/-- Puts U+FFFD in place of every byte that is not UTF-8. -/
def repaired (t : Text) : Text := t.runes.flatMap fun r => Text.ofChars [r.char]

def string? (t : Text) : Option (Text × Text) :=
  (stringUnits? t).map fun (units, rest) => (repaired (unitBytes units), rest)

def isNumberByte (b : UInt8) : Bool :=
  Text.isDigit b || b = 43 || b = 45 || b = 46 || b = 69 || b = 101

def number? (t : Text) : Option (Data × Text) :=
  let token := t.takeWhile isNumberByte
  if Number.isProper token then (Number.float? token).map fun x => (.float x, t.drop token.length) else none

def word? (t : Text) : Option (Data × Text) :=
  [("true", Data.bool true), ("false", Data.bool false), ("null", Data.null)].findSome? fun (w, d) =>
    if t.hasPrefix (Text.ofString w) then some (d, t.drop w.length) else none

mutual
/-- A value at the front; `fuel` bounds how deep and how wide it is. -/
def value? : Nat → Text → Option (Data × Text)
  | 0, _ => none
  | fuel + 1, t => match skipBlank t with
    | 123 :: rest => match skipBlank rest with
      | 125 :: rest => some (.table [], rest)
      | rest => members? fuel [] rest
    | 91 :: rest => match skipBlank rest with
      | 93 :: rest => some (.list [], rest)
      | rest => items? fuel [] rest
    | 34 :: rest => (string? rest).map fun (s, rest) => (.text s, rest)
    | t => (word? t).or (number? t)

/-- The items of a list after those read before, kept in reverse. -/
def items? : Nat → List Data → Text → Option (Data × Text)
  | 0, _, _ => none
  | fuel + 1, done, t => do
    let (item, t) ← value? fuel t
    match skipBlank t with
    | 44 :: t => items? fuel (item :: done) t
    | 93 :: t => some (.list (item :: done).reverse, t)
    | _ => none

def members? : Nat → List (Text × Data) → Text → Option (Data × Text)
  | 0, _, _ => none
  | fuel + 1, done, t => match skipBlank t with
    | 34 :: t => do
      let (key, t) ← string? t
      match skipBlank t with
      | 58 :: t =>
        let (item, t) ← value? fuel t
        match skipBlank t with
        | 44 :: t => members? fuel (Data.put key item done) t
        | 125 :: t => some (.table (Data.put key item done), t)
        | _ => none
      | _ => none
    | _ => none
end

/-- The value that the whole text is. -/
def read? (t : Text) : Option Data :=
  match value? (2 * t.length + 2) t with
  | some (d, rest) => if (skipBlank rest).isEmpty then some d else none
  | none => none

end DeclPieces.Json
