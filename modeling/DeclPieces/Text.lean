import DeclPieces.Sort

/-! Texts are byte sequences: every offset counts bytes, and no encoding is assumed. -/
namespace DeclPieces

abbrev Text := List UInt8

namespace Text

/-- Named, so that every test for membership in a list of texts holds the same proof. -/
instance : LawfulBEq Text := inferInstance

/-- The UTF-8 bytes of a string. -/
def ofString (s : String) : Text := s.toList.flatMap String.utf8EncodeChar

instance : Coe String Text := ⟨ofString⟩

/-- The byte of an ASCII character. -/
def byte (c : Char) : UInt8 := UInt8.ofNat c.toNat

instance : Coe Char UInt8 := ⟨byte⟩

abbrev newline : UInt8 := 10

/-- The bytes of `t` in `[start, stop)`, when that is a range of `t`. -/
def slice? (t : Text) (start stop : Int) : Option Text :=
  if 0 ≤ start ∧ start ≤ stop ∧ stop ≤ t.length then
    some ((t.take stop.toNat).drop start.toNat)
  else none

theorem slice?_isSome_iff {t : Text} {start stop : Int} :
    (t.slice? start stop).isSome ↔ 0 ≤ start ∧ start ≤ stop ∧ stop ≤ t.length := by
  unfold slice?
  split <;> simp_all

def hasPrefix (t head : Text) : Bool := head.isPrefixOf t

def hasSuffix (t tail : Text) : Bool := tail.isSuffixOf t

/-- Removes `tail` once when `t` ends in it. -/
def dropSuffix (t tail : Text) : Text :=
  if t.hasSuffix tail then t.take (t.length - tail.length) else t

/-- What follows the first occurrence of `part`. -/
def after? (part : Text) : Text → Option Text
  | [] => if part.isEmpty then some [] else none
  | b :: rest => if hasPrefix (b :: rest) part then some ((b :: rest).drop part.length) else after? part rest

/-- Splits at every occurrence of `sep`; the result has one member more than there are occurrences. -/
def splitBy (sep : UInt8) : Text → List Text
  | [] => [[]]
  | b :: rest =>
    if b = sep then [] :: splitBy sep rest
    else match splitBy sep rest with
      | [] => [[b]]
      | line :: lines => (b :: line) :: lines

/-- Puts `sep` between the members. -/
def joinWith (sep : Text) : List Text → Text
  | [] => []
  | [t] => t
  | t :: u :: rest => t ++ sep ++ joinWith sep (u :: rest)

theorem splitBy_ne_nil (sep : UInt8) (t : Text) : splitBy sep t ≠ [] := by
  cases t with
  | nil => simp [splitBy]
  | cons b rest =>
    unfold splitBy
    split
    · simp
    · split <;> simp

/-- Splitting loses nothing. -/
@[simp] theorem joinWith_splitBy (sep : UInt8) (t : Text) : joinWith [sep] (splitBy sep t) = t := by
  induction t with
  | nil => rfl
  | cons b rest ih =>
    unfold splitBy
    split
    · next h =>
      cases hs : splitBy sep rest with
      | nil => exact absurd hs (splitBy_ne_nil sep rest)
      | cons line lines => rw [hs] at ih; simp [joinWith, h, ih]
    · cases hs : splitBy sep rest with
      | nil => exact absurd hs (splitBy_ne_nil sep rest)
      | cons line lines =>
        rw [hs] at ih
        cases lines with
        | nil => simpa [joinWith] using ih
        | cons l ls => simpa [joinWith] using ih

/-- Byte-wise order. -/
def lt (a b : Text) : Bool := decide (a < b)

def le (a b : Text) : Bool := !lt b a

/-- Sorts byte-wise; equal texts keep their order. -/
def sort (ts : List Text) : List Text := ts.stableSort le

def ofNat (n : Nat) : Text := (Nat.toDigits 10 n).map byte

def ofInt (i : Int) : Text := if i < 0 then byte '-' :: ofNat i.natAbs else ofNat i.toNat

def ofBool (b : Bool) : Text := if b then ofString "true" else ofString "false"

def isDigit (b : UInt8) : Bool := byte '0' ≤ b && b ≤ byte '9'

def isLetter (b : UInt8) : Bool :=
  (byte 'a' ≤ b && b ≤ byte 'z') || (byte 'A' ≤ b && b ≤ byte 'Z')

/-- The value of a non-empty run of decimal digits. -/
def toNat? (t : Text) : Option Nat :=
  if t.isEmpty || !t.all isDigit then none
  else some (t.foldl (fun n b => 10 * n + (b.toNat - 48)) 0)

def hexDigit (n : Nat) : UInt8 := UInt8.ofNat (if n < 10 then 48 + n else 87 + n)

/-- Two lower-case hexadecimal digits a byte. -/
def hex (t : Text) : Text := t.flatMap fun b => [hexDigit (b.toNat / 16), hexDigit (b.toNat % 16)]

/-- The text as a string, if it is valid UTF-8. -/
def toString? (t : Text) : Option String := String.fromUTF8? ⟨t.toArray⟩

end Text

end DeclPieces
