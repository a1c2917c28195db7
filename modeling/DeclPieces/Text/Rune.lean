import DeclPieces.Text

/-! Reading a text as UTF-8. A byte that starts no valid sequence stands for U+FFFD on its own. -/
namespace DeclPieces

/-- A character with the bytes it was read from. -/
structure Rune where
  char : Char
  bytes : Text
  deriving DecidableEq, Repr

namespace Rune

def replacement : Char := Char.ofNat 0xFFFD

/-- Was the character read from a byte that is not UTF-8? -/
def invalid (r : Rune) : Bool := r.char = replacement && r.bytes.length = 1

def isContinuation (b : UInt8) : Bool := 0x80 ≤ b && b ≤ 0xBF

def low (b : UInt8) : Nat := b.toNat % 64

/-- The character that starts with byte `b`, and how many of the bytes that follow belong to it. -/
def next (b : UInt8) (rest : Text) : Char × Nat :=
  if b < 0x80 then (Char.ofNat b.toNat, 0)
  else match rest with
    | b1 :: b2 :: b3 :: _ =>
      if let some r := two b b1 then r
      else if let some r := three b b1 b2 then r
      else (four b b1 b2 b3).getD (replacement, 0)
    | [b1, b2] =>
      if let some r := two b b1 then r else (three b b1 b2).getD (replacement, 0)
    | [b1] => (two b b1).getD (replacement, 0)
    | [] => (replacement, 0)
where
  two (b b1 : UInt8) : Option (Char × Nat) :=
    if 0xC2 ≤ b && b ≤ 0xDF && isContinuation b1 then
      some (Char.ofNat ((b.toNat - 0xC0) * 64 + low b1), 1)
    else none
  three (b b1 b2 : UInt8) : Option (Char × Nat) :=
    let n := (b.toNat - 0xE0) * 4096 + low b1 * 64 + low b2
    if 0xE0 ≤ b && b ≤ 0xEF && isContinuation b1 && isContinuation b2
        && 0x800 ≤ n && !(0xD800 ≤ n && n ≤ 0xDFFF) then
      some (Char.ofNat n, 2)
    else none
  four (b b1 b2 b3 : UInt8) : Option (Char × Nat) :=
    let n := (b.toNat - 0xF0) * 262144 + low b1 * 4096 + low b2 * 64 + low b3
    if 0xF0 ≤ b && b ≤ 0xF4 && isContinuation b1 && isContinuation b2 && isContinuation b3
        && 0x10000 ≤ n && n ≤ 0x10FFFF then
      some (Char.ofNat n, 3)
    else none

/-- The runes of a text of which the first `skip` bytes are already spent. -/
def scan : Nat → Text → List Rune
  | _, [] => []
  | skip + 1, _ :: rest => scan skip rest
  | 0, b :: rest => ⟨(next b rest).1, b :: rest.take (next b rest).2⟩ :: scan (next b rest).2 rest

theorem scan_bytes (skip : Nat) (t : Text) : (scan skip t).flatMap bytes = t.drop skip := by
  induction t generalizing skip with
  | nil => cases skip <;> simp [scan]
  | cons b rest ih => cases skip <;> simp [scan, ih]

end Rune

namespace Text

def runes (t : Text) : List Rune := Rune.scan 0 t

/-- The runes of a text carry all its bytes, in order. -/
@[simp] theorem flatMap_bytes_runes (t : Text) : t.runes.flatMap Rune.bytes = t := by
  simp [runes, Rune.scan_bytes]

def ofChars (cs : List Char) : Text := cs.flatMap String.utf8EncodeChar

/-- White space, in ASCII and beyond. -/
def isSpace (c : Char) : Bool :=
  let n := c.toNat
  (9 ≤ n && n ≤ 13) || n = 32 || n = 0x85 || n = 0xA0 || n = 0x1680 || (0x2000 ≤ n && n ≤ 0x200A)
    || n = 0x2028 || n = 0x2029 || n = 0x202F || n = 0x205F || n = 0x3000

/-- Removes white space at both ends. -/
def trim (t : Text) : Text :=
  let inner := (t.runes.dropWhile fun r => isSpace r.char).reverse.dropWhile fun r => isSpace r.char
  inner.reverse.flatMap Rune.bytes

end Text

end DeclPieces
