import DeclPieces.Text.Unprintable

/-! Quoted texts: one line, with everything that does not show written as an escape. -/
namespace DeclPieces.Text

/-- The hexadecimal digits of `n`, `width` of them. -/
def hexPadded (width n : Nat) : Text :=
  let digits := (Nat.toDigits 16 n).map byte
  List.replicate (width - digits.length) 48 ++ digits

/-- The letter of the escape of a control character, if it has one. -/
def escapeLetter? (n : Nat) : Option Char :=
  [(7, 'a'), (8, 'b'), (12, 'f'), (10, 'n'), (13, 'r'), (9, 't'), (11, 'v')].lookup n

def quotedRune (r : Rune) : Text :=
  let n := r.char.toNat
  let short : Text := "\\x"
  let middle : Text := "\\u"
  let long : Text := "\\U"
  if r.invalid then short ++ hexPadded 2 (r.bytes.headD 0).toNat
  else if n = 34 || n = 92 then 92 :: r.bytes
  else match escapeLetter? n with
    | some c => [92, byte c]
    | none =>
      if isPrintable n then r.bytes
      else if n < 0x80 then short ++ hexPadded 2 n
      else if n < 0x10000 then middle ++ hexPadded 4 n
      else long ++ hexPadded 8 n

/-- The text in double quotes. -/
def quoted (t : Text) : Text := 34 :: t.runes.flatMap quotedRune ++ [34]

end DeclPieces.Text
