import DeclPieces.Data
import DeclPieces.Number.Shortest
import DeclPieces.Text.Quoted

/-! Writing JSON, a member a line, each level indented by two blanks. -/
namespace DeclPieces.Json

/-- Numbers have an exponent below a millionth and from 10²¹ on. -/
def numberStyle : Decimal.Style := ⟨-6, 21, 1⟩

/-- Are the characters that a page or script could mistake for its own written as escapes? -/
def isGuarded (n : Nat) : Bool := n = 60 || n = 62 || n = 38 || n = 0x2028 || n = 0x2029

def escapeLetters : List (Nat × Char) := [(8, 'b'), (9, 't'), (10, 'n'), (12, 'f'), (13, 'r'), (34, '"'), (92, '\\')]

def stringRune (r : Rune) : Text :=
  let n := r.char.toNat
  let mark : Text := "\\u"
  match escapeLetters.lookup n with
  | some c => [92, Text.byte c]
  | none => if n < 32 || isGuarded n || r.invalid then mark ++ Text.hexPadded 4 n else r.bytes

def string (t : Text) : Text := 34 :: t.runes.flatMap stringRune ++ [34]

def margin (depth : Nat) : Text := 10 :: List.replicate (2 * depth) 32

/-- Lines between brackets; without lines the brackets stand together. -/
def enclose (opening closing : UInt8) (depth : Nat) (lines : List Text) : Text :=
  if lines.isEmpty then [opening, closing]
  else
    opening :: Text.joinWith [44] (lines.map fun l => margin (depth + 1) ++ l) ++ margin depth ++ [closing]

mutual
/-- The text of a value at a depth of nesting. -/
def renderAt (depth : Nat) : Data → Text
  | .null => "null"
  | .bool b => Text.ofBool b
  | .int i => Text.ofInt i
  | .float x => (Decimal.ofFloat x).render numberStyle
  | .text t | .moment t => string t
  | .list items => enclose 91 93 depth (itemLines (depth + 1) items)
  | .table members => enclose 123 125 depth (memberLines (depth + 1) members)

def itemLines (depth : Nat) : List Data → List Text
  | [] => []
  | d :: rest => renderAt depth d :: itemLines depth rest

def memberLines (depth : Nat) : List (Text × Data) → List Text
  | [] => []
  | (k, d) :: rest => (string k ++ ": " ++ renderAt depth d) :: memberLines depth rest
end

def render (d : Data) : Text := renderAt 0 d

end DeclPieces.Json
