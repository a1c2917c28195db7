import DeclPieces.Data.Yaml.Scalar
import DeclPieces.Text.Letter
import DeclPieces.Number.Shortest

/-! Writing YAML in blocks, each level indented by two blanks. A text is quoted if it would read back
as anything else. -/
namespace DeclPieces.Yaml

/-- Line breaks, in ASCII and beyond. -/
def isBreakChar (c : Char) : Bool := [10, 13, 0x85, 0x2028, 0x2029].contains c.toNat

def isBlankChar (c : Char) : Bool := c = ' ' || c = '\t'

/-- Characters that may be written as they are. -/
def isPlainChar (c : Char) : Bool :=
  let n := c.toNat
  n = 10 || (0x20 ≤ n && n ≤ 0x7E) || (0xA0 ≤ n && n ≤ 0xFFFD && n ≠ 0xFEFF)

/-- Words that older editions read as truth values. -/
def oldBools : List Text :=
  List.map Text.ofString
    ["y", "Y", "yes", "Yes", "YES", "on", "On", "ON", "n", "N", "no", "No", "NO", "off", "Off", "OFF"]

/-- The groups of a number in base 60: a colon and one or two digits, the first of two below six. -/
def isBase60Tail : Nat → Text → Bool
  | 0, _ => false
  | fuel + 1, t => match t with
    | [] => true
    | 46 :: rest => rest.all fun b => Text.isDigit b || b = 95
    | 58 :: a :: b :: rest =>
      if Text.isDigit a && Text.isDigit b then a ≤ 53 && isBase60Tail fuel rest
      else Text.isDigit a && isBase60Tail fuel (b :: rest)
    | [58, a] => Text.isDigit a
    | _ => false

/-- Do older editions read the word as a number in base 60? -/
def isBase60 (t : Text) : Bool :=
  let digits := match t with
    | 43 :: rest | 45 :: rest => rest
    | t => t
  let tail := digits.dropWhile fun b => Text.isDigit b || b = 95
  digits.head?.any Text.isDigit && tail.head? = some 58 && isBase60Tail (tail.length + 1) tail

/-- Does the text read back as itself without quotes? -/
def readsBack (t : Text) : Bool :=
  (match scalar t with
    | .text _ => true
    | _ => false) && !oldBools.contains t && !isBase60 t

/-- What the characters of a text allow. -/
structure Shape where
  /-- May the text stand without quotes? -/
  plain : Bool
  singleQuoted : Bool
  /-- May it stand as a block of lines? -/
  block : Bool

/-- The facts about a text that decide how it may be written. -/
structure Survey where
  indicators : Bool := false
  special : Bool := false
  tabs : Bool := false
  breaks : Bool := false
  /-- A blank before a line break, and one after. -/
  blankBreak : Bool := false
  breakBlank : Bool := false

def firstIndicators : List Char :=
  ['#', ',', '[', ']', '\x7b', '\x7d', '&', '*', '!', '|', '>', '\'', '"', '%', '@', '\x60']

/-- Surveys a character between the one before and the one after. -/
def Survey.add (s : Survey) (before : Option Char) (c : Char) (after : Option Char) : Survey :=
  let followed := after.all fun d => isBlankChar d || isBreakChar d
  let preceded := before.all fun d => isBlankChar d || isBreakChar d
  let indicator := match before with
    | none => firstIndicators.contains c || ((c = '?' || c = ':' || c = '-') && followed)
    | some _ => (c = ':' && followed) || (c = '#' && preceded)
  { indicators := s.indicators || indicator
    special := s.special || (c ≠ '\t' && !isPlainChar c)
    tabs := s.tabs || c = '\t'
    breaks := s.breaks || isBreakChar c
    blankBreak := s.blankBreak || (isBreakChar c && before = some ' ')
    breakBlank := s.breakBlank || (c = ' ' && before.any isBreakChar) }

def survey (s : Survey) (before : Option Char) : List Char → Survey
  | [] => s
  | c :: rest => survey (s.add before c rest.head?) (some c) rest

def shape (t : Text) : Shape :=
  let cs := t.runes.map Rune.char
  let dashes := Text.hasPrefix t "---" || Text.hasPrefix t "..."
  let s := survey { indicators := dashes } none cs
  let edge (c : Option Char) : Bool := c.any fun d => d = ' ' || isBreakChar d
  let odd := s.blankBreak || s.tabs || s.special
  { plain := !(edge cs.head? || edge cs.getLast? || s.breakBlank || odd || s.breaks || s.indicators)
    singleQuoted := !(s.breakBlank || odd)
    block := !t.isEmpty && cs.getLast? ≠ some ' ' && !s.blankBreak && !s.special }

def escapes : List (Nat × Char) :=
  [(0, '0'), (7, 'a'), (8, 'b'), (9, 't'), (10, 'n'), (11, 'v'), (12, 'f'), (13, 'r'), (27, 'e'), (34, '"'), (92, '\\'),
    (0x85, 'N'), (0x2028, 'L'), (0x2029, 'P')]

def hexUpper (width n : Nat) : Text :=
  let digits := (Nat.toDigits 16 n).map fun c => Text.byte c.toUpper
  List.replicate (width - digits.length) 48 ++ digits

def doubleQuotedChar (c : Char) : Text :=
  let n := c.toNat
  if isPlainChar c && !isBreakChar c && c ≠ '"' && c ≠ '\\' then Text.ofChars [c]
  else match escapes.lookup n with
    | some e => [92, Text.byte e]
    | none =>
      if n ≤ 0xFF then 92 :: 120 :: hexUpper 2 n
      else if n ≤ 0xFFFF then 92 :: 117 :: hexUpper 4 n
      else 92 :: 85 :: hexUpper 8 n

def doubleQuoted (t : Text) : Text := 34 :: t.runes.flatMap (fun r => doubleQuotedChar r.char) ++ [34]

def margin (indent : Nat) : Text := List.replicate indent 32

/-- The runes with a margin at the start of each line that is not empty; `fresh` says if a line starts
here. -/
def indentLines (indent : Nat) : Bool → List Rune → List Rune
  | _, [] => []
  | fresh, r :: rest =>
    if isBreakChar r.char then r :: indentLines indent true rest
    else (if fresh then List.replicate indent ⟨' ', [32]⟩ else []) ++ r :: indentLines indent false rest

def singleQuoted (indent : Nat) (t : Text) : Text :=
  let body := (indentLines indent false t.runes).flatMap Rune.bytes
  39 :: body.flatMap (fun b => if b = 39 then [39, 39] else [b]) ++ [39]

/-- A text without line feeds; `indent` is that of the lines below it. -/
def inlineText (indent : Nat) (t : Text) : Text :=
  let s := shape t
  if !readsBack t then doubleQuoted t
  else if s.plain then t
  else if s.singleQuoted && !t.any (· = 10) then singleQuoted indent t
  else doubleQuoted t

/-- The mark of a block of lines: how it is indented if it starts with a blank, and how it ends. -/
def blockMark (t : Text) : Text :=
  let cs := t.runes.map Rune.char
  let lead : Text := if cs.head?.any fun c => c = ' ' || isBreakChar c then "|2" else "|"
  let ending : Text :=
    if !cs.getLast?.any isBreakChar then "-"
    else if cs.dropLast.getLast?.all isBreakChar then "+"
    else ""
  lead ++ ending

/-- The lines of a block, each indented unless it is empty. -/
def blockBody (indent : Nat) (t : Text) : Text :=
  let body : Text := if t.getLast? = some 10 then t.dropLast else t
  10 :: (indentLines indent true body.runes).flatMap Rune.bytes

/-- A text as a value; `indent` is that of the lines below it. -/
def textValue (indent : Nat) (t : Text) : Text :=
  if t.any (· = 10) then
    if (shape t).block then blockMark t ++ blockBody indent t else doubleQuoted t
  else inlineText indent t

/-- Does a key stand on one line with its colon? Keys of several lines or over 128 bytes do not. -/
def isShortKey (k : Text) : Bool := k.length ≤ 128 && !k.runes.any fun r => isBreakChar r.char

def floatText (x : Float) : Text :=
  if x.isNaN then ".nan"
  else if x.isInf then (if x < 0.0 then "-.inf" else ".inf")
  else (Decimal.ofFloat x).render Decimal.general

mutual
/-- A value after its key or dash; what does not fit there goes on the lines below, at `indent`.
`compact` says if the first member may stand right after a dash. -/
def valueText (compact : Bool) (indent : Nat) : Data → Text
  | .null => " null"
  | .bool b => 32 :: Text.ofBool b
  | .int i => 32 :: Text.ofInt i
  | .float x => 32 :: floatText x
  | .moment t => 32 :: t
  | .text t => 32 :: textValue indent t
  | .list [] => " []"
  | .table [] => " \x7b\x7d"
  | .list items => block compact indent (itemTexts indent items)
  | .table members => block compact indent (memberTexts indent members)

def itemTexts (indent : Nat) : List Data → List Text
  | [] => []
  | d :: rest => (45 :: valueText true (indent + 2) d) :: itemTexts indent rest

def memberTexts (indent : Nat) : List (Text × Data) → List Text
  | [] => []
  | (k, d) :: rest =>
    (if isShortKey k then inlineText (indent + 2) k ++ ":" ++ valueText false (indent + 2) d
      else "? " ++ textValue (indent + 2) k ++ 10 :: margin indent ++ ":" ++ valueText true (indent + 2) d)
      :: memberTexts indent rest

/-- The lines of a collection. -/
def block (compact : Bool) (indent : Nat) (lines : List Text) : Text :=
  let gap := 10 :: margin indent
  (if compact then [32] else gap) ++ Text.joinWith gap lines
end

/-- The text of a document. -/
def render : Data → Text
  | .text t => textValue 2 t ++ [10]
  | d => (valueText true 0 d).drop 1 ++ [10]

/-- The order of names: letters after other characters, and runs of digits by their value, as a word of
64 bits. -/
def nameLt (a b : Text) : Bool := go [] (a.runes.map Rune.char) (b.runes.map Rune.char)
where
  number (start : Int64) (cs : List Char) : Int64 × Nat :=
    let digits := cs.takeWhile Text.isDigitChar
    (digits.foldl (fun n c => 10 * n + Int64.ofNat (c.toNat - 48)) start, digits.length)
  go (before : List Char) : List Char → List Char → Bool
    | [], bs => !bs.isEmpty
    | _ :: _, [] => false
    | x :: as, y :: bs =>
      if x = y then go (x :: before) as bs
      else if Text.isLetterChar x && Text.isLetterChar y then x < y
      else if Text.isLetterChar x || Text.isLetterChar y then
        if before.head?.any Text.isDigitChar then Text.isLetterChar x else Text.isLetterChar y
      else
        let start := if (x = '0' || y = '0') && (before.takeWhile Text.isDigitChar).any (· ≠ '0') then 1 else 0
        let (n, i) := number start (x :: as)
        let (m, j) := number start (y :: bs)
        if n ≠ m then n < m
        else if i ≠ j then i < j
        else x < y

end DeclPieces.Yaml
