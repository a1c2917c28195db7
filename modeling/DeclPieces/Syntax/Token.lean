import DeclPieces.Syntax.Tree

/-! The tokens of a declaration file. Comments are kept with the token that follows them. -/
namespace DeclPieces.Syntax

inductive Token.Kind where
  | word
  | privateName
  | number
  | string
  | regex
  /-- The characters of a template between its substitutions. -/
  | chars
  | punctuation
  | hashBang
  | endOfText
  deriving DecidableEq, Repr

structure Token where
  kind : Token.Kind
  start : Nat
  text : Text
  /-- Does a line end between this token and the one before? -/
  afterNewline : Bool := false
  /-- The comments before the token. -/
  comments : List Tree := []
  /-- How many of these stand on the line of the token before. -/
  trailing : Nat := 0
  deriving Repr

namespace Token

def stop (t : Token) : Nat := t.start + t.text.length

/-- White space between tokens, invisible characters included. -/
def isBlank (c : Char) : Bool :=
  Text.isSpace c || c.toNat = 0xFEFF || c.toNat = 0x2060 || c.toNat = 0x200B

def isWordByte (b : UInt8) : Bool := Text.isLetter b || Text.isDigit b || b = 95 || b = 36

/-- The length of the white space at the front; `skip` bytes of a character are still to pass. -/
def blankLength : Nat → Text → Nat
  | _, [] => 0
  | skip + 1, _ :: rest => blankLength skip rest + 1
  | 0, b :: rest =>
    if isBlank (Rune.next b rest).1 then blankLength (Rune.next b rest).2 rest + 1 else 0

/-- The length of the word at the front. Every character outside ASCII that is no white space belongs to one. -/
def wordLength : Nat → Text → Nat
  | _, [] => 0
  | skip + 1, _ :: rest => wordLength skip rest + 1
  | 0, b :: rest =>
    if isWordByte b then wordLength 0 rest + 1
    else if 0x80 ≤ b && !isBlank (Rune.next b rest).1 then wordLength (Rune.next b rest).2 rest + 1
    else 0

def lineLength (t : Text) : Nat := (t.takeWhile (· ≠ Text.newline)).length

/-- The length of a comment that runs to the end of its line. -/
def lineCommentLength : Text → Nat
  | [] => 0
  | 0xe2 :: 0x80 :: 0xa8 :: _ | 0xe2 :: 0x80 :: 0xa9 :: _ => 0
  | b :: rest => if b = Text.newline || b = 13 then 0 else lineCommentLength rest + 1

/-- The length up to and including the end of a block comment. -/
def blockLength : Text → Nat
  | 42 :: 47 :: _ => 2
  | _ :: rest => blockLength rest + 1
  | [] => 0

/-- The length of a string up to and including the closing quote. -/
def stringLength (quote : UInt8) : Text → Nat
  | [] => 0
  | 92 :: _ :: rest => stringLength quote rest + 2
  | b :: rest => if b = quote then 1 else stringLength quote rest + 1

/-- The length of a number: letters and digits, one point, and the sign of an exponent. -/
def numberLength (point exponent afterMark : Bool) : Text → Nat
  | [] => 0
  | b :: rest =>
    if afterMark && (b = 43 || b = 45) then numberLength false false false rest + 1
    else if b = 46 then (if point then numberLength false exponent false rest + 1 else 0)
    else if isWordByte b then numberLength point exponent (exponent && (b = 101 || b = 69)) rest + 1
    else 0

/-- The length of a regular expression after its first slash, flags included. -/
def regexLength (inClass : Bool) : Text → Nat
  | [] => 0
  | 92 :: _ :: rest => regexLength inClass rest + 2
  | b :: rest =>
    if b = 47 && !inClass then (rest.takeWhile Text.isLetter).length + 1
    else if b = 91 then regexLength true rest + 1
    else if b = 93 then regexLength false rest + 1
    else regexLength inClass rest + 1

/-- The length of template characters up to a substitution or the closing mark. -/
def charsLength : Text → Nat
  | [] => 0
  | 92 :: _ :: rest => charsLength rest + 2
  | 96 :: _ => 0
  | 36 :: 123 :: _ => 0
  | _ :: rest => charsLength rest + 1

/-- The operators of more than one character, each before those it starts with. One that starts with
`>` is read character by character, because the brackets of type arguments may close together. -/
def operators : List Text :=
  ["...", "===", "!==", "<<=", "&&=", "||=", "??=", "**=", "=>", "==", "!=", "<=", "<<", "&&", "||", "??", "?.",
    "**", "++", "--", "+=", "-=", "*=", "/=", "%=", "&=", "|=", "^="]

def operatorLength (t : Text) : Nat :=
  match operators.find? t.hasPrefix with
  | some o => o.length
  | none => min 1 t.length

/-- Words after which a slash starts a regular expression. -/
def operatorWords : List Text :=
  ["return", "typeof", "case", "in", "of", "delete", "void", "instanceof", "new", "throw", "else", "do", "await",
    "yield"]

/-- Punctuation that ends an operand; a slash after it divides. -/
def operandEnds : List Text := [")", "]", "++", "--", [96]]

/-- Can a regular expression follow the token? -/
def beforeRegex : Option Token → Bool
  | none => true
  | some t =>
    match t.kind with
    | .punctuation => !operandEnds.contains t.text
    | .word => operatorWords.contains t.text
    | .hashBang => true
    | _ => false

/-- The kind and the length of the token at the front of a text that starts with none of white space
and comments. -/
def lexeme (previous : Option Token) (t : Text) : Token.Kind × Nat :=
  match t with
  | [] => (.endOfText, 0)
  | b :: rest =>
    if b = 34 || b = 39 then (.string, stringLength b rest + 1)
    else if Text.isDigit b then
      let exponent := !(Text.hasPrefix rest "x" || Text.hasPrefix rest "X")
      (.number, numberLength true exponent false t)
    else if b = 46 && (rest.head?.map Text.isDigit).getD false then (.number, numberLength false true false rest + 1)
    else if b = 35 then (.privateName, wordLength 0 rest + 1)
    else if b = 47 && beforeRegex previous then (.regex, regexLength false rest + 1)
    else if b = 96 then (.punctuation, 1)
    else
      let n := wordLength 0 t
      if 0 < n then (.word, n) else (.punctuation, operatorLength t)

end Token

/-- Where the scanner stands. -/
structure Scanner where
  rest : Text
  pos : Nat := 0
  previous : Option Token := none
  /-- For each substitution that is open, how many braces are open in it. -/
  braces : List Nat := []
  inTemplate : Bool := false
  newline : Bool := false
  /-- Has a line ended outside of comments since the last token? -/
  lineEnded : Bool := false
  comments : List Tree := []
  trailing : Nat := 0

namespace Scanner

def advance (s : Scanner) (n : Nat) : Scanner := { s with rest := s.rest.drop n, pos := s.pos + n }

/-- Passes a comment of `n` bytes. -/
def passComment (s : Scanner) (n : Nat) : Scanner :=
  let text := s.rest.take n
  { s.advance n with
    comments := s.comments ++ [.leaf .comment none s.pos text]
    newline := s.newline || text.contains Text.newline
    trailing := if s.lineEnded then s.trailing else s.trailing + 1 }

/-- Passes white space and comments; `fuel` bounds the number of steps. -/
def passBlank (s : Scanner) : Nat → Scanner
  | 0 => s
  | fuel + 1 =>
    match s.rest with
    | 47 :: 47 :: _ => (s.passComment (Token.lineCommentLength s.rest)).passBlank fuel
    | 47 :: 42 :: more => (s.passComment (Token.blockLength more + 2)).passBlank fuel
    | _ =>
      let n := Token.blankLength 0 s.rest
      if n = 0 then s
      else
        let ends := (s.rest.take n).contains Text.newline
        { s.advance n with newline := s.newline || ends, lineEnded := s.lineEnded || ends }.passBlank fuel

/-- Emits a token of `n` bytes. -/
def emit (s : Scanner) (kind : Token.Kind) (n : Nat) : Token × Scanner :=
  let token : Token :=
    { kind, start := s.pos, text := s.rest.take n, afterNewline := s.newline, comments := s.comments
      trailing := s.trailing }
  (token, { s.advance n with previous := some token, newline := false, lineEnded := false, comments := [], trailing := 0 })

/-- The token at the front, where characters of a template stand. -/
def nextInTemplate (s : Scanner) : Token × Scanner :=
  match s.rest with
  | 96 :: _ =>
    let (token, s) := s.emit .punctuation 1
    (token, { s with inTemplate := false })
  | 36 :: 123 :: _ =>
    let (token, s) := s.emit .punctuation 2
    (token, { s with inTemplate := false, braces := 0 :: s.braces })
  | _ => s.emit .chars (Token.charsLength s.rest)

/-- The token at the front, outside of template characters. -/
def nextInCode (s : Scanner) : Token × Scanner :=
  if s.pos = 0 && s.rest.hasPrefix "#!" then s.emit .hashBang (Token.lineLength s.rest)
  else
    let s := s.passBlank (s.rest.length + 1)
    let (kind, n) := Token.lexeme s.previous s.rest
    let (token, s) := s.emit kind n
    match token.kind, token.text, s.braces with
    | .punctuation, [96], _ => (token, { s with inTemplate := true })
    | .punctuation, [123], open_ :: outer => (token, { s with braces := (open_ + 1) :: outer })
    | .punctuation, [125], 0 :: outer => (token, { s with braces := outer, inTemplate := true })
    | .punctuation, [125], (open_ + 1) :: outer => (token, { s with braces := open_ :: outer })
    | _, _, _ => (token, s)

def next (s : Scanner) : Token × Scanner := if s.inTemplate then s.nextInTemplate else s.nextInCode

/-- The tokens up to the end of the text; `fuel` bounds their number. -/
def tokens (s : Scanner) : Nat → List Token
  | 0 => []
  | fuel + 1 =>
    let (token, s) := s.next
    if token.kind = .endOfText then [token]
    else if token.text.isEmpty then [{ token with kind := .endOfText }]
    else token :: s.tokens fuel

end Scanner

namespace Token

/-- The tokens of a text, the last of which marks its end. -/
def scan (t : Text) : List Token := Scanner.tokens { rest := t } (t.length + 1)

end Token

end DeclPieces.Syntax
