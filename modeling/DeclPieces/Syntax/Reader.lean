import DeclPieces.Syntax.Token

/-! Readers turn tokens into syntax trees. A reader that fails leaves the tokens to the next choice. -/
namespace DeclPieces.Syntax

/-- A tree with the comments that stand before it. They belong to whatever the tree becomes part of. -/
structure Part where
  comments : List Tree
  tree : Tree

abbrev Reader := StateT (List Token) Option

/-- What a reader can be asked for by another. -/
inductive Goal where
  | statement
  | block
  /-- Expressions separated by commas. -/
  | sequence
  /-- An expression; a `plain` one does not start with an arrow function that states its result type. -/
  | expression (plain : Bool)
  /-- An operand with its prefix and suffix operators. -/
  | operand
  /-- An operand without type arguments, as it stands after `extends` and in decorators. -/
  | reference
  | pattern
  | parameters
  | typeParameters
  | type
  /-- A type that is not conditional. -/
  | simpleType
  | typeOperand
  | typeArguments
  | objectType
  | classTail
  | propertyName
  deriving DecidableEq, Repr

/-- How readers call one another. -/
abbrev Recur := Goal → Reader Part

namespace Part

def start (p : Part) : Nat := p.tree.start

def stop (p : Part) : Nat := p.tree.stop

def as (field : Field) (p : Part) : Part := { p with tree := p.tree.as field }

/-- The last offset of a list of parts. -/
def lastStop (first : Part) : List Part → Nat
  | [] => first.stop
  | next :: rest => lastStop next rest

/-- A node that holds `parts`. Comments between them become children, those before the first do not. -/
def node (label : Label) (first : Part) (rest : List Part) : Part :=
  { comments := first.comments
    tree := .node label none first.start (lastStop first rest)
      (first.tree :: rest.flatMap fun p => p.comments ++ [p.tree]) }

end Part

namespace Token

def leaf (label : Label) (t : Token) : Part := ⟨t.comments, .leaf label none t.start t.text⟩

/-- Is this the word or the punctuation `text`? -/
def is (t : Token) (text : Text) : Bool := (t.kind = .word || t.kind = .punctuation) && t.text = text

/-- Words that are not names. -/
def reserved : List Text := List.map Text.ofString
  ["break", "case", "catch", "class", "const", "continue", "debugger", "default", "delete", "do", "else", "enum",
    "export", "extends", "false", "finally", "for", "function", "if", "import", "in", "instanceof", "new", "null",
    "return", "super", "switch", "this", "throw", "true", "try", "typeof", "var", "void", "while", "with"]

def isName (t : Token) : Bool := t.kind = .word && !reserved.contains t.text

end Token

namespace Reader

def fail {α : Type} : Reader α := fun _ => none

/-- The token `n` places ahead. -/
def peekAt (n : Nat) : Reader Token := fun ts => (ts[n]?).map (·, ts)

def peek : Reader Token := peekAt 0

def isAt (n : Nat) (text : Text) : Reader Bool := fun ts => some (((ts[n]?).map (·.is text)).getD false, ts)

def is (text : Text) : Reader Bool := isAt 0 text

/-- The next token, if it satisfies `p`, as a leaf. -/
def leafIf (p : Token → Bool) (label : Label) : Reader Part := fun ts =>
  match ts with
  | t :: rest => if p t && t.kind ≠ .endOfText then some (t.leaf label, rest) else none
  | [] => none

def token (text : Text) : Reader Part := leafIf (·.is text) .token

def kind (k : Token.Kind) (label : Label) : Reader Part := leafIf (·.kind = k) label

/-- A name that is not reserved. -/
def name (label : Label) : Reader Part := leafIf Token.isName label

/-- Any word. -/
def word (label : Label) : Reader Part := kind .word label

def maybe (r : Reader Part) : Reader (List Part) := (return [← r]) <|> return []

def maybeToken (text : Text) : Reader (List Part) := maybe (token text)

/-- Repeats `r` while it succeeds, at most `fuel` times. -/
def repeated (r : Reader (List Part)) : Nat → Reader (List Part)
  | 0 => return []
  | fuel + 1 => fun ts =>
    match r ts with
    | none => some ([], ts)
    | some (first, rest) =>
      if ts.length ≤ rest.length then some (first, rest)
      else (repeated r fuel rest).map fun (more, rest) => (first ++ more, rest)

/-- Repeats `r` while it succeeds. -/
def many (r : Reader (List Part)) : Reader (List Part) := fun ts => repeated r ts.length ts

/-- Grows `p` by `r` while that succeeds, at most `fuel` times. -/
def grown (r : Part → Reader Part) (p : Part) : Nat → Reader Part
  | 0 => return p
  | fuel + 1 => fun ts =>
    match r p ts with
    | none => some (p, ts)
    | some (q, rest) => grown r q fuel rest

def grow (r : Part → Reader Part) (p : Part) : Reader Part := fun ts => grown r p ts.length ts

/-- Members separated by commas; one may be left out, and the last may be followed by a comma. -/
def commaList (member : Reader (List Part)) : Reader (List Part) := do
  let first ← member <|> return []
  let rest ← many do
    let comma ← token ","
    let next ← member <|> return []
    return comma :: next
  return first ++ rest

/-- Does a statement end before this token, with no semicolon needed? -/
def endsBefore (t : Token) : Bool := t.afterNewline || t.kind = .endOfText || t.is "\x7d"

/-- The comments that stand after a statement on its last line. They become part of it. -/
def trailing : Reader (List Part) := fun ts =>
  match ts with
  | [] => none
  | t :: rest =>
    if endsBefore t then
      some ((t.comments.take t.trailing).map fun c => ⟨[], c⟩,
        { t with comments := t.comments.drop t.trailing, trailing := 0 } :: rest)
    else none

/-- The end of a statement: a semicolon, or none where a line or a block ends. -/
def semicolon : Reader (List Part) := do
  if ← is ";" then return [← token ";"] else trailing

/-- The end of a statement that needs no semicolon. -/
def maybeTrailing : Reader (List Part) := trailing <|> return []

/-- Succeeds without a token of its own if a condition holds. -/
def guardThat (b : Bool) : Reader Unit := if b then return () else fail

/-- The tokens after the bracket that closes the one in front; `depth` counts the open ones. -/
def afterBracket : Nat → List Token → List Token
  | _, [] => []
  | depth, t :: rest =>
    let opens := t.is "(" || t.is "[" || t.is "\x7b" || t.is "$\x7b"
    let closes := t.is ")" || t.is "]" || t.is "\x7d"
    if opens then afterBracket (depth + 1) rest
    else if closes then (if depth ≤ 1 then rest else afterBracket (depth - 1) rest)
    else afterBracket depth rest

/-- Does `text` follow the bracketed group that starts at the next token? -/
def groupThen (text : Text) : Reader Bool := fun ts =>
  some ((((afterBracket 0 ts)[0]?).map (·.is text)).getD false, ts)

end Reader

end DeclPieces.Syntax
