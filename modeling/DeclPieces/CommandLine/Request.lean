import DeclPieces.CommandLine.Help
import DeclPieces.Version

/-! From the words of a command line to what is asked for. -/
namespace DeclPieces.CommandLine

/-- Does the word before an operand take the operand as its argument? -/
def takesNext (fs : List Flag) (word : Text) : Bool :=
  if word.any (· = equals) then false
  else if isLong word then (longFlag? fs (word.drop 2)).all Flag.needsArgument
  else match word with
    | [_, letter] => (shortFlag? fs letter).all Flag.needsArgument
    | _ => false

/-- The first word that is neither a flag nor the argument of one, with its place. -/
def firstOperand? (fs : List Flag) : Nat → List Text → Option (Nat × Text)
  | _, [] => none
  | at_, [word] => if word.isEmpty || word.head? = some hyphen then none else some (at_, word)
  | at_, word :: next :: rest =>
    if word = [hyphen, hyphen] then none
    else if word.head? = some hyphen then
      if takesNext fs word then (if rest.isEmpty then none else firstOperand? fs (at_ + 2) rest)
      else firstOperand? fs (at_ + 1) (next :: rest)
    else if word.isEmpty then firstOperand? fs (at_ + 1) (next :: rest)
    else some (at_, word)

/-- The command that the words name, and the words left over; `fuel` bounds how deep it lies. -/
def resolve : Nat → Command → List Text → Command × List Text
  | 0, c, words => (c, words)
  | fuel + 1, c, words =>
    match firstOperand? c.declared 0 words with
    | none => (c, words)
    | some (at_, word) => match c.children.find? (·.name = word) with
      | some d => resolve fuel d (words.eraseIdx at_)
      | none => (c, words)

/-- One row of the table of edit distances, from the row above. -/
def nextRow (x : Char) : Nat → List Nat → List Char → List Nat
  | left, diagonal :: above :: row, y :: ys =>
    let here := min (min (left + 1) (above + 1)) (diagonal + if x = y then 0 else 1)
    here :: nextRow x here (above :: row) ys
  | _, _, _ => []

/-- How many characters must be added, dropped or changed to make one word the other. -/
def editDistance (a b : List Char) : Nat :=
  let last := a.foldl (fun row x => let left := row.headD 0 + 1; left :: nextRow x left row b) (List.range (b.length + 1))
  last.getLastD 0

def lowered (t : Text) : List Char := t.lower.runes.map Rune.char

/-- The commands that a mistyped word may stand for. -/
def suggestions (word : Text) : List Text :=
  (theProgram.children.filter fun c => c ≠ helpCommand &&
    (editDistance (lowered word) (lowered c.name) ≤ 2 || c.name.hasPrefix word.lower)).map Command.name

def unknownCommand (word : Text) (c : Command) (note : Text) : Fault :=
  .plain ("unknown command " ++ word.quoted ++ " for " ++ c.fullName.quoted ++ note)

/-- The note that lists what a mistyped word may stand for. -/
def suggestionNote (word : Text) : Text :=
  let names := suggestions word
  let question : Text := "\n\nDid you mean this?\n"
  if names.isEmpty then [] else question ++ names.flatMap fun n => 9 :: n ++ [10]

/-- Finds a command; the program itself takes no operands. -/
def findCommand (words : List Text) : Except Fault (Command × List Text) :=
  let (c, rest) := resolve (words.length + 1) theProgram words
  match firstOperand? c.declared 0 rest with
  | some (_, word) =>
    if c.isProgram then .error (unknownCommand word c (suggestionNote word)) else .ok (c, rest)
  | none => .ok (c, rest)

/-- Are there as many operands as the command takes? -/
def Arity.check (a : Arity) (c : Command) (operands : List Text) : Except Fault Unit :=
  let n := operands.length
  let received : Text := " arg(s), received " ++ Text.ofNat n
  match a with
  | .any => .ok ()
  | .none => match operands with
    | [] => .ok ()
    | word :: _ => .error (unknownCommand word c [])
  | .exactly k => if n = k then .ok () else .error (.plain ("accepts " ++ Text.ofNat k ++ received))
  | .atMost k => if n ≤ k then .ok () else .error (.plain ("accepts at most " ++ Text.ofNat k ++ received))

/-- What a command line asks for. -/
inductive Request where
  | help (c : Command)
  | version
  /-- Help about words that name no command. -/
  | unknownTopic (words : List Text)
  | run (task : Task) (a : Arguments)

/-- What the help command is to explain. -/
def topic (words : List Text) : Request :=
  match findCommand words with
  | .ok (c, _) => .help c
  | .error _ => .unknownTopic words

/-- Understands a command line. -/
def Request.ofWords (words : List Text) : Except Fault Request := do
  let (c, rest) ← findCommand words
  let a ← readArguments (c.localFlags ++ c.inheritedFlags) (rest.length + 1) {} rest
  if a.flag "help" then return .help c
  if a.flag "version" && c.isProgram then return .version
  match c.task with
  | none => return .help c
  | some task =>
    (c.arity.getD .any).check c a.operands
    if task = .explain then return topic a.operands
    return .run task a

/-- A word in the quotes that need no escapes, or else in double ones. -/
def backquoted (t : Text) : Text :=
  let fits := t.runes.all fun r => !r.invalid && r.char.toNat ≠ 96 && r.char.toNat ≠ 127 && r.char.toNat ≠ 0xFEFF
    && (32 ≤ r.char.toNat || r.char.toNat = 9)
  if fits then 96 :: t ++ [96] else t.quoted

def unknownTopicText (words : List Text) : Text :=
  "Unknown help topic [" ++ Text.joinWith " " (words.map backquoted) ++ "]\n" ++ theProgram.usage

end DeclPieces.CommandLine
