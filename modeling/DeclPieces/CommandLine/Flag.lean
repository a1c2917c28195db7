import DeclPieces.Fault
import DeclPieces.Number.Literal
import DeclPieces.Text.Quoted

/-! Flags: what they look like on a command line, and what they are set to. -/
namespace DeclPieces.CommandLine

/-- What a flag holds. Only an `int` and a `text` need an argument. -/
inductive Flag.Kind where
  | bool
  /-- Grows by one each time it is given. -/
  | count
  | int
  | text
  deriving DecidableEq, Repr

structure Flag where
  name : Text
  /-- The letter that stands for the name. -/
  short : Option UInt8 := none
  kind : Flag.Kind
  usage : Text
  /-- What a text is set to when the flag is not given. -/
  initial : Text := []
  deriving DecidableEq, Repr

inductive Flag.Value where
  | bool (b : Bool)
  | int (i : Int)
  | text (t : Text)
  deriving DecidableEq, Repr

namespace Flag

def needsArgument (f : Flag) : Bool := f.kind = .int || f.kind = .text

/-- The fault of a flag whose argument is not understood. -/
def refusal (f : Flag) (argument reason : Text) : Fault :=
  let dashed : Text := "--" ++ f.name
  let shown : Text := match f.short with
    | some s => "-" ++ [s] ++ ", " ++ dashed
    | none => dashed
  .plain ("invalid argument " ++ argument.quoted ++ " for " ++ shown.quoted ++ " flag: " ++ reason)

/-- An integer, or why there is none. -/
def integer (t : Text) : Except Text Int :=
  let failed (why : Text) : Text := "strconv.ParseInt: parsing " ++ t.quoted ++ ": " ++ why
  match Number.integer? t with
  | none => .error (failed "invalid syntax")
  | some i => if Number.fits64 i then .ok i else .error (failed "value out of range")

def truth (t : Text) : Except Text Bool :=
  let known : List (Text × Bool) :=
    [("1", true), ("t", true), ("T", true), ("true", true), ("TRUE", true), ("True", true),
      ("0", false), ("f", false), ("F", false), ("false", false), ("FALSE", false), ("False", false)]
  match known.lookup t with
  | some b => .ok b
  | none => .error ("strconv.ParseBool: parsing " ++ t.quoted ++ ": invalid syntax")

/-- The value of a flag that is given with an argument. -/
def read (f : Flag) (argument : Text) : Except Fault Value :=
  let refused {α : Type} (r : Except Text α) : Except Fault α := r.mapError (f.refusal argument)
  match f.kind with
  | .bool => (refused (truth argument)).map .bool
  | .count | .int => (refused (integer argument)).map .int
  | .text => .ok (.text argument)

/-- The value of a flag that is given without an argument. -/
def bump (f : Flag) (before : Option Value) : Value :=
  match f.kind, before with
  | .count, some (.int n) => .int (n + 1)
  | .count, _ => .int 1
  | _, _ => .bool true

end Flag

/-- The flags that were given, and the other arguments. -/
structure Arguments where
  flags : List (Text × Flag.Value) := []
  operands : List Text := []
  deriving DecidableEq, Repr

namespace Arguments

def set (a : Arguments) (f : Flag) (v : Flag.Value) : Arguments :=
  { a with flags := (f.name, v) :: a.flags.filter (·.1 ≠ f.name) }

def add (a : Arguments) (t : Text) : Arguments := { a with operands := a.operands ++ [t] }

def flag (a : Arguments) (name : Text) : Bool := a.flags.lookup name = some (.bool true)

def number (a : Arguments) (name : Text) : Int :=
  match a.flags.lookup name with
  | some (.int i) => i
  | _ => 0

def text (a : Arguments) (name fallback : Text) : Text :=
  match a.flags.lookup name with
  | some (.text t) => t
  | _ => fallback

end Arguments

def hyphen : UInt8 := 45

def equals : UInt8 := 61

def isLong (t : Text) : Bool := Text.hasPrefix t [hyphen, hyphen]

def longFlag? (fs : List Flag) (name : Text) : Option Flag := fs.find? (·.name = name)

def shortFlag? (fs : List Flag) (letter : UInt8) : Option Flag := fs.find? (·.short = some letter)

/-- Splits at the first equals sign. -/
def splitEquals (t : Text) : Text × Option Text :=
  let name := t.takeWhile (· ≠ equals)
  (name, if name.length < t.length then some (t.drop (name.length + 1)) else none)

/-- A character in single quotes. -/
def quotedLetter (b : UInt8) : Text :=
  let shown := (Text.quoted (Text.ofChars [Char.ofNat b.toNat])).drop 1 |>.dropLast
  if b = 39 then "'\\''" else if b = 34 then "'\"'" else 39 :: shown ++ [39]

/-- Gives a flag; without an argument of its own it takes the next word if it needs one. -/
def give (a : Arguments) (f : Flag) (argument : Option Text) (rest : List Text) (missing : Text) :
    Except Fault (Arguments × List Text) :=
  match argument with
  | some t => (f.read t).map fun v => (a.set f v, rest)
  | none =>
    if !f.needsArgument then .ok (a.set f (f.bump (a.flags.lookup f.name)), rest)
    else match rest with
      | [] => .error (.plain ("flag needs an argument: " ++ missing))
      | t :: rest => (f.read t).map fun v => (a.set f v, rest)

/-- Reads a word such as `--name=value`. -/
def readLong (fs : List Flag) (a : Arguments) (word : Text) (rest : List Text) :
    Except Fault (Arguments × List Text) :=
  let body := word.drop 2
  if body.head? = some hyphen || body.head? = some equals then .error (.plain ("bad flag syntax: " ++ word))
  else
    let (name, argument) := splitEquals body
    match longFlag? fs name with
    | none => .error (.plain ("unknown flag: --" ++ name))
    | some f => give a f argument rest ("--" ++ name)

/-- Reads the letters of a word such as `-vq`. -/
def readShort (fs : List Flag) (a : Arguments) (letters : Text) (rest : List Text) :
    Except Fault (Arguments × List Text) :=
  match letters with
  | [] => .ok (a, rest)
  | b :: more =>
    let place : Text := quotedLetter b ++ " in -" ++ letters
    match shortFlag? fs b with
    | none => .error (.plain ("unknown shorthand flag: " ++ place))
    | some f =>
      match more with
      | 61 :: c :: value => give a f (some (c :: value)) rest place
      | _ =>
        if f.needsArgument then give a f (if more.isEmpty then none else some more) rest place
        else match give a f none rest place with
          | .ok (a, rest) => readShort fs a more rest
          | .error e => .error e

/-- Reads a command line; `fuel` bounds the number of words. After `--` no word is a flag. -/
def readArguments (fs : List Flag) : Nat → Arguments → List Text → Except Fault Arguments
  | 0, a, _ => .ok a
  | _, a, [] => .ok a
  | fuel + 1, a, word :: rest =>
    if word.head? ≠ some hyphen || word.length = 1 then readArguments fs fuel (a.add word) rest
    else if word = [hyphen, hyphen] then .ok { a with operands := a.operands ++ rest }
    else do
      let (a, rest) ← if isLong word then readLong fs a word rest else readShort fs a (word.drop 1) rest
      readArguments fs fuel a rest

end DeclPieces.CommandLine
