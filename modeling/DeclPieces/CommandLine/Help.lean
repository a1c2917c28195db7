import DeclPieces.CommandLine.Command

/-! What the program tells about its commands. -/
namespace DeclPieces.CommandLine

namespace Flag.Kind

/-- The word that stands for the argument of a flag. -/
def argument : Flag.Kind → Text
  | bool => ""
  | count => "count"
  | int => "int"
  | text => "string"

end Flag.Kind

/-- A flag as it is given. -/
def Flag.form (f : Flag) : Text :=
  let front : Text := match f.short with
    | some s => "  -" ++ [s] ++ ", --"
    | none => "      --"
  let argument := f.kind.argument
  front ++ f.name ++ if argument.isEmpty then [] else 32 :: argument

def Flag.explanation (f : Flag) : Text :=
  let initial : Text := " (default " ++ f.initial.quoted ++ ")"
  f.usage ++ if f.initial.isEmpty then [] else initial

/-- A line for each flag, the explanations one below the other. -/
def flagLines (fs : List Flag) : List Text :=
  let width := (fs.map fun f => f.form.length).foldl max 0
  fs.map fun f => f.form ++ List.replicate (width - f.form.length + 3) 32 ++ f.explanation

def padTo (width : Nat) (t : Text) : Text := t ++ List.replicate (width - t.length) 32

def commandLine (c : Command) : Text := "  " ++ padTo 11 c.name ++ " " ++ c.short

namespace Command

/-- How the command is called. -/
def useLine (c : Command) : Text :=
  c.fullName ++ (if c.operands.isEmpty then [] else 32 :: c.operands) ++ " [flags]"

/-- A titled paragraph, unless it has no lines. -/
def paragraph (title : Text) (ls : List Text) : Text :=
  if ls.isEmpty then [] else "\n\n" ++ title ++ ":\n" ++ Text.joinWith "\n" ls

def usage (c : Command) : Text :=
  let front : Text := "Usage:"
  let own : Text := if c.task.isSome then "\n  " ++ c.useLine else []
  let children := c.children.stableSort fun a b => Text.le a.name b.name
  let group : Text := if children.isEmpty then [] else "\n  " ++ c.fullName ++ " [command]"
  let more : Text := if children.isEmpty then []
    else "\n\nUse \"" ++ c.fullName ++ " [command] --help\" for more information about a command."
  front ++ own ++ group ++ paragraph "Available Commands" (children.map commandLine)
    ++ paragraph "Flags" (flagLines c.localFlags) ++ paragraph "Global Flags" (flagLines c.inheritedFlags) ++ more ++ "\n"

def help (c : Command) : Text :=
  (if c.long.isEmpty then c.short else c.long) ++ "\n\n" ++ c.usage

end Command

end DeclPieces.CommandLine
