import DeclPieces.CommandLine.Watching

/-! Running a command line. -/
namespace DeclPieces.CommandLine

open Console

/-- Does what is asked for. What comes back goes on until the program is stopped. -/
def perform : Request → Console (Option Watching)
  | .help c => do
    say c.help
    return none
  | .version => do
    say ("dtsplit version " ++ ({} : Version).number ++ "\n")
    return none
  | .unknownTopic words => do
    complain (unknownTopicText words)
    return none
  | .run task a => do
    match task with
    | .split => split a
    | .merge => merge a
    | .plan => plan a
    | .status => status a
    | .restore => restore a
    | .watch => return some (← watch a)
    | .createSettings => createSettings a
    | .checkSettings => checkSettings a
    | .showSettings => showSettings a
    | .explain => say theProgram.help
    return none

/-- The files and directories that a command line may read or write, as far as the host is known. -/
def places (words : List Text) (h : Host) : List Path :=
  match Request.ofWords words with
  | .ok (.run _ a) =>
    let root := projectRoot h a
    let configured := match loadSettings h root with
      | .ok l =>
        let o := l.settings.options root
        let log := if l.settings.logFile.isEmpty then [] else [h.abs l.settings.logFile]
        [o.translatedRoot, o.piecesRoot] ++ l.settings.ambientFiles root ++ log
      | .error _ => []
    root :: a.operands.map h.abs ++ configured
  | _ => []

/-- Understands a command line and does what it asks for. -/
def start (words : List Text) : Console (Option Watching) := do
  perform (← ofExcept (Request.ofWords words))

/-- The screen when work ends, with the fault that ended it, and the exit status. -/
def finish {α : Type} : Except Failure α × Screen → Screen × Nat
  | (.ok _, s) => (s, 0)
  | (.error e, s) => ({ s with err := s.err ++ "Error: " ++ e.toFault.message ++ "\n" }, 1)

/-- Runs a command line to its end. While it watches, `rounds` of edits are made, each after the last
has been merged; then it is stopped. -/
def run (words : List Text) (rounds : List Watching.Edits) (h : Host) : Screen × Nat :=
  let work : Console Unit := do
    if let some x ← start words then discard (rounds.foldlM Watching.edit x)
  finish (work.run { host := h })

end DeclPieces.CommandLine
