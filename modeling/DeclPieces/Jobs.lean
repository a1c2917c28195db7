import DeclPieces.Fault

/-! Doing the same to many files. -/
namespace DeclPieces

/-- The outcome of running over many files. -/
structure RunOutcome where
  /-- How many files were taken up. -/
  calls : Nat
  /-- The faults of the files that failed, together. -/
  failure : Option Fault

namespace RunOutcome

def interrupted : Fault := .plain "context canceled"

/-- The faults of the files, in their order. -/
def faults {σ : Type} (run : Path → σ → Except Fault Unit × σ) : List Path → σ → List Fault × σ
  | [], s => ([], s)
  | p :: rest, s =>
    match run p s with
    | (.ok (), s) => faults run rest s
    | (.error e, s) =>
      let (more, s) := faults run rest s
      (e :: more, s)

end RunOutcome

/-- Runs over all files. A file that fails does not stop the others. Once cancelled, no file is taken
up, and each fails for that reason. -/
def runAll {σ : Type} (cancelled : Bool) (run : Path → σ → Except Fault Unit × σ) (files : List Path) (s : σ) :
    RunOutcome × σ :=
  if cancelled then (⟨0, Fault.ofAll? (files.map fun _ => RunOutcome.interrupted)⟩, s)
  else
    let (faults, s) := RunOutcome.faults run files s
    (⟨files.length, Fault.ofAll? faults⟩, s)

end DeclPieces
