import DeclPieces.Path

/-! Events that wait for a quiet moment. Of several events on one path only the latest is kept, at the place of the
first. -/
namespace DeclPieces

namespace Event

inductive Kind where
  | create
  | modify
  | delete
  | rename
  | unknown
  deriving DecidableEq, Repr

namespace Kind

def name : Kind → Text
  | create => "create"
  | modify => "modify"
  | delete => "delete"
  | rename => "rename"
  | unknown => "unknown"

def ofNumber (n : Int) : Kind :=
  if n = 0 then create else if n = 1 then modify else if n = 2 then delete else if n = 3 then rename else unknown

end Kind

end Event

/-- What happened to a file, and when. `timestamp` counts nanoseconds of universal time. -/
structure Event where
  kind : Event.Kind
  path : Path
  timestamp : Int
  deriving DecidableEq, Repr

/-- The events that wait, in the order in which their paths first occurred. -/
abbrev Batch := List Event

namespace Batch

/-- Adds an event in place of an earlier one on its path, or at the end. -/
def add (e : Event) : Batch → Batch
  | [] => [e]
  | old :: rest => if old.path = e.path then e :: rest else old :: add e rest

def paths (b : Batch) : List Path := b.map Event.path

/-- The paths after an addition: a new one comes last. -/
theorem paths_add (e : Event) (b : Batch) :
    (b.add e).paths = if e.path ∈ b.paths then b.paths else b.paths ++ [e.path] := by
  induction b with
  | nil => simp [add, paths]
  | cons old rest ih =>
    unfold add
    split
    · next h => simp [paths, h]
    · next h =>
      have h' : e.path ≠ old.path := fun he => h he.symm
      simp only [paths, List.map_cons, List.mem_cons, h', false_or] at ih ⊢
      split <;> simp_all

/-- What is emitted when the moment comes: nothing if nothing waits. -/
def emitted (b : Batch) : List Batch := if b.isEmpty then [] else [b]

end Batch

/-- Events that wait, with the place in the batch at which the event of each path is. -/
structure Debouncer where
  events : Batch := []
  index : List (Path × Nat) := []
  deriving DecidableEq, Repr

namespace Debouncer

/-- Takes in an event, in place of an earlier one on its path. -/
def add (b : Debouncer) (e : Event) : Debouncer :=
  match b.index.lookup e.path with
  | some i => { b with events := b.events.set i e }
  | none => { events := b.events ++ [e], index := (e.path, b.events.length) :: b.index }

/-- How many events wait. -/
def length (b : Debouncer) : Nat := b.events.length

/-- Emits what waits, and what is left then. -/
def flush (b : Debouncer) : List Batch × Debouncer := (b.events.emitted, {})

/-- Drops what waits. -/
def cancel (_ : Debouncer) : Debouncer := {}

end Debouncer

end DeclPieces
