import DeclPieces.Fault

/-! Places that hold files. -/
namespace DeclPieces

/-- The outcome of reading what is at a path. -/
inductive Reading (α : Type) where
  | content (value : α)
  /-- There is nothing; `fault` says so. -/
  | missing (fault : Fault)
  | failed (fault : Fault)

/-- Whether a reading gives a certain content can be told without comparing faults. -/
instance Reading.decidableEqContent {α : Type} [DecidableEq α] (r : Reading α) (a : α) : Decidable (r = .content a) :=
  match r with
  | .content b => decidable_of_iff (b = a) (by simp)
  | .missing _ => .isFalse (by simp)
  | .failed _ => .isFalse (by simp)

/-- The content, if there is any. -/
def Reading.toExcept {α : Type} : Reading α → Except Fault α
  | content value => .ok value
  | missing fault => .error fault
  | failed fault => .error fault

/-- A member of a directory. -/
structure Listed where
  name : Text
  isDir : Bool
  size : Nat
  deriving DecidableEq, Repr

/-- A place that holds files: a refused change leaves it as it was. -/
class Storage (σ : Type) where
  read : σ → Path → Reading Text
  /-- The members of a directory, sorted by name. -/
  list : σ → Path → Reading (List Listed)
  /-- Creates a directory and those above it. -/
  makeDirs : σ → Path → Except Fault σ
  /-- Writes a file whose directory exists. -/
  write : σ → Path → Text → Except Fault σ
  /-- Removes a file. -/
  remove : σ → Path → Except Fault σ

end DeclPieces
