import DeclPieces.Declaration

/-! Lexical scopes. Values and types are two worlds: a parameter does not hide an interface of its
name where a type is meant. -/
namespace DeclPieces.Syntax

/-- The world of names a binding belongs to. -/
inductive Meaning where
  | value
  | type
  | both
  deriving DecidableEq, Repr

/-- Does a binding of one meaning answer to a name used with another? -/
def Meaning.answers : Meaning → Meaning → Bool
  | .value, .type | .type, .value => false
  | _, _ => true

/-- A name bound inside a statement. -/
structure Binding where
  symbol : Symbol
  meaning : Meaning
  deriving DecidableEq, Repr

/-- The bindings of one scope, the latest first. Only the latest binding of a name counts. -/
abbrev Frame := List Binding

def Frame.find? (f : Frame) (name : Text) : Option Binding := List.find? (·.symbol.name = name) f

/-- What a name stands for: the symbol of that name at the top level, or one bound further in. -/
inductive Referent where
  | top (name : Text)
  | inner (symbol : Symbol)
  deriving DecidableEq, Repr

/-- The scopes around a place, innermost first, and the names of the top level. -/
structure Scope where
  frames : List Frame := []
  top : List Text := []

namespace Scope

/-- The scope with one frame more. -/
def push (s : Scope) (f : Frame) : Scope := { s with frames := f :: s.frames }

/-- The innermost binding of a name that has the wanted meaning. A binding without it does not stop
the search, but hides every earlier binding of its own frame. -/
def lookupIn (top : List Text) (name : Text) (want : Meaning) : List Frame → Option Referent
  | [] => if name ∈ top then some (.top name) else none
  | f :: rest =>
    match f.find? name with
    | some b => if b.meaning.answers want then some (.inner b.symbol) else lookupIn top name want rest
    | none => lookupIn top name want rest

def lookup (s : Scope) (name : Text) (want : Meaning) : Option Referent :=
  lookupIn s.top name want s.frames

end Scope

end DeclPieces.Syntax
