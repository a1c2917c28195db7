import DeclPieces.Log.Value
import DeclPieces.Text.LowerCase

/-! Log records and the handlers that write them, one line a record. -/
namespace DeclPieces.Log

/-- The severity of a record. A handler writes the records at or above its own level. -/
abbrev Level := Int

namespace Level

def debug : Level := -4
def info : Level := 0
def warn : Level := 4
def error : Level := 8

/-- Above every level in use: a handler at this level writes nothing. -/
def silent : Level := 100

def name (level : Level) : Text :=
  if level < info then "debug"
  else if level < warn then "info"
  else if level < error then "warn"
  else "error"

/-- The level of that name, in any case; `info` for a name that is none. -/
def ofName (t : Text) : Level :=
  let known : List (Text × Level) :=
    [("debug", debug), ("info", info), ("warn", warn), ("warning", warn), ("error", error)]
  (known.lookup t.lower).getD info

/-- The level asked for on the command line: `fallback` unless it is said to be quiet or louder. -/
def ofVerbosity (verbosity : Int) (quiet : Bool) (fallback : Level) : Level :=
  if quiet then silent
  else if verbosity = 0 then fallback
  else if verbosity = 1 then info
  else debug

end Level

structure Record where
  level : Level
  message : Text
  attrs : List Attr := []
  /-- A second of universal time. -/
  time : Int := 0

/-- A record of the library itself. -/
def record (level : Level) (message : Text) (attrs : List Attr) : Record := { level, message, attrs }

/-- Writes the records at or above `level`, each with the attributes `attrs` set before. -/
structure Handler where
  level : Level := Level.info
  attrs : List Attr := []
  groups : List Text := []

namespace Handler

def enabled (h : Handler) (level : Level) : Bool := h.level ≤ level

/-- Puts the names of the open groups before the key, joined by dots. -/
def qualify (h : Handler) (attr : Attr) : Attr := (Text.joinWith "." (h.groups ++ [attr.1]), attr.2)

def withAttrs (h : Handler) (attrs : List Attr) : Handler :=
  { h with attrs := h.attrs ++ attrs.map h.qualify }

def withGroup (h : Handler) (name : Text) : Handler :=
  if name.isEmpty then h else { h with groups := h.groups ++ [name] }

def attrText (attr : Attr) : Text :=
  if attr.1.isEmpty then [] else " " ++ attr.1 ++ "=" ++ attr.2.render

/-- The line of a record, without its time. -/
def body (h : Handler) (r : Record) : Text :=
  let attrs := h.attrs ++ (r.attrs.filter fun a => !a.2.isEmptyGroup).map h.qualify
  let tail : Text := if attrs.isEmpty then [] else " |" ++ attrs.flatMap attrText
  "[" ++ r.level.name ++ "] " ++ r.message ++ tail

/-- What the handler writes for a record. -/
def line (h : Handler) (r : Record) : Text := instantText r.time ++ " " ++ h.body r ++ [Text.newline]

end Handler

/-- What takes records: it tells at which levels it is to be given them, and what it does with one. -/
class Receiver (H : Type) (Out : outParam Type) where
  enabled : H → Level → Bool
  handle : H → Record → Out
  withAttrs : H → List Attr → H
  withGroup : H → Text → H

instance : Receiver Handler Text := ⟨Handler.enabled, Handler.line, Handler.withAttrs, Handler.withGroup⟩

/-- Several receivers of the same records. -/
abbrev Tee (H : Type) := List H

namespace Tee
variable {H Out : Type} [Receiver H Out]

def enabled (t : Tee H) (level : Level) : Bool := t.any (Receiver.enabled · level)

/-- What each receiver does; those that are not enabled are not given the record. -/
def handle (t : Tee H) (r : Record) : List (Option Out) :=
  t.map fun h => if Receiver.enabled h r.level then some (Receiver.handle h r) else none

def withAttrs (t : Tee H) (attrs : List Attr) : Tee H := t.map (Receiver.withAttrs · attrs)

def withGroup (t : Tee H) (name : Text) : Tee H := t.map (Receiver.withGroup · name)

instance : Receiver (Tee H) (List (Option Out)) := ⟨enabled, handle, withAttrs, withGroup⟩

end Tee

/-- The lines, without their times, of the records that are written at `level`. -/
def bodies (level : Level) (records : List Record) : List Text :=
  (records.filter fun r => level ≤ r.level).map (Handler.body { level })

end DeclPieces.Log
