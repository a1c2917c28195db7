import DeclPieces.Path

/-! Faults: what can go wrong, with the text shown to the user. A fault is a tree, because one fault
may be caused by another and several may be reported together. -/
namespace DeclPieces

/-- A stable name for a kind of failure. -/
abbrev Code := Text

namespace Code

def sourceUnreadable : Code := "SOURCE_UNREADABLE"
def parseFailed : Code := "PARSE_FAILED"
def outsideRoot : Code := "OUTSIDE_ROOT"
def pieceWriteFailed : Code := "PIECE_WRITE_FAILED"
def pieceReadFailed : Code := "PIECE_READ_FAILED"
def locked : Code := "LOCKED"
def configInvalid : Code := "CONFIG_INVALID"
def backupMissing : Code := "BACKUP_MISSING"
def sourceChanged : Code := "SOURCE_CHANGED"
def noManifest : Code := "NO_MANIFEST"
def internalError : Code := "INTERNAL_ERROR"

end Code

/-- Why an access to a file failed. -/
inductive Obstacle where
  | noEntry
  | notDirectory
  | isDirectory
  | occupied
  | notEmpty
  | inputOutput
  | absent
  | nameTooLong
  deriving DecidableEq, Repr

def Obstacle.message : Obstacle → Text
  | noEntry => "no such file or directory"
  | notDirectory => "not a directory"
  | isDirectory => "is a directory"
  | occupied => "file exists"
  | notEmpty => "directory not empty"
  | inputOutput => "input/output error"
  | absent => "file does not exist"
  | nameTooLong => "file name too long"

inductive Fault where
  /-- A message without a code. -/
  | plain (text : Text)
  /-- A refused access to a file. -/
  | access (action : Text) (path : Path) (obstacle : Obstacle)
  /-- A setting that is not allowed. -/
  | setting (field reason : Text)
  /-- Puts a note before the fault that caused it. -/
  | note (text : Text) (cause : Fault)
  /-- Several faults reported together. -/
  | joined (faults : List Fault)
  /-- A fault with a code; `path` is empty when it concerns no file. -/
  | coded (code : Code) (text : Text) (path : Path)
  | caused (code : Code) (text : Text) (path : Path) (cause : Fault)

namespace Fault

def located (text : Text) (path : Path) : Text :=
  if path.isEmpty then text else path ++ ": " ++ text

def headline (code : Code) (text : Text) (path : Path) : Text :=
  "[" ++ code ++ "] " ++ located text path

mutual
/-- The text of a fault. Faults reported together take a line each. -/
def message : Fault → Text
  | plain text => text
  | access action path obstacle => action ++ " " ++ path ++ ": " ++ obstacle.message
  | setting field reason => "config error in field '" ++ field ++ "': " ++ reason
  | note text cause => text ++ ": " ++ cause.message
  | joined faults => messages faults
  | coded code text path => headline code text path
  | caused code text path cause => headline code text path ++ ": " ++ cause.message

def messages : List Fault → Text
  | [] => []
  | [fault] => fault.message
  | fault :: next :: rest => fault.message ++ [Text.newline] ++ messages (next :: rest)
end

/-- A fault with a code, as it is shown by itself. -/
structure Coded where
  code : Code
  text : Text
  path : Path
  deriving DecidableEq, Repr

mutual
/-- The coded faults of the tree, outermost first. -/
def codedFaults : Fault → List Coded
  | plain _ => []
  | access _ _ _ => []
  | setting _ _ => []
  | note _ cause => cause.codedFaults
  | joined faults => codedFaultsOfAll faults
  | coded code text path => [⟨code, text, path⟩]
  | caused code text path cause => ⟨code, text, path⟩ :: cause.codedFaults

def codedFaultsOfAll : List Fault → List Coded
  | [] => []
  | fault :: rest => fault.codedFaults ++ codedFaultsOfAll rest
end

mutual
/-- The outermost coded fault, the first one where several are reported together. -/
def firstCoded? : Fault → Option Coded
  | plain _ => none
  | access _ _ _ => none
  | setting _ _ => none
  | note _ cause => cause.firstCoded?
  | joined faults => firstCodedOfAll? faults
  | coded code text path => some ⟨code, text, path⟩
  | caused code text path _ => some ⟨code, text, path⟩

def firstCodedOfAll? : List Fault → Option Coded
  | [] => none
  | fault :: rest => fault.firstCoded?.or (firstCodedOfAll? rest)
end

/-- The code of the outermost coded fault, empty if there is none. -/
def code (fault : Fault) : Code := (fault.firstCoded?.map Coded.code).getD []

def hasCode (fault : Fault) (code : Code) : Bool := fault.code = code

mutual
/-- Does a rejected setting occur in the tree? -/
def rejectsSetting : Fault → Bool
  | plain _ => false
  | access _ _ _ => false
  | setting _ _ => true
  | note _ cause => cause.rejectsSetting
  | joined faults => anyRejectsSetting faults
  | coded _ _ _ => false
  | caused _ _ _ cause => cause.rejectsSetting

def anyRejectsSetting : List Fault → Bool
  | [] => false
  | fault :: rest => fault.rejectsSetting || anyRejectsSetting rest
end

/-- The fault that reports all of `faults`, if there are any. -/
def ofAll? : List Fault → Option Fault
  | [] => none
  | faults => some (joined faults)

end Fault

/-- How a computation ends early: with a fault, or because a range does not lie in the text it is cut from. -/
inductive Failure where
  | fault (fault : Fault)
  | outOfRange

/-- Whether a computation ends with a given result can be told without comparing failures. -/
instance decidableEqOk {ε α : Type} [DecidableEq α] (e : Except ε α) (a : α) : Decidable (e = .ok a) :=
  match e with
  | .ok b => decidable_of_iff (b = a) (by simp)
  | .error _ => .isFalse (by simp)

/-- The fault that is reported for a failure. -/
def Failure.toFault : Failure → Fault
  | fault e => e
  | outOfRange => .plain "range outside of the text"

end DeclPieces
