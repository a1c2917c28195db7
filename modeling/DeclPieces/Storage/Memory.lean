import DeclPieces.Storage

/-! Files kept in memory, with accesses that can be made to fail. -/
namespace DeclPieces

/-- A file or a directory. A directory has data of its own, which starts out empty. -/
structure Entry where
  isDir : Bool
  data : Text := []
  deriving DecidableEq, Repr

/-- The accesses that can be made to fail. -/
inductive Access where
  | opening
  | makingDirs
  | writing
  deriving DecidableEq, Repr

structure Memory where
  entries : List (Path × Entry) := [([Path.slash], { isDir := true })]
  broken : List (Access × Path) := []
  deriving DecidableEq, Repr

namespace Memory

/-- The name under which a path is stored. -/
def canonical (p : Path) : Path :=
  let c := Path.clean p
  if c = Path.dot || c = Path.dotDot then [Path.slash] else c

def get? (m : Memory) (p : Path) : Option Entry := m.entries.lookup (canonical p)

/-- Sets the entry of a path, in place if it has one. -/
def set (m : Memory) (p : Path) (e : Entry) : Memory :=
  let key := canonical p
  if (m.entries.lookup key).isSome then
    { m with entries := m.entries.map fun (q, old) => if q = key then (q, e) else (q, old) }
  else { m with entries := m.entries ++ [(key, e)] }

/-- The directories above a path, the nearest first. -/
def parents (p : Path) : Nat → List Path
  | 0 => []
  | fuel + 1 =>
    let up := canonical (Path.dir p)
    if up = p then [] else up :: parents up fuel

/-- Makes every directory above `p` one. -/
def register (m : Memory) (p : Path) : Memory :=
  let key := canonical p
  (parents key key.length).foldl (fun m dir =>
    match m.get? dir with
    | some e => m.set dir { e with isDir := true }
    | none => m.set dir { isDir := true }) m

def isBroken (m : Memory) (access : Access) (p : Path) : Bool := m.broken.contains (access, p)

def breakAccess (m : Memory) (access : Access) (p : Path) : Memory :=
  { m with broken := (access, p) :: m.broken }

/-- Writes a file, whatever is broken. -/
def put (m : Memory) (p : Path) (data : Text) : Memory :=
  match m.get? p with
  | some e => m.set p { e with data := data }
  | none => (m.set p { isDir := false, data := data }).register p

def mkdir (m : Memory) (p : Path) : Memory :=
  match m.get? p with
  | some _ => m
  | none => (m.set p { isDir := true }).register p

def remove (m : Memory) (p : Path) : Except Fault Memory :=
  match m.get? p with
  | some _ => .ok { m with entries := m.entries.filter (·.1 ≠ canonical p) }
  | none => .error (.access "remove" p .absent)

/-- The files below the root, sorted by path. -/
def files (m : Memory) : List (Path × Text) :=
  let found := (m.entries.filter fun (p, e) => Path.isAbs p && !e.isDir).map fun (p, e) => (p, e.data)
  found.stableSort fun a b => Text.le a.1 b.1

/-- The members of a directory: the entries directly below it. -/
def members (m : Memory) (p : Path) : List Listed :=
  let key := canonical p
  let below := m.entries.filter fun (q, _) => q ≠ key && canonical (Path.dir q) = key
  (below.map fun (q, e) => ⟨Path.base q, e.isDir, e.data.length⟩).stableSort fun a b => Text.le a.name b.name

instance : Storage Memory where
  read m p :=
    if m.isBroken .opening p then .failed (.access "open" p .inputOutput)
    else match m.get? p with
      | some e => .content e.data
      | none => .missing (.access "open" p .absent)
  list m p :=
    if m.isBroken .opening p then .failed (.access "open" p .inputOutput)
    else match m.get? p with
      | some e => if e.isDir then .content (m.members p) else .failed (.access "readdir" p .notDirectory)
      | none => .missing (.access "open" p .absent)
  makeDirs m p :=
    if m.isBroken .makingDirs p then .error (.access "mkdir" p .inputOutput) else .ok (m.mkdir p)
  write m p data :=
    if m.isBroken .writing p then .error (.access "open" p .inputOutput) else .ok (m.put p data)
  remove := Memory.remove

end Memory

end DeclPieces
