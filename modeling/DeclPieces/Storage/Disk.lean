import DeclPieces.Storage

/-! Files in a tree of directories. Accesses fail for the reasons a file system gives: something on
the way is missing or no directory, or what is there is of the wrong kind. -/
namespace DeclPieces

/-- What is at a path. -/
inductive Node where
  | file (data : Text)
  | directory
  deriving DecidableEq, Repr

/-- What is at each path below the root. Paths are absolute and clean, and what is above a path is a
directory. -/
structure Disk where
  nodes : List (Path × Node) := []
  deriving DecidableEq, Repr

namespace Disk

/-- The longest name a member of a directory can have. -/
def nameLimit : Nat := 255

def get? (d : Disk) (p : Path) : Option Node := d.nodes.lookup p

def set (d : Disk) (p : Path) (n : Node) : Disk :=
  if (d.get? p).isSome then
    { d with nodes := d.nodes.map fun (q, old) => if q = p then (q, n) else (q, old) }
  else { d with nodes := d.nodes ++ [(p, n)] }

/-- The name under which what is at a path is stored: its components, each after a slash. -/
def key (p : Path) : Path := p.components.flatMap (Path.slash :: ·)

/-- Follows components down from the directory `dir`, at which `node` is. -/
def follow (d : Disk) (dir : Path) (node : Node) : List Text → Except Obstacle Node
  | [] => .ok node
  | name :: rest =>
    match node with
    | .file _ => .error .notDirectory
    | .directory =>
      if nameLimit < name.length then .error .nameTooLong
      else
        let next := dir ++ Path.slash :: name
        match d.get? next with
        | some n => d.follow next n rest
        | none => .error .noEntry

/-- What is at a path, or why that cannot be told. -/
def look (d : Disk) (p : Path) : Except Obstacle Node := d.follow [] .directory p.components

/-- Follows the parts of a path as it is written, from the directory with the components `done`. What
stands before a part, also before `.` and `..`, must be a directory. -/
def walk (d : Disk) (done : List Text) : List Text → Except Obstacle Path
  | [] => .ok (Path.ofComponents true done)
  | part :: rest =>
    match d.follow [] .directory done with
    | .error o => .error o
    | .ok (.file _) => .error .notDirectory
    | .ok .directory =>
      if part.isEmpty || part = Path.dot then d.walk done rest
      else if part = Path.dotDot then d.walk done.dropLast rest
      else d.walk (done ++ [part]) rest

/-- The place that a path names for someone in the directory `cwd`. -/
def place (d : Disk) (cwd p : Path) : Except Obstacle Path :=
  if p.isEmpty then .error .noEntry
  else d.walk (if p.isAbs then [] else cwd.components) (Text.splitBy Path.slash p)

def isFile (d : Disk) (p : Path) : Bool :=
  match d.look p with
  | .ok (.file _) => true
  | _ => false

def isDir (d : Disk) (p : Path) : Bool :=
  match d.look p with
  | .ok .directory => true
  | _ => false

/-- An obstacle met while reading. -/
def refusal {α : Type} (action : Text) (p : Path) : Obstacle → Reading α
  | .noEntry => .missing (.access action p .noEntry)
  | o => .failed (.access action p o)

def read (d : Disk) (p : Path) : Reading Text :=
  match d.look p with
  | .ok (.file data) => .content data
  | .ok .directory => .failed (.access "read" p .isDirectory)
  | .error o => refusal "open" p o

/-- Does `q` lie directly in the directory `p`? Both are clean. -/
def isChildOf (p q : Path) : Bool := q ≠ p && Path.dir q = p

def members (d : Disk) (p : Path) : List Listed :=
  let below := d.nodes.filter fun (q, _) => isChildOf p.clean q
  let listed := below.map fun (q, n) => match n with
    | .file data => ⟨Path.base q, false, data.length⟩
    | .directory => ⟨Path.base q, true, 0⟩
  listed.stableSort fun a b => Text.le a.name b.name

def list (d : Disk) (p : Path) : Reading (List Listed) :=
  match d.look p with
  | .ok .directory => .content (d.members p)
  | .ok (.file _) => .failed (.access "readdirent" p .notDirectory)
  | .error o => refusal "open" p o

/-- Creates directories along components, from `dir` on. -/
def makeDirsFrom (d : Disk) (dir : Path) : List Text → Except Fault Disk
  | [] => .ok d
  | name :: rest =>
    let next := dir ++ Path.slash :: name
    if nameLimit < name.length then .error (.access "mkdir" next .nameTooLong)
    else match d.get? next with
      | some (.file _) => .error (.access "mkdir" next .notDirectory)
      | some .directory => d.makeDirsFrom next rest
      | none => (d.set next .directory).makeDirsFrom next rest

def makeDirs (d : Disk) (p : Path) : Except Fault Disk := d.makeDirsFrom [] p.components

/-- Writes a file, a new one only into a directory that exists. -/
def write (d : Disk) (p : Path) (data : Text) : Except Fault Disk :=
  match d.look p with
  | .ok .directory => .error (.access "open" p .isDirectory)
  | .ok (.file _) => .ok (d.set (key p) (.file data))
  | .error .noEntry =>
    match d.follow [] .directory p.components.dropLast with
    | .ok .directory => .ok (d.set (key p) (.file data))
    | .ok (.file _) => .error (.access "open" p .notDirectory)
    | .error o => .error (.access "open" p o)
  | .error o => .error (.access "open" p o)

/-- Writes a file, and the directories above it first. -/
def put (d : Disk) (p : Path) (data : Text) : Except Fault Disk := do
  (← d.makeDirs (Path.dir p)).write p data

/-- Removes a file or an empty directory. -/
def remove (d : Disk) (p : Path) : Except Fault Disk :=
  match d.look p with
  | .error o => .error (.access "remove" p o)
  | .ok .directory =>
    if (d.members p).isEmpty then .ok { d with nodes := d.nodes.filter (·.1 ≠ key p) }
    else .error (.access "remove" p .notEmpty)
  | .ok (.file _) => .ok { d with nodes := d.nodes.filter (·.1 ≠ key p) }

/-- Is `q` at or below `p`? Both are clean. -/
def isAtOrBelow (p q : Path) : Bool := q = p || q.hasPrefix (p ++ [Path.slash])

/-- Removes everything at and below a path. -/
def removeAll (d : Disk) (p : Path) : Disk :=
  { d with nodes := d.nodes.filter fun (q, _) => !isAtOrBelow p.clean q }

/-- The files at and below a path, sorted by path. -/
def filesBelow (d : Disk) (p : Path) : List (Path × Text) :=
  let files := d.nodes.filterMap fun (q, n) => match n with
    | .file data => if isAtOrBelow p.clean q then some (q, data) else none
    | .directory => none
  files.stableSort fun a b => Text.le a.1 b.1

/-- The directories below a path, sorted by path. -/
def dirsBelow (d : Disk) (p : Path) : List Path :=
  let dirs := d.nodes.filterMap fun (q, n) =>
    if n = .directory && q ≠ p.clean && isAtOrBelow p.clean q then some q else none
  Text.sort dirs

/-- How many names the longest path has. -/
def depth (d : Disk) : Nat := (d.nodes.map fun (q, _) => q.components.length).max?.getD 0

/-- The files below a directory. Its members are gone through by name, and those that are directories are entered if
`enters` admits them, down to a depth of `levels`. -/
def visit (d : Disk) (enters : Path → Bool) : (levels : Nat) → Path → List Path
  | 0, _ => []
  | levels + 1, dir => (d.members dir).flatMap fun m =>
    let p := Path.join dir m.name
    if !m.isDir then [p] else if enters p then d.visit enters levels p else []

instance : Storage Disk where
  read := Disk.read
  list := Disk.list
  makeDirs := Disk.makeDirs
  write := Disk.write
  remove := Disk.remove

end Disk

end DeclPieces
