import DeclPieces.Text.LowerCase

/-! Slash-separated paths, handled lexically: no file system is consulted. -/
namespace DeclPieces

abbrev Path := Text

namespace Path

abbrev slash : UInt8 := 47

abbrev dot : Text := [46]

abbrev dotDot : Text := [46, 46]

def isAbs (p : Path) : Bool := p.head? = some slash

/-- Adds one more component to the ones already resolved (innermost first). Above the root `..`
stays at the root; a relative path keeps the climbs that nothing before them can undo. -/
def push (rooted : Bool) (done : List Text) (part : Text) : List Text :=
  if part.isEmpty || part = dot then done
  else if part = dotDot then
    match done with
    | [] => if rooted then [] else [dotDot]
    | last :: before => if last = dotDot then dotDot :: last :: before else before
  else part :: done

/-- The components of a path once empty ones, `.` and `..` are resolved. -/
def components (p : Path) : List Text :=
  ((Text.splitBy slash p).foldl (push p.isAbs) []).reverse

def ofComponents (rooted : Bool) (parts : List Text) : Path :=
  if rooted then slash :: Text.joinWith [slash] parts
  else if parts.isEmpty then dot
  else Text.joinWith [slash] parts

/-- The shortest path that names the same place. -/
def clean (p : Path) : Path := ofComponents p.isAbs p.components

/-- Joins the parts from the first non-empty one on. -/
def joinAll (parts : List Text) : Path :=
  match parts.dropWhile List.isEmpty with
  | [] => []
  | rest => clean (Text.joinWith [slash] rest)

def join (dir name : Text) : Path := joinAll [dir, name]

/-- Everything up to and including the last slash, cleaned. -/
def dir (p : Path) : Path := clean (p.reverse.dropWhile (· ≠ slash)).reverse

/-- The last component of the path as written. -/
def base (p : Path) : Text :=
  if p.isEmpty then dot
  else
    let trimmed := p.reverse.dropWhile (· = slash)
    if trimmed.isEmpty then [slash] else (trimmed.takeWhile (· ≠ slash)).reverse

/-- The part of the last component from its last dot on. -/
def ext (p : Path) : Text :=
  let tail := p.reverse.takeWhile (· ≠ slash)
  if tail.contains 46 then dot ++ (tail.takeWhile (· ≠ 46)).reverse else []

/-- Drops the components that two paths share at the front. -/
def stripShared : List Text → List Text → List Text × List Text
  | b :: bs, t :: ts => if b = t then stripShared bs ts else (b :: bs, t :: ts)
  | [], ts => ([], ts)
  | bs, [] => (bs, [])

/-- The path that leads from directory `source` to `target`, if one can be told from the two texts
alone: both are rooted or neither is, and no climb of unknown origin has to be undone. -/
def rel? (source target : Path) : Option Path :=
  if source.clean = target.clean then some dot
  else if source.isAbs ≠ target.isAbs then none
  else
    match stripShared source.components target.components with
    | ([], ts) => some (Text.joinWith [slash] ts)
    | (b :: bs, ts) =>
      -- out of a climb there is a way only to a climb: neither down to a name nor to where both start
      if b = dotDot && (!ts.isEmpty || target.components.isEmpty) then none
      else some (Text.joinWith [slash] ((b :: bs).map (fun _ => dotDot) ++ ts))

/-- Does a relative path climb out of the directory it starts from? -/
def climbs (p : Path) : Bool := p = dotDot || p.hasPrefix (dotDot ++ [slash])

/-- Does `p` lie lexically at or below `root`? -/
def within (p root : Path) : Bool :=
  match rel? root p with
  | none => false
  | some r => !climbs r

/-- Writes every backslash as a slash. -/
def normalize (p : Path) : Path := p.map fun b => if b = 92 then slash else b

/-- Appends a path written with either kind of slash to `root`. -/
def joinRoot (root p : Path) : Path := joinAll (root :: Text.splitBy slash p.normalize)

/-- Resolves `p` against `start` when it is relative. -/
def resolve (start p : Path) : Path := if p.isAbs then p.clean else join start p

end Path

end DeclPieces
