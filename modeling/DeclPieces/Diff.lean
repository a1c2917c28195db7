import DeclPieces.Text

/-! Unified diffs of two texts. The longest run of common lines is taken first, then the longest ones
before and after it, and so on; lines that occur often in a long text start no run. -/
namespace DeclPieces.Diff

/-- The lines of a text, each with its end; the last line is given one. -/
def lines (t : Text) : List Text := (Text.splitBy Text.newline t).map (· ++ [Text.newline])

/-- A run of `size` common lines, at line `old` of one text and line `new` of the other. -/
structure Run where
  old : Nat
  new : Nat
  size : Nat
  deriving DecidableEq, Repr

/-- Two texts side by side. -/
structure Pair where
  old : Array Text
  new : Array Text
  /-- Where each old line occurs among the new ones, popular lines apart. -/
  places : Array (List Nat)

namespace Pair

/-- From this many lines on, popular lines start no run. -/
def popularFrom : Nat := 200

/-- Does a line occur so often among `count` lines that it starts no run? -/
def isPopular (count occurrences : Nat) : Bool := popularFrom ≤ count && count / 100 + 1 < occurrences

def of (old new : List Text) : Pair :=
  let indexed := new.zipIdx
  let placesOf (line : Text) : List Nat :=
    let found := (indexed.filter (·.1 = line)).map (·.2)
    if isPopular new.length found.length then [] else found
  { old := old.toArray, new := new.toArray, places := (old.map placesOf).toArray }

/-- A part of the two texts: old lines `[oldFrom, oldTo)` and new lines `[newFrom, newTo)`. -/
structure Window where
  oldFrom : Nat
  oldTo : Nat
  newFrom : Nat
  newTo : Nat

/-- The search for the longest run: the best one so far, and for each new line at which a run reaches
the last old line, its length. -/
structure Search where
  best : Run
  reaching : List (Nat × Nat) := []

/-- Looks at one more old line. -/
def Search.step (p : Pair) (w : Window) (s : Search) (i : Nat) : Search :=
  let hits := ((p.places[i]?).getD []).filter fun j => w.newFrom ≤ j && j < w.newTo
  hits.foldl (fun next j =>
    let size := (if j = 0 then 0 else (s.reaching.lookup (j - 1)).getD 0) + 1
    { best := if next.best.size < size then ⟨i + 1 - size, j + 1 - size, size⟩ else next.best
      reaching := next.reaching ++ [(j, size)] })
    { best := s.best }

def sameLine (p : Pair) (i j : Nat) : Bool :=
  match p.old[i]?, p.new[j]? with
  | some a, some b => a = b
  | _, _ => false

/-- How many lines before `i` and `j` are common, at most `room`. -/
def commonBefore (p : Pair) : Nat → Nat → Nat → Nat
  | 0, _, _ => 0
  | room + 1, i, j => if p.sameLine (i - 1) (j - 1) then p.commonBefore room (i - 1) (j - 1) + 1 else 0

/-- How many lines from `i` and `j` on are common, at most `room`. -/
def commonAfter (p : Pair) : Nat → Nat → Nat → Nat
  | 0, _, _ => 0
  | room + 1, i, j => if p.sameLine i j then p.commonAfter room (i + 1) (j + 1) + 1 else 0

/-- The longest run in a window, the first one of that length, grown at both ends by popular lines. -/
def longest (p : Pair) (w : Window) : Run :=
  let s := (List.range' w.oldFrom (w.oldTo - w.oldFrom)).foldl (Search.step p w) { best := ⟨w.oldFrom, w.newFrom, 0⟩ }
  let r := s.best
  let n := p.commonBefore (min (r.old - w.oldFrom) (r.new - w.newFrom)) r.old r.new
  let r : Run := ⟨r.old - n, r.new - n, r.size + n⟩
  let m := p.commonAfter (min (w.oldTo - (r.old + r.size)) (w.newTo - (r.new + r.size))) (r.old + r.size) (r.new + r.size)
  { r with size := r.size + m }

/-- The runs of a window, in order. -/
def runs (p : Pair) (w : Window) : List Run :=
  match p.longest w with
  | ⟨old, new, size⟩ =>
    if _h : 0 < size ∧ w.oldFrom ≤ old ∧ old + size ≤ w.oldTo then
      let before := if w.oldFrom < old ∧ w.newFrom < new then p.runs { w with oldTo := old, newTo := new } else []
      let after :=
        if old + size < w.oldTo ∧ new + size < w.newTo then
          p.runs { w with oldFrom := old + size, newFrom := new + size }
        else []
      before ++ ⟨old, new, size⟩ :: after
    else []
termination_by w.oldTo - w.oldFrom
decreasing_by
  all_goals omega

end Pair

/-- Joins runs that follow each other without a gap. -/
def joinRuns : List Run → List Run
  | [] => []
  | r :: rest =>
    match joinRuns rest with
    | [] => [r]
    | s :: more =>
      if r.old + r.size = s.old && r.new + r.size = s.new then ⟨r.old, r.new, r.size + s.size⟩ :: more
      else r :: s :: more

/-- A stretch of the two texts: the same lines in both, or old lines replaced by new ones. -/
structure Edit where
  isSame : Bool
  oldFrom : Nat
  oldTo : Nat
  newFrom : Nat
  newTo : Nat
  deriving DecidableEq, Repr

/-- The edits that lead from line `i` and `j` through the runs to the ends of the texts. -/
def editsFrom (oldEnd newEnd : Nat) (i j : Nat) : List Run → List Edit
  | [] => if i < oldEnd || j < newEnd then [⟨false, i, oldEnd, j, newEnd⟩] else []
  | r :: rest =>
    (if i < r.old || j < r.new then [⟨false, i, r.old, j, r.new⟩] else []) ++
      ⟨true, r.old, r.old + r.size, r.new, r.new + r.size⟩ ::
        editsFrom oldEnd newEnd (r.old + r.size) (r.new + r.size) rest

def edits (old new : List Text) : List Edit :=
  let p := Pair.of old new
  editsFrom old.length new.length 0 0 (joinRuns (p.runs ⟨0, old.length, 0, new.length⟩))

/-- The lines shown around a change. -/
def context : Nat := 3

def Edit.head (e : Edit) : Edit :=
  { e with oldTo := min e.oldTo (e.oldFrom + context), newTo := min e.newTo (e.newFrom + context) }

def Edit.tail (e : Edit) : Edit :=
  { e with oldFrom := max e.oldFrom (e.oldTo - context), newFrom := max e.newFrom (e.newTo - context) }

/-- Shortens a stretch of common lines at the very start and the very end. -/
def trimEnds (es : List Edit) : List Edit :=
  let front := match es with
    | e :: rest => (if e.isSame then e.tail else e) :: rest
    | [] => []
  match front.reverse with
  | e :: rest => ((if e.isSame then e.head else e) :: rest).reverse
  | [] => []

/-- Cuts the edits into hunks at long stretches of common lines; `open_` is the hunk being filled. -/
def hunksFrom (open_ : List Edit) : List Edit → List (List Edit)
  | [] => if open_.all (·.isSame) then [] else [open_]
  | e :: rest =>
    if e.isSame && e.oldFrom + 2 * context < e.oldTo then
      (open_ ++ [e.head]) :: hunksFrom [e.tail] rest
    else hunksFrom (open_ ++ [e]) rest

/-- The range of lines as it stands in the head of a hunk. -/
def rangeText (start stop : Nat) : Text :=
  if stop - start = 1 then Text.ofNat (start + 1)
  else if stop = start then Text.ofNat start ++ "," ++ Text.ofNat 0
  else Text.ofNat (start + 1) ++ "," ++ Text.ofNat (stop - start)

def marked (mark : Text) (ls : List Text) (start stop : Nat) : Text :=
  ((ls.take stop).drop start).flatMap (mark ++ ·)

def editText (old new : List Text) (e : Edit) : Text :=
  if e.isSame then marked " " old e.oldFrom e.oldTo
  else marked "-" old e.oldFrom e.oldTo ++ marked "+" new e.newFrom e.newTo

def hunkText (old new : List Text) (es : List Edit) : Text :=
  match es.head?, es.getLast? with
  | some first, some last =>
    "@@ -" ++ rangeText first.oldFrom last.oldTo ++ " +" ++ rangeText first.newFrom last.newTo ++ " @@\n" ++
      es.flatMap (editText old new)
  | _, _ => []

/-- The unified diff of two versions of the file `name`, empty if there is no difference. -/
def unified (name before after : Text) : Text :=
  let old := lines before
  let new := lines after
  match hunksFrom [] (trimEnds (edits old new)) with
  | [] => []
  | hunks => "--- a/" ++ name ++ "\n+++ b/" ++ name ++ "\n" ++ hunks.flatMap (hunkText old new)

end DeclPieces.Diff
