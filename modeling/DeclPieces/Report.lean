import DeclPieces.Data.Json.Render
import DeclPieces.Data.Yaml.Render
import DeclPieces.Fault
import DeclPieces.Settings

/-! What commands report, in the forms a user can ask for. -/
namespace DeclPieces

/-- A planned piece; its path is relative to the piece directory. -/
structure PlannedPiece where
  path : Path
  symbol : Text := []
  kind : Text := []
  category : Text := []
  start : Int := 0
  stop : Int := 0
  imports : List Text := []
  generated : Bool := false
  package : Bool := false
  sideEffect : Bool := false
  deriving DecidableEq, Repr

/-- A statement that a plan leaves out. -/
structure SkippedStatement where
  kind : Text
  start : Int
  reason : Text
  deriving DecidableEq, Repr

/-- How a source would be split. -/
structure PlanReport where
  source : Path
  dir : Path
  /-- Absent if nothing was planned. -/
  pieces : Option (List PlannedPiece)
  skipped : List SkippedStatement := []
  deriving DecidableEq, Repr

structure PieceReport where
  path : Path
  state : Text
  deriving DecidableEq, Repr

/-- How the pieces of a source stand against its last run. -/
structure StatusReport where
  source : Path
  runId : Text
  /-- When the source was split, in universal time. -/
  splitAt : Text
  sourceChanged : Bool
  unchanged : Int
  edited : Int
  missing : Int
  /-- Absent if the run wrote no piece. -/
  pieces : Option (List PieceReport)
  deriving DecidableEq, Repr

inductive Report where
  | plan (r : PlanReport)
  | status (r : StatusReport)
  | settings (s : Settings)
  /-- Any value; the members of its tables have no order of their own. -/
  | other (d : Data)

inductive Report.Form where
  | json
  | yaml
  | human
  deriving DecidableEq, Repr

namespace Report

/-- A list that may be absent: JSON then shows that, YAML an empty list. -/
def listData {α : Type} (form : Form) (f : α → Data) : Option (List α) → Data
  | some items => .list (items.map f)
  | none => if form = .yaml then .list [] else .null

def member (name : Text) (d : Data) : List (Text × Data) := [(name, d)]

/-- A member that is left out when it is empty. -/
def member? (name : Text) (isEmpty : Bool) (d : Data) : List (Text × Data) := if isEmpty then [] else [(name, d)]

def flag? (name : Text) (b : Bool) : List (Text × Data) := member? name (!b) (.bool b)

def text? (name t : Text) : List (Text × Data) := member? name t.isEmpty (.text t)

def plannedData (p : PlannedPiece) : Data :=
  .table <| member "path" (.text p.path) ++ text? "symbol" p.symbol ++ text? "kind" p.kind
    ++ text? "category" p.category ++ member "start" (.int p.start) ++ member "end" (.int p.stop)
    ++ member? "imports" p.imports.isEmpty (.list (p.imports.map .text)) ++ flag? "generated" p.generated
    ++ flag? "package" p.package ++ flag? "sideEffect" p.sideEffect

def skippedData (s : SkippedStatement) : Data :=
  .table [("kind", .text s.kind), ("start", .int s.start), ("reason", .text s.reason)]

def planData (form : Form) (r : PlanReport) : Data :=
  .table <| member "source" (.text r.source) ++ member "dir" (.text r.dir)
    ++ member "pieces" (listData form plannedData r.pieces)
    ++ member? "skipped" r.skipped.isEmpty (.list (r.skipped.map skippedData))

def statusData (form : Form) (r : StatusReport) : Data :=
  .table [("source", .text r.source), ("runId", .text r.runId), ("splitAt", .moment r.splitAt),
    ("sourceChanged", .bool r.sourceChanged), ("unchanged", .int r.unchanged), ("edited", .int r.edited),
    ("missing", .int r.missing),
    ("pieces", listData form (fun p => .table [("path", .text p.path), ("state", .text p.state)]) r.pieces)]

def settingData : Setting.Value → Data
  | .int i => .int i
  | .bool b => .bool b
  | .text t => .text t
  | .texts ts => .list (ts.map .text)

/-- The settings of a table, the top one if it has no name. -/
def sectionData (s : Settings) (name : Text) : List (Text × Data) :=
  (Setting.all.filter fun k => k.section_ = name).map fun k => (k.name, settingData (s.get k))

/-- All settings: the number of jobs stands before the log, the other tables follow the version. -/
def settingsData (s : Settings) : Data :=
  let tables := Setting.sections.map fun name => (name, Data.table (sectionData s name))
  .table ((sectionData s []).take 1 ++ tables.dropLast ++ (sectionData s []).drop 1 ++ tables.getLast?.toList)

mutual
/-- The value with the members of each table in the given order. -/
def ordered (le : Text → Text → Bool) : Data → Data
  | .list items => .list (orderedItems le items)
  | .table members => .table ((orderedMembers le members).stableSort fun a b => le a.1 b.1)
  | d => d

def orderedItems (le : Text → Text → Bool) : List Data → List Data
  | [] => []
  | d :: rest => ordered le d :: orderedItems le rest

def orderedMembers (le : Text → Text → Bool) : List (Text × Data) → List (Text × Data)
  | [] => []
  | (k, d) :: rest => (k, ordered le d) :: orderedMembers le rest
end

/-- The value that a report shows. -/
def data (form : Form) : Report → Data
  | plan r => planData form r
  | status r => statusData form r
  | settings s => settingsData s
  | other d => ordered (if form = .yaml then fun a b => !Yaml.nameLt b a else Text.le) d

def rangeText (start stop : Int) : Text := "[" ++ Text.ofInt start ++ "," ++ Text.ofInt stop ++ ")"

def plannedLine (p : PlannedPiece) : Text :=
  let front : Text := "  " ++ p.path
  if p.generated then front ++ " (generated)\n"
  else if p.package then front ++ " (file documentation) " ++ rangeText p.start p.stop ++ "\n"
  else
    let imports : Text := if p.imports.isEmpty then "" else " imports " ++ Text.joinWith ", " p.imports
    let effect : Text := if p.sideEffect then " (side effect)" else ""
    front ++ "  " ++ p.kind ++ " " ++ p.symbol ++ " " ++ rangeText p.start p.stop ++ imports ++ effect ++ "\n"

def skippedLine (s : SkippedStatement) : Text :=
  "  skipped " ++ s.kind ++ " at " ++ Text.ofInt s.start ++ " (" ++ s.reason ++ ")\n"

def planText (r : PlanReport) : Text :=
  r.source ++ " -> " ++ r.dir ++ "\n" ++ (r.pieces.getD []).flatMap plannedLine ++ r.skipped.flatMap skippedLine

/-- The text filled up with blanks to `width` characters. -/
def widened (width : Nat) (t : Text) : Text := t ++ List.replicate (width - t.runes.length) 32

def pieceLine (p : PieceReport) : Text :=
  if p.state = "unchanged" then [] else "  " ++ widened 9 p.state ++ " " ++ p.path ++ "\n"

def statusText (r : StatusReport) : Text :=
  let source : Text :=
    if r.sourceChanged then "  source changed since split\n" else "  source unchanged since split\n"
  r.source ++ " (run " ++ r.runId.take 8 ++ ")\n" ++ source ++ (r.pieces.getD []).flatMap pieceLine
    ++ "  " ++ Text.ofInt r.unchanged ++ " unchanged, " ++ Text.ofInt r.edited ++ " edited, "
    ++ Text.ofInt r.missing ++ " missing\n"

/-- The text of a report. Reports without a form for people are shown to them as JSON. -/
def render (form : Form) (r : Report) : Text :=
  let json := Json.render (r.data form) ++ [10]
  match form, r with
  | .yaml, _ => Yaml.render (r.data form)
  | .human, .plan r => planText r
  | .human, .status r => statusText r
  | _, _ => json

/-- The form of that name. -/
def Form.ofName (t : Text) : Except Fault Form :=
  let known : List (Text × Form) := [("json", .json), ("yaml", .yaml), ("human", .human)]
  match known.lookup t with
  | some f => .ok f
  | none => .error (.plain ("unsupported format: " ++ t))

end Report

end DeclPieces
