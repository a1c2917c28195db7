import DeclPieces.Calendar
import DeclPieces.CommandLine.Session

/-! The commands that only look: at a plan, at what became of pieces, and at settings. -/
namespace DeclPieces.CommandLine

open Console

/-- Prints a report in the form of that name. -/
def sayReport (form : Text) (r : Report) : Console Unit := do
  say (r.render (← ofExcept (Report.Form.ofName form)))

/-- The only operand. -/
def Arguments.operand (a : Arguments) : Text := a.operands.headD []

/-- A piece as a plan shows it. -/
def plannedPiece (dir : Path) (p : Piece) : PlannedPiece :=
  let shown : PlannedPiece := { path := (Path.rel? dir p.path).getD p.path, start := p.start, stop := p.stop }
  match p.role with
  | .generated _ => { shown with generated := true }
  | .package => { shown with package := true }
  | .declared symbol kind category references sideEffect =>
    { shown with symbol := symbol, kind := kind.name, category := category.name
                 imports := references.map CrossReference.clause, sideEffect := sideEffect }

def Session.planReport (s : Session) (p : Workspace.Plan) : PlanReport :=
  let d := p.decomposition
  { source := s.shown p.source, dir := s.shown d.dir, pieces := some (d.pieces.map (plannedPiece d.dir))
    skipped := d.skipped.map fun x => ⟨x.kind.name, x.start, x.reason⟩ }

def plan (a : Arguments) : Console Unit := do
  let s ← openSession a
  let p ← s.perform (s.workspace.plan ((← host).abs a.operand))
  sayReport (a.text "format" "human") (.plan (s.planReport p))

def Session.statusReport (s : Session) (x : Workspace.Status) : StatusReport :=
  let pieces := x.pieces.map fun p => (⟨s.shown p.path, p.state.name⟩ : PieceReport)
  { source := s.shown x.source, runId := x.runId, splitAt := instantText (x.splitAt.fdiv 1000000000)
    sourceChanged := x.sourceChanged, unchanged := x.count .unchanged, edited := x.count .edited
    missing := x.count .missing, pieces := if pieces.isEmpty then none else some pieces }

def status (a : Arguments) : Console Unit := do
  let s ← openSession a
  let x ← s.perform (s.workspace.status ((← host).abs a.operand))
  sayReport (a.text "format" "human") (.status (s.statusReport x))

def checkSettings (a : Arguments) : Console Unit := do
  let h ← host
  let path := a.operands.headD (Settings.filePath (projectRoot h a))
  let found ← ofExcept (Settings.check h.cwd path h.disk)
  say (found.unknown.flatMap fun k => Text.ofString "unknown key: " ++ k ++ [10])
  if let some p := found.problem then say ("invalid: " ++ p.message ++ "\n")
  if !found.isClean then
    fail (.coded Code.configInvalid (Text.ofNat found.count ++ " problem(s) found") path)
  say (path ++ ": ok\n")

def showSettings (a : Arguments) : Console Unit := do
  let h ← host
  let loaded ← ofExcept (loadSettings h (projectRoot h a))
  let form ← ofExcept (Report.Form.ofName (a.text "format" "yaml").lower)
  let source : Text := if loaded.file.isEmpty then "defaults" else loaded.file
  complain ("# source: " ++ source ++ "\n")
  say ((Report.settings loaded.settings).render form)

end DeclPieces.CommandLine
