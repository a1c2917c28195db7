import DeclPieces.Proofs.ManifestTables
import DeclPieces.Proofs.TextOrder

/-! The transaction that records a run. It adds a line for the run and one for each piece, in columns that may be empty,
and takes all of them back if one of them is refused. What is read afterwards is what was given. -/
namespace DeclPieces

namespace Text

/-- An empty text is kept as nothing. -/
def nullable (t : Text) : Option Text := if t.isEmpty then none else some t

lemma getD_nullable (t : Text) : t.nullable.getD [] = t := by
  unfold nullable
  split
  · next h => exact (List.isEmpty_iff.mp h).symm
  · rfl

end Text

namespace Manifest
variable {run : Run} {pieces : List RecordedPiece} {source : Text} {keep : Int}

/-- The columns of a line of the table of runs. -/
structure RunLine where
  number : Nat
  id : Text
  source : Text
  hash : Text
  dir : Text
  pieceCount : Int
  skippedCount : Int
  createdAt : Int64
  deriving DecidableEq, Repr

/-- The columns of a line of the table of pieces. -/
structure PieceLine where
  run : Text
  path : Text
  symbol : Option Text
  category : Option Text
  start : Int
  stop : Int
  hash : Text
  generated : Int
  deriving DecidableEq, Repr

def RunLine.ofRun (number : Nat) (r : Run) : RunLine :=
  ⟨number, r.id, r.source, r.hash, r.dir, r.pieceCount, r.skippedCount, Int64.ofInt r.createdAt⟩

def RunLine.row (l : RunLine) : Row :=
  ⟨l.number, ⟨l.id, l.source, l.hash, l.dir, l.pieceCount, l.skippedCount, l.createdAt.toInt⟩⟩

def PieceLine.ofPiece (run : Text) (p : RecordedPiece) : PieceLine :=
  ⟨run, p.path, p.symbol.nullable, p.category.nullable, p.start, p.stop, p.hash, if p.generated then 1 else 0⟩

def PieceLine.piece (l : PieceLine) : RecordedPiece :=
  ⟨l.run, l.path, l.symbol.getD [], l.category.getD [], l.start, l.stop, l.hash, l.generated = 1⟩

lemma RunLine.row_ofRun (number : Nat) (r : Run) : (RunLine.ofRun number r).row = ⟨number, r.stored⟩ := rfl

lemma PieceLine.piece_ofPiece (run : Text) (p : RecordedPiece) :
    (PieceLine.ofPiece run p).piece = { p with run := run } := by
  unfold ofPiece piece
  simp only [Text.getD_nullable]
  cases p.generated <;> rfl

/-- The lines of both tables. -/
structure Lines where
  runs : List RunLine := []
  pieces : List PieceLine := []
  deriving DecidableEq, Repr

/-- Changes the lines, or refuses to. -/
abbrev Statement := Lines → Except Fault Lines

namespace Lines
variable {lines lines' : Lines} {id : Text}

/-- What the columns say. -/
def tables (lines : Lines) : Tables := ⟨lines.runs.map RunLine.row, lines.pieces.map PieceLine.piece⟩

def manifest (lines : Lines) : Manifest := lines.tables.manifest

/-- Adds a line for a run, whose name is the key. -/
def insertRun (run : Run) : Statement := fun lines =>
  if lines.runs.any (·.id = run.id) then .error (.plain "failed to record split run")
  else .ok { lines with runs := lines.runs ++ [.ofRun lines.tables.nextNumber run] }

/-- Adds a line for a piece. The names of its run, which must be there, and its path are the key. -/
def insertPiece (run : Text) (p : RecordedPiece) : Statement := fun lines =>
  if (lines.pieces.any fun l => l.run = run ∧ l.path = p.path) || !lines.runs.any (·.id = run) then
    .error (.plain ("failed to record piece " ++ p.path))
  else .ok { lines with pieces := lines.pieces ++ [.ofPiece run p] }

def recordRun (run : Run) (pieces : List RecordedPiece) : List Statement :=
  insertRun run :: pieces.map (insertPiece run.id)

def deletePieces (source : Text) (keep : Int) : Statement := fun lines =>
  .ok { lines with pieces := lines.pieces.filter fun l => l.run ∉ lines.tables.stale source keep }

def deleteRuns (source : Text) (keep : Int) : Statement := fun lines =>
  .ok { lines with runs := lines.runs.filter fun l => l.id ∉ lines.tables.stale source keep }

def pruneRuns (source : Text) (keep : Int) : List Statement := [deletePieces source keep, deleteRuns source keep]

/-- Executes statements up to the first that is refused. What those before it did stays. -/
def execute : List Statement → Lines → Except Fault Unit × Lines
  | [], lines => (.ok (), lines)
  | statement :: rest, lines =>
    match statement lines with
    | .error fault => (.error fault, lines)
    | .ok lines => execute rest lines

/-- Executes statements in a transaction: all that was done is taken back if one is refused. -/
def transact (lines : Lines) (statements : List Statement) : Except Fault Unit × Lines :=
  match execute statements lines with
  | (.error fault, _) => (.error fault, lines)
  | (.ok (), lines) => (.ok (), lines)

/-- The pieces of a run, by path. -/
def piecesOf (lines : Lines) (run : Text) : List RecordedPiece :=
  ((lines.pieces.filter (·.run = run)).mergeSort fun a b => Text.le a.path b.path).map PieceLine.piece

def apply (lines : Lines) : Call → Lines
  | .record run pieces => (lines.transact (recordRun run pieces)).2
  | .prune source keep => (lines.transact (pruneRuns source keep)).2

def after (calls : List Call) : Lines := calls.foldl apply {}

lemma piecesOf_eq (lines : Lines) (id : Text) : lines.piecesOf id = lines.manifest.piecesOf id := by
  unfold manifest
  rw [← Tables.piecesOf_eq]
  unfold Tables.piecesOf piecesOf tables
  rw [List.filter_map]
  exact List.map_mergeSort fun _ _ _ _ => rfl

/-! What statements do to the tables. -/

lemma map_insertRun (run : Run) (lines : Lines) :
    (insertRun run lines).map tables = lines.tables.insertRun run := by
  have hany : lines.tables.rows.any (·.run.id = run.id) = lines.runs.any (·.id = run.id) := List.any_map
  unfold insertRun Tables.insertRun
  change _ = if lines.tables.rows.any (·.run.id = run.id) then _ else _
  rw [hany]
  split
  · rfl
  · simp [Except.map, tables, RunLine.row_ofRun]

/-- Once the line of the run is there, its pieces are taken as the tables take them. -/
lemma execute_insertPieces (hid : lines.runs.any (·.id = id)) :
    (execute (pieces.map (insertPiece id)) lines).1.map
        (fun _ => (execute (pieces.map (insertPiece id)) lines).2.tables) =
      lines.tables.insertPieces id pieces := by
  induction pieces generalizing lines with
  | nil => rfl
  | cons p rest ih =>
    have hany : (lines.tables.pieces.any fun q => q.run = id ∧ q.path = p.path) =
        lines.pieces.any fun l => l.run = id ∧ l.path = p.path := List.any_map
    unfold Tables.insertPieces
    rw [hany, List.map_cons]
    unfold execute insertPiece
    by_cases htaken : (lines.pieces.any fun l => l.run = id ∧ l.path = p.path) = true
    · simp only [htaken, hid, Bool.true_or, if_true]
      rfl
    · have hrest := @ih { lines with pieces := lines.pieces ++ [.ofPiece id p] } hid
      simp only [htaken, hid, Bool.false_or, Bool.not_true, Bool.false_eq_true, if_false]
      refine hrest.trans ?_
      simp [tables, PieceLine.piece_ofPiece]

lemma execute_recordRun (run : Run) (pieces : List RecordedPiece) (lines : Lines) :
    (execute (recordRun run pieces) lines).1.map (fun _ => (execute (recordRun run pieces) lines).2.tables) =
      lines.tables.record run pieces := by
  have hrun := map_insertRun run lines
  unfold recordRun execute Tables.record
  rw [← hrun]
  cases hinsert : insertRun run lines with
  | error fault => rfl
  | ok lines' =>
    have hid : lines'.runs.any (·.id = run.id) := by
      unfold insertRun at hinsert
      split at hinsert
      · cases hinsert
      · obtain rfl := Except.ok.inj hinsert
        simp [RunLine.ofRun]
    exact execute_insertPieces hid

/-- The lines after a transaction are those after all its statements, or those before it. -/
lemma map_transact (lines : Lines) (statements : List Statement) :
    (lines.transact statements).1.map (fun _ => (lines.transact statements).2.tables) =
      (execute statements lines).1.map fun _ => (execute statements lines).2.tables := by
  unfold transact
  generalize execute statements lines = outcome
  obtain ⟨result, lines'⟩ := outcome
  cases result <;> rfl

lemma transact_of_error {statements : List Statement} {fault : Fault}
    (h : (lines.transact statements).1 = .error fault) : (lines.transact statements).2 = lines := by
  unfold transact at h ⊢
  generalize execute statements lines = outcome at h ⊢
  obtain ⟨result, lines'⟩ := outcome
  cases result with
  | error fault => rfl
  | ok value => cases h

lemma transact_recordRun (run : Run) (pieces : List RecordedPiece) (lines : Lines) :
    (lines.transact (recordRun run pieces)).1.map (fun _ => (lines.transact (recordRun run pieces)).2.tables) =
      lines.tables.record run pieces :=
  (map_transact lines _).trans (execute_recordRun run pieces lines)

lemma map_deletePieces (source : Text) (keep : Int) (lines : Lines) :
    (deletePieces source keep lines).map tables = .ok (lines.tables.prunePieces source keep) := by
  unfold deletePieces Tables.prunePieces
  simp only [Except.map, tables, List.filter_map]
  rfl

lemma map_deleteRuns (source : Text) (keep : Int) (lines : Lines) :
    (deleteRuns source keep lines).map tables = .ok (lines.tables.pruneRuns source keep).1 := by
  unfold deleteRuns Tables.pruneRuns
  simp only [Except.map, tables, List.filter_map]
  rfl

/-- Both statements ask for the old runs, the second after the pieces are gone. -/
lemma transact_pruneRuns (source : Text) (keep : Int) (lines : Lines) :
    (lines.transact (pruneRuns source keep)).2.tables = (lines.tables.prune source keep).1 := by
  obtain ⟨lines₁, hpieces⟩ : ∃ lines₁, deletePieces source keep lines = .ok lines₁ := ⟨_, rfl⟩
  obtain ⟨lines₂, hruns⟩ : ∃ lines₂, deleteRuns source keep lines₁ = .ok lines₂ := ⟨_, rfl⟩
  have htables₁ := map_deletePieces source keep lines
  have htables₂ := map_deleteRuns source keep lines₁
  rw [hpieces] at htables₁
  rw [hruns, Except.ok.inj htables₁] at htables₂
  have hafter : (lines.transact (pruneRuns source keep)).2 = lines₂ := by
    simp [transact, pruneRuns, execute, hpieces, hruns]
  rw [hafter]
  exact Except.ok.inj htables₂

end Lines

namespace Lines
variable {lines : Lines}

lemma tables_apply (lines : Lines) (call : Call) : (lines.apply call).tables = lines.tables.apply call := by
  cases call with
  | record run pieces =>
    change _ = (lines.tables.record run pieces).toOption.getD lines.tables
    rw [← transact_recordRun]
    change (lines.transact (recordRun run pieces)).2.tables = _
    cases hresult : (lines.transact (recordRun run pieces)).1 with
    | error fault => exact congrArg tables (transact_of_error hresult)
    | ok value => rfl
  | prune source keep => exact transact_pruneRuns source keep lines

lemma tables_after (calls : List Call) : (after calls).tables = Tables.after calls :=
  (List.foldl_hom tables fun lines call => (tables_apply lines call).symm).symm

lemma sound_after (calls : List Call) :
    (after calls).tables.Sound ∧ (after calls).manifest = Manifest.after (calls.map Call.stored) := by
  unfold manifest
  rw [tables_after]
  exact Tables.sound_after _

end Lines

variable {m m' : Manifest}

/-- A run is refused if its name is taken or two pieces have one path, and for no other reason. -/
lemma record_eq_error_iff : (∃ fault, m.record run pieces = .error fault) ↔
    (∃ r ∈ m.runs, r.id = run.id) ∨ ¬ (pieces.map (·.path)).Nodup := by
  constructor
  · rintro ⟨fault, h⟩
    by_contra hnot
    obtain ⟨hid, hpaths⟩ := not_or.mp hnot
    obtain ⟨m', hrecord⟩ := record_of_fresh (fun r hr he => hid ⟨r, hr, he⟩) (not_not.mp hpaths)
    rw [hrecord] at h
    cases h
  · intro h
    cases hrecord : m.record run pieces with
    | error fault => exact ⟨fault, rfl⟩
    | ok m' =>
      obtain ⟨hid, hpaths, -, -⟩ := record_eq_ok hrecord
      rcases h with ⟨r, hr, he⟩ | hnot
      · exact absurd he (hid r hr)
      · exact absurd hpaths hnot

/-- The pieces of a new run are read in the order of their paths, no two of which are equal. -/
lemma Sound.pairwise_piecesOf_record (hs : m.Sound) (h : m.record run pieces = .ok m') :
    (m'.piecesOf run.id).Pairwise fun p q => Text.lt p.path q.path = true := by
  obtain ⟨-, hpaths, -, -⟩ := record_eq_ok h
  refine Text.pairwise_stableSort_lt RecordedPiece.path ?_
  have hperm := (List.stableSort_perm _ _).symm.trans (hs.piecesOf_record h)
  rw [hperm.pairwise_iff fun {p q} hne => hne.symm, List.pairwise_map]
  exact List.pairwise_map.mp hpaths

/-- A run has been added with its pieces, and nothing else has changed. -/
structure Recorded (lines : Lines) (run : Run) (pieces : List RecordedPiece) (lines' : Lines) : Prop where
  runs : lines'.manifest.runs = lines.manifest.runs ++ [run]
  pieces : (lines'.piecesOf run.id).Perm (pieces.map fun p => { p with run := run.id })
  ordered : (lines'.piecesOf run.id).Pairwise fun p q => Text.lt p.path q.path = true
  others : ∀ id, id ≠ run.id → lines'.piecesOf id = lines.piecesOf id

namespace Lines

/-- Whatever was recorded and dropped, a transaction that records a run is the one step of the manifest: it is refused
exactly if the name of the run is taken or two pieces have one path, and then no line is changed; otherwise the run and
its pieces are read as they were given. -/
theorem record_atomic (calls : List Call) (run : Run) (pieces : List RecordedPiece) (htime : run.Representable) :
    let lines := after calls
    let m := lines.manifest
    let outcome := lines.transact (recordRun run pieces)
    m = Manifest.after (calls.map Call.stored) ∧
      outcome.1.map (fun _ => outcome.2.manifest) = m.record run pieces ∧
      (outcome.1 ≠ .ok () ↔ (∃ r ∈ m.runs, r.id = run.id) ∨ ¬ (pieces.map (·.path)).Nodup) ∧
      (outcome.1 ≠ .ok () → outcome.2 = lines) ∧
      (outcome.1 = .ok () → Recorded lines run pieces outcome.2) := by
  obtain ⟨hs, hm⟩ := sound_after calls
  intro lines m outcome
  have hrecord : outcome.1.map (fun _ => outcome.2.manifest) = m.record run pieces := by
    have htables := congrArg (Except.map Tables.manifest) (transact_recordRun run pieces lines)
    rw [Tables.Sound.record hs, Run.stored_eq htime] at htables
    refine .trans ?_ htables
    change _ = (outcome.1.map _).map Tables.manifest
    cases outcome.1 <;> rfl
  refine ⟨hm, hrecord, ?_, ?_, ?_⟩
  · rw [← record_eq_error_iff, ← hrecord]
    cases outcome.1 with
    | error fault => simp [Except.map]
    | ok value => simp [Except.map]
  · intro hne
    cases hresult : outcome.1 with
    | error fault => exact transact_of_error hresult
    | ok value => exact absurd hresult hne
  · intro hok
    rw [hok] at hrecord
    have hrecorded : m.record run pieces = .ok outcome.2.manifest := hrecord.symm
    constructor
    · exact (record_eq_ok hrecorded).2.2.1
    · rw [piecesOf_eq]
      exact hs.manifest.piecesOf_record hrecorded
    · rw [piecesOf_eq]
      exact hs.manifest.pairwise_piecesOf_record hrecorded
    · intro id hne
      rw [piecesOf_eq, piecesOf_eq]
      exact piecesOf_record_of_ne hrecorded hne

/-- Two splits of one source, after which only the second is kept. -/
def earlierCalls : List Call := [
  .record ⟨"r1", "t/x.d.ts", "h1", "p/x", 1, 0, 1700000001000000000⟩ [⟨[], "p/x/a", "A", "types", 0, 8, "d1", false⟩],
  .record ⟨"r2", "t/x.d.ts", "h2", "p/x", 1, 0, 1700000002000000000⟩ [⟨[], "p/x/a", "A", "types", 0, 9, "d2", false⟩],
  .prune "t/x.d.ts" 1]

def laterRun : Run := ⟨"r1", "t/x.d.ts", "h3", "p/x", 2, 1, 1700000003000000000⟩

def indexPiece : RecordedPiece := ⟨[], "p/x/index.d.ts", [], [], 0, 0, "d3", true⟩

def classPiece : RecordedPiece := ⟨[], "p/x/classes/A.d.ts", "A", "classes", 10, 20, "d4", false⟩

/-- The name of a run that was dropped is free again. A path that comes twice is noticed after two pieces were added. -/
theorem record_atomic_later :
    laterRun.Representable ∧
      Recorded (after earlierCalls) laterRun [indexPiece, classPiece]
        ((after earlierCalls).transact (recordRun laterRun [indexPiece, classPiece])).2 ∧
      ((after earlierCalls).transact (recordRun laterRun [indexPiece, classPiece, indexPiece])).1 ≠ .ok () ∧
      ((after earlierCalls).transact (recordRun laterRun [indexPiece, classPiece, indexPiece])).2 =
        after earlierCalls := by
  have htime : laterRun.Representable := by decide
  obtain ⟨hm, -, htaken, -, hrecorded⟩ := record_atomic earlierCalls laterRun [indexPiece, classPiece] htime
  obtain ⟨-, -, hfails, hsame, -⟩ := record_atomic earlierCalls laterRun [indexPiece, classPiece, indexPiece] htime
  have hrefused := hfails.mpr (.inr (by decide))
  refine ⟨htime, hrecorded (not_not.mp (mt htaken.mp ?_)), hrefused, hsame hrefused⟩
  rw [hm]
  decide

/-- Before all is taken back, the run is there with the pieces before the one that is refused. -/
example : (execute (recordRun laterRun [indexPiece, classPiece, indexPiece]) {}).2.manifest =
    ⟨[laterRun], [{ indexPiece with run := "r1" }, { classPiece with run := "r1" }]⟩ := by decide +kernel

end Lines

end Manifest

end DeclPieces
