import DeclPieces.Proofs.Planning

/-! What an operation does while it holds the lock. A split leaves the pieces that were edited, writes the others,
removes the files of the last run that it does not produce, and records what it did. A merge checks that the source
is as it was last split, and folds the pieces into it. -/
namespace DeclPieces

namespace Workspace
open Activity
variable {w : Workspace} {source path x : Path} {text : Text} {d : Decomposition} {plan : Plan} {p p' : Project}
  {recorded : List RecordedPiece} {disk disk' : Disk} {force : Bool} {run : Run} {kept : List Path} {q : Piece}

/-! Splits. -/

/-- The edited pieces that a split leaves. -/
def spared (w : Workspace) (plan : Plan) (force : Bool) (recorded : List RecordedPiece) (disk : Disk) : List Path :=
  if force then [] else w.editedPaths recorded disk plan

/-- The other pieces, which a split writes. -/
def remaining (w : Workspace) (plan : Plan) (force : Bool) (recorded : List RecordedPiece) (disk : Disk) :
    Decomposition :=
  { plan.decomposition with
    pieces := plan.decomposition.pieces.filter fun q => !(w.spared plan force recorded disk).contains q.path }

/-- Is the piece of a record among those of a decomposition? -/
def Produces (w : Workspace) (d : Decomposition) (r : RecordedPiece) : Prop := ∃ q ∈ d.pieces, w.key q.path = r.path

/-- From the first disk to the second, the recorded files that are no longer produced are removed unless they
were edited. -/
inductive Cleared (w : Workspace) (d : Decomposition) : List RecordedPiece → Disk → Disk → Prop
  | nil {disk : Disk} : Cleared w d [] disk disk
  | leave {r : RecordedPiece} {rest : List RecordedPiece} {disk disk' : Disk} (tail : Cleared w d rest disk disk') :
      Cleared w d (r :: rest) disk disk'
  | remove {r : RecordedPiece} {rest : List RecordedPiece} {disk disk₁ disk' : Disk} {data : Text}
      (gone : ¬ w.Produces d r) (read : disk.read (w.ofKey r.path) = .content data) (same : w.digest data = r.hash)
      (removed : disk.remove (w.ofKey r.path) = .ok disk₁) (tail : Cleared w d rest disk₁ disk') :
      Cleared w d (r :: rest) disk disk'

/-- No file appears or changes. -/
lemma Cleared.stored?_of_after (h : w.Cleared d recorded disk disk') {x : Path} {data : Text}
    (hs : disk'.stored? x = some data) : disk.stored? x = some data := by
  induction h with
  | nil => exact hs
  | leave _ ih => exact ih hs
  | remove _ hread _ hremove _ ih => exact Disk.stored?_remove hread hremove (ih hs)

/-- A file stays that no record has as it is, or that is still produced. -/
lemma Cleared.read (h : w.Cleared d recorded disk disk') {x : Path} {data : Text}
    (hx : ∀ r ∈ recorded, ¬ w.Produces d r → Disk.key x = Disk.key (w.ofKey r.path) → w.digest data ≠ r.hash)
    (hread : disk.read x = .content data) : disk'.read x = .content data := by
  induction h with
  | nil => exact hread
  | leave _ ih => exact ih (fun r hr => hx r (List.mem_cons_of_mem _ hr)) hread
  | @remove r rest disk disk₁ disk' data' hgone hthere hsame hremove _ ih =>
    refine ih (fun r hr => hx r (List.mem_cons_of_mem _ hr)) ?_
    have hother : Disk.key x ≠ Disk.key (w.ofKey r.path) := by
      intro hkey
      have hdata : disk.read x = .content data' := (Disk.read_congr hkey).mpr hthere
      obtain rfl : data = data' := Reading.content.inj (hread.symm.trans hdata)
      exact hx r (by simp) hgone hkey hsame
    exact Disk.read_remove hthere hremove hother hread

/-- What becomes of the recorded files, and which of them are told to be removed and which to be stale: of those that
are no longer produced and can be read, the edited ones are left and the others are removed. -/
inductive Swept (w : Workspace) (d : Decomposition) :
    List RecordedPiece → List Path → List Path → Disk → Disk → Prop
  | nil {disk : Disk} : Swept w d [] [] [] disk disk
  | pass {r : RecordedPiece} {rest : List RecordedPiece} {removed stale : List Path} {disk disk' : Disk}
      (stays : w.Produces d r ∨ ∀ data, disk.read (w.ofKey r.path) ≠ .content data)
      (tail : Swept w d rest removed stale disk disk') : Swept w d (r :: rest) removed stale disk disk'
  | stale {r : RecordedPiece} {rest : List RecordedPiece} {removed stale : List Path} {disk disk' : Disk} {data : Text}
      (gone : ¬ w.Produces d r) (read : disk.read (w.ofKey r.path) = .content data) (edited : w.digest data ≠ r.hash)
      (tail : Swept w d rest removed stale disk disk') :
      Swept w d (r :: rest) removed (w.ofKey r.path :: stale) disk disk'
  | remove {r : RecordedPiece} {rest : List RecordedPiece} {removed stale : List Path} {disk disk₁ disk' : Disk}
      {data : Text} (gone : ¬ w.Produces d r) (read : disk.read (w.ofKey r.path) = .content data)
      (same : w.digest data = r.hash) (removes : disk.remove (w.ofKey r.path) = .ok disk₁)
      (tail : Swept w d rest removed stale disk₁ disk') :
      Swept w d (r :: rest) (w.ofKey r.path :: removed) stale disk disk'

lemma Swept.cleared {removed stale : List Path} (h : w.Swept d recorded removed stale disk disk') :
    w.Cleared d recorded disk disk' := by
  induction h with
  | nil => exact .nil
  | pass _ _ ih => exact .leave ih
  | stale _ _ _ _ ih => exact .leave ih
  | remove hgone hread hsame hremoves _ ih => exact .remove hgone hread hsame hremoves ih

/-- A split result that tells some more files to be removed or stale. -/
def SplitResult.sweeping (result : SplitResult) (removed stale : List Path) : SplitResult :=
  { result with removed := result.removed ++ removed, stale := result.stale ++ stale }

lemma clearStale_sweeps (recorded : List RecordedPiece) (result : SplitResult) (p : Project) :
    Leads (w.clearStale d recorded result) p
      (fun p' => p'.database = p.database ∧ p'.ticks = p.ticks ∧
        ∃ front, front <+: recorded ∧ w.Cleared d front p.disk p'.disk)
      fun result' p' => ∃ removed stale, w.Swept d recorded removed stale p.disk p'.disk ∧
        result' = result.sweeping removed stale := by
  induction recorded generalizing p result with
  | nil =>
    exact leads_pure ⟨rfl, rfl, [], List.prefix_rfl, .nil⟩ ⟨[], [], .nil, by simp [SplitResult.sweeping]⟩
  | cons r rest ih =>
    -- what is left of the records, once the file of the first one is dealt with without a change
    have hleave (first : List Path) {p₀ : Project} (hdisk : p₀.disk = p.disk)
        (hdb : p₀.database = p.database ∧ p₀.ticks = p.ticks) {result' : SplitResult}
        (hresult : result' = result.sweeping [] first)
        (hfirst : ∀ removed stale disk', w.Swept d rest removed stale p.disk disk' →
          w.Swept d (r :: rest) removed (first ++ stale) p.disk disk') :
        Leads (w.clearStale d rest result') p₀
          (fun p' => p'.database = p.database ∧ p'.ticks = p.ticks ∧
            ∃ front, front <+: r :: rest ∧ w.Cleared d front p.disk p'.disk)
          fun result' p' => ∃ removed stale, w.Swept d (r :: rest) removed stale p.disk p'.disk ∧
            result' = result.sweeping removed stale := by
      refine (ih result' p₀).mono ?_ ?_
      · rintro p' ⟨hd, ht, front, hfront, hcleared⟩
        exact ⟨hd.trans hdb.1, ht.trans hdb.2, r :: front, by simpa using hfront, .leave (hdisk ▸ hcleared)⟩
      · rintro result'' p' - ⟨removed, stale, hswept, rfl⟩
        exact ⟨removed, first ++ stale, hfirst _ _ _ (hdisk ▸ hswept), by simp [hresult, SplitResult.sweeping]⟩
    unfold clearStale
    split
    · next hany =>
      have hproduced : w.Produces d r := by simpa [Produces] using hany
      exact hleave [] rfl ⟨rfl, rfl⟩ (by simp [SplitResult.sweeping]) fun _ _ _ h => .pass (.inl hproduced) h
    · next hany =>
      have hgone : ¬ w.Produces d r := by simpa [Produces] using hany
      simp only
      rw [leads_get_bind]
      split
      · next data hread =>
        split
        · next hedited =>
          refine leads_tell_bind.mpr ?_
          apply hleave [w.ofKey r.path]
          · rfl
          · exact ⟨rfl, rfl⟩
          · simp [SplitResult.sweeping]
          · exact fun _ _ _ h => .stale hgone hread hedited h
        · next hsame =>
          have hsame : w.digest data = r.hash := by simpa using hsame
          rw [leads_get_bind]
          split
          · exact leads_fail ⟨rfl, rfl, [], by simp, .nil⟩
          · next disk hremove =>
            refine leads_modify_bind.mpr ((ih _ _).mono ?_ ?_)
            · rintro p' ⟨hd, ht, front, hfront, hcleared⟩
              exact ⟨hd, ht, r :: front, by simpa using hfront, .remove hgone hread hsame hremove hcleared⟩
            · rintro _ p' - ⟨removed, stale, hswept, rfl⟩
              exact ⟨_, stale, .remove hgone hread hsame hremove hswept, by simp [SplitResult.sweeping]⟩
      · next hunread =>
        exact hleave [] rfl ⟨rfl, rfl⟩ (by simp [SplitResult.sweeping]) fun _ _ _ h => .pass (.inr hunread) h

lemma clearStale_clears (recorded : List RecordedPiece) (result : SplitResult) (p : Project) :
    Leads (w.clearStale d recorded result) p
      (fun p' => p'.database = p.database ∧ p'.ticks = p.ticks ∧
        ∃ front, front <+: recorded ∧ w.Cleared d front p.disk p'.disk)
      fun result' p' => w.Cleared d recorded p.disk p'.disk ∧ result'.kept = result.kept ∧
        result'.written = result.written :=
  (clearStale_sweeps recorded result p).mono (fun _ h => h) fun _ _ _ ⟨_, _, hswept, hresult⟩ =>
    ⟨hswept.cleared, by rw [hresult]; rfl, by rw [hresult]; rfl⟩

/-- The record of a split: a run of the source, dated now, with all its pieces, and old runs dropped. -/
structure Filed (w : Workspace) (plan : Plan) (p p' : Project) (run : Run) : Prop where
  source_eq : run.source = w.key plan.source
  hash_eq : run.hash = plan.hash
  createdAt_eq : run.createdAt = w.clock p.ticks
  database_eq : ∃ database,
    p.database.record run (plan.decomposition.pieces.map (w.toRecord run.id plan)) = .ok database ∧
      (p'.database = database ∨ ∃ n, database.prune run.source w.keepRuns = .ok (n, p'.database))
  ticks_eq : p'.ticks = p.ticks + 1

lemma recordRun_files (plan : Plan) (result : SplitResult) (p : Project) :
    Leads (w.recordRun plan result) p (fun p' => p'.disk = p.disk ∧ p'.ticks = p.ticks + 1)
      fun result' p' => ∃ run, result' = { result with runId := run.id } ∧ w.Filed plan p p' run := by
  unfold recordRun nextRunName now
  simp only [bind_assoc, pure_bind]
  rw [leads_get_bind, leads_set_bind, leads_get_bind, leads_set_bind, leads_get_bind]
  refine (leads_ofExcept _ _).bind ?_ ?_
  · rintro p' rfl
    exact ⟨rfl, rfl⟩
  · rintro database p' rfl hrecord
    rw [leads_modify_bind]
    split
    · rw [leads_get_bind]
      split
      · exact leads_tell_bind.mpr
          (leads_pure ⟨rfl, rfl⟩ ⟨_, rfl, rfl, rfl, rfl, ⟨database, hrecord, .inl rfl⟩, rfl⟩)
      · next pruned database' hprune =>
        have hfiled : ∃ database₀, p.database.record _ _ = .ok database₀ ∧
            (database' = database₀ ∨ ∃ n, database₀.prune _ w.keepRuns = .ok (n, database')) :=
          ⟨database, hrecord, .inr ⟨pruned, hprune⟩⟩
        rw [leads_modify_bind]
        split
        · exact leads_tell_bind.mpr (leads_pure ⟨rfl, rfl⟩ ⟨_, rfl, rfl, rfl, rfl, hfiled, rfl⟩)
        · exact leads_pure ⟨rfl, rfl⟩ ⟨_, rfl, rfl, rfl, rfl, hfiled, rfl⟩
    · exact leads_pure ⟨rfl, rfl⟩ ⟨_, rfl, rfl, rfl, rfl, ⟨database, hrecord, .inl rfl⟩, rfl⟩

/-- A split that cannot be recorded leaves the record as it was. -/
lemma recordRun_throws (plan : Plan) (result : SplitResult) (p : Project) :
    Throws (w.recordRun plan result) p fun p' => p'.database = p.database := by
  intro e he
  unfold recordRun nextRunName now at he ⊢
  simp only [bind_assoc, pure_bind, run_get_bind, run_set_bind] at he ⊢
  rw [run_bind, run_ofExcept] at he ⊢
  split at he
  · next database p₁ hok =>
    -- after the run is recorded nothing fails
    exfalso
    simp only [run_modify_bind] at he
    split at he
    · rw [run_get_bind] at he
      split at he
      · cases he
      · simp only [run_modify_bind] at he
        split at he <;> cases he
    · cases he
  · next e' p₁ herror =>
    obtain rfl := (Prod.mk.inj herror).2
    rfl

/-- The pieces of the last recorded run of a source. -/
def lastPieces (w : Workspace) (source : Path) (database : Database) : Except Fault (List RecordedPiece) := do
  if !w.records then return []
  match ← database.latest? (w.key source) with
  | none => return []
  | some run => database.piecesOf run.id

lemma recordedPieces_run (w : Workspace) (source : Path) (p : Project) :
    (w.recordedPieces source).run p = (SourceFile.lift (w.lastPieces source p.database), p) := by
  unfold recordedPieces lastPieces
  split
  · rfl
  · rw [run_get_bind]
    simp only [run_bind, run_ofExcept]
    cases p.database.latest? (w.key source) with
    | error e => rfl
    | ok run? =>
      cases run? with
      | none => rfl
      | some run => exact run_ofExcept _ p

lemma leads_recordedPieces_eq (w : Workspace) (source : Path) (p : Project) :
    Leads (w.recordedPieces source) p (· = p) fun recorded _ => w.lastPieces source p.database = .ok recorded := by
  unfold Leads
  rw [recordedPieces_run]
  refine ⟨rfl, fun recorded h => ?_⟩
  cases hl : w.lastPieces source p.database with
  | error e => simp [hl, SourceFile.lift] at h
  | ok recorded' => simpa [hl, SourceFile.lift] using h

lemma leads_writeAll_eq (d : Decomposition) (text : Text) (p : Project) :
    Leads (writeAll d text) p
      (fun p' => p'.disk = (writePieces text d.pieces p.disk).2 ∧ p'.database = p.database ∧ p'.ticks = p.ticks)
      fun _ p' => writePieces text d.pieces p.disk = (.ok [], p'.disk) := by
  have hdisk := d.write_snd text p.disk
  unfold writeAll
  rw [leads_get_bind, leads_set_bind]
  split
  · next hok =>
    refine leads_pure ⟨hdisk, rfl, rfl⟩ ?_
    exact Decomposition.write_eq_ok (Prod.ext hok rfl)
  · exact leads_throw ⟨hdisk, rfl, rfl⟩

/-- What a split does that is carried out. The pieces it leaves are found with the pieces of the last run and the
files as they are; the others are written, which gives `disk`; files of the last run are removed; and the run is
recorded. -/
structure Performed (w : Workspace) (plan : Plan) (force : Bool) (p p' : Project) (recorded : List RecordedPiece)
    (disk : Disk) (run : Run) (kept : List Path) : Prop where
  recorded_eq : w.lastPieces plan.source p.database = .ok recorded
  written : writePieces plan.text (w.remaining plan force recorded p.disk).pieces p.disk = (.ok [], disk)
  cleared : w.Cleared plan.decomposition recorded disk p'.disk
  filed : w.Filed plan p p' run
  kept_eq : kept =
    (plan.decomposition.pieces.filter fun q => (w.spared plan force recorded p.disk).contains q.path).map (·.path)

/-- What a split tells that is carried out: its run, how many pieces it wrote, and which edited ones it kept, each of
which it could have written. -/
structure Reported (w : Workspace) (plan : Plan) (force : Bool) (p p' : Project) (recorded : List RecordedPiece)
    (disk : Disk) (run : Run) (result : SplitResult) : Prop where
  performed : w.Performed plan force p p' recorded disk run result.kept
  runId_eq : result.runId = run.id
  written_eq : result.written = (w.remaining plan force recorded p.disk).pieces.length
  rendered : ∀ q ∈ plan.decomposition.pieces, q.path ∈ w.spared plan force recorded p.disk →
    ∃ data, q.render? plan.text = some data

/-- A file that a split leaves: it writes nothing else there, and no record that it clears has the file as it is. -/
structure Leaves (w : Workspace) (plan : Plan) (force : Bool) (p : Project) (x : Path) (data : Text) : Prop where
  written : ∀ recorded, w.lastPieces plan.source p.database = .ok recorded →
    ∀ q ∈ (w.remaining plan force recorded p.disk).pieces, Disk.key x = Disk.key q.path → q.render? plan.text = some data
  removed : ∀ recorded, w.lastPieces plan.source p.database = .ok recorded → ∀ r ∈ recorded,
    ¬ w.Produces plan.decomposition r → Disk.key x = Disk.key (w.ofKey r.path) → w.digest data ≠ r.hash

section Splits
variable (hrecords : w.records = true)
include hrecords

/-- Whatever becomes of it, a split leaves such files, and the clock does not go back. If it gives a result, it is
carried out as it tells, and clears the files of the last run as it tells. -/
lemma splitPlan_sweeps (plan : Plan) (force : Bool) (p : Project) :
    Leads (w.splitPlan plan force) p
      (fun p' => p.ticks ≤ p'.ticks ∧
        ∀ x data, w.Leaves plan force p x data → p.disk.read x = .content data → p'.disk.read x = .content data)
      fun result p' => ∃ recorded disk run, w.Reported plan force p p' recorded disk run result ∧
        w.Swept plan.decomposition recorded result.removed result.stale disk p'.disk := by
  unfold splitPlan
  refine (w.leads_recordedPieces_eq plan.source p).bind ?_ ?_
  · rintro p' rfl
    exact ⟨le_rfl, fun _ _ _ hs => hs⟩
  · rintro recorded p₀ rfl hrecorded
    rw [leads_get_bind]
    refine (leads_checkEdited plan _ p₀).bind ?_ ?_
    · rintro p' rfl
      exact ⟨le_rfl, fun _ _ _ hs => hs⟩
    rintro - p' rfl hrendered
    rw [leads_tell_bind]
    simp only [pure_bind]
    have hwritten {disk : Disk} (hdisk : disk = (writePieces plan.text
          (w.remaining plan force recorded p'.disk).pieces p'.disk).2) (x : Path) (data : Text)
        (hx : w.Leaves plan force p' x data) (hs : p'.disk.read x = .content data) : disk.read x = .content data := by
      rw [hdisk]
      exact Disk.read_writePieces (hx.written recorded hrecorded) hs
    refine (leads_writeAll_eq (w.remaining plan force recorded p'.disk) plan.text _).bind ?_ ?_
    · rintro p₁ ⟨hdisk, -, hticks⟩
      exact ⟨hticks.ge, hwritten hdisk⟩
    · rintro - p₁ ⟨hdisk, hdb, hticks⟩ hok
      rw [if_pos hrecords]
      have hcleared {front : List RecordedPiece} (hfront : front <+: recorded) {disk : Disk}
          (h : w.Cleared plan.decomposition front p₁.disk disk) (x : Path) (data : Text)
          (hx : w.Leaves plan force p' x data) (hs : p'.disk.read x = .content data) : disk.read x = .content data :=
        h.read (fun r hr => hx.removed recorded hrecorded r (hfront.subset hr)) (hwritten hdisk x data hx hs)
      refine (clearStale_sweeps recorded _ p₁).bind ?_ ?_
      · rintro p₂ ⟨-, hticks₂, front, hfront, h₂⟩
        exact ⟨(hticks₂.trans hticks).ge, hcleared hfront h₂⟩
      · rintro _ p₂ ⟨hdb₂, hticks₂, -⟩ ⟨removed, stale, hswept, rfl⟩
        have h₂ := hswept.cleared
        have hstays := hcleared List.prefix_rfl h₂
        have hnow : p₂.ticks = p'.ticks := hticks₂.trans hticks
        refine (recordRun_files plan _ p₂).bind ?_ ?_
        · rintro p₃ ⟨hdisk₃, hticks₃⟩
          rw [hdisk₃, hticks₃, hnow]
          exact ⟨Nat.le_succ _, hstays⟩
        · rintro _ p₃ ⟨hdisk₃, hticks₃⟩ ⟨run, rfl, hfiled⟩
          refine leads_tell_bind.mpr
            (leads_pure ?_ ⟨recorded, p₁.disk, run, ⟨?_, rfl, rfl, hrendered⟩, hdisk₃ ▸ hswept⟩)
          · rw [hdisk₃, hticks₃, hnow]
            exact ⟨Nat.le_succ _, hstays⟩
          · obtain ⟨hsource, hhash, hat, ⟨database, hrecord, hpruned⟩, hthen⟩ := hfiled
            refine ⟨hrecorded, hok, hdisk₃ ▸ h₂, ⟨hsource, hhash, hnow ▸ hat, ⟨database, ?_, hpruned⟩, ?_⟩, rfl⟩
            · rw [← hrecord, hdb₂, hdb]
            · rw [hthen, hnow]

lemma splitPlan_reports (plan : Plan) (force : Bool) (p : Project) :
    Leads (w.splitPlan plan force) p
      (fun p' => p.ticks ≤ p'.ticks ∧
        ∀ x data, w.Leaves plan force p x data → p.disk.read x = .content data → p'.disk.read x = .content data)
      fun result p' => ∃ recorded disk run, w.Reported plan force p p' recorded disk run result :=
  (splitPlan_sweeps hrecords plan force p).mono (fun _ h => h) fun _ _ _ ⟨recorded, disk, run, h, _⟩ =>
    ⟨recorded, disk, run, h⟩

lemma splitPlan_performs (plan : Plan) (force : Bool) (p : Project) :
    Leads (w.splitPlan plan force) p
      (fun p' => p.ticks ≤ p'.ticks ∧
        ∀ x data, w.Leaves plan force p x data → p.disk.read x = .content data → p'.disk.read x = .content data)
      fun result p' => ∃ recorded disk run, w.Performed plan force p p' recorded disk run result.kept :=
  (splitPlan_reports hrecords plan force p).mono (fun _ h => h) fun _ _ _ ⟨recorded, disk, run, h⟩ =>
    ⟨recorded, disk, run, h.performed⟩

end Splits

/-! A split that is carried out. -/

lemma Performed.mem_kept_iff (h : w.Performed plan force p p' recorded disk run kept)
    (hq : q ∈ plan.decomposition.pieces) : q.path ∈ kept ↔ q.path ∈ w.spared plan force recorded p.disk := by
  rw [h.kept_eq, List.mem_map]
  constructor
  · rintro ⟨r, hr, hpath⟩
    rw [← hpath]
    simpa using (List.mem_filter.mp hr).2
  · intro hmem
    exact ⟨q, List.mem_filter.mpr ⟨hq, by simpa using hmem⟩, rfl⟩

/-- The pieces that are written are those that are not kept. -/
lemma Performed.mem_remaining_iff (h : w.Performed plan force p p' recorded disk run kept) :
    q ∈ (w.remaining plan force recorded p.disk).pieces ↔ q ∈ plan.decomposition.pieces ∧ q.path ∉ kept := by
  unfold remaining
  rw [List.mem_filter]
  refine and_congr_right fun hq => ?_
  rw [h.mem_kept_iff hq]
  simp

lemma isEdited_eq_true (h : w.isEdited recorded disk text q = true) :
    ∃ r ∈ recorded, r.generated = false ∧ r.path = w.key q.path ∧
      ∃ data, disk.read q.path = .content data ∧ w.digest data ≠ r.hash ∧ q.render? text ≠ some data := by
  unfold isEdited at h
  split at h
  · next r data hfind hread =>
    have hr := List.find?_some hfind
    simp only [Bool.and_eq_true, Bool.not_eq_true', decide_eq_true_eq] at hr h
    exact ⟨r, List.mem_of_find?_eq_some hfind, hr.1, hr.2, data, hread, by simpa using h⟩
  · cases h

/-- The pieces that are left are the edited ones among those cut from the source, unless they are overwritten by
force. -/
lemma mem_spared_iff : x ∈ w.spared plan force recorded disk ↔
    force = false ∧ ∃ q ∈ plan.decomposition.content, w.isEdited recorded disk plan.text q = true ∧ q.path = x := by
  cases force <;> simp [spared, editedPaths, and_assoc]

/-- A piece that is kept is recorded, and its file is neither as it was recorded nor as it would be written. -/
lemma exists_of_mem_spared (h : x ∈ w.spared plan force recorded disk) :
    ∃ r ∈ recorded, r.generated = false ∧ r.path = w.key x ∧
      ∃ data, disk.read x = .content data ∧ w.digest data ≠ r.hash := by
  obtain ⟨-, q, -, hedited, rfl⟩ := mem_spared_iff.mp h
  obtain ⟨r, hr, hgenerated, hpath, data, hread, hdigest, -⟩ := isEdited_eq_true hedited
  exact ⟨r, hr, hgenerated, hpath, data, hread, hdigest⟩

section
variable (h : w.Performed plan force p p' recorded disk run kept) (hplan : w.Planned source plan)
  (hq : q ∈ plan.decomposition.pieces)
include h hplan hq

/-- What stands at the place of a piece that was written is the piece. -/
lemma Performed.stored?_of_not_kept (hkept : q.path ∉ kept) {data : Text} (hdata : p'.disk.stored? q.path = some data) :
    q.render? plan.text = some data := by
  obtain ⟨f, hf⟩ := hplan.exists_file
  have hapart : (w.remaining plan force recorded p.disk).pieces.Pairwise
      fun p q => Disk.key p.path ≠ Disk.key q.path := (Decomposition.keys_apart hf).sublist List.filter_sublist
  obtain ⟨content, hrender, hstored⟩ :=
    Disk.stored?_of_writePieces_eq_ok hapart h.written q (h.mem_remaining_iff.mpr ⟨hq, hkept⟩)
  rw [hrender, ← hstored]
  exact h.cleared.stored?_of_after hdata

/-- What stands at the place of a piece that was kept stood there before. -/
lemma Performed.stored?_of_kept (hkept : q.path ∈ kept) {data : Text} (hdata : p'.disk.stored? q.path = some data) :
    p.disk.stored? q.path = some data := by
  have hwritten := h.cleared.stored?_of_after hdata
  have hframe : (writePieces plan.text (w.remaining plan force recorded p.disk).pieces
      p.disk).2.stored? q.path = p.disk.stored? q.path := by
    refine Disk.stored?_writePieces fun r hr hkey => ?_
    obtain ⟨hr, hnot⟩ := h.mem_remaining_iff.mp hr
    obtain rfl := hplan.eq_of_key hq hr hkey
    exact hnot hkept
  rwa [← hframe, h.written]

end

/-- A split that gives a result took the lock and is carried out. -/
lemma split_performed (hrecords : w.records = true) {result : SplitResult}
    (h : ((w.split path false).run p).1 = .ok result) :
    ∃ plan p₁ recorded disk run, w.opened path p = some (plan, p₁) ∧
      w.Performed plan false p₁ ((w.split path false).run p).2 recorded disk run result.kept := by
  rw [split_eq_guarded] at h ⊢
  cases hopen : w.opened path p with
  | none =>
    obtain ⟨e, p', hrun, -⟩ := guarded_run_of_none (w.splitPlan · false) hopen
    rw [hrun] at h
    cases h
  | some opened =>
    obtain ⟨plan, p₁⟩ := opened
    rw [guarded_run hopen] at h ⊢
    obtain ⟨recorded, disk, run, hp⟩ := (splitPlan_performs hrecords plan false p₁).2 result h
    obtain ⟨hsource, hhash, hat, hdb, hticks⟩ := hp.filed
    exact ⟨plan, p₁, recorded, disk, run, rfl, hp.recorded_eq, hp.written, hp.cleared,
      ⟨hsource, hhash, hat, hdb, hticks⟩, hp.kept_eq⟩

/-- Only pieces cut from the source are kept. -/
lemma Performed.exists_content (h : w.Performed plan force p p' recorded disk run kept) (hx : x ∈ kept) :
    ∃ q ∈ plan.decomposition.content, q.path = x := by
  rw [h.kept_eq] at hx
  obtain ⟨q, hq, rfl⟩ := List.mem_map.mp hx
  have hspared : q.path ∈ w.spared plan force recorded p.disk := by simpa using (List.mem_filter.mp hq).2
  obtain ⟨-, q', hq', -, hpath⟩ := mem_spared_iff.mp hspared
  exact ⟨q', hq', hpath⟩

/-! Merges. -/

/-- Splits a source once more while its lock is held. -/
def splitAgain (w : Workspace) (source : Path) : Activity SplitResult := do w.splitPlan (← w.planAt source) true

/-- What a merge reports of the split that follows it. -/
def MergeResult.andSplit (r : MergeResult) : Except Failure SplitResult → Partial MergeResult
  | .ok split => ⟨{ r with split := some split }, none⟩
  | .error e => ⟨r, some e⟩

lemma overwrite_run (path : Path) (text what : Text) (p : Project) :
    (∃ e, (overwrite path text what).run p = (.error e, p)) ∨
      ∃ disk, p.disk.write path text = .ok disk ∧
        (overwrite path text what).run p = (.ok (), { p with disk := disk }) := by
  unfold overwrite
  rw [run_get_bind]
  cases hw : p.disk.write path text with
  | error e => exact .inl ⟨_, rfl⟩
  | ok disk => exact .inr ⟨disk, rfl, rfl⟩

lemma leads_overwrite_eq (path : Path) (text what : Text) (p : Project) :
    Leads (overwrite path text what) p (fun p' => p'.database = p.database ∧ p'.ticks = p.ticks)
      fun _ p' => p'.disk.read path = .content text := by
  unfold Leads
  rcases overwrite_run path text what p with ⟨e, h⟩ | ⟨disk, hdisk, h⟩
  · simp [h]
  · simp [h, Disk.read_write_self hdisk]

lemma splitAgain_run (h : p.disk.read source = .content text) :
    (w.splitAgain source).run p = (do w.splitPlan (← w.planOf source text) true : Activity SplitResult).run p := by
  have hload : SourceFile.load p.disk.read source = .ok text := SourceFile.load_eq_ok_iff.mpr h
  unfold splitAgain planAt sourceText
  simp only [bind_assoc]
  rw [run_get_bind, run_bind, run_ofExcept, hload]
  rfl

/-- A merge that splits again is one that does not, followed by a split of what it wrote. -/
lemma mergePlan_resplit {o : MergeOptions} (hresplit : o.resplit = true) (plan : Plan) (p : Project) :
    (w.mergePlan plan o).run p =
      match (w.mergePlan plan { o with resplit := false }).run p with
      | (.ok r, p₂) =>
        if r.done.written then
          (.ok (r.done.andSplit ((w.splitAgain plan.source).run p₂).1), ((w.splitAgain plan.source).run p₂).2)
        else (.ok r, p₂)
      | (.error e, p₂) => (.error e, p₂) := by
  unfold mergePlan
  simp only [run_bind]
  cases (w.checkSplitOf plan).run p with
  | mk check p₁ =>
    cases check with
    | error e => rfl
    | ok _ =>
      simp only [run_get, run_ofExcept]
      cases plan.decomposition.merge w.options p₁.disk.read plan.text with
      | error e => rfl
      | ok merged =>
        simp only [SourceFile.lift, run_tell]
        cases o.dryRun with
        | true => cases merged.changed <;> rfl
        | false =>
          cases merged.changed with
          | false => rfl
          | true =>
            simp only [Bool.not_true, Bool.false_eq_true, if_false, run_bind]
            generalize { p₁ with log := _ } = p₂
            cases (w.keepCopy plan.source plan.text o.backup).run p₂ with
            | mk copy p₃ =>
              cases copy with
              | error e => rfl
              | ok backup =>
                simp only
                rcases overwrite_run plan.source merged.text "writing merged source" p₃ with ⟨e, hw⟩ | ⟨disk, hdisk, hw⟩
                · simp only [hw]
                · have hread : disk.read plan.source = .content merged.text := Disk.read_write_self hdisk
                  simp only [hw, tellOne, run_tell, hresplit, Bool.not_true, Bool.not_false, Bool.false_eq_true,
                    if_false, if_true]
                  generalize hp₄ : { p₃ with disk := disk, log := _ } = p₄
                  have hread₄ : p₄.disk.read plan.source = .content merged.text := by
                    rw [← hp₄]
                    exact hread
                  have hsplit := splitAgain_run (w := w) hread₄
                  rw [run_bind] at hsplit
                  simp only [run_pure, if_true]
                  rw [run_fun, ← hsplit]
                  cases (w.splitAgain plan.source).run p₄ with
                  | mk again p₅ => cases again <;> rfl

/-- In other words, a merge is its first part and then perhaps another split. -/
lemma mergePlan_eq (w : Workspace) (plan : Plan) (o : MergeOptions) :
    w.mergePlan plan o = (do
      let r ← w.mergePlan plan { o with resplit := false }
      if !(o.resplit && r.done.written) then return r
      fun p =>
        let again := (w.splitAgain plan.source).run p
        (.ok (r.done.andSplit again.1), again.2)) := by
  refine Activity.ext fun p => ?_
  rw [run_bind]
  cases hresplit : o.resplit with
  | false =>
    have ho : { o with resplit := false } = o := by rw [← hresplit]
    rw [ho]
    cases (w.mergePlan plan o).run p with
    | mk r p₁ => cases r <;> rfl
  | true =>
    rw [mergePlan_resplit hresplit]
    cases (w.mergePlan plan { o with resplit := false }).run p with
    | mk r p₁ =>
      cases r with
      | error e => rfl
      | ok r => cases hw : r.done.written <;> simp [hw] <;> rfl

/-- If nothing is written nothing is split again. -/
lemma mergePlan_run_of_not_written {o : MergeOptions} {r : Partial MergeResult}
    (h : (w.mergePlan plan { o with resplit := false }).run p = (.ok r, p')) (hwritten : r.done.written = false) :
    (w.mergePlan plan o).run p = (.ok r, p') := by
  rw [mergePlan_eq, run_bind, h]
  simp only [hwritten, Bool.and_false, Bool.not_false, if_true]
  rfl

/-- A merge that writes the source and splits it again: the source is written first, then a plan is made of it, and
this plan is carried out by force. -/
lemma mergePlan_eq_ok {o : MergeOptions} {r : MergeResult} (h : (w.mergePlan plan o).run p = (.ok ⟨r, none⟩, p'))
    (hresplit : o.resplit = true) (hwritten : r.written = true) :
    ∃ first p₁ plan' p₂ split, (w.mergePlan plan { o with resplit := false }).run p = (.ok first, p₁) ∧
      first.done.written = true ∧ (w.planAt plan.source).run p₁ = (.ok plan', p₂) ∧
      (w.splitPlan plan' true).run p₂ = (.ok split, p') := by
  rw [mergePlan_eq, run_bind] at h
  cases hfirst : (w.mergePlan plan { o with resplit := false }).run p with
  | mk result p₁ =>
    rw [hfirst] at h
    cases result with
    | error e => cases h
    | ok first =>
      simp only [hresplit, Bool.true_and] at h
      cases hw : first.done.written with
      | false =>
        -- nothing written means nothing split, against the result
        simp only [hw, Bool.not_false, if_true] at h
        obtain rfl := Except.ok.inj (Prod.mk.inj h).1
        exact absurd hw (by simp [hwritten])
      | true =>
        simp only [hw, Bool.not_true, Bool.false_eq_true, if_false] at h
        rw [run_fun, splitAgain, run_bind] at h
        cases hplan : (w.planAt plan.source).run p₁ with
        | mk plan? p₂ =>
          rw [hplan] at h
          cases plan? with
          | error e => cases h
          | ok plan' =>
            cases hsplit : (w.splitPlan plan' true).run p₂ with
            | mk split? p₃ =>
              simp only [hsplit] at h
              cases split? with
              | error e => cases h
              | ok split =>
                obtain rfl := (Prod.mk.inj h).2
                exact ⟨first, p₁, plan', p₂, split, rfl, hw, hplan, hsplit⟩

lemma leads_checkSplitOf_eq (w : Workspace) (plan : Plan) (p : Project) :
    Leads (w.checkSplitOf plan) p (· = p) fun _ _ => w.records = true →
      ∀ run, p.database.latest? (w.key plan.source) = .ok (some run) → run.hash = plan.hash := by
  unfold checkSplitOf
  split
  · next h => exact leads_pure rfl fun hrecords => by simp [hrecords] at h
  · rw [leads_get_bind]
    refine (leads_ofExcept _ p).bind (fun _ h => h) ?_
    rintro run? p' rfl hlatest
    cases run? with
    | none => exact leads_pure rfl fun _ run hrun => by simp [hlatest] at hrun
    | some run =>
      simp only
      split
      · exact leads_fail rfl
      · next hsame =>
        refine leads_pure rfl fun _ run' hrun => ?_
        obtain rfl : run = run' := by simpa [hlatest] using hrun
        simpa using hsame

lemma leads_keepCopy_ticks (path : Path) (text : Text) (wanted : Bool) (p : Project) :
    Leads (w.keepCopy path text wanted) p (fun p' => p'.database = p.database ∧ p.ticks ≤ p'.ticks)
      fun _ _ => True := by
  unfold keepCopy
  split
  · exact leads_pure ⟨rfl, le_rfl⟩ trivial
  · next b hb =>
    split
    · exact leads_pure ⟨rfl, le_rfl⟩ trivial
    · rw [leads_get_bind]
      split
      · exact leads_fail ⟨rfl, le_rfl⟩
      · unfold now
        simp only [bind_assoc, pure_bind]
        rw [leads_get_bind, leads_set_bind, leads_get_bind, leads_set_bind]
        split
        · exact leads_tell_bind.mpr (leads_ofExcept_map ⟨rfl, Nat.le_succ _⟩)
        · exact leads_ofExcept_map ⟨rfl, Nat.le_succ _⟩

/-- What a merge has checked that writes its source: the source is as it was last split, and the pieces fold into
another text. -/
structure Checked (w : Workspace) (plan : Plan) (p : Project) : Prop where
  hash_eq : w.records = true → ∀ run, p.database.latest? (w.key plan.source) = .ok (some run) → run.hash = plan.hash
  merged : ∃ merged, plan.decomposition.merge w.options p.disk.read plan.text = .ok merged ∧ merged.changed = true

/-- A merge that does not split again leaves the record as it was. -/
lemma leads_mergePlan_check {o : MergeOptions} (hresplit : o.resplit = false) (plan : Plan) (p : Project) :
    Leads (w.mergePlan plan o) p (fun p' => p'.database = p.database ∧ p.ticks ≤ p'.ticks)
      fun r _ => r.done.written = true → w.Checked plan p := by
  unfold mergePlan
  refine (w.leads_checkSplitOf_eq plan p).bind ?_ ?_
  · rintro p' rfl
    exact ⟨rfl, le_rfl⟩
  · rintro - p' rfl hcheck
    rw [leads_get_bind]
    refine (leads_ofExcept _ p').bind ?_ ?_
    · rintro p₁ rfl
      exact ⟨rfl, le_rfl⟩
    · rintro merged p₁ rfl hmerged
      rw [leads_tell_bind]
      split
      · split
        · exact leads_pure ⟨rfl, le_rfl⟩ fun h => by cases h
        · exact leads_pure ⟨rfl, le_rfl⟩ fun h => by cases h
      · split
        · exact leads_tell_bind.mpr (leads_pure ⟨rfl, le_rfl⟩ fun h => by cases h)
        · next hchanged =>
          refine (leads_keepCopy_ticks _ _ _ _).bind (fun _ h => h) ?_
          rintro backup p₂ ⟨hdb, hticks⟩ -
          refine (leads_overwrite_eq _ _ _ p₂).bind ?_ ?_
          · rintro p₃ ⟨hdb₃, hticks₃⟩
            exact ⟨hdb₃.trans hdb, hticks.trans hticks₃.ge⟩
          · rintro - p₃ ⟨hdb₃, hticks₃⟩ -
            refine leads_tell_bind.mpr ?_
            rw [hresplit, if_pos (by rfl)]
            refine leads_pure ⟨hdb₃.trans hdb, hticks.trans hticks₃.ge⟩ fun _ => ⟨hcheck, merged, hmerged, ?_⟩
            simpa using hchanged

/-- Whether or not it splits again, a merge that writes its source has checked that. -/
lemma mergePlan_checked {o : MergeOptions} {r : Partial MergeResult} (h : ((w.mergePlan plan o).run p).1 = .ok r)
    (hwritten : r.done.written = true) : w.Checked plan p := by
  cases hresplit : o.resplit with
  | false => exact (leads_mergePlan_check hresplit plan p).2 r h hwritten
  | true =>
    have hfirst := (leads_mergePlan_check (w := w) (o := { o with resplit := false }) rfl plan p).2
    rw [mergePlan_resplit hresplit] at h
    cases hrun : (w.mergePlan plan { o with resplit := false }).run p with
    | mk r₁ p₂ =>
      rw [hrun] at h hfirst
      cases r₁ with
      | error e => cases h
      | ok r₁ =>
        simp only at h
        split at h
        · next hw => exact hfirst r₁ rfl hw
        · obtain rfl := Except.ok.inj h
          exact hfirst _ rfl hwritten

end Workspace

end DeclPieces
