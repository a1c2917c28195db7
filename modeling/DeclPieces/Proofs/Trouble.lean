import DeclPieces.Proofs.SplitEffect

/-! Steps that fail for reasons the files do not show. A step that fails may have done a part of its work, and may
leave what it was about to change in any state; some failures are passed over. -/
namespace DeclPieces

/-- What is left at a path by a step that fails. -/
inductive Remnant
  | file (path : Path) (data : Text)
  | gone (path : Path)
  | directory (path : Path)
  deriving DecidableEq, Repr

namespace Disk
variable {d : Disk} {reach : Path → Bool}

/-- The files once something is left. The place of a file has to be within reach; `reach` is asked for its key. -/
def leaveOne (reach : Path → Bool) (d : Disk) : Remnant → Disk
  | .file path data => if reach (key path) then (d.write path data).toOption.getD d else d
  | .gone path => if reach (key path) && d.isFile path then (d.remove path).toOption.getD d else d
  | .directory path => (d.makeDirs path).toOption.getD d

def leave (reach : Path → Bool) (d : Disk) (remnants : List Remnant) : Disk := remnants.foldl (leaveOne reach) d

lemma exists_read_of_isFile {p : Path} (h : d.isFile p = true) : ∃ data, d.read p = .content data := by
  unfold isFile at h
  split at h
  · next data hlook => exact ⟨data, read_eq_content_iff.mpr hlook⟩
  · cases h

lemma keeps_leaveOne (d : Disk) (r : Remnant) : d.Keeps (d.leaveOne reach r) fun x => reach (key x) = true := by
  unfold leaveOne
  cases r with
  | file path data =>
    dsimp only
    split
    · next hreach =>
      cases hw : d.write path data with
      | error e => exact keeps_rfl
      | ok d' => exact keeps_write hw fun x hkey => hkey ▸ hreach
    · exact keeps_rfl
  | gone path =>
    dsimp only
    split
    · next hreach =>
      obtain ⟨hreach, hfile⟩ := Bool.and_eq_true_iff.mp hreach
      obtain ⟨data, hread⟩ := exists_read_of_isFile hfile
      cases hr : d.remove path with
      | error e => exact keeps_rfl
      | ok d' => exact keeps_remove hread hr fun x hkey => hkey ▸ hreach
    · exact keeps_rfl
  | directory path =>
    dsimp only
    cases hm : d.makeDirs path with
    | error e => exact keeps_rfl
    | ok d' => exact keeps_makeDirs hm

/-- What is left changes no file out of reach. -/
lemma keeps_leave (d : Disk) (remnants : List Remnant) :
    d.Keeps (d.leave reach remnants) fun x => reach (key x) = true := by
  unfold leave
  induction remnants generalizing d with
  | nil => exact keeps_rfl
  | cons r rest ih => exact (d.keeps_leaveOne r).trans (ih _)

end Disk

/-- The steps of a merge that splits again. -/
inductive Step
  | plan | lock | fold | copy | write | replan | recall | pieces | clear | record
  deriving DecidableEq, Repr

/-- What goes wrong in a merge: the failure with which a step ends, if it does, and what it leaves; and what is left
where a failure is passed over, which happens when old copies or old pieces are removed. -/
structure Troubles where
  failure? : Step → Option (Failure × List Remnant) := fun _ => none
  passed : Step → List Remnant := fun _ => []

namespace Troubles
open Activity
variable {α : Type} {t : Troubles} {step : Step} {reach : Project → Path → Bool} {x : Activity α} {p : Project}

/-- Nothing goes wrong but what the files themselves bring about. -/
def calm : Troubles := {}

/-- Takes a step, which may fail and then leave something within its reach. -/
def attempt (t : Troubles) (step : Step) (reach : Project → Path → Bool) (x : Activity α) : Activity α :=
  match t.failure? step with
  | none => x
  | some (e, remnants) => do
    modify fun p => { p with disk := p.disk.leave (reach p) remnants }
    throw e

/-- Leaves what comes of the failures that a step passes over. -/
def passOver (t : Troubles) (step : Step) (reach : Project → Path → Bool) : Activity Unit :=
  modify fun p => { p with disk := p.disk.leave (reach p) (t.passed step) }

lemma attempt_calm (step : Step) (reach : Project → Path → Bool) (x : Activity α) : calm.attempt step reach x = x := rfl

lemma passOver_calm (step : Step) (reach : Project → Path → Bool) : calm.passOver step reach = pure () := rfl

/-- Out of the reach of a step that changes no file. -/
def nowhere : Project → Path → Bool := fun _ _ => false

/-- At one of the paths. -/
def among (paths : List Path) : Project → Path → Bool := fun _ k => (paths.map Disk.key).contains k

lemma attempt_run (t : Troubles) (step : Step) (reach : Project → Path → Bool) (x : Activity α) (p : Project) :
    (t.attempt step reach x).run p = x.run p ∨ ∃ e disk,
      (t.attempt step reach x).run p = (.error e, { p with disk := disk }) ∧
        p.disk.Keeps disk fun y => reach p (Disk.key y) = true := by
  unfold attempt
  split
  · exact .inl rfl
  · next e remnants _ => exact .inr ⟨e, _, rfl, p.disk.keeps_leave remnants⟩

lemma leads_attempt {P : Project → Prop} {Q : α → Project → Prop} (h : Leads x p P Q)
    (hfail : ∀ disk, (p.disk.Keeps disk fun y => reach p (Disk.key y) = true) → P { p with disk := disk }) :
    Leads (t.attempt step reach x) p P Q := by
  unfold Leads
  rcases t.attempt_run step reach x p with hrun | ⟨e, disk, hrun, hkeeps⟩
  · rw [hrun]
    exact h
  · rw [hrun]
    exact ⟨hfail disk hkeeps, fun a ha => by cases ha⟩

/-- A step that changes no file leaves at most a directory when it fails. -/
lemma leads_attempt_nowhere {Q : α → Project → Prop} (h : Leads x p (· = p) Q) :
    Leads (t.attempt step nowhere x) p
      (fun p' => (p.disk.Keeps p'.disk fun _ => False) ∧ p'.database = p.database)
      fun a p' => p' = p ∧ Q a p' := by
  refine (leads_attempt (P := fun p' => (p.disk.Keeps p'.disk fun _ => False) ∧ p'.database = p.database)
    (h.mono (fun p' hp' => hp' ▸ ⟨Disk.keeps_rfl, rfl⟩) fun a p' hp' hQ => ⟨hp', hQ⟩) ?_)
  exact fun disk hkeeps => ⟨hkeeps.mono nofun, rfl⟩

lemma throws_attempt {E : Project → Prop} (h : Throws x p E)
    (hfail : ∀ disk, (p.disk.Keeps disk fun y => reach p (Disk.key y) = true) → E { p with disk := disk }) :
    Throws (t.attempt step reach x) p E := by
  unfold Throws
  rcases t.attempt_run step reach x p with hrun | ⟨e, disk, hrun, hkeeps⟩
  · rw [hrun]
    exact h
  · rw [hrun]
    exact fun _ _ => hfail disk hkeeps

lemma leads_passOver_bind {f : PUnit → Activity α} {P : Project → Prop} {Q : α → Project → Prop} :
    Leads (t.passOver step reach >>= f) p P Q ↔
      Leads (f ()) { p with disk := p.disk.leave (reach p) (t.passed step) } P Q := leads_modify_bind

lemma throws_passOver_bind {f : PUnit → Activity α} {E : Project → Prop} :
    Throws (t.passOver step reach >>= f) p E ↔
      Throws (f ()) { p with disk := p.disk.leave (reach p) (t.passed step) } E := by
  unfold Throws passOver
  rw [run_modify_bind]

end Troubles

namespace Workspace
open Activity
variable {w : Workspace} {plan : Plan} {p : Project} {d : Decomposition} {recorded : List RecordedPiece}
  {disk disk' : Disk} {text : Text} {t : Troubles} {force : Bool}

/-- Carries out a plan for all that goes wrong. -/
def splitUnder (t : Troubles) (w : Workspace) (plan : Plan) (force : Bool) : Activity SplitResult := do
  let d := plan.decomposition
  let recorded ← t.attempt .recall Troubles.nowhere (w.recordedPieces plan.source)
  let disk := (← get).disk
  let edited := if force then [] else w.editedPaths recorded disk plan
  checkEdited plan edited
  let kept := (d.pieces.filter fun p => edited.contains p.path).map (·.path)
  tell (kept.map fun path => Log.record .warn "Keeping edited piece that was not merged yet"
    [("file", .text plan.source), ("piece", .text path)])
  let rest := { d with pieces := d.pieces.filter fun p => !edited.contains p.path }
  t.attempt .pieces (Troubles.among (d.pieces.map (·.path))) (writeAll rest plan.text)
  let result : SplitResult :=
    { source := plan.source, dir := d.dir, written := rest.pieces.length, skipped := d.skipped, kept := kept }
  let result ← if w.records then do
      let places := Troubles.among (recorded.map fun r => w.ofKey r.path)
      let result ← t.attempt .clear places (w.clearStale d recorded result)
      t.passOver .clear places
      t.attempt .record Troubles.nowhere (w.recordRun plan result)
    else pure result
  tellOne .info "Split declaration file"
    [("file", .text plan.source), ("pieces", .int result.written), ("kept", .int result.kept.length),
      ("skipped", .int result.skipped.length), ("runId", .text result.runId)]
  return result

/-- Where nothing goes wrong, that is how a plan is carried out. -/
lemma splitUnder_calm (w : Workspace) (plan : Plan) (force : Bool) :
    splitUnder .calm w plan force = w.splitPlan plan force := by
  unfold splitUnder splitPlan
  cases w.records <;> rfl

/-- The files that a split may change: those at the places of its pieces, and those of the last recorded run. -/
def Touched (w : Workspace) (plan : Plan) (database : Database) (x : Path) : Prop :=
  (∃ q ∈ plan.decomposition.pieces, Disk.key q.path = Disk.key x) ∨
    ∃ recorded, w.lastPieces plan.source database = .ok recorded ∧
      ∃ r ∈ recorded, Disk.key (w.ofKey r.path) = Disk.key x

lemma keeps_writePieces (text : Text) (ps : List Piece) (disk : Disk) :
    disk.Keeps (writePieces text ps disk).2 fun x => ∃ q ∈ ps, Disk.key q.path = Disk.key x := by
  refine writePieces_preserves (P := fun s => disk.Keeps s _) ?_ ps ?_ disk Disk.keeps_rfl
  · exact fun s s' path hm hs => hs.trans (Disk.keeps_makeDirs hm)
  · exact fun q hq content s s' _ hw hs => hs.trans (Disk.keeps_write hw fun x hkey => ⟨q, hq, hkey.symm⟩)

lemma Cleared.keeps (h : w.Cleared d recorded disk disk') :
    disk.Keeps disk' fun x => ∃ r ∈ recorded, Disk.key (w.ofKey r.path) = Disk.key x := by
  have htail {r : RecordedPiece} {rest : List RecordedPiece} {x : Path}
      (h : ∃ r' ∈ rest, Disk.key (w.ofKey r'.path) = Disk.key x) :
      ∃ r' ∈ r :: rest, Disk.key (w.ofKey r'.path) = Disk.key x := by
    obtain ⟨r', hr', hkey⟩ := h
    exact ⟨r', List.mem_cons_of_mem _ hr', hkey⟩
  induction h with
  | nil => exact Disk.keeps_rfl
  | leave _ ih => exact ih.mono fun _ => htail
  | @remove r rest disk disk₁ disk' data _ hread _ hremove _ ih =>
    exact (Disk.keeps_remove hread hremove fun x hkey => ⟨r, by simp, hkey.symm⟩).trans (ih.mono fun _ => htail)

/-- Whatever goes wrong, a split changes no other files. -/
lemma leads_splitUnder (t : Troubles) (w : Workspace) (plan : Plan) (force : Bool) (p : Project) :
    Leads (splitUnder t w plan force) p (fun p' => p.disk.Keeps p'.disk (w.Touched plan p.database))
      fun _ _ => True := by
  unfold splitUnder
  refine (Troubles.leads_attempt_nowhere (w.leads_recordedPieces_eq plan.source p)).bind
    (fun _ h => h.1.mono fun _ => False.elim) ?_
  rintro recorded p₀ - ⟨rfl, hlast⟩
  rw [leads_get_bind]
  refine (leads_checkEdited plan _ p₀).bind (fun p' h => h ▸ Disk.keeps_rfl) ?_
  rintro - p' rfl -
  rw [leads_tell_bind]
  simp only [pure_bind]
  have hplaces {p : Project} (x : Path)
      (hx : Troubles.among (plan.decomposition.pieces.map (·.path)) p (Disk.key x) = true) :
      w.Touched plan p'.database x := .inl (by simpa [Troubles.among] using hx)
  have hold {p : Project} (x : Path)
      (hx : Troubles.among (recorded.map fun r => w.ofKey r.path) p (Disk.key x) = true) :
      w.Touched plan p'.database x := .inr ⟨recorded, hlast, by simpa [Troubles.among] using hx⟩
  refine Leads.andThen (Troubles.leads_attempt ((leads_writeAll_eq _ plan.text _).mono ?_ fun _ _ _ _ => trivial)
    fun disk hkeeps => hkeeps.mono hplaces) ?_
  · rintro p₁ ⟨hdisk, -⟩
    rw [hdisk]
    refine (keeps_writePieces plan.text _ p'.disk).mono ?_
    rintro x ⟨q, hq, hkey⟩
    exact .inl ⟨q, (List.mem_filter.mp hq).1, hkey⟩
  · rintro - p₁ hkeeps
    split
    · refine Leads.andThen (Troubles.leads_attempt ((clearStale_clears recorded _ p₁).mono ?_ fun _ _ _ _ => trivial)
        fun disk hcleared => hkeeps.trans (hcleared.mono hold)) ?_
      · rintro p₂ ⟨-, -, front, hfront, hcleared⟩
        refine hkeeps.trans (hcleared.keeps.mono ?_)
        rintro x ⟨r, hr, hkey⟩
        exact .inr ⟨recorded, hlast, r, hfront.subset hr, hkey⟩
      · rintro result p₂ hkeeps₂
        rw [Troubles.leads_passOver_bind]
        have hkeeps₃ := hkeeps₂.trans ((p₂.disk.keeps_leave (t.passed .clear)).mono (hold (p := p₂)))
        refine Leads.andThen (Troubles.leads_attempt ((recordRun_files plan result _).mono ?_ fun _ _ _ _ => trivial)
          fun disk hrecorded => hkeeps₃.trans (hrecorded.mono nofun)) ?_
        · rintro p₄ ⟨hdisk, -⟩
          exact hdisk ▸ hkeeps₃
        · exact fun result p₄ hkeeps₄ => leads_tell_bind.mpr (leads_pure hkeeps₄ trivial)
    · exact leads_tell_bind.mpr (leads_pure hkeeps trivial)

/-- A split that fails records nothing, whatever goes wrong. -/
lemma splitUnder_throws (t : Troubles) (w : Workspace) (plan : Plan) (force : Bool) (p : Project) :
    Throws (splitUnder t w plan force) p fun p' => p'.database = p.database := by
  unfold splitUnder
  refine Throws.bind (Troubles.leads_attempt_nowhere (w.leads_recordedPieces_eq plan.source p)) (fun _ h => h.2) ?_
  rintro recorded p₀ - ⟨rfl, -⟩
  rw [throws_get_bind]
  refine Throws.bind (leads_checkEdited plan _ p₀) (fun p' h => h ▸ rfl) ?_
  rintro - p' rfl -
  rw [throws_tell_bind]
  simp only [pure_bind]
  refine Throws.bind (Troubles.leads_attempt ((leads_writeAll_eq _ plan.text _).mono (fun _ h => h.2.1)
    fun _ _ _ _ => trivial) fun _ _ => rfl) (fun _ h => h) ?_
  rintro - p₁ hdb -
  split
  · refine Throws.bind (Troubles.leads_attempt ((clearStale_clears recorded _ p₁).mono (fun _ h => h.1)
      fun _ _ _ _ => trivial) fun _ _ => rfl) (fun _ h => h.trans hdb) ?_
    rintro result p₂ hdb₂ -
    rw [Troubles.throws_passOver_bind]
    rw [← hdb, ← hdb₂]
    refine (Troubles.throws_attempt (recordRun_throws plan result _) fun _ _ => rfl).andThen ?_
    exact fun _ _ => throws_tell_bind.mpr (throws_pure _ _ _)
  · exact throws_tell_bind.mpr (throws_pure _ _ _)

lemma leads_splitPlan_keeps (w : Workspace) (plan : Plan) (force : Bool) (p : Project) :
    Leads (w.splitPlan plan force) p (fun p' => p.disk.Keeps p'.disk (w.Touched plan p.database)) fun _ _ => True := by
  rw [← splitUnder_calm]
  exact leads_splitUnder .calm w plan force p

lemma splitPlan_throws (w : Workspace) (plan : Plan) (force : Bool) (p : Project) :
    Throws (w.splitPlan plan force) p fun p' => p'.database = p.database := by
  rw [← splitUnder_calm]
  exact splitUnder_throws .calm w plan force p

end Workspace

end DeclPieces
