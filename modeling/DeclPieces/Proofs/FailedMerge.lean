import DeclPieces.Proofs.DryRun

/-! What a merge that fails leaves behind. Up to the write of the source it makes nothing but the file of a lock and a
copy; from there on only the second split can fail, which neither the source nor the record can tell. -/
namespace DeclPieces

/-- Where a copy cannot be kept, at most directories have been made. -/
lemma Disk.keeps_save_of_error {b : Backups} {source data : Text} {now : Int} {d d' : Disk} {e : Fault}
    {log : List Log.Record} {except : Path → Prop} (h : b.save source data now d = (.error e, log, d')) :
    d.Keeps d' except := by
  unfold Backups.save at h
  simp only at h
  split at h
  · obtain ⟨-, -, rfl⟩ := h
    exact keeps_rfl
  · next d₁ hm =>
    split at h
    · obtain ⟨-, -, rfl⟩ := h
      exact keeps_makeDirs hm
    · cases h

namespace Workspace
open Activity
variable {α β : Type} {t : Troubles} {w : Workspace} {path : Path} {text : Text} {plan : Plan}
  {p p' : Project} {merged : Merged} {copy : Option Path} {o : MergeOptions} {x : Path}

/-! Merges for all that goes wrong. -/

/-- The place of the copy of a source that is taken next. -/
def nextCopy? (w : Workspace) (source : Path) (ticks : Nat) : Option Path :=
  w.backups.map fun b => Path.join (b.sourceDir (w.key source)) (Text.ofInt (w.clock ticks) ++ Backup.suffix)

/-- Below the directory of the copies of a source. -/
def belowCopies (w : Workspace) (source : Path) : Project → Path → Bool := fun _ k =>
  w.backups.any fun b => Disk.isAtOrBelow (Disk.key (b.sourceDir (w.key source))) k

/-- The file of a lock that is not there yet. -/
def newLock (dir : Path) : Project → Path → Bool := fun p k =>
  k = Disk.key (lockPath dir) && (p.disk.stored? (lockPath dir)).isNone

/-- Makes the plan of a source and acts on it while the lock of the piece directory is held. -/
def underLock (t : Troubles) (w : Workspace) (path : Path) (body : Plan → Activity α) :
    Activity α := do
  let plan ← t.attempt .plan Troubles.nowhere (w.planAt (w.abs path))
  let lock ← t.attempt .lock (newLock plan.decomposition.dir) (acquire plan.decomposition.dir)
  finally_ (body plan) (release lock)

/-- The first part of a merge: it folds the pieces, and keeps a copy of the source if that is to be written. -/
def prepareUnder (t : Troubles) (w : Workspace) (plan : Plan) (o : MergeOptions) :
    Activity (Merged × Option Path) := do
  let merged ← t.attempt .fold Troubles.nowhere (w.foldPlan plan)
  if o.dryRun || !merged.changed then return (merged, none)
  let copy ← t.attempt .copy (fun p => Troubles.among (w.nextCopy? plan.source p.ticks).toList p)
    (w.keepCopy plan.source plan.text o.backup)
  t.passOver .copy (w.belowCopies plan.source)
  return (merged, some copy)

/-- Splits a source once more while its lock is held. -/
def splitAgainUnder (t : Troubles) (w : Workspace) (source : Path) : Activity SplitResult := do
  let plan ← t.attempt .replan Troubles.nowhere (w.planAt source)
  splitUnder t w plan true

/-- The second part: it writes the source and splits it again if that is wanted. -/
def commitUnder (t : Troubles) (w : Workspace) (plan : Plan) (o : MergeOptions) :
    Merged × Option Path → Activity (Partial MergeResult)
  | (merged, none) => w.conclude plan merged o
  | (merged, some copy) => do
    t.attempt .write (Troubles.among [plan.source]) (overwrite plan.source merged.text "writing merged source")
    tellOne .info "Merged pieces into declaration file"
      [("file", .text plan.source), ("applied", .int merged.applied), ("missing", .int merged.missing.length)]
    let result := { foldResult plan merged with backup := copy, written := true }
    if !o.resplit then return ⟨result, none⟩
    fun p =>
      let again := (splitAgainUnder t w plan.source).run p
      (.ok (result.andSplit again.1), again.2)

/-- A merge for all that goes wrong. -/
def mergeUnder (t : Troubles) (w : Workspace) (path : Path) (o : MergeOptions) :
    Activity (Partial MergeResult) :=
  underLock t w path fun plan => do commitUnder t w plan o (← prepareUnder t w plan o)

/-- The merge up to the write of the source, which comes next if a copy is given. -/
def approachUnder (t : Troubles) (w : Workspace) (path : Path) (o : MergeOptions) :
    Activity (Merged × Option Path) :=
  underLock t w path fun plan => prepareUnder t w plan o

lemma splitAgainUnder_calm (w : Workspace) (source : Path) :
    splitAgainUnder .calm w source = w.splitAgain source := by
  unfold splitAgainUnder splitAgain
  simp only [Troubles.attempt_calm, splitUnder_calm]

lemma prepare_commit_calm (w : Workspace) (plan : Plan) (o : MergeOptions) :
    (do commitUnder .calm w plan o (← prepareUnder .calm w plan o)) =
      (do w.finish plan (← w.foldPlan plan) o : Activity (Partial MergeResult)) := by
  unfold prepareUnder
  rw [bind_assoc]
  refine congrArg (w.foldPlan plan >>= ·) (funext fun merged => ?_)
  obtain ⟨dryRun, backup, resplit⟩ := o
  obtain ⟨folded, applied, missing, changed⟩ := merged
  unfold finish commitUnder conclude
  cases dryRun with
  | true => cases changed <;> cases resplit <;> rfl
  | false =>
    cases changed with
    | false => cases resplit <;> rfl
    | true =>
      simp only [Troubles.attempt_calm, Troubles.passOver_calm, splitAgainUnder_calm, Bool.not_true,
        Bool.or_false, Bool.false_eq_true, if_false, bind_assoc, pure_bind]
      cases resplit <;> rfl

/-- Where nothing goes wrong but what the files bring about, that is the merge. -/
theorem mergeUnder_calm (w : Workspace) (path : Path) (o : MergeOptions) :
    mergeUnder .calm w path o = w.merge path o := by
  rw [merge_eq_guarded]
  unfold mergeUnder underLock guarded
  simp only [prepare_commit_calm, mergePlan_eq_fold]
  rfl

/-! How a merge begins. -/

/-- A file that a merge may leave before it writes the source: that of the lock, if there was none, and the copy. -/
def Leftover (w : Workspace) (path : Path) (p : Project) (x : Path) : Prop :=
  (∃ plan, ((w.planAt (w.abs path)).run p).1 = .ok plan ∧
      Disk.key x = Disk.key (lockPath plan.decomposition.dir) ∧ p.disk.stored? x = none) ∨
    ∃ y ∈ w.nextCopy? (w.abs path) p.ticks, Disk.key y = Disk.key x

/-- The record is as it was, and so is every file that is not left over. -/
structure Unspoilt (w : Workspace) (path : Path) (p p' : Project) : Prop where
  database_eq : p'.database = p.database
  disk_keeps : p.disk.Keeps p'.disk (w.Leftover path p)

/-- A file that could be read, and is not where the copy is to be, reads as before. -/
lemma Unspoilt.read (h : w.Unspoilt path p p') (hread : p.disk.read x = .content text)
    (hcopy : ∀ y ∈ w.nextCopy? (w.abs path) p.ticks, Disk.key y ≠ Disk.key x) : p'.disk.read x = .content text := by
  refine h.disk_keeps.read ?_ hread
  rintro (⟨plan, -, -, hnone⟩ | ⟨y, hy, hkey⟩)
  · rw [Disk.stored?_of_read hread] at hnone
    cases hnone
  · exact hcopy y hy hkey

/-- Where the lock is not granted, all that is to be done under it fails in the same way. Otherwise it starts with the
plan of the source. -/
lemma underLock_run (t : Troubles) (w : Workspace) (path : Path) (p : Project) :
    (∃ e p', w.Unspoilt path p p' ∧
      ∀ (α : Type) (body : Plan → Activity α), (underLock t w path body).run p = (.error e, p')) ∨
    ∃ plan log, (w.planAt (w.abs path)).run p = (.ok plan, { p with log := log }) ∧
      grants plan.decomposition.dir { p with log := log } = true ∧
      ∀ (α : Type) (body : Plan → Activity α), (underLock t w path body).run p =
        (((body plan).run (locking plan.decomposition.dir { p with log := log })).1,
          release (lockPath plan.decomposition.dir)
            ((body plan).run (locking plan.decomposition.dir { p with log := log })).2) := by
  unfold underLock
  simp only [run_bind]
  rcases t.attempt_run .plan Troubles.nowhere (w.planAt (w.abs path)) p with hplan | ⟨e, disk, hplan, hdisk⟩
  · rw [hplan]
    obtain ⟨log, hlog⟩ := planAt_run_log w (w.abs path) p
    cases hrun : (w.planAt (w.abs path)).run p with
    | mk plan? p₀ =>
      rw [hrun] at hlog
      obtain rfl : p₀ = { p with log := log } := hlog
      cases plan? with
      | error e => exact .inl ⟨e, { p with log := log }, ⟨rfl, Disk.keeps_rfl⟩, fun _ _ => rfl⟩
      | ok plan =>
        have hlock {x : Path} (hkey : Disk.key x = Disk.key (lockPath plan.decomposition.dir))
            (hnone : p.disk.stored? x = none) : w.Leftover path p x :=
          .inl ⟨plan, congrArg Prod.fst hrun, hkey, hnone⟩
        rcases t.attempt_run .lock (newLock plan.decomposition.dir) (acquire plan.decomposition.dir)
          { p with log := log } with hacquire | ⟨e, disk, hacquire, hdisk⟩
        · cases hg : grants plan.decomposition.dir { p with log := log } with
          | false =>
            obtain ⟨e, hrefused⟩ := acquire_of_not_grants hg
            simp only [hacquire, hrefused]
            have hkeeps := (p.disk.keeps_locked plan.decomposition.dir).mono fun x ⟨hkey, hnone⟩ => hlock hkey hnone
            exact .inl ⟨e, { p with log := log, disk := p.disk.locked plan.decomposition.dir }, ⟨rfl, hkeeps⟩,
              fun _ _ => rfl⟩
          | true =>
            simp only [hacquire, acquire_of_grants hg]
            exact .inr ⟨plan, log, rfl, hg, fun _ _ => rfl⟩
        · simp only [hacquire]
          refine .inl ⟨e, { p with log := log, disk := disk }, ⟨rfl, hdisk.mono fun x hx => ?_⟩, fun _ _ => rfl⟩
          obtain ⟨hkey, hnone⟩ := Bool.and_eq_true_iff.mp hx
          have hkey : Disk.key x = Disk.key (lockPath plan.decomposition.dir) := by simpa using hkey
          exact hlock hkey (by simpa [Disk.stored?_congr hkey] using hnone)
  · simp only [hplan]
    exact .inl ⟨e, { p with disk := disk }, ⟨rfl, hdisk.mono nofun⟩, fun _ _ => rfl⟩

/-! How it goes on. -/

lemma foldPlan_leads (w : Workspace) (plan : Plan) (p : Project) :
    Leads (w.foldPlan plan) p (fun p' => ∃ log, p' = { p with log := log })
      fun merged _ => ((w.foldPlan plan).run p).1 = .ok merged := by
  obtain ⟨r, log, hrun, -⟩ := w.foldPlan_run plan p
  exact ⟨⟨log, by rw [hrun]⟩, fun _ h => h⟩

/-- Where a copy cannot be kept, at most directories have been made. -/
lemma keepCopy_throws (w : Workspace) (source : Path) (text : Text) (wanted : Bool) (p : Project) :
    Throws (w.keepCopy source text wanted) p fun p' =>
      p'.database = p.database ∧ p.disk.Keeps p'.disk fun _ => False := by
  unfold keepCopy
  split
  · exact throws_pure _ _ _
  · next b hb =>
    split
    · exact throws_pure _ _ _
    · rw [throws_get_bind]
      split
      · exact fun _ _ => ⟨rfl, Disk.keeps_rfl⟩
      · unfold now
        simp only [bind_assoc, pure_bind]
        unfold Throws
        simp only [run_get_bind, run_set_bind]
        rcases hsave : b.save (w.key source) text (w.clock p.ticks) p.disk with ⟨r, log, disk⟩
        cases r with
        | ok entry => split <;> exact fun _ he => by cases he
        | error e => split <;> exact fun _ _ => ⟨rfl, Disk.keeps_save_of_error hsave⟩

/-- The first part touches the record in no case. Where it gives a result, that is what the pieces fold into, and
nothing is to be written only in a dry run or if there is no change. -/
lemma leads_prepareUnder (t : Troubles) (w : Workspace) (plan : Plan) (o : MergeOptions) (p : Project) :
    Leads (prepareUnder t w plan o) p (fun p' => p'.database = p.database) fun r _ =>
      ((w.foldPlan plan).run p).1 = .ok r.1 ∧ (r.2 = none → o.dryRun = true ∨ r.1.changed = false) := by
  unfold prepareUnder
  refine Leads.bind (Troubles.leads_attempt (P := fun p' => p'.database = p.database) ((foldPlan_leads w plan p).mono
    (fun p' ⟨log, h⟩ => h ▸ rfl) fun _ _ _ h => h) fun _ _ => rfl) (fun _ h => h) ?_
  rintro merged p₁ hdb hfold
  split
  · next hnothing => exact leads_pure hdb ⟨hfold, fun _ => by simpa using hnothing⟩
  · refine Leads.bind (Troubles.leads_attempt ((leads_keepCopy_ticks _ _ _ p₁).mono (fun _ h => h.1.trans hdb)
      fun _ _ _ _ => trivial) fun _ _ => hdb) (fun _ h => h) ?_
    rintro copy p₂ hdb₂ -
    exact Troubles.leads_passOver_bind.mpr (leads_pure hdb₂ ⟨hfold, nofun⟩)

/-- Where it fails, nothing but the copy may be left. -/
lemma prepareUnder_throws (t : Troubles) (w : Workspace) (plan : Plan) (o : MergeOptions) (p : Project) :
    Throws (prepareUnder t w plan o) p fun p' =>
      p.disk.Keeps p'.disk fun x => ∃ y ∈ w.nextCopy? plan.source p.ticks, Disk.key y = Disk.key x := by
  unfold prepareUnder
  refine Throws.bind (Troubles.leads_attempt (P := fun p' => (p.disk.Keeps p'.disk fun _ => False) ∧ p'.ticks = p.ticks)
    ((foldPlan_leads w plan p).mono (fun p' ⟨log, h⟩ => h ▸ ⟨Disk.keeps_rfl, rfl⟩) fun _ _ _ h => h)
    fun disk hkeeps => ⟨hkeeps.mono nofun, rfl⟩) (fun _ h => h.1.mono fun _ => False.elim) ?_
  rintro merged p₁ ⟨hkeeps, hticks⟩ -
  have hkeeps : p.disk.Keeps p₁.disk fun x => ∃ y ∈ w.nextCopy? plan.source p.ticks, Disk.key y = Disk.key x :=
    hkeeps.mono fun _ => False.elim
  split
  · exact throws_pure _ _ _
  · refine (Troubles.throws_attempt ?_ ?_).andThen fun copy p₂ => Troubles.throws_passOver_bind.mpr (throws_pure _ _ _)
    · exact fun e he => hkeeps.trans ((keepCopy_throws w plan.source plan.text o.backup p₁ e he).2.mono fun _ =>
        False.elim)
    · refine fun disk hcopy => hkeeps.trans (hcopy.mono fun x hx => ?_)
      simpa [Troubles.among, hticks] using hx

/-! How it ends. -/

/-- An activity that never fails, since it reports how another ends. -/
lemma leads_reported {act : Activity α} {g : Except Failure α → β} {P : Project → Prop} {Q : β → Project → Prop} :
    Leads (fun p => (.ok (g (act.run p).1), (act.run p).2) : Activity β) p P Q ↔
      P (act.run p).2 ∧ Q (g (act.run p).1) (act.run p).2 := by
  refine ⟨fun h => ⟨h.1, h.2 _ rfl⟩, fun h => ⟨h.1, fun b hb => ?_⟩⟩
  obtain rfl := Except.ok.inj hb
  exact h.2

/-- Where nothing is to be written the second part does not fail. -/
lemma commitUnder_of_none (hnothing : o.dryRun = true ∨ merged.changed = false) (t : Troubles) (w : Workspace)
    (plan : Plan) (p : Project) :
    ∃ r p', (commitUnder t w plan o (merged, none)).run p = (.ok ⟨r, none⟩, p') := by
  change ∃ r p', (w.conclude plan merged o).run p = (.ok ⟨r, none⟩, p')
  cases hdry : o.dryRun with
  | true => exact ⟨_, _, conclude_run_dry hdry plan merged p⟩
  | false =>
    obtain h : merged.changed = false := by simpa [hdry] using hnothing
    unfold conclude
    simp only [hdry, h]
    exact ⟨_, _, rfl⟩

lemma leads_planAt (w : Workspace) (source : Path) (p : Project) :
    Leads (w.planAt source) p (fun p' => p'.disk = p.disk ∧ p'.database = p.database) fun plan _ =>
      p.disk.read source = .content plan.text ∧ plan.source = source ∧
        w.parser.layout w.options p.disk.isFile source plan.text = .ok plan.decomposition := by
  obtain ⟨log, hlog⟩ := planAt_run_log w source p
  refine ⟨by rw [hlog]; exact ⟨rfl, rfl⟩, fun plan hplan => ?_⟩
  obtain ⟨hread, hsource, -, hlayout, -⟩ := planAt_eq_ok (Prod.ext hplan rfl : (w.planAt source).run p =
    (.ok plan, ((w.planAt source).run p).2))
  exact ⟨hread, hsource, hlayout⟩

/-- A second split that fails leaves the source and the record. -/
lemma splitAgainUnder_throws {source : Path} (hread : p.disk.read source = .content text)
    (hapart : w.PiecesApart source text p.database) (t : Troubles) :
    Throws (splitAgainUnder t w source) p fun p' =>
      p'.database = p.database ∧ p'.disk.read source = .content text := by
  unfold splitAgainUnder
  refine Throws.bind (Troubles.leads_attempt (P := fun p' => p'.database = p.database ∧
      p'.disk.read source = .content text) ((leads_planAt w source p).mono ?_ fun _ _ _ h => h) ?_)
    (fun _ h => h) ?_
  · rintro p₁ ⟨hdisk, hdb⟩
    exact ⟨hdb, hdisk ▸ hread⟩
  · exact fun disk hkeeps => ⟨rfl, hkeeps.read nofun hread⟩
  · rintro plan p₁ ⟨hdb, hread₁⟩ ⟨hread', rfl, hlayout⟩
    obtain rfl : plan.text = text := Reading.content.inj (hread'.symm.trans hread)
    intro e he
    have hkeeps := (leads_splitUnder t w plan true p₁).1
    refine ⟨(splitUnder_throws t w plan true p₁ e he).trans hdb, hkeeps.read ?_ hread₁⟩
    rw [hdb]
    rintro (⟨q, hq, hkey⟩ | ⟨recorded, hlast, r, hr, hkey⟩)
    · exact hapart.pieces _ _ hlayout q hq hkey
    · exact hapart.recorded recorded hlast r hr hkey

/-- The write of the source comes next to last: if the second part fails without a result the record is as it was. -/
lemma commitUnder_throws (t : Troubles) (w : Workspace) (plan : Plan) (o : MergeOptions)
    (merged : Merged) (copy : Path) (p : Project) :
    Throws (commitUnder t w plan o (merged, some copy)) p fun p' => p'.database = p.database := by
  unfold commitUnder
  refine Throws.bind (Troubles.leads_attempt ((leads_overwrite_eq plan.source _ _ p).mono (fun _ h => h.1)
    fun _ _ _ _ => trivial) fun _ _ => rfl) (fun _ h => h) ?_
  rintro - p₁ - -
  refine throws_tell_bind.mpr ?_
  split
  · exact throws_pure _ _ _
  · exact fun e he => by cases he

/-- If it fails with a result, the source is written and not split, and holds the folded text. -/
lemma commitUnder_fails (hapart : o.resplit = true → w.PiecesApart plan.source merged.text p.database)
    (t : Troubles) (copy : Path) :
    Leads (commitUnder t w plan o (merged, some copy)) p (fun _ => True) fun r p' => ∀ e, r.failure = some e →
      r.done.written = true ∧ r.done.split = none ∧ p'.database = p.database ∧
        p'.disk.read plan.source = .content merged.text := by
  unfold commitUnder
  refine Leads.bind (Troubles.leads_attempt ((leads_overwrite_eq plan.source _ _ p).mono (fun _ h => h.1)
    fun _ _ _ h => h) fun _ _ => rfl) (fun _ _ => trivial) ?_
  rintro - p₁ hdb hread
  refine leads_tell_bind.mpr ?_
  generalize hp₂ : ({ p₁ with log := _ } : Project) = p₂
  obtain ⟨hdb₂, hread₂⟩ : p₂.database = p.database ∧ p₂.disk.read plan.source = .content merged.text := by
    rw [← hp₂]
    exact ⟨hdb, hread⟩
  split
  · exact leads_pure trivial nofun
  · next hwanted =>
    have hplaces : w.PiecesApart plan.source merged.text p₂.database := by
      rw [hdb₂]
      exact hapart (by simpa using hwanted)
    have hsplit := splitAgainUnder_throws hread₂ hplaces t
    refine leads_reported.mpr ⟨trivial, ?_⟩
    unfold Throws at hsplit
    cases hrun : ((splitAgainUnder t w plan.source).run p₂).1 with
    | ok split => exact nofun
    | error e =>
      intro _ _
      obtain ⟨hdb₃, hread₃⟩ := hsplit e hrun
      exact ⟨rfl, rfl, hdb₃.trans hdb₂, hread₃⟩

/-! Merges that fail. -/

/-- What is done under the lock for a merge that fails: without a result, the record is as it was, and the files are
but for the copy unless the source is next; with one, the source holds the folded text. -/
lemma heldUnder_fails (hapart : o.resplit = true → ∀ merged, ((w.foldPlan plan).run p).1 = .ok merged →
      w.PiecesApart plan.source merged.text p.database) (t : Troubles) :
    (Throws (do commitUnder t w plan o (← prepareUnder t w plan o)) p fun p' =>
      p'.database = p.database ∧
        (p.disk.Keeps p'.disk (fun x => ∃ y ∈ w.nextCopy? plan.source p.ticks, Disk.key y = Disk.key x) ∨
          ∃ merged copy, ((prepareUnder t w plan o).run p).1 = .ok (merged, some copy))) ∧
    Leads (do commitUnder t w plan o (← prepareUnder t w plan o)) p (fun _ => True) fun r p' =>
      ∀ e, r.failure = some e → r.done.written = true ∧ r.done.split = none ∧ p'.database = p.database ∧
        ∃ merged, ((w.foldPlan plan).run p).1 = .ok merged ∧ p'.disk.read plan.source = .content merged.text := by
  have hprepared := leads_prepareUnder t w plan o p
  have hfails := prepareUnder_throws t w plan o p
  unfold Leads Throws at *
  rw [run_bind]
  cases hprepare : (prepareUnder t w plan o).run p with
  | mk prepared p₁ =>
    rw [hprepare] at hprepared hfails
    obtain ⟨hdb₁, hprepared⟩ := hprepared
    cases prepared with
    | error e => exact ⟨fun e' _ => ⟨hdb₁, .inl (hfails e rfl)⟩, trivial, fun r h => by cases h⟩
    | ok prepared =>
      obtain ⟨merged, copy⟩ := prepared
      obtain ⟨hmerged, hnone⟩ := hprepared _ rfl
      cases copy with
      | none =>
        obtain ⟨r, p₂, hcommit⟩ := commitUnder_of_none (hnone rfl) t w plan p₁
        simp only [hcommit]
        refine ⟨nofun, trivial, fun r' hr' e he => ?_⟩
        obtain rfl := Except.ok.inj hr'
        cases he
      | some copy =>
        refine ⟨fun e he => ⟨?_, .inr ⟨merged, copy, rfl⟩⟩, trivial, fun r hr e he => ?_⟩
        · exact (commitUnder_throws t w plan o merged copy p₁ e he).trans hdb₁
        · obtain ⟨hwritten, hsplit, hdb₂, hread⟩ :=
            (commitUnder_fails (fun hresplit => hdb₁ ▸ hapart hresplit merged hmerged) t copy).2 r hr e he
          exact ⟨hwritten, hsplit, hdb₂.trans hdb₁, merged, hmerged, hread⟩

/-- A merge that fails leaves the project as it was, whatever goes wrong. Without a result, the record is as it was,
and unless the merge came as far as to write the source, so is every file but that of the lock and the copy. With one,
the second split failed: the source holds the folded text, the result says that it is written and not split, and the
record is as it was. -/
theorem failed_merge_leaves (t : Troubles) (w : Workspace) (path : Path) (o : MergeOptions)
    (p : Project)
    (hapart : o.resplit = true → ∀ merged, ((w.fold path).run p).1 = .ok merged →
      w.PiecesApart (w.abs path) merged.text p.database) :
    (∀ e, ((mergeUnder t w path o).run p).1 = .error e →
      ((mergeUnder t w path o).run p).2.database = p.database ∧
      (w.Unspoilt path p ((mergeUnder t w path o).run p).2 ∨
        ∃ merged copy, ((approachUnder t w path o).run p).1 = .ok (merged, some copy))) ∧
    ∀ r e, ((mergeUnder t w path o).run p).1 = .ok ⟨r, some e⟩ →
      r.written = true ∧ r.split = none ∧
      ((mergeUnder t w path o).run p).2.database = p.database ∧
      ∃ merged, ((w.fold path).run p).1 = .ok merged ∧
        ((mergeUnder t w path o).run p).2.disk.read (w.abs path) = .content merged.text := by
  unfold mergeUnder approachUnder
  rcases underLock_run t w path p with ⟨e, p', hunspoilt, hrun⟩ | ⟨plan, log, hplan, hgrants, hrun⟩
  · rw [hrun]
    exact ⟨fun _ _ => ⟨hunspoilt.database_eq, .inl hunspoilt⟩, fun r e h => by cases h⟩
  · obtain ⟨-, hsource, -⟩ := planAt_eq_ok hplan
    have hfold : ((w.fold path).run p).1 =
        ((w.foldPlan plan).run (locking plan.decomposition.dir { p with log := log })).1 := by
      unfold fold
      rw [run_bind, hplan]
      simp only
      rw [withLock_run_of_grants hgrants]
    have hkeeps : p.disk.Keeps (p.disk.locked plan.decomposition.dir) (w.Leftover path p) :=
      (p.disk.keeps_locked plan.decomposition.dir).mono fun x ⟨hkey, hnone⟩ =>
        .inl ⟨plan, congrArg Prod.fst hplan, hkey, hnone⟩
    rw [hrun, hrun]
    generalize hp₁ : locking plan.decomposition.dir { p with log := log } = p₁ at hfold ⊢
    obtain ⟨hdb₁, hticks₁, hdisk₁⟩ : p₁.database = p.database ∧ p₁.ticks = p.ticks ∧
        p₁.disk = p.disk.locked plan.decomposition.dir := by
      rw [← hp₁]
      exact ⟨rfl, rfl, rfl⟩
    rw [hfold, ← hsource, ← hdb₁] at hapart
    obtain ⟨hfails, -, hends⟩ := heldUnder_fails hapart t
    refine ⟨fun e he => ?_, fun r e hr => ?_⟩
    · obtain ⟨hdb₂, hspared⟩ := hfails e he
      rw [hdisk₁, hsource, hticks₁] at hspared
      refine ⟨hdb₂.trans hdb₁, hspared.imp_left fun hcopy => ⟨hdb₂.trans hdb₁, ?_⟩⟩
      exact hkeeps.trans (hcopy.mono fun _ => .inr)
    · obtain ⟨hwritten, hsplit, hdb₂, merged, hmerged, hread⟩ := hends _ hr e rfl
      exact ⟨hwritten, hsplit, hdb₂.trans hdb₁, merged, hfold.trans hmerged, hsource ▸ hread⟩

/-- A piece that cannot be read. -/
def unreadable : Troubles :=
  { failure? := fun step =>
      if step = .fold then some (.fault (.access "read" "/work/p/x/types/A.d.ts" .inputOutput), []) else none }

/-- A piece that is cut off when it is written. -/
def cutOff : Troubles :=
  { failure? := fun step =>
      if step = .pieces then some (.fault (.access "write" "/work/p/x/types/A.d.ts" .inputOutput),
        [.file "/work/p/x/types/A.d.ts" "type"]) else none }

/-- With the first trouble the source stays; with the second the edit is folded into it, but the record stays. -/
theorem failed_merge_leaves_pair :
    (∃ e p', (mergeUnder unreadable openWorkspace "t/x.ts" splitAfter).run editedPair = (.error e, p') ∧
      p'.disk.read (openWorkspace.abs "t/x.ts") = .content pairText) ∧
    ∃ r e p', (mergeUnder cutOff openWorkspace "t/x.ts" splitAfter).run editedPair =
        (.ok ⟨r, some e⟩, p') ∧
      r.written = true ∧ r.split = none ∧ p'.database = editedPair.database ∧
        p'.disk.read (openWorkspace.abs "t/x.ts") = .content mergedText := by
  have hfacts : ((approachUnder unreadable openWorkspace "t/x.ts" splitAfter).run editedPair).1.isOk = false ∧
      ((mergeUnder unreadable openWorkspace "t/x.ts" splitAfter).run editedPair).1.isOk = false ∧
      editedPair.disk.read (openWorkspace.abs "t/x.ts") = .content pairText ∧
      ((mergeUnder cutOff openWorkspace "t/x.ts" splitAfter).run editedPair).1.map
        (fun r => r.failure.isSome) = .ok true := by
    decide +kernel
  obtain ⟨hstops, hends, hread, hfails⟩ := hfacts
  constructor
  · obtain ⟨herror, -⟩ := failed_merge_leaves unreadable openWorkspace "t/x.ts" splitAfter editedPair
      fun _ => editedPair_apart
    cases hrun : (mergeUnder unreadable openWorkspace "t/x.ts" splitAfter).run editedPair with
    | mk r p' =>
      rw [hrun] at hends herror
      cases r with
      | ok r => cases hends
      | error e =>
        refine ⟨e, p', rfl, ?_⟩
        obtain ⟨-, hunspoilt | ⟨merged, copy, happroach⟩⟩ := herror e rfl
        · exact hunspoilt.read hread (by simp [nextCopy?, openWorkspace, sampleWorkspace])
        · rw [happroach] at hstops
          cases hstops
  · obtain ⟨⟨r, failure⟩, hr, hfailure⟩ := exists_of_map_eq_ok hfails
    obtain ⟨e, rfl⟩ := Option.isSome_iff_exists.mp hfailure
    obtain ⟨p', hrun⟩ := exists_run_eq hr
    obtain ⟨-, hresult⟩ := failed_merge_leaves cutOff openWorkspace "t/x.ts" splitAfter editedPair
      fun _ => editedPair_apart
    obtain ⟨hwritten, hsplit, hdatabase, merged, hmerged, hread⟩ := hresult r e hr
    obtain ⟨merged', hmerged', hparts⟩ := exists_of_map_eq_ok fold_editedPair
    obtain rfl := Except.ok.inj (hmerged.symm.trans hmerged')
    rw [(Prod.mk.inj hparts).1, hrun] at hread
    rw [hrun] at hdatabase
    exact ⟨r, e, p', hrun, hwritten, hsplit, hdatabase, hread⟩

end Workspace

end DeclPieces
