import DeclPieces.Proofs.LineDiff
import DeclPieces.Proofs.SplitStatus
import DeclPieces.Proofs.Trouble

/-! A dry run of a merge shows what the merge would do. Both begin in the same way, up to the point where the pieces
are folded into the text of the source; from there on a dry run only makes the diff. -/
namespace DeclPieces.Workspace
open Activity
variable {w : Workspace} {source path : Path} {text : Text} {plan : Plan} {p p' : Project}
  {merged : Merged} {o : MergeOptions} {e : Failure} {d : Decomposition} {x : Path}

/-! The two parts of a merge. -/

/-- The first part of a merge, up to the copy of the source: it checks the source and folds the pieces into it. -/
def foldPlan (w : Workspace) (plan : Plan) : Activity Merged := do
  w.checkSplitOf plan
  let merged ← ofExcept (plan.decomposition.merge w.options (← get).disk.read plan.text)
  tell (merged.missing.map fun piece => Log.record .warn "Piece file missing; keeping original text"
    [("file", .text plan.source), ("piece", .text piece)])
  return merged

/-- What a merge reports before it writes anything. -/
def foldResult (plan : Plan) (merged : Merged) : MergeResult :=
  { source := plan.source, applied := merged.applied, missing := merged.missing, changed := merged.changed }

/-- The second part of a merge: the copy, and the source itself. -/
def conclude (w : Workspace) (plan : Plan) (merged : Merged) (o : MergeOptions) : Activity (Partial MergeResult) := do
  let result := foldResult plan merged
  if o.dryRun then
    if !merged.changed then return ⟨result, none⟩
    return ⟨{ result with diff := w.differ (w.key plan.source) plan.text merged.text }, none⟩
  if !merged.changed then
    tellOne .debug "Merge left source unchanged" [("file", .text plan.source), ("applied", .int merged.applied)]
    return ⟨result, none⟩
  let backup ← w.keepCopy plan.source plan.text o.backup
  overwrite plan.source merged.text "writing merged source"
  tellOne .info "Merged pieces into declaration file"
    [("file", .text plan.source), ("applied", .int merged.applied), ("missing", .int merged.missing.length)]
  return ⟨{ result with backup := backup, written := true }, none⟩

/-- The same, and then the second split if it is wanted. -/
def finish (w : Workspace) (plan : Plan) (merged : Merged) (o : MergeOptions) :
    Activity (Partial MergeResult) := do
  let r ← w.conclude plan merged o
  if !(o.resplit && r.done.written) then return r
  fun p =>
    let again := (w.splitAgain plan.source).run p
    (.ok (r.done.andSplit again.1), again.2)

/-- A merge that stops before the copy. -/
def fold (w : Workspace) (path : Path) : Activity Merged := do
  let plan ← w.planAt (w.abs path)
  withLock plan.decomposition.dir (w.foldPlan plan)

lemma mergePlan_eq_conclude (w : Workspace) (plan : Plan) (o : MergeOptions) :
    w.mergePlan plan { o with resplit := false } = (do let merged ← w.foldPlan plan; w.conclude plan merged o) := by
  unfold mergePlan foldPlan conclude
  simp only [bind_assoc, pure_bind]
  rfl

lemma mergePlan_eq_fold (w : Workspace) (plan : Plan) (o : MergeOptions) :
    w.mergePlan plan o = (do let merged ← w.foldPlan plan; w.finish plan merged o) := by
  unfold finish
  rw [mergePlan_eq, mergePlan_eq_conclude, bind_assoc]

/-! The first part. -/

/-- Folding the pieces only adds to the log. -/
lemma foldPlan_run (w : Workspace) (plan : Plan) (p : Project) :
    ∃ r log, (w.foldPlan plan).run p = (r, { p with log := log }) ∧
      ∀ merged, r = .ok merged → plan.decomposition.merge w.options p.disk.read plan.text = .ok merged := by
  have hcheck := (w.leads_checkSplitOf_eq plan p).1
  unfold foldPlan
  rw [run_bind]
  cases hrun : (w.checkSplitOf plan).run p with
  | mk check p₁ =>
    rw [hrun] at hcheck
    obtain rfl : p₁ = p := hcheck
    cases check with
    | error e => exact ⟨_, p₁.log, rfl, fun merged h => by cases h⟩
    | ok _ =>
      simp only
      rw [run_get_bind, run_bind, run_ofExcept]
      cases plan.decomposition.merge w.options p₁.disk.read plan.text with
      | error e => exact ⟨_, p₁.log, rfl, fun merged h => by cases h⟩
      | ok merged =>
        refine ⟨_, _, rfl, fun merged' h => ?_⟩
        rw [← Except.ok.inj h]

/-- How the first part of a merge ends that folds the pieces: with a plan of the source, under the lock, and with
nothing but the log and the file of the lock changed. -/
structure Folded (w : Workspace) (path : Path) (p : Project) (merged : Merged) (plan : Plan) (p₁ : Project) :
    Prop where
  planned : ((w.planAt (w.abs path)).run p).1 = .ok plan
  read : p.disk.read (w.abs path) = .content plan.text
  source_eq : plan.source = w.abs path
  merge_eq : plan.decomposition.merge w.options p₁.disk.read plan.text = .ok merged
  disk_eq : p₁.disk = p.disk.locked plan.decomposition.dir
  database_eq : p₁.database = p.database
  ticks_eq : p₁.ticks = p.ticks
  named_eq : p₁.named = p.named

/-- Where the first part fails, nothing but the log and the file of the lock has changed, and the merge fails with the
same error. Where it does not, the merge goes on from there. -/
lemma merge_run_fold (w : Workspace) (path : Path) (p : Project) :
    (∃ e p', (w.fold path).run p = (.error e, p') ∧
      (∀ o, (w.merge path o).run p = (.error e, p')) ∧
      p'.database = p.database ∧ p'.ticks = p.ticks ∧ p'.named = p.named ∧
      (p'.disk = p.disk ∨ ∃ plan, ((w.planAt (w.abs path)).run p).1 = .ok plan ∧
        p'.disk = p.disk.locked plan.decomposition.dir)) ∨
    ∃ merged plan p₁, w.Folded path p merged plan p₁ ∧
      (w.fold path).run p = (.ok merged, release (lockPath plan.decomposition.dir) p₁) ∧
      ∀ o, (w.merge path o).run p = (((w.finish plan merged o).run p₁).1,
        release (lockPath plan.decomposition.dir) ((w.finish plan merged o).run p₁).2) := by
  simp only [merge_eq_guarded, fold, guarded, mergePlan_eq_fold, run_bind]
  cases hplan : (w.planAt (w.abs path)).run p with
  | mk plan? p₀ =>
    obtain ⟨log, hp₀⟩ := w.planAt_run_log (w.abs path) p
    rw [hplan] at hp₀
    obtain rfl : p₀ = { p with log := log } := hp₀
    cases plan? with
    | error e => exact .inl ⟨e, _, rfl, fun o => rfl, rfl, rfl, rfl, .inl rfl⟩
    | ok plan =>
      obtain ⟨hread, hsource, -, -, -⟩ := planAt_eq_ok hplan
      simp only
      cases hg : grants plan.decomposition.dir { p with log := log } with
      | false =>
        obtain ⟨e, hacq⟩ := acquire_of_not_grants hg
        unfold withLock
        simp only [run_bind, hacq]
        exact .inl ⟨e, _, rfl, fun o => rfl, rfl, rfl, rfl, .inr ⟨plan, rfl, rfl⟩⟩
      | true =>
        simp only [withLock_run_of_grants hg, run_bind]
        obtain ⟨r, log', hfold, hmerge⟩ := w.foldPlan_run plan (locking plan.decomposition.dir { p with log := log })
        rw [hfold]
        cases r with
        | error e => exact .inl ⟨e, _, rfl, fun o => rfl, rfl, rfl, rfl, .inr ⟨plan, rfl, rfl⟩⟩
        | ok merged =>
          refine .inr ⟨merged, plan, { locking plan.decomposition.dir { p with log := log } with log := log' },
            ⟨congrArg Prod.fst hplan, hread, hsource, ?_, rfl, rfl, rfl, rfl⟩, rfl, fun o => rfl⟩
          exact hmerge merged rfl

/-! The second part. -/

/-- A dry run makes the diff, and nothing else. -/
lemma conclude_run_dry (hdry : o.dryRun = true) (plan : Plan) (merged : Merged) (p : Project) :
    (w.conclude plan merged o).run p = (.ok ⟨{ foldResult plan merged with
      diff := if merged.changed then w.differ (w.key plan.source) plan.text merged.text else [] }, none⟩, p) := by
  unfold conclude
  rw [hdry]
  cases merged.changed <;> rfl

lemma finish_run_dry (hdry : o.dryRun = true) (plan : Plan) (merged : Merged) (p : Project) :
    (w.finish plan merged o).run p = (.ok ⟨{ foldResult plan merged with
      diff := if merged.changed then w.differ (w.key plan.source) plan.text merged.text else [] }, none⟩, p) := by
  unfold finish
  rw [run_bind, conclude_run_dry hdry]
  simp only [foldResult, Bool.and_false, Bool.not_false, if_true]
  rfl

/-- What a merge reports that goes on: the same, and that it wrote the source if the fold changed it. -/
structure Concluded (plan : Plan) (merged : Merged) (r : MergeResult) : Prop where
  source_eq : r.source = plan.source
  applied_eq : r.applied = merged.applied
  missing_eq : r.missing = merged.missing
  changed_eq : r.changed = merged.changed
  written_eq : r.written = merged.changed

lemma merge_changed {read : Path → Reading Text} (h : d.merge w.options read text = .ok merged) :
    merged.changed = decide (merged.text ≠ text) := by
  obtain ⟨last, -, h⟩ := bind_eq_ok_iff.mp h
  obtain rfl := pure_eq_ok_iff.mp h
  rfl

/-- Without a second split a merge leaves the record as it was, and the source then holds the folded text. -/
lemma conclude_writes (hdry : o.dryRun = false) (hchanged : merged.changed = decide (merged.text ≠ plan.text))
    (hread : p.disk.read plan.source = .content plan.text) :
    Leads (w.conclude plan merged o) p (fun p' => p'.database = p.database ∧ p.ticks ≤ p'.ticks) fun r p' =>
      r.failure = none ∧ Concluded plan merged r.done ∧ p'.disk.read plan.source = .content merged.text := by
  unfold conclude
  rw [hdry]
  simp only [Bool.false_eq_true, if_false]
  split
  · next hsame =>
    have hsame : merged.changed = false := by simpa using hsame
    have htext : merged.text = plan.text := by simpa [hsame] using hchanged
    refine leads_tell_bind.mpr (leads_pure ⟨rfl, le_rfl⟩ ⟨rfl, ⟨rfl, rfl, rfl, rfl, hsame.symm⟩, ?_⟩)
    rw [htext]
    exact hread
  · next hdiffers =>
    have hdiffers : merged.changed = true := by simpa using hdiffers
    refine (leads_keepCopy_ticks _ _ _ p).bind (fun _ h => h) ?_
    rintro backup p₁ ⟨hdb, hticks⟩ -
    refine (leads_overwrite_eq _ _ _ p₁).bind (fun _ h => ⟨h.1.trans hdb, hticks.trans h.2.ge⟩) ?_
    rintro - p₂ ⟨hdb₂, hticks₂⟩ hread₂
    exact leads_tell_bind.mpr (leads_pure ⟨hdb₂.trans hdb, hticks.trans hticks₂.ge⟩
      ⟨rfl, ⟨rfl, rfl, rfl, rfl, hdiffers.symm⟩, hread₂⟩)

/-- No piece of a source that reads as `text` stands where the source is, and none is recorded there. -/
structure PiecesApart (w : Workspace) (source : Path) (text : Text) (database : Database) : Prop where
  pieces : ∀ isFile d, w.parser.layout w.options isFile source text = .ok d →
    ∀ q ∈ d.pieces, Disk.key q.path ≠ Disk.key source
  recorded : ∀ recorded, w.lastPieces source database = .ok recorded →
    ∀ r ∈ recorded, Disk.key (w.ofKey r.path) ≠ Disk.key source

/-- No piece of a source that reads as `text` stands at `x`, and none is recorded there. -/
structure PiecesMiss (w : Workspace) (source : Path) (text : Text) (database : Database) (x : Path) : Prop where
  pieces : ∀ isFile d, w.parser.layout w.options isFile source text = .ok d →
    ∀ q ∈ d.pieces, Disk.key q.path ≠ Disk.key x
  recorded : ∀ recorded, w.lastPieces source database = .ok recorded →
    ∀ r ∈ recorded, Disk.key (w.ofKey r.path) ≠ Disk.key x

lemma PiecesApart.miss {database : Database} (h : w.PiecesApart source text database) :
    w.PiecesMiss source text database source := ⟨h.pieces, h.recorded⟩

/-- Whatever becomes of it, a second split leaves what is at a path that its pieces miss. -/
lemma splitAgain_keeps (hmiss : w.PiecesMiss source text p.database x)
    (hread : p.disk.read source = .content text) :
    p.disk.Keeps ((w.splitAgain source).run p).2.disk fun y => Disk.key y ≠ Disk.key x := by
  rw [splitAgain, run_bind]
  cases hplan : (w.planAt source).run p with
  | mk plan? p₁ =>
    obtain ⟨log, hlog⟩ := w.planAt_run_log source p
    rw [hplan] at hlog
    obtain rfl : p₁ = { p with log := log } := hlog
    cases plan? with
    | error e => exact Disk.keeps_rfl
    | ok plan =>
      obtain ⟨hread', rfl, -, hlayout, -⟩ := planAt_eq_ok hplan
      obtain rfl : plan.text = text := Reading.content.inj (hread'.symm.trans hread)
      refine (leads_splitPlan_keeps w plan true { p with log := log }).1.mono ?_
      rintro y (⟨q, hq, hkey⟩ | ⟨recorded, hlast, r, hr, hkey⟩) hy
      · exact hmiss.pieces _ _ hlayout q hq (hkey.trans hy)
      · exact hmiss.recorded recorded hlast r hr (hkey.trans hy)

/-- A merge that splits again leaves the folded text too, if no piece of it is in the way of the source. -/
lemma finish_writes (hdry : o.dryRun = false) (hchanged : merged.changed = decide (merged.text ≠ plan.text))
    (hread : p.disk.read plan.source = .content plan.text)
    (hapart : o.resplit = true → w.PiecesApart plan.source merged.text p.database) :
    Leads (w.finish plan merged o) p (fun _ => True) fun r p' =>
      Concluded plan merged r.done ∧ p'.disk.read plan.source = .content merged.text := by
  unfold finish
  refine (conclude_writes hdry hchanged hread).bind (fun _ _ => trivial) ?_
  rintro r p₁ ⟨hdb, -⟩ ⟨-, hdone, hread₁⟩
  split
  · exact leads_pure trivial ⟨hdone, hread₁⟩
  · next hagain =>
    have hresplit : o.resplit = true := by
      by_contra hnot
      simp [hnot] at hagain
    have hmiss := (hapart hresplit).miss
    rw [← hdb] at hmiss
    have hstays := (splitAgain_keeps hmiss hread₁).read (not_not_intro rfl) hread₁
    refine ⟨trivial, fun r' hr' => ?_⟩
    obtain rfl := Except.ok.inj hr'
    refine ⟨?_, hstays⟩
    cases ((w.splitAgain plan.source).run p₁).1 with
    | ok split => exact ⟨hdone.source_eq, hdone.applied_eq, hdone.missing_eq, hdone.changed_eq, hdone.written_eq⟩
    | error e => exact hdone

/-! Dry runs. -/

/-- The merge as a dry run. -/
def MergeOptions.dry (o : MergeOptions) : MergeOptions := { o with dryRun := true }

/-- The merge in earnest. -/
def MergeOptions.real (o : MergeOptions) : MergeOptions := { o with dryRun := false }

/-- Nothing has changed but the log and the file of the lock, for which a directory may have been made. -/
structure Unwritten (w : Workspace) (path : Path) (p p' : Project) : Prop where
  database_eq : p'.database = p.database
  ticks_eq : p'.ticks = p.ticks
  named_eq : p'.named = p.named
  disk_eq : p'.disk = p.disk ∨ ∃ plan, ((w.planAt (w.abs path)).run p).1 = .ok plan ∧
    p'.disk = p.disk.locked plan.decomposition.dir

/-- Every file reads as before. -/
lemma Unwritten.read (h : w.Unwritten path p p') {data : Text} (hread : p.disk.read x = .content data) :
    p'.disk.read x = .content data := by
  rcases h.disk_eq with hdisk | ⟨plan, -, hdisk⟩
  · rwa [hdisk]
  · rw [hdisk]
    exact Disk.read_locked hread _

/-- No file has been made but that of the lock. -/
lemma Unwritten.stored? (h : w.Unwritten path p p')
    (hx : ∀ plan, ((w.planAt (w.abs path)).run p).1 = .ok plan →
      Disk.key x ≠ Disk.key (lockPath plan.decomposition.dir)) : p'.disk.stored? x = p.disk.stored? x := by
  rcases h.disk_eq with hdisk | ⟨plan, hplan, hdisk⟩
  · rw [hdisk]
  · rw [hdisk]
    exact Disk.stored?_locked p.disk (hx plan hplan)

/-- What a dry run reports of a source that reads as `text`. -/
structure Previewed (w : Workspace) (source : Path) (text : Text) (merged : Merged) (r : MergeResult) : Prop where
  source_eq : r.source = source
  applied_eq : r.applied = merged.applied
  missing_eq : r.missing = merged.missing
  changed_eq : r.changed = merged.changed
  written_eq : r.written = false
  diff_eq : r.diff = if merged.changed then w.differ (w.key source) text merged.text else []
  /-- This is so if the difference of two texts is empty only if there is none. -/
  diff_nil_iff : (∀ name before after, w.differ name before after = [] → before = after) →
    (r.diff = [] ↔ r.changed = false)

/-- The edit of the sample is folded into its source. -/
lemma fold_editedPair :
    ((openWorkspace.fold "t/x.ts").run editedPair).1.map (fun m => (m.text, m.changed)) =
      .ok (mergedText, true) := by decide +kernel

/-- The pieces of the sample miss a path that none of them has. -/
lemma editedPair_miss {x : Path} (hpieces : ∀ q ∈ mergedPieces.pieces, Disk.key q.path ≠ Disk.key x)
    (hrecorded : ∀ r ∈ editedManifest.pieces, Disk.key (openWorkspace.ofKey r.path) ≠ Disk.key x) :
    openWorkspace.PiecesMiss (openWorkspace.abs "t/x.ts") mergedText editedPair.database x := by
  refine ⟨fun isFile d hd => ?_, fun recorded hlast => ?_⟩
  · obtain rfl : mergedPieces = d :=
      Except.ok.inj (layout_mergedText.symm.trans ((sampleWorkspace.parser_layout isFile _ _).symm.trans hd))
    exact hpieces
  · obtain rfl := Except.ok.inj (lastPieces_editedPair.symm.trans hlast)
    exact hrecorded

/-- The pieces of the sample are not in the way of its source. -/
lemma editedPair_apart (m : Merged) (hm : ((openWorkspace.fold "t/x.ts").run editedPair).1 = .ok m) :
    openWorkspace.PiecesApart (openWorkspace.abs "t/x.ts") m.text editedPair.database := by
  obtain ⟨merged, hmerged, hparts⟩ := exists_of_map_eq_ok fold_editedPair
  obtain rfl := Except.ok.inj (hm.symm.trans hmerged)
  rw [(Prod.mk.inj hparts).1]
  obtain ⟨hpieces, hrecorded⟩ :=
    editedPair_miss (x := openWorkspace.abs "t/x.ts") (by decide +kernel) (by decide +kernel)
  exact ⟨hpieces, hrecorded⟩

/-- A dry run predicts the merge and changes nothing. Each file, the record and the clock stay as they are. It fails
just when the merge fails before it copies the source, and with the same error. Otherwise it reports what the merge
reports of the pieces and the change; and if that gives a result, it wrote the source if there was a change, and the
source then holds the text of which the dry run gave the difference. -/
theorem dry_run_predicts_merge (w : Workspace) (path : Path) (o : MergeOptions) (p : Project)
    (hapart : o.resplit = true → ∀ merged, ((w.fold path).run p).1 = .ok merged →
      w.PiecesApart (w.abs path) merged.text p.database) :
    w.Unwritten path p ((w.merge path o.dry).run p).2 ∧
    (∀ e, ((w.merge path o.dry).run p).1 = .error e ↔
      ((w.fold path).run p).1 = .error e) ∧
    (∀ e, ((w.fold path).run p).1 = .error e →
      ((w.merge path o.real).run p).1 = .error e) ∧
    ∀ merged, ((w.fold path).run p).1 = .ok merged → ∃ text r,
      p.disk.read (w.abs path) = .content text ∧
      ((w.merge path o.dry).run p).1 = .ok ⟨r, none⟩ ∧
      w.Previewed (w.abs path) text merged r ∧
      ∀ r', ((w.merge path o.real).run p).1 = .ok r' →
        r'.done.applied = r.applied ∧ r'.done.missing = r.missing ∧ r'.done.changed = r.changed ∧
          r'.done.written = r.changed ∧
          ((w.merge path o.real).run p).2.disk.read (w.abs path) = .content merged.text := by
  rcases w.merge_run_fold path p with
    ⟨e, p', hfold, hmerge, hdb, hticks, hnamed, hdisk⟩ | ⟨merged, plan, p₁, hfolded, hfold, hmerge⟩
  · rw [hfold, hmerge, hmerge]
    exact ⟨⟨hdb, hticks, hnamed, hdisk⟩, by simp, by simp, fun merged h => by cases h⟩
  · rw [hfold] at hapart
    rw [hfold, hmerge, hmerge, finish_run_dry rfl]
    have hsource := hfolded.source_eq
    have hchanged := merge_changed hfolded.merge_eq
    have hread₁ : p₁.disk.read plan.source = .content plan.text := by
      rw [hfolded.disk_eq, hsource]
      exact Disk.read_locked hfolded.read _
    refine ⟨⟨hfolded.database_eq, hfolded.ticks_eq, hfolded.named_eq, .inr ⟨plan, hfolded.planned, hfolded.disk_eq⟩⟩,
      by simp, by simp, ?_⟩
    rintro _ ⟨⟩
    refine ⟨plan.text, _, hfolded.read, rfl, ⟨hsource, rfl, rfl, rfl, rfl, ?diff, ?empty⟩, fun r' hr' => ?real⟩
    case diff => rw [← hsource]
    case empty =>
      intro hdiffer
      cases hc : merged.changed with
      | false => simp [foldResult, hc]
      | true =>
        have hdiffers : merged.text ≠ plan.text := by simpa [hc] using hchanged
        simp only [foldResult, hc, if_true, Bool.true_eq_false, iff_false]
        exact fun hnil => hdiffers (hdiffer _ _ _ hnil).symm
    case real =>
      have hplaces : o.resplit = true → w.PiecesApart plan.source merged.text p₁.database := fun hresplit =>
        hsource ▸ hfolded.database_eq ▸ hapart hresplit merged rfl
      have hwrites := finish_writes (o := o.real) rfl hchanged hread₁ hplaces
      obtain ⟨hdone, hread'⟩ := hwrites.2 r' hr'
      exact ⟨hdone.applied_eq, hdone.missing_eq, hdone.changed_eq, hdone.written_eq, hsource ▸ hread'⟩

/-- The edit of a piece is shown, then folded in. -/
theorem dry_run_predicts_edit : ∃ r r',
    ((openWorkspace.merge "t/x.ts" splitAfter.dry).run editedPair).1 =
      .ok ⟨r, none⟩ ∧ r.changed = true ∧ r.diff ≠ [] ∧
    ((openWorkspace.merge "t/x.ts" splitAfter.real).run editedPair).1 = .ok r' ∧
      r'.done.applied = r.applied ∧ r'.done.written = true ∧
    ((openWorkspace.merge "t/x.ts" splitAfter.real).run editedPair).2.disk.read
      (openWorkspace.abs "t/x.ts") = .content mergedText := by
  have hreal : ((openWorkspace.merge "t/x.ts" splitAfter.real).run editedPair).1.map
      (fun r => r.failure.isNone) = .ok true := by decide +kernel
  obtain ⟨merged, hmerged, hparts⟩ := exists_of_map_eq_ok fold_editedPair
  obtain ⟨htext, hchanged⟩ := Prod.mk.inj hparts
  obtain ⟨r', hr', -⟩ := exists_of_map_eq_ok hreal
  obtain ⟨-, -, -, hpredicts⟩ := dry_run_predicts_merge openWorkspace "t/x.ts" splitAfter editedPair
    fun _ => editedPair_apart
  obtain ⟨text, r, -, hdry, hpreviewed, hsame⟩ := hpredicts merged hmerged
  obtain ⟨happlied, -, -, hwritten, hread⟩ := hsame r' hr'
  have hr : r.changed = true := hpreviewed.changed_eq.trans hchanged
  have hdiff : r.diff ≠ [] := by
    intro hnil
    rw [(hpreviewed.diff_nil_iff fun _ _ _ => Diff.eq_of_unified_eq_nil).mp hnil] at hr
    cases hr
  exact ⟨r, r', hdry, hr, hdiff, hr', happlied, hwritten.trans hr, hread.trans (congrArg Reading.content htext)⟩

end DeclPieces.Workspace
