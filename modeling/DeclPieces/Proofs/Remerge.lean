import DeclPieces.Diff
import DeclPieces.Proofs.Activity
import DeclPieces.Proofs.LatestRun
import DeclPieces.Proofs.NumericDigest
import DeclPieces.Proofs.Parsing
import DeclPieces.Proofs.RoundTrip
import Mathlib.Logic.Function.Iterate

/-! Splitting and merging a source again and again: what a split leaves alone, what the next merge makes of
the source, and when it makes nothing of it. -/
namespace DeclPieces.Workspace
open Activity

/-- Does no recorded piece stand where the source is? -/
def Spares (w : Workspace) (source : Path) (database : Database) : Prop :=
  ∀ m ∈ database.manifest, ∀ r ∈ m.pieces, Disk.key (w.ofKey r.path) ≠ Disk.key source

/-- The source stands where no piece is or is recorded, nor the lock, and not at or below a copy of it; and the
lock stands where no piece cut from the source is. -/
structure Apart (w : Workspace) (source : Path) (d : Decomposition) : Prop where
  pieces : ∀ p ∈ d.pieces, Disk.key p.path ≠ Disk.key source
  records : ∀ p ∈ d.pieces, Disk.key (w.ofKey (w.key p.path)) ≠ Disk.key source
  lock : Disk.key (lockPath d.dir) ≠ Disk.key source
  lock_pieces : ∀ p ∈ d.content, Disk.key p.path ≠ Disk.key (lockPath d.dir)
  copies : ∀ b ∈ w.backups, ∀ name,
    ¬ Path.components (Path.join (b.sourceDir (w.key source)) name) <+: Path.components source

/-- What holds of the files whatever a split of the source does to them. -/
structure Stable (source : Path) (text : Text) (d : Decomposition) (I : Disk → Prop) : Prop where
  makeDirs : ∀ disk disk' path, disk.makeDirs path = .ok disk' → I disk → I disk'
  lock : ∀ disk disk', disk.write (lockPath d.dir) [] = .ok disk' → I disk → I disk'
  piece : ∀ p ∈ d.pieces, ∀ content disk disk', p.render? text = some content →
    disk.write p.path content = .ok disk' → I disk → I disk'
  remove : ∀ disk disk' path data, Disk.key path ≠ Disk.key source → disk.read path = .content data →
    disk.remove path = .ok disk' → I disk → I disk'

section Steps
variable {w : Workspace} {source : Path} {text : Text} {d : Decomposition} {I : Disk → Prop} {p : Project}

lemma Stable.locked (hI : Stable source text d I) {disk : Disk} (h : I disk) : I (disk.locked d.dir) := by
  unfold Disk.locked
  split
  · exact h
  · next disk₁ hm =>
    have h₁ := hI.makeDirs _ _ _ hm h
    split
    · exact h₁
    · split
      · next disk₂ hw => exact hI.lock _ _ hw h₁
      · exact h₁

lemma leads_sourceText (h : p.disk.read source = .content text) :
    Leads (sourceText source) p (· = p) fun t _ => t = text := by
  unfold sourceText
  rw [leads_get_bind]
  refine (leads_ofExcept _ p).mono (fun _ h => h) fun t p' _ ht => ?_
  simp only [SourceFile.load, h, Reading.toExcept] at ht
  exact (Except.ok.inj ht).symm

/-- A plan is made for the pieces of the text, whatever else is on the disk. -/
lemma leads_planOf [w.parser.Deterministic w.options] (hd : w.layout source text = .ok d) (p : Project) :
    Leads (w.planOf source text) p (fun p' => p'.disk = p.disk ∧ p'.database = p.database)
      fun plan _ => plan.source = source ∧ plan.text = text ∧ plan.decomposition = d := by
  have hread : w.parser.layout w.options p.disk.isFile source text = .ok d := (w.parser_layout _ _ _).trans hd
  unfold Parser.layout at hread
  unfold planOf
  rw [leads_get_bind, leads_tell_bind]
  split at hread
  · next f hf =>
    simp only [hf]
    rw [leads_tell_bind, hread]
    exact leads_pure ⟨rfl, rfl⟩ ⟨rfl, rfl, rfl⟩
  · cases hread

/-- What runs under a lock starts with the files as they are once it is taken. -/
lemma leads_withLock {α : Type} {body : Activity α} {P : Disk → Database → Prop} {Q : α → Disk → Prop} {dir : Path}
    (h : P (p.disk.locked dir) p.database)
    (hbody : ∀ p', p'.disk = p.disk.locked dir → p'.database = p.database →
      Leads body p' (fun p' => P p'.disk p'.database) fun a p' => Q a p'.disk) :
    Leads (withLock dir body) p (fun p' => P p'.disk p'.database) fun a p' => Q a p'.disk := by
  unfold withLock
  refine (leads_acquire dir p).bind ?_ ?_
  · rintro p' ⟨hdisk, hdatabase⟩
    rw [hdisk, hdatabase]
    exact h
  · rintro path p' ⟨hdisk, hdatabase⟩ -
    exact (hbody p' hdisk hdatabase).finally_ (fun _ h => h) fun _ _ h => h

lemma throws_withLock {α : Type} {body : Activity α} {E : Disk → Prop} {dir : Path} (h : E (p.disk.locked dir))
    (hbody : ∀ p', p'.disk = p.disk.locked dir → Throws body p' fun p' => E p'.disk) :
    Throws (withLock dir body) p fun p' => E p'.disk := by
  unfold withLock
  refine Throws.bind (leads_acquire dir p) ?_ ?_
  · rintro p' ⟨hdisk, -⟩
    rw [hdisk]
    exact h
  · rintro path p' ⟨hdisk, -⟩ -
    exact (hbody p' hdisk).finally_ fun _ h => h

/-- The pieces of the last run are among those that are recorded. -/
lemma leads_recordedPieces (h : w.Spares source p.database) :
    Leads (w.recordedPieces source) p (· = p)
      fun recorded _ => ∀ r ∈ recorded, Disk.key (w.ofKey r.path) ≠ Disk.key source := by
  unfold recordedPieces
  split
  · exact leads_pure rfl (by simp)
  · rw [leads_get_bind]
    simp only
    refine (leads_ofExcept _ p).bind (fun _ h => h) fun run? p' hp' _ => ?_
    cases run? with
    | none => exact leads_pure hp' (by simp)
    | some run =>
      refine (leads_ofExcept _ p').mono (fun _ h => h.trans hp') fun recorded _ _ hr r hmem => ?_
      unfold Database.piecesOf Database.query at hr
      cases hm : p.database.manifest with
      | none => simp [hm] at hr
      | some m =>
        simp only [hm, Except.ok.injEq] at hr
        subst hr
        have hpiece := (List.stableSort_perm _ _).mem_iff.mp hmem
        exact h m hm r (List.mem_filter.mp hpiece).1

/-- Pieces that are no longer produced are removed without touching the source. -/
lemma leads_clearStale (hI : Stable source text d I) {recorded : List RecordedPiece}
    (hr : ∀ r ∈ recorded, Disk.key (w.ofKey r.path) ≠ Disk.key source) (result : SplitResult) (h : I p.disk) :
    Leads (w.clearStale d recorded result) p (fun p' => I p'.disk ∧ p'.database = p.database) fun _ _ => True := by
  induction recorded generalizing p result with
  | nil => exact leads_pure ⟨h, rfl⟩ trivial
  | cons r rest ih =>
    have hrest := fun r hr' => hr r (List.mem_cons_of_mem _ hr')
    unfold clearStale
    split
    · exact ih hrest result h
    · simp only
      rw [leads_get_bind]
      split
      · next data hread =>
        split
        · exact leads_tell_bind.mpr (ih hrest _ h)
        · rw [leads_get_bind]
          split
          · exact leads_fail ⟨h, rfl⟩
          · next disk hremove =>
            refine leads_modify_bind.mpr (ih hrest _ ?_)
            exact hI.remove _ _ _ _ (hr r (by simp)) hread hremove h
      · exact ih hrest result h

/-- Writing some of the pieces keeps what a split keeps. -/
lemma leads_writeAll (hI : Stable source text d I) {some : Decomposition} (hs : ∀ q ∈ some.pieces, q ∈ d.pieces)
    (h : I p.disk) :
    Leads (writeAll some text) p (fun p' => I p'.disk ∧ p'.database = p.database) fun _ _ => True := by
  have hwrite : I (some.write text p.disk).2 := by
    have hdisk : (some.write text p.disk).2 = (writePieces text some.pieces p.disk).2 := by
      unfold Decomposition.write
      split <;> simp_all
    rw [hdisk]
    exact writePieces_preserves hI.makeDirs some.pieces (fun q hq => hI.piece q (hs q hq)) p.disk h
  unfold writeAll
  rw [leads_get_bind, leads_set_bind]
  split
  · exact leads_pure ⟨hwrite, rfl⟩ trivial
  · exact leads_throw ⟨hwrite, rfl⟩

lemma Spares.record {database database' : Database} {run : Run} {pieces : List RecordedPiece}
    (h : w.Spares source database) (hp : ∀ r ∈ pieces, Disk.key (w.ofKey r.path) ≠ Disk.key source)
    (hr : database.record run pieces = .ok database') : w.Spares source database' := by
  obtain ⟨m, m', hm, hrecord, rfl⟩ := Database.record_eq_ok hr
  obtain ⟨-, -, -, hpieces⟩ := Manifest.record_eq_ok hrecord
  intro m'' hmem r hr
  obtain rfl := Option.some.inj hmem
  rw [hpieces] at hr
  rcases List.mem_append.mp hr with hr | hr
  · exact h m hm r hr
  · obtain ⟨r', hr', rfl⟩ := List.mem_map.mp hr
    exact hp r' hr'

lemma Spares.prune {database database' : Database} {key : Text} {keep : Int} {n : Nat} (h : w.Spares source database)
    (hr : database.prune key keep = .ok (n, database')) : w.Spares source database' := by
  obtain ⟨m, hm, rfl⟩ := Database.prune_eq_ok hr
  intro m' hmem r hr
  obtain rfl := Option.some.inj hmem
  exact h m hm r (List.mem_filter.mp hr).1

/-- Recording a split leaves the files alone, and records nothing where the source is. -/
lemma leads_recordRun (hapart : w.Apart source d) {plan : Plan} (hplan : plan.decomposition = d) (result : SplitResult)
    (h : I p.disk) (hs : w.Spares source p.database) :
    Leads (w.recordRun plan result) p (fun p' => I p'.disk ∧ w.Spares source p'.database) fun _ _ => True := by
  unfold recordRun nextRunName now
  simp only [bind_assoc, pure_bind]
  rw [leads_get_bind, leads_set_bind, leads_get_bind, leads_set_bind, leads_get_bind]
  refine (leads_ofExcept _ _).bind ?_ ?_
  · rintro p' rfl
    exact ⟨h, hs⟩
  · rintro database p' rfl hrecord
    have hspares : w.Spares source database := by
      refine hs.record ?_ hrecord
      intro r hr
      obtain ⟨q, hq, rfl⟩ := List.mem_map.mp hr
      rw [hplan] at hq
      exact hapart.records q hq
    rw [leads_modify_bind]
    split
    · rw [leads_get_bind]
      split
      · exact leads_tell_bind.mpr (leads_pure ⟨h, hspares⟩ trivial)
      · next pruned database' hprune =>
        rw [leads_modify_bind]
        split
        · exact leads_tell_bind.mpr (leads_pure ⟨h, hspares.prune hprune⟩ trivial)
        · exact leads_pure ⟨h, hspares.prune hprune⟩ trivial
    · exact leads_pure ⟨h, hspares⟩ trivial

lemma leads_checkEdited (plan : Plan) (edited : List Path) (p : Project) :
    Leads (checkEdited plan edited) p (· = p) fun _ _ =>
      ∀ q ∈ plan.decomposition.pieces, q.path ∈ edited → ∃ data, q.render? plan.text = some data := by
  unfold checkEdited
  split
  · exact leads_throw rfl
  · next h =>
    refine leads_pure rfl fun q hq hedited => Option.isSome_iff_exists.mp ?_
    by_contra hnone
    refine h (List.any_eq_true.mpr ⟨q, hq, ?_⟩)
    simpa [hedited] using hnone

lemma leads_splitPlan (hapart : w.Apart source d) (hI : Stable source text d I) {plan : Plan} {force : Bool}
    (hplan : plan.source = source ∧ plan.text = text ∧ plan.decomposition = d) (h : I p.disk)
    (hs : w.Spares source p.database) :
    Leads (w.splitPlan plan force) p (fun p' => I p'.disk ∧ w.Spares source p'.database) fun _ _ => True := by
  obtain ⟨rfl, rfl, rfl⟩ := hplan
  unfold splitPlan
  refine (leads_recordedPieces hs).bind ?_ ?_
  · rintro p' rfl
    exact ⟨h, hs⟩
  · rintro recorded p₀ rfl hrecorded
    rw [leads_get_bind]
    refine (leads_checkEdited plan _ p₀).bind ?_ ?_
    · rintro p' rfl
      exact ⟨h, hs⟩
    rintro - p' rfl -
    rw [leads_tell_bind]
    simp only [pure_bind]
    refine (leads_writeAll hI ?_ ?_).bind ?_ ?_
    · exact fun q hq => (List.mem_filter.mp hq).1
    · exact h
    · rintro p₁ ⟨h₁, hd₁⟩
      exact ⟨h₁, hd₁ ▸ hs⟩
    · rintro - p₁ ⟨h₁, hd₁⟩ -
      have hs₁ : w.Spares plan.source p₁.database := hd₁ ▸ hs
      split
      · refine (leads_clearStale hI hrecorded _ h₁).bind ?_ ?_
        · rintro p₂ ⟨h₂, hd₂⟩
          exact ⟨h₂, hd₂ ▸ hs₁⟩
        · rintro result p₂ ⟨h₂, hd₂⟩ -
          refine (leads_recordRun hapart rfl result h₂ (hd₂ ▸ hs₁)).andThen fun result p₃ h₃ => ?_
          exact leads_tell_bind.mpr (leads_pure h₃ trivial)
      · exact leads_tell_bind.mpr (leads_pure ⟨h₁, hs₁⟩ trivial)

lemma leads_checkSplitOf (plan : Plan) (p : Project) : Leads (w.checkSplitOf plan) p (· = p) fun _ _ => True := by
  unfold checkSplitOf
  split
  · exact leads_pure rfl trivial
  · rw [leads_get_bind]
    refine (leads_ofExcept _ p).bind (fun _ h => h) fun run? p' hp' _ => ?_
    cases run? with
    | none => exact leads_pure hp' trivial
    | some run =>
      simp only
      split
      · exact leads_fail hp'
      · exact leads_pure hp' trivial

/-- Folding pieces back that make no change to the text changes no file. -/
lemma leads_mergePlan_unchanged {plan : Plan} {o : MergeOptions}
    (hsame : ∀ merged, plan.decomposition.merge w.options p.disk.read plan.text = .ok merged → merged.text = plan.text) :
    Leads (w.mergePlan plan o) p (fun p' => p'.disk = p.disk ∧ p'.database = p.database) fun _ _ => True := by
  unfold mergePlan
  refine (leads_checkSplitOf plan p).bind ?_ ?_
  · rintro p' rfl
    exact ⟨rfl, rfl⟩
  · rintro - p' rfl -
    rw [leads_get_bind]
    refine (leads_ofExcept _ p').bind ?_ ?_
    · rintro p₁ rfl
      exact ⟨rfl, rfl⟩
    · rintro merged p₁ rfl hmerge
      obtain ⟨-, hchanged, -⟩ := Decomposition.text_of_merge hmerge
      have hunchanged : merged.changed = false := by simp [hchanged, hsame merged hmerge]
      rw [leads_tell_bind]
      simp only [hunchanged, Bool.not_false, if_true]
      split
      · exact leads_pure ⟨rfl, rfl⟩ trivial
      · exact leads_tell_bind.mpr (leads_pure ⟨rfl, rfl⟩ trivial)

/-- Keeping a copy leaves the source alone. -/
lemma leads_keepCopy (hapart : w.Apart source d) (wanted : Bool) (h : p.disk.read source = .content text) :
    Leads (w.keepCopy source text wanted) p
      (fun p' => p'.disk.read source = .content text ∧ p'.database = p.database) fun _ _ => True := by
  unfold keepCopy
  split
  · exact leads_pure ⟨h, rfl⟩ trivial
  · next b hb =>
    split
    · exact leads_pure ⟨h, rfl⟩ trivial
    · rw [leads_get_bind]
      split
      · exact leads_fail ⟨h, rfl⟩
      · unfold now
        simp only [bind_assoc, pure_bind]
        rw [leads_get_bind, leads_set_bind, leads_get_bind]
        have hsaved : (b.save (w.key source) text (w.clock p.ticks) p.disk).2.2.read source = .content text :=
          Disk.read_save (hapart.copies b hb) (w.clock p.ticks) h
        rw [leads_set_bind]
        split
        · exact leads_tell_bind.mpr (leads_ofExcept_map ⟨hsaved, rfl⟩)
        · exact leads_ofExcept_map ⟨hsaved, rfl⟩

lemma leads_overwrite (path : Path) (text what : Text) (p : Project) :
    Leads (overwrite path text what) p (fun p' => p'.database = p.database)
      fun _ p' => p'.disk.read path = .content text := by
  unfold overwrite
  rw [leads_get_bind]
  cases hw : p.disk.write path text with
  | error e => exact leads_fail rfl
  | ok disk => exact ⟨rfl, fun _ _ => Disk.read_write_self hw⟩

/-- A source that cannot be overwritten is as it was. -/
lemma throws_overwrite_bind {α : Type} {f : PUnit → Activity α} {path : Path} {text what : Text} {E : Project → Prop}
    (h : E p) (hf : ∀ a p', Throws (f a) p' E) : Throws (overwrite path text what >>= f) p E := by
  unfold overwrite
  rw [bind_assoc, throws_get_bind]
  cases p.disk.write path text with
  | error e => exact fun _ _ => h
  | ok disk => exact hf _ _

/-- A merge that is carried out leaves the text with all pieces folded back as the source. -/
lemma leads_mergePlan {plan : Plan} {o : MergeOptions} (hdry : o.dryRun = false) (hresplit : o.resplit = false)
    (hapart : w.Apart plan.source plan.decomposition) (hsource : p.disk.read plan.source = .content plan.text) :
    Leads (w.mergePlan plan o) p (fun p' => p'.database = p.database) fun _ p' => p'.disk.read plan.source =
      .content (Edit.applyAll plan.text 0 (Merged.editsOf w.options p.disk.read plan.text plan.decomposition.cut)) := by
  unfold mergePlan
  refine (leads_checkSplitOf plan p).bind (fun _ h => h ▸ rfl) ?_
  rintro - p' rfl -
  rw [leads_get_bind]
  refine (leads_ofExcept _ p').bind (fun _ h => h ▸ rfl) ?_
  rintro merged p₁ rfl hmerge
  obtain ⟨htext, hchanged, -⟩ := Decomposition.text_of_merge hmerge
  rw [leads_tell_bind]
  simp only [hdry, hresplit, Bool.false_eq_true, if_false, Bool.not_false, if_true]
  split
  · next hsame =>
    have hkept : merged.text = plan.text := by simpa [hchanged] using hsame
    refine leads_tell_bind.mpr (leads_pure rfl ?_)
    rw [← htext, hkept]
    exact hsource
  · refine Leads.bind (leads_keepCopy hapart o.backup (by exact hsource)) (fun _ h => h.2) ?_
    rintro backup p₂ ⟨-, hdatabase⟩ -
    refine (leads_overwrite _ _ _ p₂).bind (fun _ h => h.trans hdatabase) fun _ p₃ hdatabase₃ hread => ?_
    refine leads_tell_bind.mpr (leads_pure (hdatabase₃.trans hdatabase) ?_)
    rw [← htext]
    exact hread

/-- A merge that fails leaves the source as it is. -/
lemma throws_mergePlan {plan : Plan} {o : MergeOptions} (hdry : o.dryRun = false) (hresplit : o.resplit = false)
    (hapart : w.Apart plan.source plan.decomposition) (hsource : p.disk.read plan.source = .content plan.text) :
    Throws (w.mergePlan plan o) p fun p' => p'.disk.read plan.source = .content plan.text := by
  unfold mergePlan
  refine Throws.bind (leads_checkSplitOf plan p) (fun _ h => h ▸ hsource) ?_
  rintro - p' rfl -
  rw [throws_get_bind]
  refine Throws.bind (leads_ofExcept _ p') (fun _ h => h ▸ hsource) ?_
  rintro merged p₁ rfl -
  rw [throws_tell_bind]
  simp only [hdry, hresplit, Bool.false_eq_true, if_false, Bool.not_false, if_true]
  split
  · exact throws_tell_bind.mpr (throws_pure _ _ _)
  · refine Throws.bind (leads_keepCopy hapart o.backup (by exact hsource)) (fun _ h => h.1) ?_
    rintro backup p₂ ⟨hsource₂, -⟩ -
    exact throws_overwrite_bind hsource₂ fun _ _ => throws_tell_bind.mpr (throws_pure _ _ _)

lemma stable_source (hapart : w.Apart source d) :
    Stable source text d fun disk => disk.read source = .content text where
  makeDirs _ _ _ hm h := Disk.read_makeDirs hm h
  lock _ _ hw h := Disk.read_write hw hapart.lock.symm h
  piece q hq _ _ _ _ hw h := Disk.read_write hw (hapart.pieces q hq).symm h
  remove _ _ _ _ hne hr hw h := Disk.read_remove hr hw hne.symm h

end Steps

section Runs
variable {w : Workspace} {path : Path} {text : Text} {d : Decomposition} {I : Disk → Prop} {p : Project}

/-- A split keeps what is stable, whether it fails or not. -/
theorem leads_split [w.parser.Deterministic w.options] (hd : w.layout (w.abs path) text = .ok d)
    (hapart : w.Apart (w.abs path) d) (hI : Stable (w.abs path) text d I) (force : Bool)
    (hsource : p.disk.read (w.abs path) = .content text) (h : I p.disk) (hs : w.Spares (w.abs path) p.database) :
    Leads (w.split path force) p (fun p' => I p'.disk ∧ w.Spares (w.abs path) p'.database) fun _ _ => True := by
  unfold split plan
  simp only [bind_assoc]
  refine (leads_sourceText hsource).bind ?_ ?_
  · rintro p' rfl
    exact ⟨h, hs⟩
  · rintro t p' rfl rfl
    refine (leads_planOf hd p').bind ?_ ?_
    · rintro p₁ ⟨hdisk, hdatabase⟩
      exact ⟨hdisk ▸ h, hdatabase ▸ hs⟩
    · rintro plan p₁ ⟨hdisk, hdatabase⟩ ⟨hsrc, htext, hdec⟩
      have h₁ : I p₁.disk := hdisk ▸ h
      have hs₁ : w.Spares (w.abs path) p₁.database := hdatabase ▸ hs
      rw [hdec]
      refine leads_withLock (P := fun disk database => I disk ∧ w.Spares (w.abs path) database)
        (Q := fun _ _ => True) ⟨hI.locked h₁, hs₁⟩ fun p₂ hdisk₂ hdatabase₂ => ?_
      exact leads_splitPlan hapart hI ⟨hsrc, htext, hdec⟩ (hdisk₂ ▸ hI.locked h₁) (hdatabase₂ ▸ hs₁)

/-- A merge that makes no change to the text keeps what is stable. -/
theorem leads_merge_unchanged [w.parser.Deterministic w.options] (hd : w.layout (w.abs path) text = .ok d)
    (hI : Stable (w.abs path) text d I) (o : MergeOptions)
    (hsame : ∀ disk, I disk → ∀ merged, d.merge w.options disk.read text = .ok merged → merged.text = text)
    (hsource : p.disk.read (w.abs path) = .content text) (h : I p.disk) (hs : w.Spares (w.abs path) p.database) :
    Leads (w.merge path o) p (fun p' => I p'.disk ∧ w.Spares (w.abs path) p'.database) fun _ _ => True := by
  unfold merge
  refine (leads_sourceText hsource).bind ?_ ?_
  · rintro p' rfl
    exact ⟨h, hs⟩
  · rintro t p' rfl rfl
    refine (leads_planOf hd p').bind ?_ ?_
    · rintro p₁ ⟨hdisk, hdatabase⟩
      exact ⟨hdisk ▸ h, hdatabase ▸ hs⟩
    · rintro plan p₁ ⟨hdisk, hdatabase⟩ ⟨hsrc, rfl, rfl⟩
      have h₁ : I p₁.disk := hdisk ▸ h
      have hs₁ : w.Spares (w.abs path) p₁.database := hdatabase ▸ hs
      refine leads_withLock (P := fun disk database => I disk ∧ w.Spares (w.abs path) database)
        (Q := fun _ _ => True) ⟨hI.locked h₁, hs₁⟩ fun p₂ hdisk₂ hdatabase₂ => ?_
      have h₂ : I p₂.disk := hdisk₂ ▸ hI.locked h₁
      refine (leads_mergePlan_unchanged (hsame _ h₂)).mono ?_ fun _ _ _ _ => trivial
      rintro p₃ ⟨hdisk₃, hdatabase₃⟩
      exact ⟨hdisk₃ ▸ h₂, hdatabase₃ ▸ hdatabase₂ ▸ hs₁⟩

section Carried
variable {o : MergeOptions} [w.parser.Deterministic w.options]
  (hd : w.layout (w.abs path) text = .ok d)
  (hapart : w.Apart (w.abs path) d) (hdry : o.dryRun = false) (hresplit : o.resplit = false)
  (hsource : p.disk.read (w.abs path) = .content text)
include hd hapart hdry hresplit hsource

/-- A merge that succeeds leaves the text with all pieces folded back, as they are read under the lock. -/
theorem leads_merge :
    Leads (w.merge path o) p (fun p' => p'.database = p.database) fun _ p' => p'.disk.read (w.abs path) =
      .content (Edit.applyAll text 0 (Merged.editsOf w.options (p.disk.locked d.dir).read text d.cut)) := by
  unfold merge
  refine (leads_sourceText hsource).bind (fun _ h => h ▸ rfl) ?_
  rintro t p' rfl rfl
  refine (leads_planOf hd p').bind (fun _ h => h.2) ?_
  rintro plan p₁ ⟨hdisk, hdatabase⟩ ⟨hsrc, rfl, rfl⟩
  rw [← hdisk] at hsource ⊢
  rw [← hsrc] at hapart hsource ⊢
  refine leads_withLock (P := fun _ database => database = p'.database) (Q := fun _ disk => disk.read plan.source =
    .content (Edit.applyAll plan.text 0 (Merged.editsOf w.options (p₁.disk.locked plan.decomposition.dir).read
      plan.text plan.decomposition.cut))) hdatabase fun p₂ hdisk₂ hdatabase₂ => ?_
  have hlocked : p₂.disk.read plan.source = .content plan.text := by
    rw [hdisk₂]
    exact (stable_source hapart).locked hsource
  rw [← hdisk₂, ← hdatabase, ← hdatabase₂]
  exact leads_mergePlan hdry hresplit hapart hlocked

/-- A merge that fails leaves the source as it is. -/
theorem throws_merge : Throws (w.merge path o) p fun p' => p'.disk.read (w.abs path) = .content text := by
  unfold merge
  refine Throws.bind (leads_sourceText hsource) (fun _ h => h ▸ hsource) ?_
  rintro t p' rfl rfl
  refine Throws.bind (leads_planOf hd p') (fun _ h => h.1 ▸ hsource) ?_
  rintro plan p₁ ⟨hdisk, -⟩ ⟨hsrc, rfl, rfl⟩
  rw [← hdisk] at hsource
  rw [← hsrc] at hapart hsource ⊢
  have hlocked := (stable_source hapart).locked hsource
  refine throws_withLock (E := fun disk => disk.read plan.source = .content plan.text) hlocked fun p₂ hdisk₂ => ?_
  exact throws_mergePlan hdry hresplit hapart (hdisk₂ ▸ hlocked)

end Carried

end Runs

section Rounds
variable {w : Workspace} {source path : Path} {text : Text} {d : Decomposition} {p : Project}

/-- Does each file stored for a piece give back the text that the piece was cut from? -/
def Returned (o : Options) (text : Text) (d : Decomposition) (disk : Disk) : Prop :=
  ∀ q ∈ d.content, ∀ data ∈ disk.stored? q.path, stripMarkers o data = (text.take q.stop.toNat).drop q.start.toNat

/-- Does each file as a split writes it? -/
def Returnable (o : Options) (text : Text) (d : Decomposition) : Prop :=
  ∀ q ∈ d.content, ∀ data ∈ q.render? text, stripMarkers o data = (text.take q.stop.toNat).drop q.start.toNat

lemma stable_returned {f : SourceFile} (hd : f.decompose w.options = .ok d) (hapart : w.Apart source d)
    (hr : Returnable w.options text d) : Stable source text d (Returned w.options text d) where
  makeDirs _ _ _ hm h := fun q hq data hs => h q hq data (Disk.stored?_makeDirs hm hs)
  lock _ _ hw h := fun q hq data hs => by
    rw [Disk.stored?_write hw, if_neg (hapart.lock_pieces q hq)] at hs
    exact h q hq data hs
  piece r hrd content _ _ hrender hw h := fun q hq data hs => by
    rw [Disk.stored?_write hw] at hs
    split at hs
    · next hkey =>
      -- no other piece is stored there, so the file is the new one of this piece
      obtain rfl : content = data := Option.some.inj hs
      have hsymm : Std.Symm fun p q : Piece => Disk.key p.path ≠ Disk.key q.path := ⟨fun _ _ h => h.symm⟩
      obtain rfl : q = r := by
        by_contra hne
        exact (Decomposition.keys_apart hd).forall (List.mem_of_mem_drop hq) hrd hne hkey
      exact hr q hq content hrender
    · exact h q hq data hs
  remove _ _ _ _ _ hread hw h := fun q hq data hs => h q hq data (Disk.stored?_remove hread hw hs)

lemma Stable.and {I J : Disk → Prop} (hI : Stable source text d I) (hJ : Stable source text d J) :
    Stable source text d fun disk => I disk ∧ J disk where
  makeDirs _ _ _ hm h := ⟨hI.makeDirs _ _ _ hm h.1, hJ.makeDirs _ _ _ hm h.2⟩
  lock _ _ hw h := ⟨hI.lock _ _ hw h.1, hJ.lock _ _ hw h.2⟩
  piece q hq _ _ _ hr hw h := ⟨hI.piece q hq _ _ _ hr hw h.1, hJ.piece q hq _ _ _ hr hw h.2⟩
  remove _ _ _ _ hne hr hw h := ⟨hI.remove _ _ _ _ hne hr hw h.1, hJ.remove _ _ _ _ hne hr hw h.2⟩

lemma Returned.returns {f : SourceFile} {disk : Disk} (hd : f.decompose w.options = .ok d)
    (h : Returned w.options text d disk) : ∀ q ∈ d.cut, Merged.Returns w.options disk.read text q := by
  intro q hq data hread
  obtain ⟨dir, opening, pieces, hm⟩ := Decomposition.exists_made hd
  obtain ⟨hmem, hgenerated⟩ := List.mem_filter.mp hq
  refine h q ?_ data (Disk.stored?_of_read hread)
  unfold Decomposition.content
  cases hp : d.pieces with
  | nil => simp [hp] at hmem
  | cons index rest =>
    have hindex := hm.index_generated index (by simp [Decomposition.index?, hp])
    rw [hp] at hmem
    rcases List.mem_cons.mp hmem with rfl | hmem
    · simp [hindex] at hgenerated
    · exact hmem

lemma Returned.text_of_merge {f : SourceFile} {disk : Disk} {merged : Merged} (hd : f.decompose w.options = .ok d)
    (h : Returned w.options text d disk) (hmerge : d.merge w.options disk.read text = .ok merged) :
    merged.text = text := by
  obtain ⟨htext, -, hdesc⟩ := Decomposition.text_of_merge hmerge
  rw [htext]
  exact Decomposition.applyAll_editsOf_eq_self hdesc (h.returns hd)

/-- The source reads as `text`, and no recorded piece stands where it is. -/
structure Unchanged (w : Workspace) (source : Path) (text : Text) (p : Project) : Prop where
  source_eq : p.disk.read source = .content text
  spared : w.Spares source p.database

/-- Besides, each file stored for a piece returns what the piece was cut from. -/
structure Settled (w : Workspace) (source : Path) (text : Text) (d : Decomposition) (p : Project) : Prop
    extends Unchanged w source text p where
  returned : Returned w.options text d p.disk

/-- The project after a split that keeps edited pieces and a merge, whatever comes of them. -/
def round (w : Workspace) (path : Path) (o : MergeOptions) (p : Project) : Project :=
  ((w.merge path o).run ((w.split path false).run p).2).2

/-- The source with all pieces folded back, as their files are after the split of the next round. -/
def refolded (w : Workspace) (path : Path) (text : Text) (d : Decomposition) (p : Project) : Text :=
  Edit.applyAll text 0
    (Merged.editsOf w.options (((w.split path false).run p).2.disk.locked d.dir).read text d.cut)

/-- Is there nothing for the merge of the next round to do, unless it fails? -/
def Idle (w : Workspace) (path : Path) (o : MergeOptions) (text : Text) (d : Decomposition) (p : Project) : Prop :=
  ∀ result, ((w.merge path o).run ((w.split path false).run p).2).1 = .ok result → w.refolded path text d p = text

section
variable {o : MergeOptions} [w.parser.Deterministic w.options]
  (hd : w.layout (w.abs path) text = .ok d)
  (hapart : w.Apart (w.abs path) d)
include hd hapart

lemma Unchanged.split (h : w.Unchanged (w.abs path) text p) (force : Bool) :
    w.Unchanged (w.abs path) text ((w.split path force).run p).2 := by
  obtain ⟨hs, hspare⟩ := (leads_split hd hapart (stable_source hapart) force h.source_eq h.source_eq h.spared).1
  exact ⟨hs, hspare⟩

/-- A round leaves the source as it is just if there is nothing for its merge to do. -/
lemma Unchanged.round_iff (h : w.Unchanged (w.abs path) text p) (hdry : o.dryRun = false) (hresplit : o.resplit = false) :
    (w.round path o p).disk.read (w.abs path) = .content text ↔ w.Idle path o text d p := by
  have hsplit := (h.split hd hapart false).source_eq
  have hok := (leads_merge hd hapart hdry hresplit hsplit).2
  constructor
  · intro hread result hrun
    have hfold := hok result hrun
    exact Reading.content.inj (hfold.symm.trans hread)
  · intro hidle
    unfold round
    cases hrun : ((w.merge path o).run ((w.split path false).run p).2).1 with
    | ok result =>
      have hfold := hok result hrun
      have hsame := hidle result hrun
      unfold refolded at hsame
      rwa [hsame] at hfold
    | error e => exact throws_merge hd hapart hdry hresplit hsplit e hrun

lemma Unchanged.spares_round (h : w.Unchanged (w.abs path) text p) (hdry : o.dryRun = false)
    (hresplit : o.resplit = false) : w.Spares (w.abs path) (w.round path o p).database := by
  have hsplit := h.split hd hapart false
  unfold round
  rw [(leads_merge hd hapart hdry hresplit hsplit.source_eq).1]
  exact hsplit.spared

/-- If each round leaves the source as it is, no recorded piece comes to stand where it is either. -/
lemma Unchanged.rounds (h : w.Unchanged (w.abs path) text p) (hdry : o.dryRun = false) (hresplit : o.resplit = false)
    (hstep : ∀ n, w.Unchanged (w.abs path) text ((w.round path o)^[n] p) →
      ((w.round path o)^[n + 1] p).disk.read (w.abs path) = .content text) (n : Nat) :
    w.Unchanged (w.abs path) text ((w.round path o)^[n] p) := by
  induction n with
  | zero => exact h
  | succ n ih =>
    refine ⟨hstep n ih, ?_⟩
    rw [Function.iterate_succ_apply']
    exact ih.spares_round hd hapart hdry hresplit

variable (hr : Returnable w.options text d)
include hr

lemma Settled.split (h : w.Settled (w.abs path) text d p) (force : Bool) :
    w.Settled (w.abs path) text d ((w.split path force).run p).2 := by
  obtain ⟨f, hf⟩ := Parser.layout_eq_ok hd
  have hI := stable_returned hf hapart hr
  obtain ⟨hret, -⟩ := (leads_split hd hapart hI force h.source_eq h.returned h.spared).1
  exact ⟨h.toUnchanged.split hd hapart force, hret⟩

lemma Settled.merge (h : w.Settled (w.abs path) text d p) (o : MergeOptions) :
    w.Settled (w.abs path) text d ((w.merge path o).run p).2 := by
  obtain ⟨f, hf⟩ := Parser.layout_eq_ok hd
  have hI := (stable_source hapart).and (stable_returned hf hapart hr)
  obtain ⟨⟨hs, hret⟩, hspare⟩ := (leads_merge_unchanged hd hI o (fun disk hdisk _ => hdisk.2.text_of_merge hf)
    h.source_eq ⟨h.source_eq, h.returned⟩ h.spared).1
  exact ⟨⟨hs, hspare⟩, hret⟩

lemma Settled.rounds (h : w.Settled (w.abs path) text d p) (o : MergeOptions) (n : Nat) :
    w.Settled (w.abs path) text d ((w.round path o)^[n] p) := by
  induction n with
  | zero => exact h
  | succ n ih =>
    rw [Function.iterate_succ_apply']
    exact Settled.merge hd hapart hr (Settled.split hd hapart hr ih false) o

end

/-- The source stays as it is over any number of splits and merges just if after each of the splits all pieces,
those that it kept included, fold back into the same text, or the merge fails. It is enough that after the
first split each file returns what its piece was cut from. -/
theorem rounds_leave_source [w.parser.Deterministic w.options] (hd : w.layout (w.abs path) text = .ok d)
    (hapart : w.Apart (w.abs path) d) (hspares : w.Spares (w.abs path) p.database)
    (hsource : p.disk.read (w.abs path) = .content text) :
    (∀ o, o.dryRun = false → o.resplit = false →
      ((∀ n, ((w.round path o)^[n] p).disk.read (w.abs path) = .content text) ↔
        ∀ n, w.Idle path o text d ((w.round path o)^[n] p))) ∧
    (Returnable w.options text d → Returned w.options text d ((w.split path false).run p).2.disk →
      ∀ o n, ((w.round path o)^[n] p).disk.read (w.abs path) = .content text) := by
  have hp : w.Unchanged (w.abs path) text p := ⟨hsource, hspares⟩
  constructor
  · intro o hdry hresplit
    constructor
    · intro h n
      have hunchanged := hp.rounds hd hapart hdry hresplit (fun n _ => h (n + 1)) n
      have hnext := h (n + 1)
      rw [Function.iterate_succ_apply'] at hnext
      exact (hunchanged.round_iff hd hapart hdry hresplit).mp hnext
    · intro h n
      refine (hp.rounds hd hapart hdry hresplit (fun k hk => ?_) n).source_eq
      rw [Function.iterate_succ_apply']
      exact (hk.round_iff hd hapart hdry hresplit).mpr (h k)
  · intro hr hreturned o n
    have hfirst : w.Settled (w.abs path) text d (w.round path o p) :=
      Settled.merge hd hapart hr ⟨hp.split hd hapart false, hreturned⟩ o
    cases n with
    | zero => exact hsource
    | succ n => exact (hfirst.rounds hd hapart hr o n).source_eq

end Rounds

def sampleWorkspace : Workspace :=
  { root := "/work", options := { translatedRoot := "/work/t", piecesRoot := "/work/p" }
    parser := .builtIn [], differ := Diff.unified }

instance : sampleWorkspace.parser.Deterministic sampleWorkspace.options :=
  Parser.ofGrammar_deterministic .builtIn [] _

lemma sampleWorkspace_eq : sampleWorkspace = { sampleWorkspace with digest := Digest.Numeric.hash } :=
  congrArg (fun digest => { sampleWorkspace with digest := digest }) Digest.Numeric.hash_eq

def mergedText : Text := "type A=5\ntype B=2\n"

/-- A project in which an edit of the first declaration is merged, and still stands in its piece. -/
def mergedProject : Project :=
  { disk := { nodes := [
      ("/work", .directory), ("/work/t", .directory), ("/work/t/x.ts", .file mergedText),
      ("/work/p", .directory), ("/work/p/x", .directory), ("/work/p/x/types", .directory),
      ("/work/p/x/types/A.d.ts", .file "type A=5\n")] }
    database := { manifest := some {
      runs := [⟨"first", "t/x.ts", "old text", "p/x", 3, 0, 0⟩]
      pieces := [⟨"first", "p/x/types/A.d.ts", "A", "types", 0, 8, "old piece", false⟩] } } }

def mergedPieces : Decomposition :=
  { source := "/work/t/x.ts"
    dir := "/work/p/x"
    pieces := [
      { path := "/work/p/x/index.d.ts"
        role := .generated "export \x7b A \x7d from './types/A';\nexport \x7b B \x7d from './types/B';\n" },
      { start := 9, stop := 17, path := "/work/p/x/types/B.d.ts", exportText := "/*@piece-export*/ export \x7b B \x7d;"
        role := .declared "B" .typeAlias .types [] false },
      { start := 0, stop := 8, path := "/work/p/x/types/A.d.ts", exportText := "/*@piece-export*/ export \x7b A \x7d;"
        role := .declared "A" .typeAlias .types [] false }] }

lemma layout_mergedText : sampleWorkspace.layout (sampleWorkspace.abs "t/x.ts") mergedText = .ok mergedPieces := by
  decide +kernel

/-- The split keeps the edited piece, and the source stays as it is. -/
theorem rounds_leave_merged_edit :
    ((sampleWorkspace.split "t/x.ts" false).run mergedProject).1.map (·.kept) = .ok ["/work/p/x/types/A.d.ts"] ∧
    ∀ o n, ((sampleWorkspace.round "t/x.ts" o)^[n] mergedProject).disk.read (sampleWorkspace.abs "t/x.ts") =
      .content mergedText := by
  have hfacts : sampleWorkspace.Spares (sampleWorkspace.abs "t/x.ts") mergedProject.database ∧
      Returnable sampleWorkspace.options mergedText mergedPieces ∧
      Returned sampleWorkspace.options mergedText mergedPieces
        ((sampleWorkspace.split "t/x.ts" false).run mergedProject).2.disk ∧
      ((sampleWorkspace.split "t/x.ts" false).run mergedProject).1.map (·.kept) = .ok ["/work/p/x/types/A.d.ts"] ∧
      mergedProject.disk.read (sampleWorkspace.abs "t/x.ts") = .content mergedText := by
    unfold Spares Returnable Returned
    rw [sampleWorkspace_eq]
    decide +kernel
  obtain ⟨hspares, hreturnable, hreturned, hkept, hsource⟩ := hfacts
  have hapart : sampleWorkspace.Apart (sampleWorkspace.abs "t/x.ts") mergedPieces := by
    refine ⟨?_, ?_, ?_, ?_, by simp [sampleWorkspace]⟩ <;> decide +kernel
  exact ⟨hkept, (rounds_leave_source layout_mergedText hapart hspares hsource).2 hreturnable hreturned⟩

/-- Two declarations, not split yet. -/
def unsplitProject : Project :=
  { disk := { nodes := [
      ("/work", .directory), ("/work/t", .directory), ("/work/t/x.ts", .file "type A=1\ntype B=2\n")] } }

/-- A split, an edit that adds a declaration to the first piece, and a merge. -/
def addDeclaration : Activity (Partial MergeResult) := do
  let _ ← sampleWorkspace.split "t/x.ts" false
  onDisk (·.write "/work/p/x/types/A.d.ts" "type A=1\ntype C=3\n")
  sampleWorkspace.merge "t/x.ts" {}

/-- The declaration that was added is added once more by the next split and merge. -/
theorem rounds_repeat_added_declaration :
    (addDeclaration.run unsplitProject).1.map (·.done.written) = .ok true ∧
    (addDeclaration.run unsplitProject).2.disk.read "/work/t/x.ts" = .content "type A=1\ntype C=3\ntype B=2\n" ∧
    (sampleWorkspace.round "t/x.ts" {} (addDeclaration.run unsplitProject).2).disk.read "/work/t/x.ts" =
      .content "type A=1\ntype C=3\ntype C=3\ntype B=2\n" := by
  unfold addDeclaration
  rw [sampleWorkspace_eq]
  decide +kernel

end DeclPieces.Workspace
