import DeclPieces.Proofs.History
import DeclPieces.Proofs.SplitStatus

/-! A merge that splits the source again leaves nothing to do. The record and the files are then those of the new
split, so every piece is unchanged, and the next merge folds each piece back into the text that it was cut from. -/
namespace DeclPieces

namespace Merged

/-- Pieces that are all there and put back what they were cut from are folded back without a change. -/
lemma merge_eq_self_of_read {d : Decomposition} {o : Options} {read : Path → Reading Text} {text : Text}
    (hd : Descending text.length d.cut)
    (h : ∀ p ∈ d.cut, ∃ data, read p.path = .content data ∧
      stripMarkers o data = (text.take p.stop.toNat).drop p.start.toNat) :
    d.merge o read text = .ok { text := text, applied := d.cut.length, missing := [], changed := false } := by
  have hpresent : ∀ p ∈ d.cut, isPresent read p = true := by
    intro p hp
    obtain ⟨data, hdata, -⟩ := h p hp
    simp [isPresent, hdata]
  have hreadable : ∀ p ∈ d.cut, isUnreadable read p = false := by
    intro p hp
    obtain ⟨data, hdata, -⟩ := h p hp
    simp [isUnreadable, hdata]
  have hreturns : ∀ p ∈ d.cut, Returns o read text p := by
    intro p hp data hread
    obtain ⟨data', hdata, hstrip⟩ := h p hp
    obtain rfl : data' = data := Reading.content.inj (hdata.symm.trans hread)
    exact hstrip
  have hall : d.cut.filter (isPresent read) = d.cut := List.filter_eq_self.mpr hpresent
  have hnone : d.cut.filter (fun p => !isPresent read p) = [] :=
    List.filter_eq_nil_iff.mpr fun p hp => by simp [hpresent p hp]
  rw [Decomposition.merge_eq_self hd hreadable hreturns, hall, hnone]
  rfl

end Merged

namespace Disk

/-- Where something lies in a directory, the directory need not be made. -/
lemma makeDirsFrom_of_follow {d : Disk} {dir : Path} {parts : List Text} {name : Text} {n : Node}
    (h : d.follow dir .directory (parts ++ [name]) = .ok n) : d.makeDirsFrom dir parts = .ok d := by
  induction parts generalizing dir with
  | nil => rfl
  | cons part rest ih =>
    unfold makeDirsFrom
    simp only [List.cons_append, follow] at h ⊢
    split at h
    · cases h
    · next hlen =>
      rw [if_neg hlen]
      split at h
      · next next hnext =>
        cases next with
        | file data =>
          -- nothing lies in a file
          cases rest <;> simp [follow] at h
        | directory =>
          rw [hnext]
          exact ih h
      · cases h

/-- Asking for a lock whose file is there changes nothing. -/
lemma locked_eq_self {d : Disk} {dir : Path} (hdir : dir ≠ []) {data : Text}
    (h : d.read (Workspace.lockPath dir) = .content data) : d.locked dir = d := by
  have hlook := read_eq_content_iff.mp h
  have hplain : Path.Plain Workspace.lockName := by constructor <;> decide
  have hparts : Path.components (Workspace.lockPath dir) = Path.components dir ++ [Workspace.lockName] :=
    Path.components_join_plain hdir hplain
  have hmade : d.makeDirs dir = .ok d := by
    unfold look at hlook
    rw [hparts] at hlook
    exact makeDirsFrom_of_follow hlook
  unfold locked
  simp only [hmade, hlook]

end Disk

namespace Workspace
open Activity
variable {w : Workspace} {source path : Path} {text : Text} {plan : Plan} {p p' : Project} {m : Manifest}
  {recorded : List RecordedPiece} {disk : Disk} {run : Run} {kept : List Path} {q : Piece} {d : Decomposition}

/-- A project that nobody touched since a split: the source reads as it was split, every piece as it was written, and
the split is the last one in the record. -/
structure Untouched (w : Workspace) (plan : Plan) (p : Project) : Prop where
  source_read : p.disk.read plan.source = .content plan.text
  piece_read : ∀ q ∈ plan.decomposition.pieces, ∃ data, q.render? plan.text = some data ∧
    p.disk.read q.path = .content data
  piece_named : ∀ q ∈ plan.decomposition.pieces, w.ofKey (w.key q.path) = q.path
  hash_eq : plan.hash = w.digest plan.text
  recorded : ∃ m, p.database.manifest = some m ∧ w.Remembers plan.source (some plan) p.ticks m

/-- A split that keeps nothing leaves such a project. -/
lemma Performed.untouched (h : w.Performed plan true p p' recorded disk run kept)
    (hkeys : plan.decomposition.pieces.Pairwise fun r q => Disk.key r.path ≠ Disk.key q.path)
    (hread : p.disk.read plan.source = .content plan.text) (hhash : plan.hash = w.digest plan.text)
    (hnames : w.Traces plan.source plan.decomposition recorded) (hclock : Monotone w.clock)
    (hm : p.database.manifest = some m) (hsound : m.Sound)
    (hpast : ∀ r ∈ m.runs, r.source = w.key plan.source → r.createdAt ≤ w.clock p.ticks) : w.Untouched plan p' := by
  have hnone : kept = [] := by
    rw [h.kept_eq]
    simp [spared]
  obtain ⟨m', hm', hremembers, -⟩ := h.filed.remembers hclock hsound hpast hm
  refine ⟨h.read_source (h.sparing hnames) hread, fun q hq => ?_, hnames.named, hhash, m', hm', hremembers⟩
  exact h.read_of_not_kept (h.sparing hnames) hkeys hq (by simp [hnone])

/-! Status. -/

/-- What a status says of a piece that nobody touched. -/
def PieceStatus.untouched (q : Piece) : PieceStatus :=
  { path := q.path, symbol := q.symbol, generated := q.isGenerated, state := .unchanged }

lemma Untouched.left (h : w.Untouched plan p) : ∃ run, w.Left plan run [] p := by
  obtain ⟨m, hm, hremembers⟩ := h.recorded
  obtain ⟨run, hlatest, hhash, hperm⟩ := hremembers.latest_some plan rfl
  refine ⟨run, h.source_read, fun q hq => ?_, h.piece_named, h.hash_eq, m, hm, hlatest, hhash, hperm⟩
  obtain ⟨data, hrender, hread⟩ := h.piece_read q hq
  exact ⟨data, data, hrender, hread, by simp⟩

/-- Then the source is unchanged, and so is every piece. -/
theorem Untouched.status (h : w.Untouched plan p) (hrecords : w.records = true) (hsource : w.abs path = plan.source) :
    ∃ s, (w.status path).run p = (.ok s, p) ∧ s.sourceChanged = false ∧
      s.pieces.Perm (plan.decomposition.pieces.map .untouched) := by
  obtain ⟨run, hleft⟩ := h.left
  obtain ⟨s, hrun, -, hsame, hpieces⟩ := hleft.status hrecords hsource
  have hafter : PieceStatus.after [] = .untouched := by
    funext q
    simp [PieceStatus.after, PieceStatus.untouched]
  exact ⟨s, hrun, hsame, hafter ▸ hpieces⟩

/-! Merges. -/

/-- Then the source is as it was last split. -/
lemma Untouched.checkSplitOf_run (h : w.Untouched plan p) (hp : p'.database = p.database) :
    (w.checkSplitOf plan).run p' = (.ok (), p') := by
  obtain ⟨m, hm, hremembers⟩ := h.recorded
  obtain ⟨run, hlatest, hhash, -⟩ := hremembers.latest_some plan rfl
  unfold checkSplitOf
  split
  · rfl
  · rw [run_get_bind, run_bind, run_ofExcept]
    simp only [hp, Database.latest?, Database.query, hm, hlatest, SourceFile.lift, hhash, ne_eq, not_true_eq_false,
      if_false]
    rfl

/-- A merge that makes no change only adds to the log, whatever its options. -/
lemma mergePlan_run_unchanged {merged : Merged} (hcheck : (w.checkSplitOf plan).run p = (.ok (), p))
    (hmerge : plan.decomposition.merge w.options p.disk.read plan.text = .ok merged) (hsame : merged.changed = false)
    (o : MergeOptions) :
    ∃ log, (w.mergePlan plan o).run p =
      (.ok ⟨{ source := plan.source, applied := merged.applied, missing := merged.missing, changed := false }, none⟩,
        { p with log := log }) := by
  unfold mergePlan
  rw [run_bind, hcheck]
  simp only
  rw [run_get_bind, run_bind, run_ofExcept, hmerge]
  simp only [SourceFile.lift, run_tell_bind, hsame, Bool.not_false, if_true]
  cases o.dryRun with
  | true => exact ⟨_, rfl⟩
  | false => exact ⟨_, rfl⟩

/-- Then all pieces are folded back, and nothing changes. -/
theorem Untouched.merge (h : w.Untouched plan p) (hsource : w.abs path = plan.source)
    (hlayout : w.parser.layout w.options p.disk.isFile plan.source plan.text = .ok plan.decomposition)
    (hdesc : Merged.Descending plan.text.length plan.decomposition.cut)
    (hstrip : ∀ q ∈ plan.decomposition.cut, ∀ data ∈ q.render? plan.text,
      stripMarkers w.options data = (plan.text.take q.stop.toNat).drop q.start.toNat)
    (hfree : grants plan.decomposition.dir p = true) (hheld : lockPath plan.decomposition.dir ∉ p.held)
    (o : MergeOptions) :
    ∃ log, (w.merge path o).run p =
      (.ok ⟨{ source := plan.source, applied := plan.decomposition.cut.length, missing := [], changed := false }, none⟩,
        { p with disk := p.disk.locked plan.decomposition.dir, log := log }) := by
  obtain ⟨log, hplan⟩ := planAt_run_of_read (w := w) h.source_read
  simp only [hlayout, ← h.hash_eq] at hplan
  have hgrants : grants plan.decomposition.dir { p with log := log } = true := hfree
  have hmerge : plan.decomposition.merge w.options (p.disk.locked plan.decomposition.dir).read plan.text =
      .ok { text := plan.text, applied := plan.decomposition.cut.length, missing := [], changed := false } := by
    refine Merged.merge_eq_self_of_read hdesc fun q hq => ?_
    obtain ⟨data, hrender, hread⟩ := h.piece_read q (List.mem_of_mem_filter hq)
    exact ⟨data, Disk.read_locked hread _, hstrip q hq data hrender⟩
  obtain ⟨log', hrun⟩ := mergePlan_run_unchanged (p := locking plan.decomposition.dir { p with log := log })
    (h.checkSplitOf_run rfl) hmerge rfl { o with resplit := false }
  refine ⟨log', ?_⟩
  rw [merge_eq_guarded, guarded, hsource, run_bind, hplan]
  simp only
  rw [withLock_run_of_grants hgrants, mergePlan_run_of_not_written hrun rfl]
  simp only [release, locking, List.filter_cons, ne_eq, not_true_eq_false, decide_false, Bool.false_eq_true, if_false]
  rw [List.filter_eq_self.mpr]
  intro path hmem
  have hother : path ≠ lockPath plan.decomposition.dir := by
    rintro rfl
    exact hheld hmem
  simpa using hother

/-- How a source is split again: the merge without a second split leaves the files of `p₁`, with a new source, and the
record as it was; then the plan of the new source is carried out by force. -/
structure SplitAgain (w : Workspace) (path : Path) (o : MergeOptions) (p : Project) (text : Text)
    (d : Decomposition) (p₁ p₂ : Project) : Prop where
  first : ((w.merge path { o with resplit := false }).run p).2.disk = p₁.disk
  read : p₁.disk.read (w.abs path) = .content text
  layout_eq : w.parser.layout w.options p₁.disk.isFile (w.abs path) text = .ok d
  database_eq : p₁.database = p.database
  ticks_le : p.ticks ≤ p₁.ticks
  split : ∃ s, (w.splitPlan { source := w.abs path, hash := w.digest text, text := text, decomposition := d } true).run
    p₁ = (.ok s, p₂)

/-- A merge that writes the source and splits it again does so under the lock of the directory, which is then released. -/
lemma merge_eq_ok [w.parser.Deterministic w.options] {o : MergeOptions} {r : MergeResult}
    (h : (w.merge path o).run p = (.ok ⟨r, none⟩, p')) (hresplit : o.resplit = true)
    (hwritten : r.written = true) :
    ∃ text d p₁ p₂, w.SplitAgain path o p text d p₁ p₂ ∧ p' = release (lockPath d.dir) p₂ := by
  rw [merge_eq_guarded, guarded, run_bind] at h
  cases hplan : (w.planAt (w.abs path)).run p with
  | mk plan? p₀ =>
    rw [hplan] at h
    cases plan? with
    | error e => cases h
    | ok old =>
      obtain ⟨-, hsource, -, hold, log, rfl⟩ := planAt_eq_ok hplan
      obtain ⟨hgrants, p₂, hbody, rfl⟩ := withLock_eq_ok h
      obtain ⟨first, p₁, plan, p₁', split, hfirst, -, hplan', hsplit⟩ := mergePlan_eq_ok hbody hresplit hwritten
      rw [hsource] at hplan'
      obtain ⟨hread, hsource', hhash, hlayout, log', rfl⟩ := planAt_eq_ok hplan'
      have hframe := (leads_mergePlan_check (w := w) (o := { o with resplit := false }) rfl old
        (locking old.decomposition.dir { p with log := log })).1
      rw [hfirst] at hframe
      -- the new pieces lie in the directory of the old ones
      have hdir : old.decomposition.dir = plan.decomposition.dir :=
        Except.ok.inj ((Parser.pieceDirectory_eq hold).symm.trans (Parser.pieceDirectory_eq hlayout))
      have hagain : plan = ⟨w.abs path, w.digest plan.text, plan.text, plan.decomposition⟩ := by
        rw [← hsource', ← hhash]
      refine ⟨plan.text, plan.decomposition, { p₁ with log := log' }, p₂,
        ⟨?first, hread, hlayout, hframe.1, hframe.2, split, hagain ▸ hsplit⟩, hdir ▸ rfl⟩
      case first =>
        rw [merge_eq_guarded, guarded, run_bind, hplan]
        simp only
        rw [withLock_run_of_grants hgrants, hfirst]
        rfl

lemma Untouched.release (h : w.Untouched plan p) (path : Path) : w.Untouched plan (release path p) :=
  ⟨h.source_read, h.piece_read, h.piece_named, h.hash_eq, h.recorded⟩

/-- A merge that splits again leaves such a project, in which the lock is released. -/
lemma merge_untouched [w.parser.Deterministic w.options] {o : MergeOptions} {r : MergeResult} {p₁ : Project}
    (hrecords : w.records = true)
    (hclock : Monotone w.clock) (hm : p.database.manifest = some m) (hsound : m.Sound)
    (hpast : ∀ run ∈ m.runs, run.source = w.key (w.abs path) → run.createdAt ≤ w.clock p.ticks)
    (hrecorded : w.lastPieces (w.abs path) p.database = .ok recorded) (hresplit : o.resplit = true)
    (hrun : (w.merge path o).run p = (.ok ⟨r, none⟩, p₁))
    (hwritten : r.written = true)
    (htext : ((w.merge path { o with resplit := false }).run p).2.disk.read (w.abs path) = .content text)
    (hlayout : ∀ isFile, w.parser.layout w.options isFile (w.abs path) text = .ok d)
    (hkeys : d.pieces.Pairwise fun r q => Disk.key r.path ≠ Disk.key q.path)
    (hnames : w.Traces (w.abs path) d recorded) :
    w.Untouched { source := w.abs path, hash := w.digest text, text := text, decomposition := d } p₁ ∧
      lockPath d.dir ∉ p₁.held := by
  obtain ⟨text', d', p₂, p₃, hagain, rfl⟩ := merge_eq_ok hrun hresplit hwritten
  obtain ⟨hfirst, hread, hlayout', hdatabase, hticks, split, hsplit⟩ := hagain
  obtain rfl : text = text' := by
    rw [hfirst, hread] at htext
    exact (Reading.content.inj htext).symm
  obtain rfl : d = d' := Except.ok.inj ((hlayout _).symm.trans hlayout')
  have hperforms := (splitPlan_performs hrecords ⟨w.abs path, w.digest text, text, d⟩ true p₂).2
  rw [hsplit] at hperforms
  obtain ⟨recorded', disk, run, hperformed⟩ := hperforms split rfl
  obtain rfl : recorded' = recorded := by
    have hsame := hperformed.recorded_eq
    rw [hdatabase] at hsame
    exact Except.ok.inj (hsame.symm.trans hrecorded)
  refine ⟨(hperformed.untouched hkeys hread rfl hnames hclock (hdatabase ▸ hm) hsound ?past).release _, ?free⟩
  case past => exact fun r hr hs => (hpast r hr hs).trans (hclock hticks)
  case free => simp [Workspace.release]

lemma grants_of_not_held {dir : Path} (h : grants dir { p with held := [] } = true) (hheld : lockPath dir ∉ p.held) :
    grants dir p = true := by
  unfold grants at h ⊢
  split at h
  · cases h
  · next disk hm =>
    simp only [hm]
    split at h
    · cases h
    · next data hlook => simpa [hlook] using hheld
    · next o hlook => simpa [hlook] using h

/-- A merge that writes the source and splits it again leaves nothing to do. The source has not changed since, nor has
any piece; and a merge, whatever its options, folds all pieces back without a change. It writes nothing, and makes at
most the file of the lock. -/
theorem resplit_reaches_fixpoint [w.parser.Deterministic w.options] {o : MergeOptions} {r : MergeResult}
    {p₁ : Project} {f : SourceFile} {isFile : Path → Bool} (hrun : (w.merge path o).run p = (.ok ⟨r, none⟩, p₁))
    (hresplit : o.resplit = true) (hwritten : r.written = true)
    (htext : ((w.merge path { o with resplit := false }).run p).2.disk.read (w.abs path) = .content text)
    (hrecords : w.records = true) (hclock : Monotone w.clock) (hm : p.database.manifest = some m) (hsound : m.Sound)
    (hpast : ∀ run ∈ m.runs, run.source = w.key (w.abs path) → run.createdAt ≤ w.clock p.ticks)
    (hrecorded : w.lastPieces (w.abs path) p.database = .ok recorded)
    (hf : (w.parser isFile (w.abs path) text).1 = .ok f) (hlaid : f.Laid) (hd : f.decompose w.options = .ok d)
    (hclear : d.Clear w.options.withDefaults text) (hline : f.OneLine w.options.withDefaults)
    (hnames : w.Traces (w.abs path) d recorded) (hfree : grants d.dir { p₁ with held := [] } = true) :
    (∃ s, (w.status path).run p₁ = (.ok s, p₁) ∧ s.sourceChanged = false ∧
      s.pieces.Perm (d.pieces.map PieceStatus.untouched)) ∧
    (∀ o', ∃ log, (w.merge path o').run p₁ =
      (.ok ⟨{ source := w.abs path, applied := d.content.length, missing := [], changed := false, written := false },
        none⟩, { p₁ with disk := p₁.disk.locked d.dir, log := log })) ∧
    p₁.disk.read (w.abs path) = .content text ∧
    (∀ x data, p₁.disk.read x = .content data → (p₁.disk.locked d.dir).read x = .content data) ∧
    (∀ data, p₁.disk.read (lockPath d.dir) = .content data → p₁.disk.locked d.dir = p₁.disk) := by
  obtain rfl := Parser.Deterministic.text_eq w.options hf
  have hlayout (isFile' : Path → Bool) : w.parser.layout w.options isFile' (w.abs path) f.text = .ok d := by
    rw [Parser.Deterministic.layout_eq isFile' isFile]
    unfold Parser.layout
    rw [hf]
    exact hd
  obtain ⟨huntouched, hheld⟩ := merge_untouched hrecords hclock hm hsound hpast hrecorded hresplit hrun hwritten htext
    hlayout (Decomposition.keys_apart hd) hnames
  have hmergeable := Decomposition.mergeable_of_laid hlaid hd
  refine ⟨huntouched.status hrecords rfl, fun o' => ?_, huntouched.source_read, ?_, ?_⟩
  · rw [← hmergeable.cut_eq]
    refine huntouched.merge rfl (hlayout _) hmergeable.descending (fun q hq data hrender => ?_)
      (grants_of_not_held hfree hheld) hheld o'
    rw [hmergeable.cut_eq] at hq
    exact Decomposition.stripMarkers_render hlaid hd hclear hline hq hrender
  · exact fun x data hread => Disk.read_locked hread d.dir
  · refine fun data hread => Disk.locked_eq_self ?_ hread
    exact Address.pieceDirectory_ne_nil (Parser.pieceDirectory_eq (hlayout isFile))

/-! Samples. -/

theorem resplit_of_edit_reaches_fixpoint :
    ∃ r p₁, (openWorkspace.merge "t/x.ts" splitAfter).run editedPair =
        (.ok ⟨r, none⟩, p₁) ∧ r.written = true ∧
      p₁.disk.read (openWorkspace.abs "t/x.ts") = .content mergedText ∧
      (∃ s, (openWorkspace.status "t/x.ts").run p₁ = (.ok s, p₁) ∧ s.sourceChanged = false ∧
        s.pieces.Perm (mergedPieces.pieces.map PieceStatus.untouched)) ∧
      ∀ o, ∃ log, (openWorkspace.merge "t/x.ts" o).run p₁ =
        (.ok ⟨⟨openWorkspace.abs "t/x.ts", mergedPieces.content.length, [], false, false, [], [], none⟩, none⟩,
          { p₁ with disk := p₁.disk.locked mergedPieces.dir, log := log }) := by
  have hfacts : ((openWorkspace.merge "t/x.ts" splitAfter).run editedPair).1.map
        (fun r => (r.done.written, r.failure.isNone)) = .ok (true, true) ∧
      ((openWorkspace.merge "t/x.ts" { splitAfter with resplit := false }).run editedPair).2.disk.read
        (openWorkspace.abs "t/x.ts") = .content mergedText ∧
      grants mergedPieces.dir { ((openWorkspace.merge "t/x.ts" splitAfter).run
        editedPair).2 with held := [] } = true ∧
      (∀ run ∈ editedManifest.runs, run.source = openWorkspace.key (openWorkspace.abs "t/x.ts") →
        run.createdAt ≤ openWorkspace.clock editedPair.ticks) ∧
      (SourceFile.ofText {} (openWorkspace.abs "t/x.ts") mergedText).decompose openWorkspace.options = .ok mergedPieces ∧
      mergedPieces.Clear openWorkspace.options.withDefaults mergedText ∧
      Syntax.Ordered mergedText (Syntax.parse mergedText) ∧
      (SourceFile.ofText {} (openWorkspace.abs "t/x.ts") mergedText).OneLine openWorkspace.options.withDefaults ∧
      ∀ q ∈ mergedPieces.pieces, Recordable q.path ∧ Disk.key q.path ≠ Disk.key (openWorkspace.abs "t/x.ts") := by
    decide +kernel
  obtain ⟨hresult, htext, hfree, hpast, hd, hclear, hordered, hline, hpieces⟩ := hfacts
  have hsound : editedManifest.Sound := by constructor <;> decide
  have hnames : openWorkspace.Traces (openWorkspace.abs "t/x.ts") mergedPieces editedManifest.pieces :=
    .of_recordable hpieces named_editedPair
  have hlaid : (SourceFile.ofText {} (openWorkspace.abs "t/x.ts") mergedText).Laid :=
    Syntax.outline_laid {} _ hordered
  obtain ⟨⟨r, failure⟩, hresult, hfacts⟩ := exists_of_map_eq_ok hresult
  obtain ⟨hwritten, hfailure⟩ := Prod.mk.inj hfacts
  obtain rfl : failure = none := Option.isNone_iff_eq_none.mp hfailure
  obtain ⟨p₁, hrun⟩ := exists_run_eq hresult
  rw [hrun] at hfree
  have hfile : (openWorkspace.parser (fun _ => false) (openWorkspace.abs "t/x.ts") mergedText).1 =
      .ok (SourceFile.ofText {} (openWorkspace.abs "t/x.ts") mergedText) := Parser.fst_builtIn [] _ _ _
  dsimp only at htext hfree
  have hclock : Monotone openWorkspace.clock := monotone_sampleClock
  have hmanifest : editedPair.database.manifest = some editedManifest := rfl
  have hwhole := resplit_reaches_fixpoint hrun rfl hwritten htext rfl hclock hmanifest hsound
    hpast lastPieces_editedPair hfile hlaid hd hclear hline hnames
    hfree
  obtain ⟨hstatus, hmerge, hread, -, -⟩ := hwhole
  exact ⟨r, p₁, hrun, hwritten, hread, hstatus, hmerge⟩

/-- One declaration, in a source whose name has a backslash, and an edit of its piece. -/
def slashedProject : Project :=
  { disk := { nodes := [
      ("/work", .directory), ("/work/t", .directory), ("/work/t/a\\b.ts", .file "type A=1\n"),
      ("/work/p", .directory), ("/work/p/a\\b", .directory), ("/work/p/a\\b/types", .directory),
      ("/work/p/a\\b/types/A.d.ts", .file "type A=5\n")] } }

def slashedPieces : Decomposition :=
  { source := "/work/t/a\\b.ts"
    dir := "/work/p/a\\b"
    pieces := [
      { path := "/work/p/a\\b/index.d.ts", role := .generated "export \x7b A \x7d from './types/A';\n" },
      { start := 0, stop := 8, path := "/work/p/a\\b/types/A.d.ts", exportText := "/*@piece-export*/ export \x7b A \x7d;"
        role := .declared "A" .typeAlias .types [] false }] }

/-- A workspace in which a marker has a line break. -/
def brokenWorkspace : Workspace :=
  { openWorkspace with options := { translatedRoot := "/work/t", piecesRoot := "/work/p", exportMarker := "//\n" } }

/-- One declaration, and an edit of its piece. -/
def editedLone : Project :=
  { disk := { nodes := [
      ("/work", .directory), ("/work/t", .directory), ("/work/t/x.ts", .file "type A=1\n"),
      ("/work/p", .directory), ("/work/p/x", .directory), ("/work/p/x/types", .directory),
      ("/work/p/x/types/A.d.ts", .file "type A=5\n")] } }

def brokenPieces : Decomposition :=
  { source := "/work/t/x.ts"
    dir := "/work/p/x"
    pieces := [
      { path := "/work/p/x/index.d.ts", role := .generated "export \x7b A \x7d from './types/A';\n" },
      { start := 0, stop := 8, path := "/work/p/x/types/A.d.ts", exportText := "//\n export \x7b A \x7d;"
        role := .declared "A" .typeAlias .types [] false }] }

/-- The same, with the piece in the record under its whole path, as it is about to be written. -/
def renamedProject : Project :=
  { editedLone with
    database := { manifest := some {
      runs := [⟨"first", "t/x.ts", "type A=1\n", "p/x", 2, 0, 0⟩]
      pieces := [⟨"first", "/work/p/x/types/A.d.ts", "A", "types", 0, 8,
        "type A=5\n\n/*@piece-export*/ export \x7b A \x7d;\n", false⟩] } } }

def lonePieces : Decomposition :=
  { source := "/work/t/x.ts"
    dir := "/work/p/x"
    pieces := [
      { path := "/work/p/x/index.d.ts", role := .generated "export \x7b A \x7d from './types/A';\n" },
      { start := 0, stop := 8, path := "/work/p/x/types/A.d.ts", exportText := "/*@piece-export*/ export \x7b A \x7d;"
        role := .declared "A" .typeAlias .types [] false }] }

/-- A merge that splits again, and the project after it. -/
def resplit (w : Workspace) (path : Path) (p : Project) : Except Failure (Partial MergeResult) × Project :=
  (w.merge path splitAfter).run p

/-- The merge writes `text`, which meets the conditions, and succeeds. -/
structure Resplits (w : Workspace) (path : Path) (p : Project) (text : Text) (d : Decomposition) : Prop where
  laid : (SourceFile.ofText {} (w.abs path) text).Laid
  pieces_eq : (SourceFile.ofText {} (w.abs path) text).decompose w.options = .ok d
  clear : d.Clear w.options.withDefaults text
  apart : ∀ q ∈ d.pieces, Disk.key q.path ≠ Disk.key (w.abs path)
  written : (w.resplit path p).1.map (fun r => (r.done.written, r.failure.isNone)) = .ok (true, true)
  source_read : (w.resplit path p).2.disk.read (w.abs path) = .content text

lemma resplits_iff {w : Workspace} {path : Path} {p : Project} {text : Text} {d : Decomposition} :
    w.Resplits path p text d ↔ (SourceFile.ofText {} (w.abs path) text).Laid ∧
      (SourceFile.ofText {} (w.abs path) text).decompose w.options = .ok d ∧ d.Clear w.options.withDefaults text ∧
      (∀ q ∈ d.pieces, Disk.key q.path ≠ Disk.key (w.abs path)) ∧
      (w.resplit path p).1.map (fun r => (r.done.written, r.failure.isNone)) = .ok (true, true) ∧
      (w.resplit path p).2.disk.read (w.abs path) = .content text :=
  ⟨fun h => ⟨h.laid, h.pieces_eq, h.clear, h.apart, h.written, h.source_read⟩,
    fun ⟨hlaid, hpieces, hclear, hapart, hwritten, hread⟩ => ⟨hlaid, hpieces, hclear, hapart, hwritten, hread⟩⟩

/-- A workspace that keeps no record. -/
def unrecordedWorkspace : Workspace := { openWorkspace with records := false }

/-- Pieces in a directory whose name has a backslash are missed, for their names in the record have slashes instead. A
marker with a line break is not told from the text of its piece, and the next merge folds it in. A piece that was
recorded before under another name is written and then removed as one that is no longer produced. And without a record
there is no status. -/
theorem resplit_misses_fixpoint :
    (openWorkspace.Resplits "t/a\\b.ts" slashedProject "type A=5\n" slashedPieces ∧
      ((openWorkspace.status "t/a\\b.ts").run (openWorkspace.resplit "t/a\\b.ts" slashedProject).2).1.map
        (fun s => s.pieces.map (·.state)) = .ok [.missing, .missing]) ∧
    (brokenWorkspace.Resplits "t/x.ts" editedLone "type A=5\n" brokenPieces ∧
      ((brokenWorkspace.merge "t/x.ts" {}).run (brokenWorkspace.resplit "t/x.ts" editedLone).2).1.map
        (fun r => (r.done.changed, r.done.written)) = .ok (true, true)) ∧
    (openWorkspace.Resplits "t/x.ts" renamedProject "type A=5\n" lonePieces ∧
      ((openWorkspace.status "t/x.ts").run (openWorkspace.resplit "t/x.ts" renamedProject).2).1.map
        (fun s => s.pieces.map (·.state)) = .ok [.unchanged, .missing]) ∧
    (unrecordedWorkspace.Resplits "t/x.ts" editedLone "type A=5\n" lonePieces ∧
      ((unrecordedWorkspace.status "t/x.ts").run (unrecordedWorkspace.resplit "t/x.ts" editedLone).2).1.isOk = false) := by
  have hlaid (source : Path) : (SourceFile.ofText {} source "type A=5\n").Laid :=
    Syntax.outline_laid {} source (by decide +kernel)
  simp only [resplits_iff, hlaid, true_and]
  decide +kernel

end Workspace

end DeclPieces
