import DeclPieces.Proofs.Resplit
import DeclPieces.Proofs.SplitFrame

/-! A split of a source that nobody touched since it was last split. It finds the same pieces edited, writes the others
as they are, and has nothing to clear away. -/
namespace DeclPieces

namespace Disk
variable {d : Disk} {text data : Text} {p : Path} {ps : List Piece}

/-- Where a file is, its directory need not be made. -/
lemma makeDirs_dir_of_read (hclean : p.clean = p) (h : d.read p = .content data) : d.makeDirs (Path.dir p) = .ok d := by
  have hlook := read_eq_content_iff.mp h
  have hne := components_ne_nil_of_look hlook
  rw [look, ← List.dropLast_append_getLast hne] at hlook
  rw [makeDirs, Path.components_dir hclean hne]
  exact makeDirsFrom_of_follow hlook

/-- A piece whose file is there can be written. -/
lemma exists_write_of_read {q : Piece} {content : Text} (hclean : q.path.clean = q.path)
    (hrender : q.render? text = some content) (h : d.read q.path = .content data) :
    ∃ d', q.write text d = (.ok (), d') ∧ d.write q.path content = .ok d' := by
  obtain ⟨d', hwrite⟩ : ∃ d', d.write q.path content = .ok d' := by
    unfold write
    rw [read_eq_content_iff.mp h]
    exact ⟨_, rfl⟩
  have hmade : Storage.makeDirs d (Path.dir q.path) = .ok d := makeDirs_dir_of_read hclean h
  have hstored : Storage.write d q.path content = .ok d' := hwrite
  refine ⟨d', ?_, hwrite⟩
  unfold Piece.write
  simp only [hmade, hrender, hstored]

/-- Pieces whose files are all there can be written. -/
lemma exists_writePieces_of_read (hplaces : ∀ q ∈ ps, q.path.clean = q.path)
    (h : ∀ q ∈ ps, (∃ content, q.render? text = some content) ∧ ∃ data, d.read q.path = .content data) :
    ∃ d', writePieces text ps d = (.ok [], d') := by
  induction ps generalizing d with
  | nil => exact ⟨d, rfl⟩
  | cons q rest ih =>
    obtain ⟨hclean, hplaces⟩ := List.forall_mem_cons.mp hplaces
    obtain ⟨⟨⟨content, hrender⟩, data, hread⟩, hrest⟩ := List.forall_mem_cons.mp h
    obtain ⟨d₁, hwrite, hstored⟩ := exists_write_of_read hclean hrender hread
    have hthere : ∀ r ∈ rest, (∃ content, r.render? text = some content) ∧ ∃ data, d₁.read r.path = .content data := by
      intro r hr
      obtain ⟨hrendered, old, hold⟩ := hrest r hr
      refine ⟨hrendered, ?_⟩
      by_cases hkey : key r.path = key q.path
      · exact ⟨content, (read_congr hkey).mpr (read_write_self hstored)⟩
      · exact ⟨old, read_write hstored hkey hold⟩
    obtain ⟨d', hd'⟩ := ih hplaces hthere
    refine ⟨d', ?_⟩
    unfold writePieces
    simp only [hwrite, hd']

/-- Pieces whose files are as they would be written can be written, and nothing changes. -/
lemma writePieces_again (hplaces : ∀ q ∈ ps, q.path.clean = q.path)
    (hkeys : ps.Pairwise fun r q => key r.path ≠ key q.path)
    (h : ∀ q ∈ ps, ∃ content, q.render? text = some content ∧ d.read q.path = .content content) :
    ∃ d', writePieces text ps d = (.ok [], d') ∧ ∀ x, d'.stored? x = d.stored? x := by
  obtain ⟨d', hd'⟩ := exists_writePieces_of_read hplaces fun q hq => by
    obtain ⟨content, hrender, hread⟩ := h q hq
    exact ⟨⟨content, hrender⟩, content, hread⟩
  refine ⟨d', hd', fun x => ?_⟩
  by_cases hx : ∃ q ∈ ps, key x = key q.path
  · obtain ⟨q, hq, hkey⟩ := hx
    obtain ⟨content, hrender, hread⟩ := h q hq
    obtain ⟨content', hrender', hstored⟩ := stored?_of_writePieces_eq_ok hkeys hd' q hq
    obtain rfl := Option.some.inj (hrender.symm.trans hrender')
    rw [stored?_congr hkey, stored?_congr hkey, hstored, stored?_of_read hread]
  · have hframe : (writePieces text ps d).2.stored? x = d.stored? x :=
      stored?_writePieces fun q hq hkey => hx ⟨q, hq, hkey⟩
    rwa [hd'] at hframe

end Disk

namespace Workspace
open Activity
variable {w : Workspace} {source path : Path} {text : Text} {plan : Plan} {p p' : Project} {m : Manifest}
  {recorded : List RecordedPiece} {disk disk' : Disk} {run : Run} {kept : List Path} {q : Piece} {d : Decomposition}
  {force : Bool} {result : SplitResult}

/-! Runs without a failure. -/

lemma checkEdited_run (h : ∀ q ∈ plan.decomposition.pieces, ∃ data, q.render? plan.text = some data)
    (edited : List Path) (p : Project) : (checkEdited plan edited).run p = (.ok (), p) := by
  have hnone : ¬ (plan.decomposition.pieces.any fun q =>
      edited.contains q.path && (q.render? plan.text).isNone) = true := by
    intro hany
    obtain ⟨q, hq, hbad⟩ := List.any_eq_true.mp hany
    obtain ⟨data, hrender⟩ := h q hq
    simp [hrender] at hbad
  rw [checkEdited, if_neg hnone]
  rfl

lemma writeAll_run (h : writePieces text d.pieces p.disk = (.ok [], disk)) :
    (writeAll d text).run p = (.ok (), { p with disk := disk }) := by
  have hwrite : d.write text p.disk = (.ok (), disk) := by
    unfold Decomposition.write
    rw [h]
  unfold writeAll
  rw [run_get_bind, hwrite]
  rfl

/-- If all that is on record is still produced, there is nothing to clear away. -/
lemma clearStale_run (h : ∀ r ∈ recorded, w.Produces d r) (result : SplitResult) (p : Project) :
    (w.clearStale d recorded result).run p = (.ok result, p) := by
  induction recorded with
  | nil => rfl
  | cons r rest ih =>
    obtain ⟨hr, hrest⟩ := List.forall_mem_cons.mp h
    have hany : (d.pieces.any fun q => w.key q.path = r.path) = true := by simpa [Produces] using hr
    rw [clearStale, if_pos hany]
    exact ih hrest

/-- A run is recorded if its name is new and its pieces have names of their own. -/
lemma recordRun_run (hm : p.database.manifest = some m) (hfresh : ∀ r ∈ m.runs, r.id ≠ runName p.named)
    (hnodup : (plan.decomposition.pieces.map fun q => w.key q.path).Nodup) (result : SplitResult) :
    ∃ p', (w.recordRun plan result).run p = (.ok { result with runId := runName p.named }, p') ∧ p'.disk = p.disk := by
  have hrecord (run : Run) (hid : run.id = runName p.named) : ∃ database,
      p.database.record run (plan.decomposition.pieces.map (w.toRecord run.id plan)) = .ok database := by
    have hpaths : ((plan.decomposition.pieces.map (w.toRecord run.id plan)).map (·.path)).Nodup := by
      rwa [List.map_map]
    obtain ⟨m', hm'⟩ := Manifest.record_of_fresh (hid ▸ hfresh) hpaths
    exact ⟨_, by rw [Database.record, Database.query, hm]; simp only [bind, Except.bind, id, hm']; rfl⟩
  unfold recordRun nextRunName now
  simp only [bind_assoc, pure_bind]
  rw [run_get_bind, run_set_bind, run_get_bind, run_set_bind, run_get_bind, run_bind, run_ofExcept]
  obtain ⟨database, hdatabase⟩ := hrecord
    { id := runName p.named, source := w.key plan.source, hash := plan.hash, dir := w.key plan.decomposition.dir
      pieceCount := plan.decomposition.pieces.length, skippedCount := plan.decomposition.skipped.length
      createdAt := w.clock p.ticks } rfl
  simp only [hdatabase, SourceFile.lift, run_modify_bind]
  -- old runs may be dropped, which is only logged if it fails
  split
  · rw [run_get_bind]
    split
    · exact ⟨_, rfl, rfl⟩
    · rw [run_modify_bind]
      split <;> exact ⟨_, rfl, rfl⟩
  · exact ⟨_, rfl, rfl⟩

/-- What a split tells of itself comes last. -/
lemma recordRun_tell_run (hm : p.database.manifest = some m) (hfresh : ∀ r ∈ m.runs, r.id ≠ runName p.named)
    (hnodup : (plan.decomposition.pieces.map fun q => w.key q.path).Nodup) (result : SplitResult)
    (records : SplitResult → List Log.Record) :
    ∃ p', (do let result ← w.recordRun plan result; tell (records result); return result : Activity SplitResult).run p =
      (.ok { result with runId := runName p.named }, p') ∧ p'.disk = p.disk := by
  obtain ⟨p', hrun, hdisk⟩ := recordRun_run hm hfresh hnodup result
  rw [run_bind, hrun]
  exact ⟨_, rfl, hdisk⟩

/-- A split that has nothing to clear away is carried out if its pieces can be written and its run be recorded. -/
lemma splitPlan_run (hrecords : w.records = true) (hlast : w.lastPieces plan.source p.database = .ok recorded)
    (hproduced : ∀ r ∈ recorded, w.Produces plan.decomposition r)
    (hrendered : ∀ q ∈ plan.decomposition.pieces, ∃ data, q.render? plan.text = some data)
    (hwrite : writePieces plan.text (w.remaining plan force recorded p.disk).pieces p.disk = (.ok [], disk))
    (hm : p.database.manifest = some m) (hfresh : ∀ r ∈ m.runs, r.id ≠ runName p.named)
    (hnodup : (plan.decomposition.pieces.map fun q => w.key q.path).Nodup) :
    ∃ result p', (w.splitPlan plan force).run p = (.ok result, p') ∧ result.removed = [] ∧ result.stale = [] ∧
      result.kept = (plan.decomposition.pieces.filter fun q =>
        (w.spared plan force recorded p.disk).contains q.path).map (·.path) ∧ p'.disk = disk := by
  have hwritten (log : List Log.Record) : (writeAll (w.remaining plan force recorded p.disk) plan.text).run
      { p with log := log } = (.ok (), { p with disk := disk, log := log }) := writeAll_run hwrite
  unfold remaining spared at hwritten
  unfold splitPlan
  rw [run_bind, recordedPieces_run, hlast]
  simp only [SourceFile.lift]
  rw [run_get_bind, run_bind, checkEdited_run hrendered]
  simp only
  rw [run_tell_bind, run_bind, hwritten]
  simp only [hrecords, if_true]
  rw [run_bind, clearStale_run hproduced]
  obtain ⟨p', hrun, hdisk⟩ := recordRun_tell_run (p := { p with disk := disk, log := _ }) hm hfresh hnodup _ _
  exact ⟨_, p', hrun, rfl, rfl, rfl, hdisk⟩

/-! The second split. -/

/-- What is removed is neither the source nor a piece. -/
lemma Swept.sparing {removed stale : List Path}
    (h : w.Swept plan.decomposition recorded removed stale disk disk')
    (hapart : ∀ q ∈ plan.decomposition.pieces, Disk.key q.path ≠ Disk.key plan.source)
    (hremoved : ∀ y ∈ removed, Disk.key plan.source ≠ Disk.key y ∧
      ∀ q ∈ plan.decomposition.pieces, Disk.key q.path ≠ Disk.key y) : Sparing plan disk disk' where
  apart := hapart
  source_stays _ hread := h.keeps.read (fun ⟨y, hy, hkey⟩ => (hremoved y hy).1 hkey) hread
  piece_stays q hq _ hread := h.keeps.read (fun ⟨y, hy, hkey⟩ => (hremoved y hy).2 q hq hkey) hread

lemma Standing.lastPieces (h : w.Standing plan run kept p) (hrecords : w.records = true) :
    ∃ recorded, w.lastPieces plan.source p.database = .ok recorded ∧
      recorded.Perm (plan.decomposition.pieces.map (w.toRecord run.id plan)) := by
  obtain ⟨m, hm, hlatest, -, hperm⟩ := h.recorded
  refine ⟨m.piecesOf run.id, ?_, hperm⟩
  unfold Workspace.lastPieces Database.latest? Database.piecesOf Database.query
  simp only [hrecords, hm, hlatest, Bool.not_true, Bool.false_eq_true, if_false, bind, Except.bind]

/-- It stays so while nobody touches the source, a piece or the record. -/
lemma Standing.untouched (h : w.Standing plan run kept p) (hdatabase : p'.database = p.database)
    (hsource : p'.disk.read plan.source = p.disk.read plan.source)
    (hpieces : ∀ q ∈ plan.decomposition.pieces, p'.disk.read q.path = p.disk.read q.path) :
    w.Standing plan run kept p' := by
  refine ⟨hsource.trans h.source_read, fun q hq => ?_, ?_⟩
  · obtain ⟨data, found, hrender, hfound, hsame⟩ := h.piece_read q hq
    exact ⟨data, found, hrender, (hpieces q hq).trans hfound, hsame⟩
  · rw [hdatabase]
    exact h.recorded

/-- The lock of a directory touches none of it. -/
lemma Standing.locked (h : w.Standing plan run kept p) (dir : Path) :
    w.Standing plan run kept (locking dir p) := by
  refine ⟨Disk.read_locked h.source_read _, fun q hq => ?_, h.recorded⟩
  obtain ⟨data, found, hrender, hfound, hsame⟩ := h.piece_read q hq
  exact ⟨data, found, hrender, Disk.read_locked hfound _, hsame⟩

section
variable (h : w.Standing plan run kept p) (hdigest : Function.Injective w.digest)
  (hperm : recorded.Perm (plan.decomposition.pieces.map (w.toRecord run.id plan)))
  (hnodup : (plan.decomposition.pieces.map fun q => w.key q.path).Nodup)
include h hdigest hperm hnodup

/-- The pieces that were kept are told to be edited once more. -/
lemma Standing.isEdited_iff (hq : q ∈ plan.decomposition.pieces) (hgenerated : q.isGenerated = false) :
    w.isEdited recorded p.disk plan.text q = true ↔ q.path ∈ kept := by
  obtain ⟨data, found, hrender, hread, hsame⟩ := h.piece_read q hq
  have hfind : recorded.find? (fun r => !r.generated && decide (r.path = w.key q.path)) =
      some (w.toRecord run.id plan q) := by
    cases hfind : recorded.find? fun r => !r.generated && decide (r.path = w.key q.path) with
    | none =>
      have hnone := List.find?_eq_none.mp hfind _ (hperm.mem_iff.mpr (List.mem_map_of_mem hq))
      simp [toRecord, hgenerated] at hnone
    | some r =>
      -- another piece would have another name
      obtain ⟨q', hq', rfl⟩ := List.mem_map.mp (hperm.mem_iff.mp (List.mem_of_find?_eq_some hfind))
      have hname := List.find?_some hfind
      obtain rfl := List.inj_on_of_nodup_map hnodup hq' hq (of_decide_eq_true (Bool.and_eq_true_iff.mp hname).2)
      rfl
  unfold isEdited
  rw [hfind, hread]
  simp only [toRecord, hrender, Option.getD_some, hdigest.eq_iff, Bool.and_eq_true, decide_eq_true_eq, ne_eq,
    Option.some.injEq]
  rw [eq_comm (a := data), and_self, hsame, not_not]

variable (hcontent : ∀ q ∈ plan.decomposition.content, q.isGenerated = false)
  (hkept : ∀ x ∈ kept, ∃ q ∈ plan.decomposition.content, q.path = x)
include hcontent hkept

lemma Standing.mem_spared_iff {x : Path} : x ∈ w.spared plan false recorded p.disk ↔ x ∈ kept := by
  rw [Workspace.mem_spared_iff]
  constructor
  · rintro ⟨-, q, hq, hedited, rfl⟩
    exact (h.isEdited_iff hdigest hperm hnodup (List.mem_of_mem_drop hq) (hcontent q hq)).mp hedited
  · intro hx
    obtain ⟨q, hq, rfl⟩ := hkept x hx
    exact ⟨rfl, q, hq, (h.isEdited_iff hdigest hperm hnodup (List.mem_of_mem_drop hq) (hcontent q hq)).mpr hx, rfl⟩

/-- The other pieces are written as they are. -/
lemma Standing.writePieces (hplaces : ∀ q ∈ plan.decomposition.pieces, q.path.clean = q.path)
    (hkeys : plan.decomposition.pieces.Pairwise fun r q => Disk.key r.path ≠ Disk.key q.path) :
    ∃ disk, DeclPieces.writePieces plan.text (w.remaining plan false recorded p.disk).pieces p.disk = (.ok [], disk) ∧
      ∀ x, disk.stored? x = p.disk.stored? x := by
  refine Disk.writePieces_again (fun q hq => hplaces q (List.mem_filter.mp hq).1) (hkeys.sublist List.filter_sublist)
    fun q hq => ?_
  obtain ⟨hq, hnot⟩ := List.mem_filter.mp hq
  obtain ⟨data, found, hrender, hread, hsame⟩ := h.piece_read q hq
  have hwritten : q.path ∉ kept := by
    rw [← h.mem_spared_iff hdigest hperm hnodup hcontent hkept]
    simpa using hnot
  exact ⟨data, hrender, hsame.mpr hwritten ▸ hread⟩

end

/-- The names that are recorded with a run tell its pieces apart. -/
lemma Filed.nodup_keys (h : w.Filed plan p p' run) : (plan.decomposition.pieces.map fun q => w.key q.path).Nodup := by
  obtain ⟨database, hrecord, -⟩ := h.database_eq
  obtain ⟨m, m', -, hm', -⟩ := Database.record_eq_ok hrecord
  have hnodup := (Manifest.record_eq_ok hm').2.1
  rwa [List.map_map] at hnodup

/-- What a split keeps are those of its pieces that it keeps, in their order. -/
lemma Performed.kept_eq_filter (h : w.Performed plan force p p' recorded disk run kept) :
    kept = (plan.decomposition.pieces.filter fun q => kept.contains q.path).map (·.path) := by
  conv_lhs => rw [h.kept_eq]
  refine congrArg _ (List.filter_congr fun q hq => ?_)
  rw [Bool.eq_iff_iff, List.contains_iff_mem, List.contains_iff_mem, h.mem_kept_iff hq]

/-- Where nobody touched the source or a piece since a split, a split changes no file. It keeps the pieces that are kept
already, and has nothing to clear away. -/
theorem Standing.splitPlan (h : w.Standing plan run kept p) (hrecords : w.records = true)
    (hdigest : Function.Injective w.digest)
    (hfresh : ∀ m, p.database.manifest = some m → ∀ r ∈ m.runs, r.id ≠ runName p.named)
    (hnodup : (plan.decomposition.pieces.map fun q => w.key q.path).Nodup)
    (hcontent : ∀ q ∈ plan.decomposition.content, q.isGenerated = false)
    (hplaces : ∀ q ∈ plan.decomposition.pieces, q.path.clean = q.path)
    (hkeys : plan.decomposition.pieces.Pairwise fun r q => Disk.key r.path ≠ Disk.key q.path)
    (hkept : ∀ x ∈ kept, ∃ q ∈ plan.decomposition.content, q.path = x) :
    ∃ result p', (w.splitPlan plan false).run p = (.ok result, p') ∧ result.removed = [] ∧ result.stale = [] ∧
      result.kept = (plan.decomposition.pieces.filter fun q => kept.contains q.path).map (·.path) ∧
      ∀ x, p'.disk.stored? x = p.disk.stored? x := by
  obtain ⟨recorded, hlast, hperm⟩ := h.lastPieces hrecords
  obtain ⟨m, hm, -⟩ := h.recorded
  have hproduced : ∀ r ∈ recorded, w.Produces plan.decomposition r := by
    intro r hr
    obtain ⟨q, hq, rfl⟩ := List.mem_map.mp (hperm.mem_iff.mp hr)
    exact ⟨q, hq, rfl⟩
  have hrendered : ∀ q ∈ plan.decomposition.pieces, ∃ data, q.render? plan.text = some data := by
    intro q hq
    obtain ⟨data, -, hrender, -⟩ := h.piece_read q hq
    exact ⟨data, hrender⟩
  obtain ⟨disk, hwrite, hsame⟩ := h.writePieces hdigest hperm hnodup hcontent hkept hplaces hkeys
  obtain ⟨result, p', hrun, hremoved, hstale, hkept', rfl⟩ :=
    splitPlan_run hrecords hlast hproduced hrendered hwrite hm (hfresh m hm) hnodup
  refine ⟨result, p', hrun, hremoved, hstale, hkept'.trans (congrArg _ (List.filter_congr fun q _ => ?_)), hsame⟩
  rw [Bool.eq_iff_iff, List.contains_iff_mem, List.contains_iff_mem]
  exact h.mem_spared_iff hdigest hperm hnodup hcontent hkept

/-- A split after a split, with or without force, of the same source changes no file if nobody touched the source or
its pieces, and if the first one removed neither. It removes nothing, finds nothing stale, and keeps the same pieces.
At most the file of the lock is made. -/
theorem split_again_changes_nothing [w.parser.Deterministic w.options] {p₁ p₂ : Project}
    (hrun : (w.split path force).run p = (.ok result, p₁)) (hplan : ((w.planAt (w.abs path)).run p).1 = .ok plan)
    (hrecords : w.records = true) (hdigest : Function.Injective w.digest) (hclock : Monotone w.clock)
    (hsound : ∀ m, p.database.manifest = some m → m.Sound)
    (hpast : ∀ m, p.database.manifest = some m → ∀ r ∈ m.runs, r.source = w.key (w.abs path) →
      r.createdAt ≤ w.clock p.ticks)
    (hapart : ∀ q ∈ plan.decomposition.pieces, Disk.key q.path ≠ Disk.key (w.abs path))
    (hremoved : ∀ y ∈ result.removed, Disk.key (w.abs path) ≠ Disk.key y ∧
      ∀ q ∈ plan.decomposition.pieces, Disk.key q.path ≠ Disk.key y)
    (hdatabase : p₂.database = p₁.database) (hsource : p₂.disk.read (w.abs path) = p₁.disk.read (w.abs path))
    (hpieces : ∀ q ∈ plan.decomposition.pieces, p₂.disk.read q.path = p₁.disk.read q.path)
    (hfresh : ∀ m, p₂.database.manifest = some m → ∀ r ∈ m.runs, r.id ≠ runName p₂.named)
    (hfree : grants plan.decomposition.dir p₂ = true) :
    ∃ result' p₃, (w.split path false).run p₂ = (.ok result', p₃) ∧ result'.kept = result.kept ∧
      result'.removed = [] ∧ result'.stale = [] ∧
      (∀ x data, p₂.disk.stored? x = some data → p₃.disk.stored? x = some data) ∧
      ∀ x, Disk.key x ≠ Disk.key (lockPath plan.decomposition.dir) → p₃.disk.stored? x = p₂.disk.stored? x := by
  obtain ⟨plan', log, p₁', recorded, disk, run, hplan', hreported, hswept, rfl⟩ := split_sweeps hrecords hrun
  rw [hplan'] at hplan
  obtain rfl := Except.ok.inj hplan
  obtain ⟨hread, hplace, -, hlayout, -⟩ := planAt_eq_ok hplan'
  obtain ⟨f, hd⟩ := Parser.layout_eq_ok hlayout
  obtain ⟨dir, opening, pieces, hmade⟩ := Decomposition.exists_made hd
  obtain ⟨⟨rooted, hclean⟩, -⟩ := Decomposition.paths_apart hd
  have hkeys := Decomposition.keys_apart hd
  have hdone := hreported.performed
  rw [← hplace] at hread hpast hapart hremoved hsource
  -- a split that is recorded found a record
  obtain ⟨database, hrecord, -⟩ := hdone.filed.database_eq
  obtain ⟨m, -, hm, -⟩ := Database.record_eq_ok hrecord
  have hstanding := hreported.standing hkeys (Disk.read_locked hread _) (hswept.sparing hapart hremoved) hclock hm
    (hsound m hm) (hpast m hm)
  have hstill := hstanding.untouched hdatabase hsource hpieces
  obtain ⟨log', hplan₂⟩ := planAt_of_read (planned_of_planAt hplan') (hplace ▸ hstill.source_read)
  have hlogged : w.Standing plan' run result.kept { p₂ with log := log' } :=
    hstill.untouched rfl rfl fun _ _ => rfl
  obtain ⟨result', p₃, hsplit, hremoved', hstale', hkept', hdisk⟩ := (hlogged.locked _).splitPlan hrecords hdigest
    hfresh hdone.filed.nodup_keys (fun q hq => (hmade.origin hq).1) (fun q hq => (hclean q hq).1) hkeys
    fun x hx => hdone.exists_content hx
  refine ⟨result', release (lockPath plan'.decomposition.dir) p₃, ?_, hkept'.trans hdone.kept_eq_filter.symm, hremoved',
    hstale', fun x data hx => ?_, fun x hlock => ?_⟩
  · have hgrants : grants plan'.decomposition.dir { p₂ with log := log' } = true := hfree
    rw [split_eq_guarded, guarded, run_bind, hplan₂]
    simp only
    rw [withLock_run_of_grants hgrants, hsplit]
  · have hkeeps : (p₂.disk.locked plan'.decomposition.dir).stored? x = p₂.disk.stored? x :=
      (Disk.keeps_locked p₂.disk plan'.decomposition.dir).stored?_eq x fun hlock => by simp [hlock.2] at hx
    exact (hdisk x).trans (hkeeps.trans hx)
  · exact (hdisk x).trans (Disk.stored?_locked p₂.disk hlock)

/-- An edit that is kept is kept again. -/
theorem split_of_edit_again : ∃ result p₁ result' p₂,
    (openWorkspace.split "t/x.ts" false).run editedPair = (.ok result, p₁) ∧
      result.kept = [("/work/p/x/types/A.d.ts" : Path)] ∧
      (openWorkspace.split "t/x.ts" false).run p₁ = (.ok result', p₂) ∧
      result'.kept = [("/work/p/x/types/A.d.ts" : Path)] ∧ result'.removed = [] ∧ result'.stale = [] ∧
      ∀ x data, p₁.disk.stored? x = some data → p₂.disk.stored? x = some data := by
  have hfacts : ((openWorkspace.split "t/x.ts" false).run editedPair).1.map
        (fun r => (r.kept, r.removed)) = .ok (["/work/p/x/types/A.d.ts"], []) ∧
      (∀ m ∈ ((openWorkspace.split "t/x.ts" false).run editedPair).2.database.manifest, ∀ r ∈ m.runs,
        r.id ≠ runName ((openWorkspace.split "t/x.ts" false).run editedPair).2.named) ∧
      grants "/work/p/x" ((openWorkspace.split "t/x.ts" false).run editedPair).2 = true ∧
      ((openWorkspace.planAt (openWorkspace.abs "t/x.ts")).run editedPair).1.map
        (fun plan => (plan.decomposition.dir, plan.decomposition.pieces.map (·.path))) =
          .ok ("/work/p/x", ["/work/p/x/index.d.ts", "/work/p/x/types/B.d.ts", "/work/p/x/types/A.d.ts"]) := by
    decide +kernel
  obtain ⟨hsplit, hfresh, hfree, hplan⟩ := hfacts
  obtain ⟨result, hresult, hlists⟩ := exists_of_map_eq_ok hsplit
  obtain ⟨p₁, hrun⟩ := exists_run_eq hresult
  rw [hrun] at hfresh hfree
  obtain ⟨plan, hplan, hlayout⟩ := exists_of_map_eq_ok hplan
  obtain ⟨hkept, hremoved⟩ := Prod.mk.inj hlists
  obtain ⟨hdir, hpaths⟩ := Prod.mk.inj hlayout
  have hsound : ∀ m, editedPair.database.manifest = some m → m.Sound := by
    rintro m ⟨⟩
    constructor <;> decide
  have hpast : ∀ m, editedPair.database.manifest = some m → ∀ r ∈ m.runs,
      r.source = openWorkspace.key (openWorkspace.abs "t/x.ts") → r.createdAt ≤ openWorkspace.clock editedPair.ticks := by
    rintro m ⟨⟩
    decide +kernel
  have hapart : ∀ q ∈ plan.decomposition.pieces, Disk.key q.path ≠ Disk.key (openWorkspace.abs "t/x.ts") := by
    have hall : ∀ x ∈ plan.decomposition.pieces.map (·.path), Disk.key x ≠ Disk.key (openWorkspace.abs "t/x.ts") := by
      rw [hpaths]
      decide +kernel
    exact fun q hq => hall q.path (List.mem_map_of_mem hq)
  obtain ⟨result', p₂, hagain, hkept', hremoved', hstale', hstays, -⟩ := split_again_changes_nothing hrun hplan
    rfl Function.injective_id monotone_sampleClock hsound hpast hapart
    (by simp [hremoved]) rfl rfl (fun _ _ => rfl) (fun m hm => hfresh m hm) (by rw [hdir]; exact hfree)
  exact ⟨result, p₁, result', p₂, hrun, hkept, hagain, hkept'.trans hkept, hremoved', hstale', hstays⟩

/-- A package piece whose name in the record leads to another piece. -/
def strayWorkspace : Workspace :=
  { openWorkspace with options := { openWorkspace.options with packageName := "x\\..\\types\\A" } }

def packageText : Text := "/** @packageDocumentation */\n"

/-- A source that has lost its documentation of the package, and a piece that was replaced by that. -/
def strayProject : Project :=
  { disk := { nodes := [
      ("/work", .directory), ("/work/t", .directory), ("/work/t/x.ts", .file "type A=1\n"),
      ("/work/p", .directory), ("/work/p/x", .directory), ("/work/p/x/types", .directory),
      ("/work/p/x/types/A.d.ts", .file packageText)] }
    database := { manifest := some {
      runs := [⟨"first", "t/x.ts", packageText ++ "type A=1\n", "p/x", 3, 0, 0⟩]
      pieces := [⟨"first", "p/x/x/../types/A.d.ts", "", "", 0, 28, packageText, false⟩,
        ⟨"first", "p/x/types/A.d.ts", "A", "types", 29, 37, "old piece", false⟩] } } }

/-- The piece is kept as edited, but it is also removed as that of the package, so that the next split writes it. -/
theorem split_again_writes_kept_piece : ∃ result p₁ result' p₂,
    (strayWorkspace.split "t/x.ts" false).run strayProject = (.ok result, p₁) ∧
      result.kept = [("/work/p/x/types/A.d.ts" : Path)] ∧ result.removed = [("/work/p/x/types/A.d.ts" : Path)] ∧
      (strayWorkspace.split "t/x.ts" false).run p₁ = (.ok result', p₂) ∧ result'.kept = [] ∧
      p₁.disk.stored? "/work/p/x/types/A.d.ts" = none ∧
      p₂.disk.stored? "/work/p/x/types/A.d.ts" = some "type A=1\n\n/*@piece-export*/ export \x7b A \x7d;\n" := by
  have hfacts : ((strayWorkspace.split "t/x.ts" false).run strayProject).1.map (fun r => (r.kept, r.removed)) =
        .ok (["/work/p/x/types/A.d.ts"], ["/work/p/x/types/A.d.ts"]) ∧
      ((strayWorkspace.split "t/x.ts" false).run strayProject).2.disk.stored? "/work/p/x/types/A.d.ts" = none ∧
      ((strayWorkspace.split "t/x.ts" false).run
        ((strayWorkspace.split "t/x.ts" false).run strayProject).2).1.map (·.kept) = .ok [] ∧
      ((strayWorkspace.split "t/x.ts" false).run
        ((strayWorkspace.split "t/x.ts" false).run strayProject).2).2.disk.stored? "/work/p/x/types/A.d.ts" =
          some "type A=1\n\n/*@piece-export*/ export \x7b A \x7d;\n" := by decide +kernel
  obtain ⟨hfirst, hafter⟩ := hfacts
  obtain ⟨result, hresult, hlists⟩ := exists_of_map_eq_ok hfirst
  obtain ⟨hkept, hremoved⟩ := Prod.mk.inj hlists
  obtain ⟨p₁, hrun₁⟩ := exists_run_eq hresult
  rw [hrun₁] at hafter
  obtain ⟨hgone, hsecond, hwritten⟩ := hafter
  obtain ⟨result', hresult', hkept'⟩ := exists_of_map_eq_ok hsecond
  obtain ⟨p₂, hrun₂⟩ := exists_run_eq hresult'
  rw [hrun₂] at hwritten
  exact ⟨result, p₁, result', p₂, hrun₁, hkept, hremoved, hrun₂, hkept', hgone, hwritten⟩

end Workspace

end DeclPieces
