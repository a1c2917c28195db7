import DeclPieces.Proofs.JoinedPath
import DeclPieces.Proofs.LastSplit
import DeclPieces.Workspace.Status

/-! What a status says right after a split. The record has the contents that the split would have written, not those
that it found, so just the pieces that it kept are told to be edited. -/
namespace DeclPieces

namespace Workspace
open Activity
variable {w : Workspace} {source path : Path} {text : Text} {plan : Plan} {p p' : Project} {m : Manifest}
  {recorded : List RecordedPiece} {disk : Disk} {run : Run} {kept : List Path} {q : Piece} {d : Decomposition}
  {force : Bool} {result : SplitResult}

/-! Names. -/

/-- The names in the record tell the files apart. That of a piece leads to the piece. No piece stands where the source
is, nor does a piece that was recorded before, which stands at a new piece only under its name. -/
structure Traces (w : Workspace) (source : Path) (d : Decomposition) (recorded : List RecordedPiece) : Prop where
  named : ∀ q ∈ d.pieces, w.ofKey (w.key q.path) = q.path
  apart : ∀ q ∈ d.pieces, Disk.key q.path ≠ Disk.key source
  recorded_apart : ∀ r ∈ recorded, Disk.key (w.ofKey r.path) ≠ Disk.key source
  recorded_named : ∀ r ∈ recorded, ∀ q ∈ d.pieces, Disk.key (w.ofKey r.path) = Disk.key q.path → w.key q.path = r.path

/-- A path that its name in the record leads back to. -/
structure Recordable (path : Path) : Prop where
  rooted : path.isAbs = true
  clean : path.clean = path
  slashes : 92 ∉ path

instance (path : Path) : Decidable (Recordable path) :=
  decidable_of_iff (path.isAbs = true ∧ path.clean = path ∧ 92 ∉ path)
    ⟨fun ⟨hrooted, hclean, hslashes⟩ => ⟨hrooted, hclean, hslashes⟩, fun h => ⟨h.rooted, h.clean, h.slashes⟩⟩

lemma Recordable.ofKey_key (h : Recordable path) : w.ofKey (w.key path) = path :=
  Project.ofKey_key w.root h.rooted h.clean h.slashes

/-- Names of such paths tell the files apart. -/
lemma Traces.of_recordable (hpieces : ∀ q ∈ d.pieces, Recordable q.path ∧ Disk.key q.path ≠ Disk.key source)
    (hrecorded : ∀ r ∈ recorded, ∃ x, Recordable x ∧ Disk.key x ≠ Disk.key source ∧ w.key x = r.path) :
    w.Traces source d recorded where
  named q hq := (hpieces q hq).1.ofKey_key
  apart q hq := (hpieces q hq).2
  recorded_apart r hr := by
    obtain ⟨x, hx, hapart, hname⟩ := hrecorded r hr
    rwa [← hname, hx.ofKey_key]
  recorded_named r hr q hq hkey := by
    obtain ⟨x, hx, -, hname⟩ := hrecorded r hr
    have hq' := (hpieces q hq).1
    rw [← hname, hx.ofKey_key] at hkey
    have hsame : x = q.path :=
      Path.eq_of_components hx.clean hq'.clean (hx.rooted.trans hq'.rooted.symm) (Disk.components_eq_of_key_eq hkey)
    rw [← hsame, hname]

/-! Files. -/

/-- No piece stands where the source is, and what is cleared away once the pieces are written is neither the source nor
a piece. -/
structure Sparing (plan : Plan) (disk disk' : Disk) : Prop where
  apart : ∀ q ∈ plan.decomposition.pieces, Disk.key q.path ≠ Disk.key plan.source
  source_stays : ∀ data, disk.read plan.source = .content data → disk'.read plan.source = .content data
  piece_stays : ∀ q ∈ plan.decomposition.pieces, ∀ data,
    disk.read q.path = .content data → disk'.read q.path = .content data

lemma Performed.sparing (h : w.Performed plan force p p' recorded disk run kept)
    (hnames : w.Traces plan.source plan.decomposition recorded) : Sparing plan disk p'.disk where
  apart := hnames.apart
  source_stays _ hread :=
    h.cleared.read (fun r hr _ hkey => absurd hkey.symm (hnames.recorded_apart r hr)) hread
  piece_stays q hq _ hread :=
    h.cleared.read (fun r hr hgone hkey => absurd ⟨q, hq, hnames.recorded_named r hr q hq hkey.symm⟩ hgone) hread

section
variable (h : w.Performed plan force p p' recorded disk run kept) (hspare : Sparing plan disk p'.disk)
include h hspare

/-- A split leaves its source. -/
lemma Performed.read_source (hread : p.disk.read plan.source = .content plan.text) :
    p'.disk.read plan.source = .content plan.text := by
  refine hspare.source_stays _ ?_
  have hstays : (writePieces plan.text (w.remaining plan force recorded p.disk).pieces p.disk).2.read plan.source =
      .content plan.text :=
    Disk.read_writePieces (fun q hq hkey => absurd hkey.symm (hspare.apart q (h.mem_remaining_iff.mp hq).1)) hread
  rwa [h.written] at hstays

variable (hkeys : plan.decomposition.pieces.Pairwise fun r q => Disk.key r.path ≠ Disk.key q.path)
include hkeys

lemma Performed.read_of_not_kept (hq : q ∈ plan.decomposition.pieces) (hkept : q.path ∉ kept) :
    ∃ data, q.render? plan.text = some data ∧ p'.disk.read q.path = .content data := by
  have hapart : (w.remaining plan force recorded p.disk).pieces.Pairwise fun r q => Disk.key r.path ≠ Disk.key q.path :=
    hkeys.sublist List.filter_sublist
  obtain ⟨data, hrender, hdata⟩ :=
    Disk.read_of_writePieces_eq_ok hapart h.written q (h.mem_remaining_iff.mpr ⟨hq, hkept⟩)
  exact ⟨data, hrender, hspare.piece_stays q hq data hdata⟩

/-- A piece that is kept reads as it did before, which is not as it would be written. -/
lemma Performed.read_of_kept (hq : q ∈ plan.decomposition.pieces) (hkept : q.path ∈ kept) :
    ∃ data, q.render? plan.text ≠ some data ∧ p'.disk.read q.path = .content data := by
  have hsymm : Std.Symm fun r q : Piece => Disk.key r.path ≠ Disk.key q.path := ⟨fun _ _ h => h.symm⟩
  have hsame {r : Piece} (hr : r ∈ plan.decomposition.pieces) (hkey : Disk.key q.path = Disk.key r.path) : r = q := by
    by_contra hne
    exact hkeys.forall hr hq hne hkey.symm
  obtain ⟨-, r, hr, hedited, hpath⟩ := mem_spared_iff.mp ((h.mem_kept_iff hq).mp hkept)
  obtain rfl := hsame (List.mem_of_mem_drop hr) (by rw [hpath])
  obtain ⟨-, -, -, -, data, hread, -, hdiffers⟩ := isEdited_eq_true hedited
  refine ⟨data, hdiffers, hspare.piece_stays r hq data ?_⟩
  have hstays : (writePieces plan.text (w.remaining plan force recorded p.disk).pieces p.disk).2.read r.path =
      .content data := by
    refine Disk.read_writePieces (fun r' hr' hkey => ?_) hread
    obtain ⟨hr', hnot⟩ := h.mem_remaining_iff.mp hr'
    exact absurd (hsame hr' hkey ▸ hkept) hnot
  rwa [h.written] at hstays

end

/-- The source stands as it was split, the pieces that were not kept stand as they would be written, and the split is on
record as `run`. -/
structure Standing (w : Workspace) (plan : Plan) (run : Run) (kept : List Path) (p : Project) : Prop where
  source_read : p.disk.read plan.source = .content plan.text
  piece_read : ∀ q ∈ plan.decomposition.pieces, ∃ data found, q.render? plan.text = some data ∧
    p.disk.read q.path = .content found ∧ (found = data ↔ q.path ∉ kept)
  recorded : ∃ m, p.database.manifest = some m ∧ m.latest? (w.key plan.source) = some run ∧ run.hash = plan.hash ∧
    (m.piecesOf run.id).Perm (plan.decomposition.pieces.map (w.toRecord run.id plan))

/-- This is how a split leaves them. -/
lemma Reported.standing (h : w.Reported plan force p p' recorded disk run result)
    (hkeys : plan.decomposition.pieces.Pairwise fun r q => Disk.key r.path ≠ Disk.key q.path)
    (hread : p.disk.read plan.source = .content plan.text) (hspare : Sparing plan disk p'.disk)
    (hclock : Monotone w.clock) (hm : p.database.manifest = some m) (hsound : m.Sound)
    (hpast : ∀ r ∈ m.runs, r.source = w.key plan.source → r.createdAt ≤ w.clock p.ticks) :
    w.Standing plan run result.kept p' := by
  have hdone := h.performed
  refine ⟨hdone.read_source hspare hread, fun q hq => ?_, ?_⟩
  · by_cases hkept : q.path ∈ result.kept
    · obtain ⟨found, hdiffers, hfound⟩ := hdone.read_of_kept hspare hkeys hq hkept
      obtain ⟨data, hrender⟩ := h.rendered q hq ((hdone.mem_kept_iff hq).mp hkept)
      have hne : found ≠ data := by
        rintro rfl
        exact hdiffers hrender
      exact ⟨data, found, hrender, hfound, by simp [hne, hkept]⟩
    · obtain ⟨data, hrender, hdata⟩ := hdone.read_of_not_kept hspare hkeys hq hkept
      exact ⟨data, data, hrender, hdata, by simp [hkept]⟩
  · obtain ⟨m', hm', hremembers, hlatest⟩ := hdone.filed.remembers hclock hsound hpast hm
    obtain ⟨run', hlatest', hhash', hpieces⟩ := hremembers.latest_some plan rfl
    obtain rfl := Option.some.inj (hlatest.symm.trans hlatest')
    exact ⟨m', hm', hlatest, hhash', hpieces⟩

/-! Status. -/

/-- A project that nobody touched since a split that is on record as `run`: the source reads as it was split, and a
piece as it was recorded if it was not kept. -/
structure Left (w : Workspace) (plan : Plan) (run : Run) (kept : List Path) (p : Project) : Prop where
  source_read : p.disk.read plan.source = .content plan.text
  piece_read : ∀ q ∈ plan.decomposition.pieces, ∃ data found, q.render? plan.text = some data ∧
    p.disk.read q.path = .content found ∧ (w.digest found = w.digest data ↔ q.path ∉ kept)
  piece_named : ∀ q ∈ plan.decomposition.pieces, w.ofKey (w.key q.path) = q.path
  hash_eq : plan.hash = w.digest plan.text
  recorded : ∃ m, p.database.manifest = some m ∧ m.latest? (w.key plan.source) = some run ∧ run.hash = plan.hash ∧
    (m.piecesOf run.id).Perm (plan.decomposition.pieces.map (w.toRecord run.id plan))

/-- What a status says of a piece after a split that kept the pieces at `kept`. -/
def PieceStatus.after (kept : List Path) (q : Piece) : PieceStatus :=
  { path := q.path, symbol := q.symbol, generated := q.isGenerated
    state := if q.path ∈ kept then .edited else .unchanged }

/-- Then the source is unchanged, and just the pieces that were kept are edited. -/
theorem Left.status (h : w.Left plan run kept p) (hrecords : w.records = true) (hsource : w.abs path = plan.source) :
    ∃ s, (w.status path).run p = (.ok s, p) ∧ s.runId = run.id ∧ s.sourceChanged = false ∧
      s.pieces.Perm (plan.decomposition.pieces.map (.after kept)) := by
  obtain ⟨m, hm, hlatest, hhash, hperm⟩ := h.recorded
  let found (r : RecordedPiece) : PieceStatus :=
    { path := w.ofKey r.path, symbol := r.symbol, generated := r.generated
      state := if w.ofKey r.path ∈ kept then .edited else .unchanged }
  have hpieces : (m.piecesOf run.id).mapM (w.pieceStatus p.disk) = .ok ((m.piecesOf run.id).map found) := by
    refine mapM_eq_ok_iff.mpr (List.forall₂_map_right_iff.mpr (List.forall₂_same.mpr fun r hr => ?_))
    obtain ⟨q, hq, rfl⟩ := List.mem_map.mp (hperm.mem_iff.mp hr)
    obtain ⟨data, now, hrender, hread, hsame⟩ := h.piece_read q hq
    by_cases hkept : q.path ∈ kept <;>
      simp [pieceStatus, toRecord, found, h.piece_named q hq, hread, hrender, hsame, hkept]
  have hsame : plan.decomposition.pieces.map (found ∘ w.toRecord run.id plan) =
      plan.decomposition.pieces.map (.after kept) := by
    refine List.map_congr_left fun q hq => ?_
    simp [found, toRecord, PieceStatus.after, h.piece_named q hq]
  refine ⟨⟨plan.source, run.id, run.createdAt, false, (m.piecesOf run.id).map found⟩, ?_, rfl, rfl, ?_⟩
  · unfold Workspace.status
    simp only [hsource, hrecords, Bool.not_true, Bool.false_eq_true, if_false, run_bind, run_get, run_ofExcept,
      Database.latest?, Database.piecesOf, Database.query, hm, hlatest, hpieces, h.source_read, SourceFile.lift, run_pure]
    simp [h.hash_eq, hhash]
  · rw [← hsame, ← List.map_map]
    exact hperm.map found

/-- With an injective digest a split leaves such a project. -/
lemma Reported.left (h : w.Reported plan force p p' recorded disk run result)
    (hkeys : plan.decomposition.pieces.Pairwise fun r q => Disk.key r.path ≠ Disk.key q.path)
    (hread : p.disk.read plan.source = .content plan.text) (hhash : plan.hash = w.digest plan.text)
    (hnames : w.Traces plan.source plan.decomposition recorded) (hdigest : Function.Injective w.digest)
    (hclock : Monotone w.clock) (hm : p.database.manifest = some m) (hsound : m.Sound)
    (hpast : ∀ r ∈ m.runs, r.source = w.key plan.source → r.createdAt ≤ w.clock p.ticks) :
    w.Left plan run result.kept p' := by
  obtain ⟨hsource, hpieces, hrecorded⟩ :=
    h.standing hkeys hread (h.performed.sparing hnames) hclock hm hsound hpast
  refine ⟨hsource, fun q hq => ?_, hnames.named, hhash, hrecorded⟩
  obtain ⟨data, found, hrender, hfound, hsame⟩ := hpieces q hq
  exact ⟨data, found, hrender, hfound, by rw [hdigest.eq_iff, hsame]⟩

lemma Left.release (h : w.Left plan run kept p) (path : Path) : w.Left plan run kept (release path p) :=
  ⟨h.source_read, h.piece_read, h.piece_named, h.hash_eq, h.recorded⟩

/-- The pieces that a split wrote and those that it kept are all its pieces. -/
lemma Reported.written_add_kept (h : w.Reported plan force p p' recorded disk run result) :
    result.written + result.kept.length = plan.decomposition.pieces.length := by
  have hperm := List.filter_append_perm (fun q => (w.spared plan force recorded p.disk).contains q.path)
    plan.decomposition.pieces
  rw [h.written_eq, h.performed.kept_eq, List.length_map, remaining, Nat.add_comm, ← List.length_append]
  simpa using hperm.length_eq

/-! Splits. -/

/-- What is on record before a split of a source: runs with names of their own, none of the source dated later than
now, and as the last pieces of the source some that stand apart from it, at paths without backslashes. -/
structure Prior (w : Workspace) (source : Path) (p : Project) : Prop where
  sound : ∀ m, p.database.manifest = some m → m.Sound
  past : ∀ m, p.database.manifest = some m → ∀ r ∈ m.runs, r.source = w.key source → r.createdAt ≤ w.clock p.ticks
  named : ∀ recorded, w.lastPieces source p.database = .ok recorded → ∀ r ∈ recorded,
    ∃ x, Recordable x ∧ Disk.key x ≠ Disk.key source ∧ w.key x = r.path

/-- A split leaves the record like that. -/
lemma Performed.prior (h : w.Performed plan force p p' recorded disk run kept) (hrecords : w.records = true)
    (hclock : Monotone w.clock) (hprior : w.Prior plan.source p)
    (hpieces : ∀ q ∈ plan.decomposition.pieces, Recordable q.path ∧ Disk.key q.path ≠ Disk.key plan.source) :
    w.Prior plan.source p' := by
  obtain ⟨database, hrecord, -⟩ := h.filed.database_eq
  obtain ⟨m, -, hm, -⟩ := Database.record_eq_ok hrecord
  obtain ⟨m', hm', hremembers, -⟩ := h.filed.remembers hclock (hprior.sound m hm) (hprior.past m hm) hm
  refine ⟨fun m₁ hm₁ => ?_, fun m₁ hm₁ => ?_, fun recorded' hrecorded r hr => ?_⟩
  · obtain rfl := Option.some.inj (hm'.symm.trans hm₁)
    exact hremembers.sound
  · obtain rfl := Option.some.inj (hm'.symm.trans hm₁)
    exact hremembers.past
  · obtain ⟨plan', run', hplan, -, q, hq, rfl⟩ := (hremembers.mem_lastPieces hrecords hm' hrecorded r).mp hr
    obtain rfl := Option.some.inj hplan
    exact ⟨q.path, (hpieces q hq).1, (hpieces q hq).2, rfl⟩

/-- A split that gives a result took the lock, carried out its plan and cleared the files of the last run as it
tells, and released the lock. -/
lemma split_sweeps (hrecords : w.records = true) (h : (w.split path force).run p = (.ok result, p')) :
    ∃ plan log p₁ recorded disk run, (w.planAt (w.abs path)).run p = (.ok plan, { p with log := log }) ∧
      w.Reported plan force (locking plan.decomposition.dir { p with log := log }) p₁ recorded disk run result ∧
      w.Swept plan.decomposition recorded result.removed result.stale disk p₁.disk ∧
      p' = release (lockPath plan.decomposition.dir) p₁ := by
  rw [split_eq_guarded, guarded, run_bind] at h
  cases hplan : (w.planAt (w.abs path)).run p with
  | mk plan? p₀ =>
    rw [hplan] at h
    cases plan? with
    | error e => cases h
    | ok plan =>
      obtain ⟨-, -, -, -, log, rfl⟩ := planAt_eq_ok hplan
      obtain ⟨-, p₁, hbody, rfl⟩ := withLock_eq_ok h
      have hsweeps := (splitPlan_sweeps hrecords plan force (locking plan.decomposition.dir { p with log := log })).2
      rw [hbody] at hsweeps
      obtain ⟨recorded, disk, run, hreported, hswept⟩ := hsweeps result rfl
      exact ⟨plan, log, p₁, recorded, disk, run, rfl, hreported, hswept, rfl⟩

lemma split_eq_ok (hrecords : w.records = true) (h : (w.split path force).run p = (.ok result, p')) :
    ∃ plan log p₁ recorded disk run, (w.planAt (w.abs path)).run p = (.ok plan, { p with log := log }) ∧
      w.Reported plan force (locking plan.decomposition.dir { p with log := log }) p₁ recorded disk run result ∧
      p' = release (lockPath plan.decomposition.dir) p₁ := by
  obtain ⟨plan, log, p₁, recorded, disk, run, hplan, hreported, -, hreleased⟩ := split_sweeps hrecords h
  exact ⟨plan, log, p₁, recorded, disk, run, hplan, hreported, hreleased⟩

/-- A status right after a split is exact. It is that of the run of the split, the source has not changed, and each
piece is listed once: as edited if it was kept, and otherwise as unchanged. The pieces that were written and those that
were kept are all there are. The record then is as it has to be before the next split. That the pieces root is absolute
holds of every workspace that is made from settings, by `Settings.isAbs_piecesRoot`. -/
theorem status_after_split (hrun : (w.split path force).run p = (.ok result, p'))
    (hplan : ((w.planAt (w.abs path)).run p).1 = .ok plan) (hrecords : w.records = true)
    (hdigest : Function.Injective w.digest) (hclock : Monotone w.clock) (hprior : w.Prior (w.abs path) p)
    (hroot : w.options.piecesRoot.isAbs = true)
    (hpieces : ∀ q ∈ plan.decomposition.pieces, 92 ∉ q.path ∧ Disk.key q.path ≠ Disk.key (w.abs path)) :
    (∃ s, (w.status path).run p' = (.ok s, p') ∧ s.runId = result.runId ∧ s.sourceChanged = false ∧
      s.pieces.Perm (plan.decomposition.pieces.map (PieceStatus.after result.kept))) ∧
    (plan.decomposition.pieces.map (·.path)).Nodup ∧
    result.kept.Sublist (plan.decomposition.pieces.map (·.path)) ∧
    result.written + result.kept.length = plan.decomposition.pieces.length ∧ w.Prior (w.abs path) p' := by
  obtain ⟨plan', log, p₁, recorded, disk, run, hplan', hreported, rfl⟩ := split_eq_ok hrecords hrun
  rw [hplan'] at hplan
  obtain rfl := Except.ok.inj hplan
  obtain ⟨hread, hsource, hhash, hlayout, -⟩ := planAt_eq_ok hplan'
  obtain ⟨f, hd⟩ := Parser.layout_eq_ok hlayout
  obtain ⟨⟨rooted, hclean⟩, hdistinct⟩ := Decomposition.paths_apart hd
  have hdone := hreported.performed
  rw [← hsource] at hpieces hread hprior ⊢
  have hplaces : ∀ q ∈ plan'.decomposition.pieces, Recordable q.path ∧ Disk.key q.path ≠ Disk.key plan'.source :=
    fun q hq => ⟨⟨Decomposition.isAbs_of_mem_pieces hd hroot hq, (hclean q hq).1, (hpieces q hq).1⟩, (hpieces q hq).2⟩
  have hnames : w.Traces plan'.source plan'.decomposition recorded :=
    .of_recordable hplaces (hprior.named recorded hdone.recorded_eq)
  -- a split that is recorded found a record
  obtain ⟨database, hrecord, -⟩ := hdone.filed.database_eq
  obtain ⟨m, -, hm, -⟩ := Database.record_eq_ok hrecord
  have hleft := hreported.left (Decomposition.keys_apart hd) (Disk.read_locked hread _) hhash hnames hdigest hclock hm
    (hprior.sound m hm) (hprior.past m hm)
  obtain ⟨s, hstatus, hid, hsame, hperm⟩ := (hleft.release (lockPath plan'.decomposition.dir)).status hrecords hsource.symm
  refine ⟨⟨s, hstatus, hid.trans hreported.runId_eq.symm, hsame, hperm⟩, ?_, ?_, hreported.written_add_kept, ?_⟩
  · exact List.pairwise_map.mpr hdistinct
  · rw [hdone.kept_eq]
    exact List.filter_sublist.map _
  · have hstill := hdone.prior hrecords hclock ⟨hprior.sound, hprior.past, hprior.named⟩ hplaces
    exact ⟨hstill.sound, hstill.past, hstill.named⟩

/-- A workspace in which contents are their own digests. -/
def openWorkspace : Workspace := { sampleWorkspace with digest := id }

instance : openWorkspace.parser.Deterministic openWorkspace.options :=
  Parser.ofGrammar_deterministic .builtIn [] _

def pairText : Text := "type A=1\ntype B=2\n"

def editedManifest : Manifest :=
  { runs := [⟨"first", "t/x.ts", pairText, "p/x", 3, 0, 0⟩]
    pieces := [⟨"first", "p/x/types/A.d.ts", "A", "types", 0, 8, "old piece", false⟩] }

/-- Two declarations that were split, and an edit of the first piece. -/
def editedPair : Project :=
  { disk := { nodes := [
      ("/work", .directory), ("/work/t", .directory), ("/work/t/x.ts", .file pairText),
      ("/work/p", .directory), ("/work/p/x", .directory), ("/work/p/x/types", .directory),
      ("/work/p/x/types/A.d.ts", .file "type A=5\n")] }
    database := { manifest := some editedManifest } }

lemma lastPieces_editedPair : openWorkspace.lastPieces (openWorkspace.abs "t/x.ts") editedPair.database =
    .ok editedManifest.pieces := by decide +kernel

/-- The recorded piece of the sample goes by its path, and is not the source. -/
lemma named_editedPair : ∀ r ∈ editedManifest.pieces,
    ∃ x, Recordable x ∧ Disk.key x ≠ Disk.key (openWorkspace.abs "t/x.ts") ∧ openWorkspace.key x = r.path := by
  have hall : ∀ r ∈ editedManifest.pieces, Recordable (openWorkspace.ofKey r.path) ∧
      Disk.key (openWorkspace.ofKey r.path) ≠ Disk.key (openWorkspace.abs "t/x.ts") ∧
      openWorkspace.key (openWorkspace.ofKey r.path) = r.path := by decide +kernel
  exact fun r hr => ⟨_, hall r hr⟩

def splitAfter : MergeOptions := { resplit := true }

/-- The edited piece is kept. -/
theorem status_after_split_of_edit : ∃ result p' s,
    (openWorkspace.split "t/x.ts" false).run editedPair = (.ok result, p') ∧
      result.kept = [("/work/p/x/types/A.d.ts" : Text)] ∧ result.written = 2 ∧
      (openWorkspace.status "t/x.ts").run p' = (.ok s, p') ∧ s.runId = result.runId ∧ s.sourceChanged = false ∧
      s.pieces.Perm [⟨"/work/p/x/index.d.ts", "", true, .unchanged⟩, ⟨"/work/p/x/types/B.d.ts", "B", false, .unchanged⟩,
        ⟨"/work/p/x/types/A.d.ts", "A", false, .edited⟩] := by
  have hfacts : ((openWorkspace.split "t/x.ts" false).run editedPair).1.map
        (fun r => (r.kept, r.written)) = .ok (["/work/p/x/types/A.d.ts"], 2) ∧
      ((openWorkspace.planAt (openWorkspace.abs "t/x.ts")).run editedPair).1.map
        (fun plan => plan.decomposition.pieces.map fun q => (q.path, q.symbol, q.isGenerated)) =
          .ok [("/work/p/x/index.d.ts", "", true), ("/work/p/x/types/B.d.ts", "B", false),
            ("/work/p/x/types/A.d.ts", "A", false)] := by
    decide +kernel
  obtain ⟨hsplit, hplan⟩ := hfacts
  obtain ⟨result, hresult, hkept⟩ := exists_of_map_eq_ok hsplit
  obtain ⟨p', hrun⟩ := exists_run_eq hresult
  obtain ⟨plan, hplan, hpieces⟩ := exists_of_map_eq_ok hplan
  obtain ⟨hkept, hwritten⟩ := Prod.mk.inj hkept
  have hprior : openWorkspace.Prior (openWorkspace.abs "t/x.ts") editedPair := by
    refine ⟨?_, ?_, fun recorded hrecorded => ?_⟩
    · rintro m ⟨⟩
      constructor <;> decide
    · rintro m ⟨⟩
      decide +kernel
    · obtain rfl := Except.ok.inj (lastPieces_editedPair.symm.trans hrecorded)
      exact named_editedPair
  have hpaths : plan.decomposition.pieces.map (·.path) =
      [("/work/p/x/index.d.ts" : Text), "/work/p/x/types/B.d.ts", "/work/p/x/types/A.d.ts"] := by
    have hfst := congrArg (List.map Prod.fst) hpieces
    rwa [List.map_map] at hfst
  have hplaces : ∀ q ∈ plan.decomposition.pieces,
      92 ∉ q.path ∧ Disk.key q.path ≠ Disk.key (openWorkspace.abs "t/x.ts") := by
    have hall : ∀ x ∈ plan.decomposition.pieces.map (·.path),
        92 ∉ x ∧ Disk.key x ≠ Disk.key (openWorkspace.abs "t/x.ts") := by
      rw [hpaths]
      decide +kernel
    exact fun q hq => hall q.path (List.mem_map_of_mem hq)
  have hroot : openWorkspace.options.piecesRoot.isAbs = true := by decide +kernel
  obtain ⟨⟨s, hstatus, hid, hsame, hperm⟩, -⟩ := status_after_split hrun hplan rfl Function.injective_id
    monotone_sampleClock hprior hroot hplaces
  refine ⟨result, p', s, hrun, hkept, hwritten, hstatus, hid, hsame, ?_⟩
  have hstates : plan.decomposition.pieces.map (PieceStatus.after result.kept) =
      (plan.decomposition.pieces.map fun q => (q.path, q.symbol, q.isGenerated)).map fun q =>
        ⟨q.1, q.2.1, q.2.2, if q.1 ∈ result.kept then .edited else .unchanged⟩ := by
    rw [List.map_map]
    rfl
  have hlisted : ([("/work/p/x/index.d.ts", "", true), ("/work/p/x/types/B.d.ts", "B", false),
        ("/work/p/x/types/A.d.ts", "A", false)] : List (Path × Text × Bool)).map (fun q =>
          (⟨q.1, q.2.1, q.2.2, if q.1 ∈ [("/work/p/x/types/A.d.ts" : Text)] then .edited else .unchanged⟩ : PieceStatus)) =
      [⟨"/work/p/x/index.d.ts", "", true, .unchanged⟩, ⟨"/work/p/x/types/B.d.ts", "B", false, .unchanged⟩,
        ⟨"/work/p/x/types/A.d.ts", "A", false, .edited⟩] := by decide +kernel
  rwa [hstates, hpieces, hkept, hlisted] at hperm

end Workspace

end DeclPieces
