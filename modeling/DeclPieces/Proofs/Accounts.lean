import DeclPieces.Proofs.History
import DeclPieces.Proofs.LastSplit
import DeclPieces.Proofs.Trouble

/-! Accounts of the piece files: throughout the history of a project it is known of each file that only splits of
one source write whether what stands there is what the last split wrote, or an edit. -/
namespace DeclPieces

namespace Workspace
open Activity
variable {w : Workspace} {source x : Path} {p p' : Project} {s : Story} {e : Event} {plan : Plan}
  {q : Piece}

/-- Nothing but recorded splits of the source wrote at the path, and the record of no other piece leads there. -/
structure Lone (w : Workspace) (source x : Path) (s : Story) : Prop where
  named : w.ofKey (w.key x) = x
  sources : ∀ t ∈ s.turns, w.key t.plan.source = w.key source → t.plan.source = source
  names : ∀ t ∈ s.turns, t.plan.source = source → ∀ q ∈ t.plan.decomposition.pieces,
    Disk.key (w.ofKey (w.key q.path)) = Disk.key x → q.path = x
  writes : ∀ t ∈ s.turns, t.textsAt x ≠ [] → t.plan.source = source ∧ t.kept?.isSome

instance (s : Story) : Decidable (w.Lone source x s) :=
  decidable_of_iff (w.ofKey (w.key x) = x ∧
      (∀ t ∈ s.turns, w.key t.plan.source = w.key source → t.plan.source = source) ∧
      (∀ t ∈ s.turns, t.plan.source = source → ∀ q ∈ t.plan.decomposition.pieces,
        Disk.key (w.ofKey (w.key q.path)) = Disk.key x → q.path = x) ∧
      ∀ t ∈ s.turns, t.textsAt x ≠ [] → t.plan.source = source ∧ t.kept?.isSome)
    ⟨fun h => ⟨h.1, h.2.1, h.2.2.1, h.2.2.2⟩, fun h => ⟨h.named, h.sources, h.names, h.writes⟩⟩

lemma Lone.of_subset {s s' : Story} (h : w.Lone source x s') (hsub : s.turns ⊆ s'.turns) : w.Lone source x s where
  named := h.named
  sources t ht := h.sources t (hsub ht)
  names t ht := h.names t (hsub ht)
  writes t ht := h.writes t (hsub ht)

/-- The piece of the last split that is recorded under the name of the path stands at the path. -/
lemma Lone.path_eq (h : w.Lone source x s) {last : Plan × List Path} (hlast : last ∈ s.last? source)
    (hq : q ∈ last.1.decomposition.pieces) (hkey : w.key q.path = w.key x) : q.path = x := by
  obtain ⟨t, ht, hplan, hsource, -⟩ := Story.exists_turn hlast
  refine h.names t ht hsource q (hplan ▸ hq) ?_
  rw [hkey, h.named]

/-- As long as no split of the source is recorded nothing was written at the path. -/
lemma Lone.wrote_eq_nil (h : w.Lone source x s) (hnone : s.last? source = none) : s.wrote x = [] := by
  refine List.flatMap_eq_nil_iff.mpr fun t ht => ?_
  by_contra hne
  obtain ⟨hsource, hkept⟩ := h.writes t ht hne
  obtain ⟨kept, hkept⟩ := Option.isSome_iff_exists.mp hkept
  have hskipped := List.findSome?_eq_none_iff.mp hnone t ht
  simp [hsource, hkept] at hskipped

/-- What is known of the file of a piece of the last split. Unless the split kept it, what was last written there
is the piece. What stands there now is that, or else no split ever wrote it there, unless it was put back. -/
structure Accounted (s : Story) (plan : Plan) (kept : List Path) (q : Piece) : Prop where
  wrote : q.path ∉ kept → (s.wrote q.path).head? = q.render? plan.text
  stands : ∀ data, s.project.disk.stored? q.path = some data → s.restored q.path = false →
    data ∉ s.wrote q.path ∨ q.path ∉ kept ∧ q.render? plan.text = some data

lemma Accounted.pass {kept : List Path} (h : Accounted s plan kept q) (hpass : s.Passes w e q.path) :
    Accounted (s.next w e) plan kept q where
  wrote := by
    rw [hpass.wrote_eq]
    exact h.wrote
  stands data hdata hr := by
    rw [hpass.wrote_eq]
    rcases hpass.stored? hdata hr with ⟨hbefore, hr⟩ | hnew
    · exact h.stands data hbefore hr
    · exact .inl hnew

/-- What holds throughout the history of a project: the record has the last split of the source, and the file at
the path is accounted for. -/
structure Tracked (w : Workspace) (source x : Path) (s : Story) : Prop where
  remembers : ∃ m, s.project.database.manifest = some m ∧
    w.Remembers source ((s.last? source).map (·.1)) s.project.ticks m
  planned : ∀ last ∈ s.last? source, w.Planned source last.1
  accounted : ∀ last ∈ s.last? source, ∀ q ∈ last.1.decomposition.content, q.path = x →
    Accounted s last.1 last.2 q

/-! Splits. -/

section Splits
variable {force : Bool} {recorded : List RecordedPiece} {disk : Disk} {run : Run} {kept : List Path} {sp : Splitting}

lemma Performed.turn_writes (h : w.Performed sp.plan sp.force sp.start p' recorded disk run kept) :
    (sp.turn w).writes = (writePieces sp.plan.text (w.remaining sp.plan sp.force recorded sp.start.disk).pieces
      ({ disk := sp.start.disk } : Noting)).2.notes := by
  simp only [Splitting.turn, h.recorded_eq, Decomposition.write_snd]

section
variable (h : w.Performed sp.plan sp.force sp.start p' recorded disk run kept)
  (hplan : w.Planned source sp.plan) (hq : q ∈ sp.plan.decomposition.pieces)
include h hplan hq

/-- All that is written at the place of a piece is the piece. -/
lemma Performed.mem_textsAt {data : Text} (hdata : data ∈ (sp.turn w).textsAt q.path) :
    q.path ∉ kept ∧ q.render? sp.plan.text = some data := by
  obtain ⟨e, he, hkey, rfl⟩ := Turn.mem_textsAt.mp hdata
  rw [h.turn_writes] at he
  rcases Noting.mem_notes he with he | ⟨r, hr, hpath, hrender⟩
  · cases he
  · obtain ⟨hr, hkept⟩ := h.mem_remaining_iff.mp hr
    obtain rfl : r = q := hplan.eq_of_key hr hq (by rw [hpath, hkey])
    exact ⟨hkept, hrender⟩

lemma Performed.textsAt_of_kept (hkept : q.path ∈ kept) : (sp.turn w).textsAt q.path = [] := by
  refine List.eq_nil_iff_forall_not_mem.mpr fun data hdata => ?_
  exact (h.mem_textsAt hplan hq hdata).1 hkept

lemma Performed.textsAt_of_not_kept (hkept : q.path ∉ kept) :
    ((sp.turn w).textsAt q.path).head? = q.render? sp.plan.text := by
  have hdisk := Noting.writePieces_disk sp.plan.text (w.remaining sp.plan sp.force recorded sp.start.disk).pieces
    ({ disk := sp.start.disk } : Noting)
  rw [h.written] at hdisk
  have hok : writePieces sp.plan.text (w.remaining sp.plan sp.force recorded sp.start.disk).pieces
      ({ disk := sp.start.disk } : Noting) = (.ok [], (writePieces sp.plan.text
        (w.remaining sp.plan sp.force recorded sp.start.disk).pieces ({ disk := sp.start.disk } : Noting)).2) :=
    Prod.ext (Prod.mk.inj hdisk).1.symm rfl
  obtain ⟨content, hrender, hnote⟩ := Noting.exists_mem_notes hok q (h.mem_remaining_iff.mpr ⟨hq, hkept⟩)
  rw [← h.turn_writes] at hnote
  have hmem : content ∈ (sp.turn w).textsAt q.path := Turn.mem_textsAt.mpr ⟨_, hnote, rfl, rfl⟩
  cases htexts : (sp.turn w).textsAt q.path with
  | nil => simp [htexts] at hmem
  | cons first rest =>
    have hfirst : q.path ∉ kept ∧ q.render? sp.plan.text = some first := h.mem_textsAt hplan hq (by simp [htexts])
    rw [List.head?_cons, hfirst.2]

end

/-- A file that a split keeps is that of a piece of the last split, and not as it was recorded. -/
lemma Tracked.exists_last_of_kept (h : w.Tracked source x s) (hrecords : w.records = true) (hlone : w.Lone source x s)
    (hplan : w.Planned source plan) (hdatabase : p.database = s.project.database)
    (hp : w.Performed plan force p p' recorded disk run kept) (hq : q ∈ plan.decomposition.pieces) (hx : q.path = x)
    (hkept : x ∈ kept) :
    ∃ data, p.disk.read x = .content data ∧ ∃ last ∈ s.last? source, ∃ q₀ ∈ last.1.decomposition.content, q₀.path = x ∧
      w.digest data ≠ w.digest ((q₀.render? last.1.text).getD []) := by
  obtain ⟨m, hm, hrem⟩ := h.remembers
  obtain ⟨r, hr, hgenerated, hpath, data, hread, hdigest⟩ :=
    exists_of_mem_spared ((hp.mem_kept_iff hq).mp (hx ▸ hkept))
  have hrecorded := hp.recorded_eq
  rw [hplan.source_eq, hdatabase] at hrecorded
  obtain ⟨plan₀, run₀, hlast, -, q₀, hq₀, rfl⟩ := (hrem.mem_lastPieces hrecords hm hrecorded r).mp hr
  obtain ⟨last, hmem, rfl⟩ := Option.map_eq_some_iff.mp hlast
  have hcontent : q₀ ∈ last.1.decomposition.content :=
    ((h.planned last hmem).mem_content_iff hq₀).mpr hgenerated
  exact ⟨data, hx ▸ hread, last, hmem, q₀, hcontent, hlone.path_eq hmem hq₀ (hx ▸ hpath), hdigest⟩

/-- So no split wrote what it finds there, unless it was put back. -/
lemma Tracked.stands_of_kept (h : w.Tracked source x s) (hrecords : w.records = true) (hlone : w.Lone source x s)
    (hplan : w.Planned source plan) (hdatabase : p.database = s.project.database)
    (hp : w.Performed plan force p p' recorded disk run kept) (hq : q ∈ plan.decomposition.pieces) (hx : q.path = x)
    (hkept : x ∈ kept) {data : Text} (hafter : p'.disk.stored? x = some data)
    (hdata : s.project.disk.stored? x = some data) (hrestored : s.restored x = false) : data ∉ s.wrote x := by
  obtain ⟨data', hread, last, hlast, q₀, hq₀, hq₀x, hdigest⟩ :=
    h.exists_last_of_kept hrecords hlone hplan hdatabase hp hq hx hkept
  obtain rfl : data = data' := by
    have hbefore := hp.stored?_of_kept hplan hq (hx ▸ hkept) (hx ▸ hafter)
    exact Option.some.inj (hbefore.symm.trans (hx ▸ Disk.stored?_of_read hread))
  have hstands := (h.accounted last hlast q₀ hq₀ hq₀x).stands data
  rw [hq₀x] at hstands
  rcases hstands hdata hrestored with hnew | ⟨-, hrender⟩
  · exact hnew
  · -- then the file would be as it was recorded
    refine absurd ?_ hdigest
    rw [hrender]
    rfl

/-- What a split leaves at the path. -/
lemma Tracked.accounted_of_split [w.parser.Deterministic w.options] (h : w.Tracked source x s) (hrecords : w.records = true)
    (hlone : w.Lone source x s) (hsp : e.splitting? w s.project = some sp) (hsource : sp.plan.source = source)
    (hp : w.Performed sp.plan sp.force sp.start p' recorded disk run kept)
    (hdisk : (s.next w e).project.disk = p'.disk) (hq : q ∈ sp.plan.decomposition.content)
    (hx : q.path = x) : Accounted (s.next w e) sp.plan kept q := by
  have hsplits := Event.splits_of_some hsp
  have hplan : w.Planned source sp.plan := hsource ▸ hsplits.planned
  obtain ⟨f, hf⟩ := hplan.exists_file
  have hq : q ∈ sp.plan.decomposition.pieces := List.mem_of_mem_drop hq
  by_cases hkept : q.path ∈ kept
  · have hpass : s.Passes w e q.path := by
      intro sp' hsp'
      obtain rfl := Option.some.inj (hsp.symm.trans hsp')
      exact hp.textsAt_of_kept hplan hq hkept
    refine ⟨fun hnot => absurd hkept hnot, fun data hdata hr => .inl ?_⟩
    rw [hpass.wrote_eq]
    rcases hpass.stored? hdata hr with ⟨hbefore, hr⟩ | hnew
    · rw [hdisk] at hdata
      rw [hx] at hdata hbefore hr ⊢
      exact h.stands_of_kept hrecords hlone hplan hsplits.database_eq hp hq hx (hx ▸ hkept) hdata hbefore hr
    · exact hnew
  · refine ⟨fun _ => ?_, fun data hdata _ => .inr ⟨hkept, ?_⟩⟩
    · have htexts := hp.textsAt_of_not_kept hplan hq hkept
      obtain ⟨content, hrender, -⟩ := Disk.stored?_of_writePieces_eq_ok
        ((Decomposition.keys_apart hf).sublist List.filter_sublist) hp.written q (hp.mem_remaining_iff.mpr ⟨hq, hkept⟩)
      unfold Story.wrote
      rw [Story.turns_of_some hsp, List.flatMap_cons, List.head?_append, htexts, hrender]
      rfl
    · exact hp.stored?_of_not_kept hplan hq hkept (hdisk ▸ hdata)

end Splits

/-! Steps. -/

/-- As long as no split writes at the path and the record stays as it is, nothing changes. -/
lemma Tracked.pass (h : w.Tracked source x s) (hpass : s.Passes w e x)
    (hlast : (s.next w e).last? source = s.last? source)
    (hremembers : ∃ m, (s.next w e).project.database.manifest = some m ∧
      w.Remembers source ((s.last? source).map (·.1)) (s.next w e).project.ticks m) :
    w.Tracked source x (s.next w e) where
  remembers := by
    rw [hlast]
    exact hremembers
  planned := by
    rw [hlast]
    exact h.planned
  accounted := by
    rw [hlast]
    rintro last hmem q hq rfl
    exact (h.accounted last hmem q hq rfl).pass hpass

/-- Each event keeps what holds throughout. -/
lemma Tracked.next [w.parser.Deterministic w.options] (h : w.Tracked source x s) (hrecords : w.records = true)
    (hclock : Monotone w.clock)
    (hlone : w.Lone source x (s.next w e)) : w.Tracked source x (s.next w e) := by
  have hbefore := hlone.of_subset (Story.subset_next w s e)
  obtain ⟨m, hm, hrem⟩ := h.remembers
  cases hs : e.splitting? w s.project with
  | none =>
    obtain ⟨hdb, hticks⟩ := Event.same_of_none hs
    refine h.pass (fun sp hsp => ?_) (Story.last?_of_none hs) ⟨m, ?_, hrem.later hclock hticks⟩
    · rw [hs] at hsp
      cases hsp
    · exact (congrArg Database.manifest hdb).trans hm
  | some sp =>
    have hsplits := Event.splits_of_some hs
    have hturn : sp.turn w ∈ (s.next w e).turns := by simp [Story.turns_of_some hs]
    have hlast : (s.next w e).last? source = _ := Story.last?_of_some hs
    obtain ⟨⟨hticks, -⟩, hperformed⟩ := splitPlan_performs hrecords sp.plan sp.force sp.start
    have hfail := splitPlan_throws w sp.plan sp.force sp.start
    have hstart : w.Remembers source ((s.last? source).map (·.1)) sp.start.ticks m :=
      hrem.later hclock hsplits.ticks_le
    have hmanifest : sp.start.database.manifest = some m := by rw [hsplits.database_eq, hm]
    -- a split that writes at the path is one of the source that is recorded
    have hpass (hnot : ¬ (sp.plan.source = source ∧ (sp.turn w).kept?.isSome)) : s.Passes w e x := by
      intro sp' hsp'
      obtain rfl := Option.some.inj (hs.symm.trans hsp')
      by_contra hne
      exact hnot (hlone.writes _ hturn hne)
    cases hrun : ((w.splitPlan sp.plan sp.force).run sp.start).1 with
    | error failure =>
      have hkept : (sp.turn w).kept? = none := by simp [Splitting.turn, hrun]
      refine h.pass (hpass (by simp [hkept])) (by simp [hlast, hkept]) ⟨m, ?_, ?_⟩
      · exact (congrArg Database.manifest (hsplits.same.database_eq.trans (hfail failure hrun))).trans hmanifest
      · refine hstart.later hclock ?_
        exact hticks.trans hsplits.same.ticks_eq.ge
    | ok result =>
      obtain ⟨recorded, disk, run, hp⟩ := hperformed result hrun
      have hkept : (sp.turn w).kept? = some result.kept := by simp [Splitting.turn, hrun]
      have hproject : (s.next w e).project = e.run w s.project := rfl
      rw [hkept] at hlast
      by_cases hsource : sp.plan.source = source
      · have hlast : (s.next w e).last? source = some (sp.plan, result.kept) := by simp [hlast, hsource]
        have hdisk : (s.next w e).project.disk = ((w.splitPlan sp.plan sp.force).run sp.start).2.disk :=
          hsplits.same.disk_eq
        refine ⟨?_, ?_, ?_⟩
        · rw [hlast, hproject, hsplits.same.database_eq, hsplits.same.ticks_eq, ← hsource]
          exact (hsource.symm ▸ hstart).filed_own hclock hmanifest hp.filed
        · rw [hlast]
          rintro _ ⟨⟩
          exact hsource ▸ hsplits.planned
        · rw [hlast]
          rintro _ ⟨⟩ q hq hx
          exact h.accounted_of_split hrecords hbefore hs hsource hp hdisk hq hx
      · have hkey : w.key sp.plan.source ≠ w.key source := fun hkey => hsource (hlone.sources _ hturn hkey)
        refine h.pass (hpass fun hboth => hsource hboth.1) (by simp [hlast, hsource]) ?_
        rw [hproject, hsplits.same.database_eq, hsplits.same.ticks_eq]
        exact hstart.filed_other hclock hmanifest hp.filed hkey

lemma Tracked.run [w.parser.Deterministic w.options] (h : w.Tracked source x s) (hrecords : w.records = true)
    (hclock : Monotone w.clock) (events : List Event) (hlone : w.Lone source x (s.run w events)) : w.Tracked source x (s.run w events) := by
  induction events generalizing s with
  | nil => exact h
  | cons e rest ih =>
    have hnext : w.Lone source x (s.next w e) := hlone.of_subset (Story.subset_run w (s.next w e) rest)
    exact ih (h.next hrecords hclock hnext) hlone

/-- The project has a manifest, which knows nothing of the source yet. -/
def Unsplit (w : Workspace) (source : Path) (p : Project) : Prop :=
  ∃ m, p.database.manifest = some m ∧ m.Sound ∧ ∀ r ∈ m.runs, r.source ≠ w.key source

lemma Unsplit.tracked (h : w.Unsplit source p) (x : Path) : w.Tracked source x { project := p } := by
  obtain ⟨m, hm, hsound, hnone⟩ := h
  refine ⟨⟨m, hm, hsound, ?_, fun _ => Manifest.latest?_eq_none hnone, ?_⟩, ?_, ?_⟩
  · exact fun r hr hs => absurd hs (hnone r hr)
  · rintro plan ⟨⟩
  · rintro last ⟨⟩
  · rintro last ⟨⟩

end Workspace

end DeclPieces
