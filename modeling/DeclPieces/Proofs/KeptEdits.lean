import DeclPieces.Proofs.Accounts

/-! Edits of piece files over the history of a project: when a split leaves an edited file as it is, when what it
keeps is an edit and not text of another split, and what a merge folds into its source. -/
namespace DeclPieces

namespace Workspace
open Activity
variable {w : Workspace} {source path x : Path} {p p₁ p' : Project} {s : Story} {plan plan' : Plan} {q q' : Piece}
  {data : Text} {force : Bool}

section Histories
variable (hrecords : w.records = true)
include hrecords

/-- A split leaves a file if it writes nothing else there, and either has a piece there or finds the file not to be
as it was recorded. -/
lemma Tracked.leaves (h : w.Tracked source x s) (hlone : w.Lone source x s) (hsource : plan.source = source)
    (hdb : p₁.database = s.project.database)
    (hwritten : ∀ recorded, w.lastPieces source p₁.database = .ok recorded →
      ∀ q ∈ (w.remaining plan force recorded p₁.disk).pieces, Disk.key x = Disk.key q.path →
        q.render? plan.text = some data)
    (hremoved : (∃ q ∈ plan.decomposition.pieces, q.path = x) ∨
      ∀ last ∈ s.last? source, ∀ q ∈ last.1.decomposition.pieces, q.path = x →
        w.digest data ≠ w.digest ((q.render? last.1.text).getD [])) :
    w.Leaves plan force p₁ x data := by
  obtain ⟨m, hm, hrem⟩ := h.remembers
  refine ⟨hsource ▸ hwritten, fun recorded hrecorded r hr hgone hkey => ?_⟩
  rw [hsource, hdb] at hrecorded
  obtain ⟨plan₀, run, hlast, -, q₀, hq₀, rfl⟩ := (hrem.mem_lastPieces hrecords hm hrecorded r).mp hr
  obtain ⟨last, hmem, rfl⟩ := Option.map_eq_some_iff.mp hlast
  obtain ⟨t, ht, hplan, hown, -⟩ := Story.exists_turn hmem
  have hq₀x : q₀.path = x := hlone.names t ht hown q₀ (hplan ▸ hq₀) hkey.symm
  rcases hremoved with ⟨q, hq, hx⟩ | hdiffers
  · exact absurd ⟨q, hq, by rw [hx, ← hq₀x]; rfl⟩ hgone
  · exact hdiffers last hmem q₀ hq₀ hq₀x

/-- What a split keeps it finds and leaves. -/
lemma Tracked.read_of_kept (h : w.Tracked source x s) (hlone : w.Lone source x s) (hplan : w.Planned source plan)
    (hdb : p₁.database = s.project.database) {recorded : List RecordedPiece} {disk : Disk} {run : Run}
    {kept : List Path} (hp : w.Performed plan force p₁ p' recorded disk run kept)
    (hq : q ∈ plan.decomposition.pieces) (hx : q.path = x) (hkept : x ∈ kept) :
    ∃ data, p₁.disk.read x = .content data ∧ w.Leaves plan force p₁ x data := by
  obtain ⟨data, hread, -⟩ := h.exists_last_of_kept hrecords hlone hplan hdb hp hq hx hkept
  refine ⟨data, hread, h.leaves hrecords hlone hplan.source_eq hdb ?_ (.inl ⟨q, hq, hx⟩)⟩
  intro recorded' hrecorded' q' hq' hkey
  have hrecorded := hp.recorded_eq
  rw [hplan.source_eq] at hrecorded
  obtain rfl := Except.ok.inj (hrecorded.symm.trans hrecorded')
  obtain ⟨hq', hnot⟩ := hp.mem_remaining_iff.mp hq'
  obtain rfl := hplan.eq_of_key hq hq' (hx ▸ hkey)
  exact absurd (hx ▸ hkept) hnot

end Histories

/-- A piece that is written although it is recorded, and its file is not as recorded, is written as it is. -/
lemma render?_of_not_isEdited {recorded : List RecordedPiece} {disk : Disk} {text : Text}
    (hr : ∃ r ∈ recorded, r.generated = false ∧ r.path = w.key q.path)
    (hdiffers : ∀ r ∈ recorded, r.generated = false → r.path = w.key q.path → w.digest data ≠ r.hash)
    (hread : disk.read q.path = .content data) (h : w.isEdited recorded disk text q = false) :
    q.render? text = some data := by
  unfold isEdited at h
  cases hfind : recorded.find? fun r => !r.generated && r.path = w.key q.path with
  | none =>
    obtain ⟨r, hr, hgenerated, hpath⟩ := hr
    have hnot := List.find?_eq_none.mp hfind r hr
    simp [hgenerated, hpath] at hnot
  | some r =>
    have hfound := List.find?_some hfind
    simp only [Bool.and_eq_true, Bool.not_eq_true', decide_eq_true_eq] at hfound
    have hne := hdiffers r (List.mem_of_find?_eq_some hfind) hfound.1 hfound.2
    simpa [hfind, hread, hne] using h

/-- The last split of the source has a piece at the path, and `data` differs from what was last written there or, if
that split kept the file, from what it would have written. -/
def Story.Edited (w : Workspace) (s : Story) (source x : Path) (data : Text) : Prop :=
  ∃ last ∈ s.last? source, ∃ q ∈ last.1.decomposition.content, q.path = x ∧
    w.digest data ≠ w.digest ((if x ∈ last.2 then q.render? last.1.text else (s.wrote x).head?).getD [])

lemma Tracked.edited_iff (h : w.Tracked source x s) : s.Edited w source x data ↔
    ∃ last ∈ s.last? source, ∃ q ∈ last.1.decomposition.content, q.path = x ∧
      w.digest data ≠ w.digest ((q.render? last.1.text).getD []) := by
  unfold Story.Edited
  refine exists_congr fun last => and_congr_right fun hlast => exists_congr fun q => and_congr_right fun hq =>
    and_congr_right fun hx => ?_
  split
  · rfl
  · next hnot => rw [← hx, (h.accounted last hlast q hq hx).wrote (hx ▸ hnot)]

section Edits
variable [w.parser.Deterministic w.options] (hrecords : w.records = true) (h : w.Tracked source x s)
  (hlone : w.Lone source x s) (hplan : w.Planned source plan) (hdb : p₁.database = s.project.database)
include hrecords h hlone hplan hdb

/-- An edited file is left, whatever the pieces are now. -/
lemma Tracked.leaves_of_edited (hread : p₁.disk.read x = .content data) (hedited : s.Edited w source x data) :
    w.Leaves plan false p₁ x data := by
  obtain ⟨last, hlast, q, hq, hx, hdigest⟩ := h.edited_iff.mp hedited
  have hlastPlan := h.planned last hlast
  have honly (q' : Piece) (hq' : q' ∈ last.1.decomposition.pieces) (hpath : q'.path = x) :
      w.digest data ≠ w.digest ((q'.render? last.1.text).getD []) := by
    obtain rfl := hlastPlan.eq_of_key (List.mem_of_mem_drop hq) hq' (by rw [hx, hpath])
    exact hdigest
  refine h.leaves hrecords hlone hplan.source_eq hdb ?_ (.inr ?_)
  · intro recorded hrecorded q' hq' hkey
    obtain ⟨m, hm, hrem⟩ := h.remembers
    rw [hdb] at hrecorded
    have hmem := hrem.mem_lastPieces hrecords hm hrecorded
    obtain ⟨hq', hspared⟩ := List.mem_filter.mp hq'
    have hpath : q'.path = x := (hlastPlan.path_eq hplan (List.mem_of_mem_drop hq) hq' (by rw [hx, hkey])) ▸ hx
    have hcontent : q' ∈ plan.decomposition.content :=
      hlastPlan.mem_content_of_path hplan hq hq' (hx.trans hpath.symm)
    have hrecord : ∃ r ∈ recorded, r.generated = false ∧ r.path = w.key q'.path := by
      have hsome : (s.last? source).map (·.1) = some last.1 := by rw [Option.mem_def.mp hlast]; rfl
      obtain ⟨run, hrun, -⟩ := hrem.latest_some last.1 hsome
      refine ⟨_, (hmem _).mpr ⟨last.1, run, hsome, hrun, q, List.mem_of_mem_drop hq, rfl⟩, ?_, ?_⟩
      · exact (hlastPlan.mem_content_iff (List.mem_of_mem_drop hq)).mp hq
      · rw [hpath, ← hx]
        rfl
    have hdiffers (r : RecordedPiece) (hr : r ∈ recorded) (_ : r.generated = false) (hkey : r.path = w.key q'.path) :
        w.digest data ≠ r.hash := by
      obtain ⟨plan₀, run, hsome, -, q₀, hq₀, rfl⟩ := (hmem r).mp hr
      obtain ⟨last', hlast', rfl⟩ := Option.map_eq_some_iff.mp hsome
      obtain rfl := Option.some.inj ((Option.mem_def.mp hlast).symm.trans hlast')
      exact honly q₀ hq₀ (hlone.path_eq hlast hq₀ (hpath ▸ hkey))
    have hnot : w.isEdited recorded p₁.disk plan.text q' = false := by
      by_contra hedited
      have hmem : q'.path ∈ w.spared plan false recorded p₁.disk :=
        List.mem_map.mpr ⟨q', List.mem_filter.mpr ⟨hcontent, by simpa using hedited⟩, rfl⟩
      simp [hmem] at hspared
    exact render?_of_not_isEdited hrecord hdiffers (hpath ▸ hread) hnot
  · intro last' hlast' q' hq' hpath
    obtain rfl := Option.some.inj (hlast.symm.trans hlast')
    exact honly q' hq' hpath

/-- A split that has a piece at the path leaves the file just if it would write the same or the file is edited. -/
lemma Tracked.read_iff {recorded : List RecordedPiece} {disk : Disk} {run : Run} {kept : List Path}
    (hp : w.Performed plan false p₁ p' recorded disk run kept) (hq : q ∈ plan.decomposition.content) (hx : q.path = x)
    (hread : p₁.disk.read x = .content data)
    (hleft : w.Leaves plan false p₁ x data → p'.disk.read x = .content data) :
    p'.disk.read x = .content data ↔ q.render? plan.text = some data ∨ s.Edited w source x data := by
  have hq : q ∈ plan.decomposition.pieces := List.mem_of_mem_drop hq
  constructor
  · intro hafter
    by_cases hkept : q.path ∈ kept
    · right
      obtain ⟨data', hread', hlast⟩ := h.exists_last_of_kept hrecords hlone hplan hdb hp hq hx (hx ▸ hkept)
      obtain rfl := Reading.content.inj (hread.symm.trans hread')
      exact h.edited_iff.mpr hlast
    · left
      exact hp.stored?_of_not_kept hplan hq hkept (hx ▸ Disk.stored?_of_read hafter)
  · rintro (hsame | hedited)
    · refine hleft (h.leaves hrecords hlone hplan.source_eq hdb ?_ (.inl ⟨q, hq, hx⟩))
      intro recorded' _ q' hq' hkey
      obtain rfl := hplan.eq_of_key hq (List.mem_filter.mp hq').1 (hx ▸ hkey)
      exact hsame
    · exact hleft (h.leaves_of_edited hrecords hlone hplan hdb hread hedited)

end Edits

/-- A plan whose digest is that of the latest run is of a text with the digest of the one that was last split. -/
lemma Tracked.digest_eq (h : w.Tracked source x s) (hplan : w.Planned source plan)
    (hdb : p₁.database = s.project.database) {last : Plan × List Path} (hlast : last ∈ s.last? source)
    (hlatest : ∀ run, p₁.database.latest? (w.key plan.source) = .ok (some run) → run.hash = plan.hash) :
    w.digest plan.text = w.digest last.1.text := by
  obtain ⟨m, hm, hrem⟩ := h.remembers
  have hsome : (s.last? source).map (·.1) = some last.1 := by
    rw [Option.mem_def.mp hlast]
    rfl
  obtain ⟨run, hrun, hhash, -⟩ := hrem.latest_some last.1 hsome
  have hquery : p₁.database.latest? (w.key plan.source) = .ok (some run) := by
    unfold Database.latest? Database.query
    rw [hdb, hm, hplan.source_eq]
    simp only [hrun]
  rw [← hplan.hash_eq, ← hlatest run hquery, hhash, (h.planned last hlast).hash_eq]

/-! Samples. -/

lemma unsplit_of_empty (h : p.database = {}) : w.Unsplit source p :=
  ⟨{}, by rw [h], ⟨by simp, by simp⟩, by simp⟩

/-- A file is left by a split if it is edited, that is, if the last split had a piece there and the file is not as it
was last written. If the split has a piece there itself, it leaves the file in no other case, unless it writes the
same. -/
theorem split_leaves_iff_edited [w.parser.Deterministic w.options] (hrecords : w.records = true) (hclock : Monotone w.clock)
    (hstart : w.Unsplit (w.abs path) p) (events : List Event) (hlone : w.Lone (w.abs path) x (w.story p events))
    (hread : (w.story p events).project.disk.read x = .content data) :
    ((w.story p events).Edited w (w.abs path) x data →
      ((w.split path false).run (w.story p events).project).2.disk.read x = .content data) ∧
    ∀ result text d q, ((w.split path false).run (w.story p events).project).1 = .ok result →
      (w.story p events).project.disk.read (w.abs path) = .content text → w.layout (w.abs path) text = .ok d →
      q ∈ d.content → q.path = x →
      (((w.split path false).run (w.story p events).project).2.disk.read x = .content data ↔
        q.render? text = some data ∨ (w.story p events).Edited w (w.abs path) x data) := by
  have htracked : w.Tracked (w.abs path) x (w.story p events) := (hstart.tracked x).run hrecords hclock events hlone
  have hleft {plan : Plan} {p₁ : Project} (hopen : w.opened path (w.story p events).project = some (plan, p₁))
      (hleaves : w.Leaves plan false p₁ x data) :
      ((w.split path false).run (w.story p events).project).2.disk.read x = .content data := by
    rw [split_eq_guarded, guarded_run hopen]
    refine (splitPlan_performs hrecords plan false p₁).1.2 x data hleaves ?_
    rw [(opened_eq_some hopen).disk_eq]
    exact Disk.read_locked hread _
  constructor
  · intro hedited
    cases hopen : w.opened path (w.story p events).project with
    | none =>
      obtain ⟨e, p', hrun, -, -, hdisk⟩ := guarded_run_of_none (w.splitPlan · false) hopen
      rw [split_eq_guarded, hrun]
      rcases hdisk with hdisk | ⟨dir, hdisk⟩
      · rwa [hdisk]
      · rw [hdisk]
        exact Disk.read_locked hread dir
    | some opened =>
      have ho := opened_eq_some hopen
      refine hleft hopen (htracked.leaves_of_edited hrecords hlone ho.planned ho.database_eq ?_ hedited)
      rw [ho.disk_eq]
      exact Disk.read_locked hread _
  · intro result text d q hrun htext hd hq hx
    obtain ⟨plan, p₁, recorded, disk, run, hopen, hp⟩ := split_performed hrecords hrun
    have ho := opened_eq_some hopen
    obtain rfl := Reading.content.inj (ho.source_read.symm.trans htext)
    obtain rfl := Except.ok.inj (ho.planned.pieces_eq.symm.trans hd)
    refine htracked.read_iff hrecords hlone ho.planned ho.database_eq hp hq hx ?_ (hleft hopen)
    rw [ho.disk_eq]
    exact Disk.read_locked hread _

/-- An edit of the only piece, after which its declaration changes. -/
def editedHistory : List Event :=
  [.split "t/x.ts", .put "/work/p/x/types/A.d.ts" "type A=5\n", .put "/work/t/x.ts" "type A=2\n"]

theorem split_leaves_edited_piece :
    (sampleWorkspace.story loneProject editedHistory).Edited sampleWorkspace (sampleWorkspace.abs "t/x.ts")
      "/work/p/x/types/A.d.ts" "type A=5\n" ∧
    ((sampleWorkspace.split "t/x.ts" false).run (sampleWorkspace.story loneProject editedHistory).project).2.disk.read
      "/work/p/x/types/A.d.ts" = .content "type A=5\n" := by
  have hfacts : (sampleWorkspace.Lone (sampleWorkspace.abs "t/x.ts") "/work/p/x/types/A.d.ts"
        (sampleWorkspace.story loneProject editedHistory)) ∧
      (sampleWorkspace.story loneProject editedHistory).project.disk.read "/work/p/x/types/A.d.ts" =
        .content "type A=5\n" ∧
      (sampleWorkspace.story loneProject editedHistory).Edited sampleWorkspace (sampleWorkspace.abs "t/x.ts")
        "/work/p/x/types/A.d.ts" "type A=5\n" := by
    unfold Story.Edited
    rw [sampleWorkspace_eq]
    decide +kernel
  obtain ⟨hlone, hread, hedited⟩ := hfacts
  have hleaves := split_leaves_iff_edited rfl monotone_sampleClock (unsplit_of_empty rfl) editedHistory hlone hread
  exact ⟨hedited, hleaves.1 hedited⟩

/-- An edit of the first piece, whose declaration is then left out, split, and put back. -/
def returnedHistory : List Event :=
  [.split "t/x.ts", .put "/work/p/x/types/A.d.ts" "type A=5\n", .put "/work/t/x.ts" "type B=2\n", .split "t/x.ts",
    .put "/work/t/x.ts" "type A=1\ntype B=2\n"]

/-- The split that has the piece again overwrites the edit. -/
theorem split_overwrites_returned_piece :
    (sampleWorkspace.story unsplitProject returnedHistory).wrote "/work/p/x/types/A.d.ts" =
      ["type A=1\n\n/*@piece-export*/ export \x7b A \x7d;\n"] ∧
    (sampleWorkspace.story unsplitProject returnedHistory).project.disk.read "/work/p/x/types/A.d.ts" =
      .content "type A=5\n" ∧
    ((sampleWorkspace.split "t/x.ts" false).run (sampleWorkspace.story unsplitProject returnedHistory).project).1.map
      (·.kept) = .ok [] ∧
    ((sampleWorkspace.split "t/x.ts" false).run (sampleWorkspace.story unsplitProject returnedHistory).project).2.disk.read
      "/work/p/x/types/A.d.ts" = .content "type A=1\n\n/*@piece-export*/ export \x7b A \x7d;\n" := by
  rw [sampleWorkspace_eq]
  decide +kernel

/-- A file that a split keeps holds bytes that no split ever wrote there, if nothing but recorded splits of the source
wrote there and nobody put back what they wrote. -/
theorem kept_not_written [w.parser.Deterministic w.options] (hrecords : w.records = true) (hclock : Monotone w.clock)
    (hstart : w.Unsplit (w.abs path) p) (events : List Event) {result : SplitResult}
    (hrun : ((w.split path false).run (w.story p events).project).1 = .ok result) (hx : x ∈ result.kept)
    (hlone : w.Lone (w.abs path) x (w.story p (events ++ [.split path])))
    (hrestored : (w.story p (events ++ [.split path])).restored x = false) :
    ∃ data, (w.story p (events ++ [.split path])).project.disk.read x = .content data ∧
      data ∉ (w.story p (events ++ [.split path])).wrote x := by
  have hnext : w.story p (events ++ [.split path]) = (w.story p events).next w (.split path) := w.story_append p events _
  rw [hnext] at hlone hrestored ⊢
  have hbefore : w.Lone (w.abs path) x (w.story p events) := hlone.of_subset (Story.subset_next w _ _)
  have htracked : w.Tracked (w.abs path) x (w.story p events) := (hstart.tracked x).run hrecords hclock events hbefore
  obtain ⟨plan, p₁, recorded, disk, run, hopen, hp⟩ := split_performed hrecords hrun
  have ho := opened_eq_some hopen
  have hsp : (Event.split path).splitting? w (w.story p events).project = some ⟨plan, false, p₁⟩ := by
    simp [Event.splitting?, hopen]
  obtain ⟨q, hq, hqx⟩ := hp.exists_content hx
  obtain ⟨data, hread, hleaves⟩ := htracked.read_of_kept hrecords hbefore ho.planned ho.database_eq hp
    (List.mem_of_mem_drop hq) hqx hx
  have hafter : ((w.story p events).next w (.split path)).project.disk.read x = .content data := by
    have hstate := guarded_state (w.splitPlan · false) hopen
    have hstays := (splitPlan_performs hrecords plan false p₁).1.2 x data hleaves hread
    rw [← hstate.disk_eq] at hstays
    exact hstays
  refine ⟨data, hafter, ?_⟩
  have haccount : Accounted ((w.story p events).next w (.split path)) plan result.kept q :=
    htracked.accounted_of_split hrecords hbefore hsp ho.planned.source_eq hp rfl hq hqx
  have hstands := haccount.stands data
  rw [hqx] at hstands
  rcases hstands (Disk.stored?_of_read hafter) hrestored with hnew | ⟨hnot, -⟩
  · exact hnew
  · exact absurd hx hnot

/-- A split keeps the edit of the piece, which no split wrote. -/
theorem kept_edit_not_written :
    ((sampleWorkspace.split "t/x.ts" false).run (sampleWorkspace.story loneProject editedHistory).project).1.map
      (·.kept) = .ok ["/work/p/x/types/A.d.ts"] ∧
    ∃ data, (sampleWorkspace.story loneProject (editedHistory ++ [.split "t/x.ts"])).project.disk.read
        "/work/p/x/types/A.d.ts" = .content data ∧
      data ∉ (sampleWorkspace.story loneProject (editedHistory ++ [.split "t/x.ts"])).wrote "/work/p/x/types/A.d.ts" := by
  have hfacts : ((sampleWorkspace.split "t/x.ts" false).run
        (sampleWorkspace.story loneProject editedHistory).project).1.map (·.kept) = .ok ["/work/p/x/types/A.d.ts"] ∧
      sampleWorkspace.Lone (sampleWorkspace.abs "t/x.ts") "/work/p/x/types/A.d.ts"
        (sampleWorkspace.story loneProject (editedHistory ++ [.split "t/x.ts"])) ∧
      (sampleWorkspace.story loneProject (editedHistory ++ [.split "t/x.ts"])).restored "/work/p/x/types/A.d.ts" =
        false := by
    rw [sampleWorkspace_eq]
    decide +kernel
  obtain ⟨hkept, hlone, hrestored⟩ := hfacts
  obtain ⟨result, hrun, hpaths⟩ := exists_of_map_eq_ok hkept
  exact ⟨hkept, kept_not_written rfl monotone_sampleClock (unsplit_of_empty rfl) editedHistory hrun (by simp [hpaths])
    hlone hrestored⟩

/-- A split that writes the first piece and then fails, because a directory stands where the second belongs. -/
def brokenHistory : List Event :=
  [.split "t/x.ts", .put "/work/t/x.ts" "type A=2\ntype B=2\n", .makeDir "/work/p/x/types/B.d.ts", .split "t/x.ts",
    .put "/work/t/x.ts" "type A=3\n"]

/-- What the split wrote that failed is kept by the next, though nobody touched it, and merged over the newer source. -/
theorem kept_text_of_failed_split :
    ((sampleWorkspace.split "t/x.ts" false).run (sampleWorkspace.story loneProject brokenHistory).project).1.map
      (·.kept) = .ok ["/work/p/x/types/A.d.ts"] ∧
    (sampleWorkspace.story loneProject brokenHistory).restored "/work/p/x/types/A.d.ts" = false ∧
    (sampleWorkspace.story loneProject brokenHistory).project.disk.read "/work/p/x/types/A.d.ts" =
      .content "type A=2\n\n/*@piece-export*/ export \x7b A \x7d;\n" ∧
    (sampleWorkspace.story loneProject brokenHistory).wrote "/work/p/x/types/A.d.ts" =
      ["type A=2\n\n/*@piece-export*/ export \x7b A \x7d;\n", "type A=1\n\n/*@piece-export*/ export \x7b A \x7d;\n"] ∧
    (sampleWorkspace.story loneProject (brokenHistory ++ [.split "t/x.ts", .merge "t/x.ts" {}])).project.disk.read
      "/work/t/x.ts" = .content "type A=2\n" := by
  rw [sampleWorkspace_eq]
  decide +kernel

/-- Each piece that a merge folds into a source is one that the last split kept as edited, or stands in a file that
was last written from the source as it is, or no split of the source is recorded and none wrote the file. -/
theorem merge_folds_last_written [w.parser.Deterministic w.options] (hrecords : w.records = true) (hclock : Monotone w.clock)
    (hstart : w.Unsplit (w.abs path) p) (events : List Event) {o : MergeOptions} {result : Partial MergeResult}
    {text : Text} (htext : (w.story p events).project.disk.read (w.abs path) = .content text)
    (hdigest : ∀ last ∈ (w.story p events).last? (w.abs path), w.digest text = w.digest last.1.text → text = last.1.text)
    (hrun : ((w.merge path o).run (w.story p events).project).1 = .ok result) (hwritten : result.done.written = true) :
    ∃ d merged, w.layout (w.abs path) text = .ok d ∧
      d.merge w.options ((w.story p events).project.disk.locked d.dir).read text = .ok merged ∧ merged.changed = true ∧
      ∀ q ∈ d.content, w.Lone (w.abs path) q.path (w.story p events) →
        (∃ last ∈ (w.story p events).last? (w.abs path), q.path ∈ last.2) ∨
        ((w.story p events).wrote q.path).head? = q.render? text ∨
        (w.story p events).last? (w.abs path) = none ∧ (w.story p events).wrote q.path = [] := by
  rw [merge_eq_guarded] at hrun
  cases hopen : w.opened path (w.story p events).project with
  | none =>
    obtain ⟨e, p', hfail, -⟩ := guarded_run_of_none (w.mergePlan · o) hopen
    rw [hfail] at hrun
    cases hrun
  | some opened =>
    obtain ⟨plan, p₁⟩ := opened
    have ho := opened_eq_some hopen
    obtain rfl := Reading.content.inj (ho.source_read.symm.trans htext)
    rw [guarded_run hopen] at hrun
    obtain ⟨hhash, merged, hmerge, hchanged⟩ := mergePlan_checked hrun hwritten
    rw [ho.disk_eq] at hmerge
    refine ⟨plan.decomposition, merged, ho.planned.pieces_eq, hmerge, hchanged, fun q hq hlone => ?_⟩
    have htracked : w.Tracked (w.abs path) q.path (w.story p events) :=
      (hstart.tracked q.path).run hrecords hclock events hlone
    cases hlast : (w.story p events).last? (w.abs path) with
    | none => exact .inr (.inr ⟨rfl, hlone.wrote_eq_nil hlast⟩)
    | some last =>
      by_cases hmem : q.path ∈ last.2
      · exact .inl ⟨last, rfl, hmem⟩
      · right; left
        -- the check of the merge compares the text with that of the last split
        have hsame : plan.text = last.1.text :=
          hdigest last hlast (htracked.digest_eq ho.planned ho.database_eq hlast (hhash hrecords))
        have hpieces : plan.decomposition = last.1.decomposition := by
          have hlayout := ho.planned.pieces_eq
          rw [hsame, (htracked.planned last hlast).pieces_eq] at hlayout
          exact (Except.ok.inj hlayout).symm
        rw [hsame]
        exact (htracked.accounted last hlast q (hpieces ▸ hq) rfl).wrote hmem

/-- An edit of the only piece. -/
def mergedHistory : List Event := [.split "t/x.ts", .put "/work/p/x/types/A.d.ts" "type A=5\n"]

/-- The merge folds in an edit of what the source says now. -/
theorem merge_folds_edit_of_current :
    ((sampleWorkspace.merge "t/x.ts" {}).run (sampleWorkspace.story loneProject mergedHistory).project).1.map
      (·.done.written) = .ok true ∧
    ((sampleWorkspace.story loneProject mergedHistory).wrote "/work/p/x/types/A.d.ts").head? =
      some "type A=1\n\n/*@piece-export*/ export \x7b A \x7d;\n" := by
  have hfacts : ((sampleWorkspace.story loneProject mergedHistory).last? (sampleWorkspace.abs "t/x.ts")).map
        (fun last => (last.1.text, last.2)) = some (("type A=1\n" : Text), ([] : List Path)) ∧
      (sampleWorkspace.story loneProject mergedHistory).project.disk.read (sampleWorkspace.abs "t/x.ts") =
        .content "type A=1\n" ∧
      ((sampleWorkspace.merge "t/x.ts" {}).run (sampleWorkspace.story loneProject mergedHistory).project).1.map
        (·.done.written) = .ok true ∧
      (sampleWorkspace.layout (sampleWorkspace.abs "t/x.ts") "type A=1\n").map
        (·.content.map fun q => (q.path, q.render? "type A=1\n")) =
        .ok [("/work/p/x/types/A.d.ts", some "type A=1\n\n/*@piece-export*/ export \x7b A \x7d;\n")] ∧
      sampleWorkspace.Lone (sampleWorkspace.abs "t/x.ts") "/work/p/x/types/A.d.ts"
        (sampleWorkspace.story loneProject mergedHistory) := by
    rw [sampleWorkspace_eq]
    decide +kernel
  obtain ⟨hlast, hread, hwritten, hpieces, hlone⟩ := hfacts
  obtain ⟨last, hlast, hpair⟩ := Option.map_eq_some_iff.mp hlast
  obtain ⟨htext, hkept⟩ := Prod.mk.inj hpair
  obtain ⟨result, hrun, hdone⟩ := exists_of_map_eq_ok hwritten
  have hdigest (last' : Plan × List Path)
      (hlast' : last' ∈ (sampleWorkspace.story loneProject mergedHistory).last? (sampleWorkspace.abs "t/x.ts"))
      (_ : sampleWorkspace.digest "type A=1\n" = sampleWorkspace.digest last'.1.text) : "type A=1\n" = last'.1.text := by
    obtain rfl := Option.some.inj (hlast.symm.trans hlast')
    exact htext.symm
  obtain ⟨d, merged, hd, -, -, hfolds⟩ := merge_folds_last_written rfl monotone_sampleClock (unsplit_of_empty rfl)
    mergedHistory hread hdigest hrun hdone
  obtain ⟨d', hd', hpieces⟩ := exists_of_map_eq_ok hpieces
  obtain rfl := Except.ok.inj (hd.symm.trans hd')
  obtain ⟨q, hq, hpath, hrender⟩ : ∃ q ∈ d.content, q.path = "/work/p/x/types/A.d.ts" ∧
      q.render? "type A=1\n" = some "type A=1\n\n/*@piece-export*/ export \x7b A \x7d;\n" := by
    obtain ⟨q, hq, hpair⟩ := List.mem_map.mp (hpieces ▸ List.mem_singleton_self _)
    exact ⟨q, hq, (Prod.mk.inj hpair).1, (Prod.mk.inj hpair).2⟩
  refine ⟨hwritten, ?_⟩
  rcases hfolds q hq (hpath ▸ hlone) with ⟨last', hlast', hmem⟩ | hwrote | ⟨hnone, -⟩
  · obtain rfl := Option.some.inj (hlast.symm.trans hlast')
    rw [hkept] at hmem
    cases hmem
  · rw [← hpath, hwrote, hrender]
  · rw [hlast] at hnone
    cases hnone

/-- An edit of a piece whose declaration changes before the source is split again. -/
def overtakenHistory : List Event :=
  [.split "t/x.ts", .put "/work/p/x/types/A.d.ts" "type A=5\n", .put "/work/t/x.ts" "type A=2\n", .split "t/x.ts"]

/-- The merge replaces the newer declaration by the edit, though the file was last written from the older one. -/
theorem merge_folds_edit_of_older :
    (sampleWorkspace.story loneProject overtakenHistory).project.disk.read "/work/t/x.ts" = .content "type A=2\n" ∧
    (sampleWorkspace.layout "/work/t/x.ts" "type A=2\n").map (·.content.map fun q => (q.path, q.render? "type A=2\n")) =
      .ok [("/work/p/x/types/A.d.ts", some "type A=2\n\n/*@piece-export*/ export \x7b A \x7d;\n")] ∧
    (sampleWorkspace.story loneProject overtakenHistory).wrote "/work/p/x/types/A.d.ts" =
      ["type A=1\n\n/*@piece-export*/ export \x7b A \x7d;\n"] ∧
    ((sampleWorkspace.merge "t/x.ts" {}).run (sampleWorkspace.story loneProject overtakenHistory).project).1.map
      (·.done.written) = .ok true ∧
    ((sampleWorkspace.merge "t/x.ts" {}).run (sampleWorkspace.story loneProject overtakenHistory).project).2.disk.read
      "/work/t/x.ts" = .content "type A=5\n" := by
  rw [sampleWorkspace_eq]
  decide +kernel

end Workspace

end DeclPieces
