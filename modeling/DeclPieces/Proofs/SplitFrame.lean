import DeclPieces.Proofs.Namespaces
import DeclPieces.Proofs.SplitStatus

/-! What a split does to the files of a project. It writes the pieces that it does not keep, it removes the files of
the last run that are no longer produced and that nobody edited, and it leaves all others. -/
namespace DeclPieces

namespace Workspace
open Activity
variable {w : Workspace} {source path x : Path} {plan : Plan} {p p' : Project} {d : Decomposition}
  {recorded : List RecordedPiece} {removed stale : List Path} {disk disk' : Disk} {r : RecordedPiece} {force : Bool}
  {result : SplitResult} {data : Text}

/-! Clearing. -/

/-- What is removed was on record, was no longer produced, and was as it was recorded. -/
lemma Swept.of_mem_removed (h : w.Swept d recorded removed stale disk disk') (hx : x ∈ removed) :
    ∃ r ∈ recorded, ¬ w.Produces d r ∧ w.ofKey r.path = x ∧
      ∃ data, disk.stored? x = some data ∧ w.digest data = r.hash := by
  induction h with
  | nil => cases hx
  | pass _ _ ih =>
    obtain ⟨r, hr, hrest⟩ := ih hx
    exact ⟨r, List.mem_cons_of_mem _ hr, hrest⟩
  | stale _ _ _ _ ih =>
    obtain ⟨r, hr, hrest⟩ := ih hx
    exact ⟨r, List.mem_cons_of_mem _ hr, hrest⟩
  | remove hgone hread hsame hremoves _ ih =>
    rcases List.mem_cons.mp hx with rfl | hx
    · exact ⟨_, List.mem_cons_self, hgone, rfl, _, Disk.stored?_of_read hread, hsame⟩
    · obtain ⟨r, hr, hgone', hplace, data, hstored, hsame'⟩ := ih hx
      exact ⟨r, List.mem_cons_of_mem _ hr, hgone', hplace, data, Disk.stored?_remove hread hremoves hstored, hsame'⟩

/-- What is removed is gone. -/
lemma Swept.stored?_of_mem_removed (h : w.Swept d recorded removed stale disk disk') (hx : x ∈ removed) :
    disk'.stored? x = none := by
  induction h with
  | nil => cases hx
  | pass _ _ ih => exact ih hx
  | stale _ _ _ _ ih => exact ih hx
  | @remove r rest removed stale disk disk₁ disk' data hgone hread hsame hremoves htail ih =>
    rcases List.mem_cons.mp hx with rfl | hx
    · have hnone : disk₁.stored? (w.ofKey r.path) = none := by
        unfold Disk.stored?
        rw [Disk.remove_eq hremoves, Disk.get?_filter_ne, if_pos rfl]
      rw [Option.eq_none_iff_forall_ne_some]
      intro data' hdata
      rw [htail.cleared.stored?_of_after hdata] at hnone
      cases hnone
    · exact ih hx

/-- Nothing else is changed. -/
lemma Swept.keeps (h : w.Swept d recorded removed stale disk disk') :
    disk.Keeps disk' fun x => ∃ y ∈ removed, Disk.key x = Disk.key y := by
  induction h with
  | nil => exact Disk.keeps_rfl
  | pass _ _ ih => exact ih
  | stale _ _ _ _ ih => exact ih
  | remove _ hread _ hremoves _ ih =>
    refine (Disk.keeps_remove hread hremoves fun x hkey => ⟨_, List.mem_cons_self, hkey⟩).trans (ih.mono ?_)
    rintro x ⟨y, hy, hkey⟩
    exact ⟨y, List.mem_cons_of_mem _ hy, hkey⟩

/-- If the records have places of their own, a file that is no longer produced is told to be removed or to be stale. -/
lemma Swept.listed (h : w.Swept d recorded removed stale disk disk')
    (hplaces : recorded.Pairwise fun r r' => Disk.key (w.ofKey r.path) ≠ Disk.key (w.ofKey r'.path))
    (hr : r ∈ recorded) (hgone : ¬ w.Produces d r) (hread : disk.read (w.ofKey r.path) = .content data) :
    (w.digest data = r.hash → w.ofKey r.path ∈ removed) ∧ (w.digest data ≠ r.hash → w.ofKey r.path ∈ stale) := by
  induction h with
  | nil => cases hr
  | pass hstays _ ih =>
    rw [List.pairwise_cons] at hplaces
    rcases List.mem_cons.mp hr with rfl | hr
    · rcases hstays with hproduced | hunread
      · exact absurd hproduced hgone
      · exact absurd hread (hunread data)
    · exact ih hplaces.2 hr hread
  | stale _ hthere hedited _ ih =>
    rw [List.pairwise_cons] at hplaces
    rcases List.mem_cons.mp hr with rfl | hr
    · obtain rfl := Reading.content.inj (hread.symm.trans hthere)
      exact ⟨fun hsame => absurd hsame hedited, fun _ => List.mem_cons_self⟩
    · obtain ⟨hremoved, hstale⟩ := ih hplaces.2 hr hread
      exact ⟨hremoved, fun he => List.mem_cons_of_mem _ (hstale he)⟩
  | remove _ hthere hsame hremoves _ ih =>
    rw [List.pairwise_cons] at hplaces
    rcases List.mem_cons.mp hr with rfl | hr
    · obtain rfl := Reading.content.inj (hread.symm.trans hthere)
      exact ⟨fun _ => List.mem_cons_self, fun hedited => absurd hsame hedited⟩
    · obtain ⟨hremoved, hstale⟩ := ih hplaces.2 hr (Disk.read_remove hthere hremoves (hplaces.1 _ hr).symm hread)
      exact ⟨fun he => List.mem_cons_of_mem _ (hremoved he), hstale⟩

/-! The whole split. -/

/-- What may become of the file at a place: a piece of the new decomposition is written there; the file was a piece of
the last run that is no longer produced, was as it was recorded, and is removed; or it stays as it is. -/
inductive Outcome (w : Workspace) (plan : Plan) (recorded : List RecordedPiece) (result : SplitResult)
    (disk disk' : Disk) (x : Path) : Prop
  | written {q : Piece} {data : Text} (piece : q ∈ plan.decomposition.pieces) (unkept : q.path ∉ result.kept)
      (place : Disk.key x = Disk.key q.path) (rendered : q.render? plan.text = some data)
      (after : disk'.stored? x = some data)
  | removed {r : RecordedPiece} {data : Text} (record : r ∈ recorded) (gone : ¬ w.Produces plan.decomposition r)
      (place : Disk.key x = Disk.key (w.ofKey r.path)) (listed : w.ofKey r.path ∈ result.removed)
      (before : disk.stored? x = some data) (same : w.digest data = r.hash) (after : disk'.stored? x = none)
  | left (same : disk'.stored? x = disk.stored? x)

/-- Names on record that tell the files apart: a piece that was recorded stands at a new piece only under its name. -/
lemma produces_of_key_eq (hnamed : ∀ r ∈ recorded, ∃ x, Recordable x ∧ w.key x = r.path)
    (hpieces : ∀ q ∈ d.pieces, Recordable q.path) (hr : r ∈ recorded) {q : Piece} (hq : q ∈ d.pieces)
    (hkey : Disk.key (w.ofKey r.path) = Disk.key q.path) : w.Produces d r := by
  obtain ⟨x, hx, hname⟩ := hnamed r hr
  rw [← hname, hx.ofKey_key] at hkey
  have hsame : x = q.path := Path.eq_of_components hx.clean (hpieces q hq).clean
    (hx.rooted.trans (hpieces q hq).rooted.symm) (Disk.components_eq_of_key_eq hkey)
  exact ⟨q, hq, hsame ▸ hname⟩

/-- Records with different names have different places. -/
lemma places_pairwise (hnamed : ∀ r ∈ recorded, ∃ x, Recordable x ∧ w.key x = r.path)
    (hdistinct : (recorded.map (·.path)).Nodup) :
    recorded.Pairwise fun r r' => Disk.key (w.ofKey r.path) ≠ Disk.key (w.ofKey r'.path) := by
  refine (List.pairwise_map.mp hdistinct).imp_of_mem fun {r r'} hr hr' hne hkey => hne ?_
  obtain ⟨x, hx, hname⟩ := hnamed r hr
  obtain ⟨x', hx', hname'⟩ := hnamed r' hr'
  rw [← hname, ← hname', hx.ofKey_key, hx'.ofKey_key] at hkey
  rw [← hname, ← hname', Path.eq_of_components hx.clean hx'.clean (hx.rooted.trans hx'.rooted.symm)
    (Disk.components_eq_of_key_eq hkey)]

lemma Outcome.congr {disk₀ : Disk} (h : w.Outcome plan recorded result disk disk' x)
    (hsame : disk.stored? x = disk₀.stored? x) : w.Outcome plan recorded result disk₀ disk' x := by
  cases h with
  | written hq hkept hplace hrender hafter => exact .written hq hkept hplace hrender hafter
  | removed hr hgone hplace hlisted hbefore hdigest hafter =>
    exact .removed hr hgone hplace hlisted (hsame ▸ hbefore) hdigest hafter
  | left hleft => exact .left (hleft.trans hsame)

section
variable {run : Run} {kept : List Path} (hnamed : ∀ r ∈ recorded, ∃ x, Recordable x ∧ w.key x = r.path)
  (hpieces : ∀ q ∈ plan.decomposition.pieces, Recordable q.path)

/-- Writing the pieces leaves every file that is not at the place of one. -/
lemma Performed.stored?_of_forall_ne (h : w.Performed plan force p p' recorded disk run kept)
    (hx : ∀ q ∈ plan.decomposition.pieces, q.path ∉ kept → Disk.key x ≠ Disk.key q.path) :
    disk.stored? x = p.disk.stored? x := by
  have hstays : (writePieces plan.text (w.remaining plan force recorded p.disk).pieces p.disk).2.stored? x =
      p.disk.stored? x := by
    refine Disk.stored?_writePieces fun q hq => ?_
    obtain ⟨hq, hkept⟩ := h.mem_remaining_iff.mp hq
    exact hx q hq hkept
  rwa [h.written] at hstays

include hnamed hpieces

/-- What is done with the files while the lock is held. -/
lemma Performed.outcome (h : w.Performed plan force p p' recorded disk run result.kept)
    (hswept : w.Swept plan.decomposition recorded result.removed result.stale disk p'.disk)
    (hkeys : plan.decomposition.pieces.Pairwise fun q q' => Disk.key q.path ≠ Disk.key q'.path) (x : Path) :
    w.Outcome plan recorded result p.disk p'.disk x := by
  by_cases hremoved : ∃ y ∈ result.removed, Disk.key x = Disk.key y
  · obtain ⟨y, hy, hkey⟩ := hremoved
    obtain ⟨r, hr, hgone, rfl, data, hbefore, hsame⟩ := hswept.of_mem_removed hy
    have hafter := hswept.stored?_of_mem_removed hy
    rw [← Disk.stored?_congr hkey] at hbefore hafter
    -- no piece is written where a file is no longer produced
    rw [h.stored?_of_forall_ne fun q hq _ hplace =>
      hgone (produces_of_key_eq hnamed hpieces hr hq (hkey.symm.trans hplace))] at hbefore
    exact .removed hr hgone hkey hy hbefore hsame hafter
  · have hstays : p'.disk.stored? x = disk.stored? x :=
      hswept.keeps.stored?_eq x hremoved
    by_cases hpiece : ∃ q ∈ plan.decomposition.pieces, q.path ∉ result.kept ∧ Disk.key x = Disk.key q.path
    · obtain ⟨q, hq, hkept, hkey⟩ := hpiece
      obtain ⟨data, hrender, hstored⟩ := Disk.stored?_of_writePieces_eq_ok (hkeys.sublist List.filter_sublist) h.written q
        (h.mem_remaining_iff.mpr ⟨hq, hkept⟩)
      rw [← Disk.stored?_congr hkey, ← hstays] at hstored
      exact .written hq hkept hkey hrender hstored
    · exact .left (hstays.trans (h.stored?_of_forall_ne fun q hq hkept hkey => hpiece ⟨q, hq, hkept, hkey⟩))

/-- Which recorded files are told to be removed or to be stale. -/
lemma Performed.listed (h : w.Performed plan force p p' recorded disk run kept)
    (hswept : w.Swept plan.decomposition recorded removed stale disk p'.disk)
    (hdistinct : (recorded.map (·.path)).Nodup) (hr : r ∈ recorded) (hgone : ¬ w.Produces plan.decomposition r)
    (hread : p.disk.read (w.ofKey r.path) = .content data) :
    (w.digest data = r.hash → w.ofKey r.path ∈ removed) ∧
      (w.digest data ≠ r.hash → w.ofKey r.path ∈ stale ∧ p'.disk.read (w.ofKey r.path) = .content data) := by
  have hplaces := places_pairwise hnamed hdistinct
  have hthere : disk.read (w.ofKey r.path) = .content data := by
    have hstays : (writePieces plan.text (w.remaining plan force recorded p.disk).pieces p.disk).2.read (w.ofKey r.path) =
        .content data := by
      refine Disk.read_writePieces (fun q hq hkey => ?_) hread
      exact absurd (produces_of_key_eq hnamed hpieces hr (h.mem_remaining_iff.mp hq).1 hkey) hgone
    rwa [h.written] at hstays
  obtain ⟨hremoved, hstale⟩ := hswept.listed hplaces hr hgone hthere
  refine ⟨hremoved, fun hedited => ⟨hstale hedited, ?_⟩⟩
  refine hswept.cleared.read (fun r' hr' _ hkey => ?_) hthere
  have hsymm : Std.Symm fun r r' : RecordedPiece => Disk.key (w.ofKey r.path) ≠ Disk.key (w.ofKey r'.path) :=
    ⟨fun _ _ h => h.symm⟩
  obtain rfl : r = r' := by
    by_contra hne
    exact hplaces.forall hr hr' hne hkey
  exact hedited

end

/-- After a split, the file at every place but that of the lock is a piece that was written there, or is gone as the
last split recorded it, or is as it was. A recorded file that is no longer produced is listed: as removed if it was as
it was recorded, and otherwise as stale, and then it still reads as it did. The pieces root is absolute in a workspace
that is made from settings, by `Settings.isAbs_piecesRoot`. -/
theorem split_outcome (hrun : (w.split path force).run p = (.ok result, p'))
    (hplan : ((w.planAt (w.abs path)).run p).1 = .ok plan) (hrecords : w.records = true)
    (hrecorded : w.lastPieces (w.abs path) p.database = .ok recorded)
    (hnamed : ∀ r ∈ recorded, ∃ x, Recordable x ∧ w.key x = r.path) (hdistinct : (recorded.map (·.path)).Nodup)
    (hroot : w.options.piecesRoot.isAbs = true) (hslashes : ∀ q ∈ plan.decomposition.pieces, 92 ∉ q.path) :
    (∀ x, Disk.key x ≠ Disk.key (lockPath plan.decomposition.dir) →
      w.Outcome plan recorded result p.disk p'.disk x) ∧
    ∀ r ∈ recorded, ¬ w.Produces plan.decomposition r → ∀ data, p.disk.read (w.ofKey r.path) = .content data →
      (w.digest data = r.hash → w.ofKey r.path ∈ result.removed) ∧
        (w.digest data ≠ r.hash →
          w.ofKey r.path ∈ result.stale ∧ p'.disk.read (w.ofKey r.path) = .content data) := by
  obtain ⟨plan', log, p₁, recorded', disk, run, hplan', hreported, hswept, rfl⟩ := split_sweeps hrecords hrun
  rw [hplan'] at hplan
  obtain rfl := Except.ok.inj hplan
  obtain ⟨-, hsource, -, hlayout, -⟩ := planAt_eq_ok hplan'
  obtain ⟨f, hd⟩ := Parser.layout_eq_ok hlayout
  obtain ⟨⟨rooted, hclean⟩, -⟩ := Decomposition.paths_apart hd
  have hdone := hreported.performed
  have hlast := hdone.recorded_eq
  rw [hsource] at hlast
  obtain rfl := Except.ok.inj (hrecorded.symm.trans hlast)
  have hpieces : ∀ q ∈ plan'.decomposition.pieces, Recordable q.path :=
    fun q hq => ⟨Decomposition.isAbs_of_mem_pieces hd hroot hq, (hclean q hq).1, hslashes q hq⟩
  refine ⟨fun x hlock => ?_, fun r hr hgone data hread => ?_⟩
  · exact (hdone.outcome hnamed hpieces hswept (Decomposition.keys_apart hd) x).congr (Disk.stored?_locked p.disk hlock)
  · have hlocked : (locking plan'.decomposition.dir { p with log := log }).disk.read (w.ofKey r.path) = .content data :=
      Disk.read_locked hread _
    have hlisted := hdone.listed hnamed hpieces hswept hdistinct hr hgone hlocked
    exact hlisted

def clearedManifest : Manifest :=
  { runs := [⟨"first", "t/x.ts", "type A=1\ntype B=1\ntype C=1\n", "p/x", 4, 0, 0⟩]
    pieces := [⟨"first", "p/x/types/A.d.ts", "A", "types", 0, 8, "as it was", false⟩,
      ⟨"first", "p/x/types/B.d.ts", "B", "types", 9, 17, "as it was", false⟩] }

/-- A source of which two declarations are gone. The piece of the first is as it was, that of the second is edited. -/
def clearedProject : Project :=
  { disk := { nodes := [
      ("/work", .directory), ("/work/t", .directory), ("/work/t/x.ts", .file "type C=2\n"),
      ("/work/p", .directory), ("/work/p/x", .directory), ("/work/p/x/types", .directory),
      ("/work/p/x/types/A.d.ts", .file "as it was"), ("/work/p/x/types/B.d.ts", .file "edited")] }
    database := { manifest := some clearedManifest } }

/-- One is removed, the other is stale and is left. -/
theorem split_outcome_of_cleared : ∃ plan result p',
    (openWorkspace.split "t/x.ts" false).run clearedProject = (.ok result, p') ∧
      result.removed = [("/work/p/x/types/A.d.ts" : Path)] ∧ result.stale = [("/work/p/x/types/B.d.ts" : Path)] ∧
      p'.disk.read "/work/p/x/types/B.d.ts" = .content "edited" ∧
      ∀ x, Disk.key x ≠ Disk.key (lockPath "/work/p/x") →
        openWorkspace.Outcome plan clearedManifest.pieces result clearedProject.disk p'.disk x := by
  have hfacts : ((openWorkspace.split "t/x.ts" false).run clearedProject).1.map
        (fun r => (r.removed, r.stale)) = .ok (["/work/p/x/types/A.d.ts"], ["/work/p/x/types/B.d.ts"]) ∧
      ((openWorkspace.planAt (openWorkspace.abs "t/x.ts")).run clearedProject).1.map
        (fun plan => (plan.decomposition.dir, plan.decomposition.pieces.map (·.path))) =
          .ok ("/work/p/x", ["/work/p/x/index.d.ts", "/work/p/x/types/C.d.ts"]) ∧
      openWorkspace.lastPieces (openWorkspace.abs "t/x.ts") clearedProject.database = .ok clearedManifest.pieces ∧
      clearedProject.disk.read "/work/p/x/types/B.d.ts" = .content "edited" ∧
      (clearedManifest.pieces.map (·.path)).Nodup ∧
      (∀ r ∈ clearedManifest.pieces,
        Recordable (openWorkspace.ofKey r.path) ∧ openWorkspace.key (openWorkspace.ofKey r.path) = r.path) ∧
      ∀ x ∈ (["/work/p/x/index.d.ts", "/work/p/x/types/C.d.ts"] : List Path),
        92 ∉ x ∧ openWorkspace.key x ≠ "p/x/types/B.d.ts" := by
    decide +kernel
  obtain ⟨hsplit, hplan, hrecorded, hread, hdistinct, hnamed, hcut⟩ := hfacts
  obtain ⟨result, hresult, hlists⟩ := exists_of_map_eq_ok hsplit
  obtain ⟨plan, hplan, hlayout⟩ := exists_of_map_eq_ok hplan
  obtain ⟨hremoved, hstale⟩ := Prod.mk.inj hlists
  obtain ⟨hdir, hpaths⟩ := Prod.mk.inj hlayout
  obtain ⟨p', hrun⟩ := exists_run_eq hresult
  rw [← hpaths] at hcut
  have hslashes : ∀ q ∈ plan.decomposition.pieces, 92 ∉ q.path := fun q hq => (hcut q.path (List.mem_map_of_mem hq)).1
  have hgone : ¬ openWorkspace.Produces plan.decomposition
      ⟨"first", "p/x/types/B.d.ts", "B", "types", 9, 17, "as it was", false⟩ := by
    rintro ⟨q, hq, hkey⟩
    exact (hcut q.path (List.mem_map_of_mem hq)).2 hkey
  have hroot : openWorkspace.options.piecesRoot.isAbs = true := by decide +kernel
  obtain ⟨houtcome, hlisted⟩ := split_outcome hrun hplan rfl hrecorded (fun r hr => ⟨_, hnamed r hr⟩) hdistinct hroot
    hslashes
  rw [hdir] at houtcome
  obtain ⟨-, hedited⟩ := hlisted _ (List.mem_cons_of_mem _ List.mem_cons_self) hgone "edited" hread
  exact ⟨plan, result, p', hrun, hremoved, hstale, (hedited (by decide +kernel)).2, houtcome⟩

/-- Pieces are put beside the sources, in directories named after them. -/
def besideSettings : Settings := { translatedRoot := "index", piecesRoot := "." }

def besideWorkspace : Workspace := { openWorkspace with options := besideSettings.options "/work" }

/-- A source named like an index, in a directory of the same name. -/
def indexSource : Path := "/work/index/index.d.ts"

def besideProject : Project :=
  { disk := { nodes := [("/work", .directory), ("/work/index", .directory), (indexSource, .file "type A=1\n")] } }

/-- The settings are allowed and the source is found, but its own index is written over it. So is a piece of one source
over that of another. -/
theorem split_overwrites_other_files :
    (besideSettings.validate = .ok () ∧ (besideWorkspace.discover.run besideProject).1 = .ok [indexSource] ∧
      ∃ result p', (besideWorkspace.split indexSource false).run besideProject = (.ok result, p') ∧
        result.source = indexSource ∧ p'.disk.read indexSource = .content "export \x7b A \x7d from './types/A';\n") ∧
    ∃ result p₁ result' p₂, (nestedWorkspace.split outerPath false).run nestedProject = (.ok result, p₁) ∧
      p₁.disk.read sharedPath = .content "type index=1\n\n/*@piece-export*/ export \x7b index \x7d;\n" ∧
      (nestedWorkspace.split innerPath false).run p₁ = (.ok result', p₂) ∧ result'.source = innerPath ∧
      p₂.disk.read sharedPath = .content "export \x7b A \x7d from './types/A';\n" := by
  have hfacts : (besideSettings.validate = .ok () ∧ (besideWorkspace.discover.run besideProject).1 = .ok [indexSource] ∧
        ((besideWorkspace.split indexSource false).run besideProject).1.map (·.source) = .ok indexSource ∧
        ((besideWorkspace.split indexSource false).run besideProject).2.disk.read indexSource =
          .content "export \x7b A \x7d from './types/A';\n") ∧
      ((nestedWorkspace.split outerPath false).run nestedProject).1.map (·.source) = .ok outerPath ∧
      ((nestedWorkspace.split outerPath false).run nestedProject).2.disk.read sharedPath =
        .content "type index=1\n\n/*@piece-export*/ export \x7b index \x7d;\n" ∧
      ((nestedWorkspace.split innerPath false).run
        ((nestedWorkspace.split outerPath false).run nestedProject).2).1.map (·.source) = .ok innerPath ∧
      ((nestedWorkspace.split innerPath false).run
        ((nestedWorkspace.split outerPath false).run nestedProject).2).2.disk.read sharedPath =
          .content "export \x7b A \x7d from './types/A';\n" := by
    decide +kernel
  obtain ⟨⟨hallowed, hfound, hcomputed⟩, hcomputed'⟩ := hfacts
  refine ⟨⟨hallowed, hfound, ?_⟩, ?_⟩
  · obtain ⟨hsplit, hread⟩ := hcomputed
    obtain ⟨result, hresult, hsource⟩ := exists_of_map_eq_ok hsplit
    obtain ⟨p', hrun⟩ := exists_run_eq hresult
    rw [hrun] at hread
    exact ⟨result, p', hrun, hsource, hread⟩
  · obtain ⟨houter, hnested⟩ := hcomputed'
    obtain ⟨result, hresult, -⟩ := exists_of_map_eq_ok houter
    obtain ⟨p₁, hrun₁⟩ := exists_run_eq hresult
    rw [hrun₁] at hnested
    obtain ⟨hbefore, hinner, hafter⟩ := hnested
    obtain ⟨result', hresult', hsource'⟩ := exists_of_map_eq_ok hinner
    obtain ⟨p₂, hrun₂⟩ := exists_run_eq hresult'
    rw [hrun₂] at hafter
    exact ⟨result, p₁, result', p₂, hrun₁, hbefore, hrun₂, hsource', hafter⟩

end Workspace

end DeclPieces
