import DeclPieces.Proofs.CopyList
import DeclPieces.Proofs.DryRun
import DeclPieces.Proofs.Namespaces

/-! A merge that writes its source keeps a copy of what it overwrites, if there is room for it: old copies are removed
as soon as the new one is stored, and which of them is old is told by their names. A copy that is named by an earlier
moment than as many others as may be kept is removed at once, and the merge goes on. -/
namespace DeclPieces

lemma plain_lockName : Path.Plain Workspace.lockName := by constructor <;> decide

namespace Disk
open DeclPieces.Path
variable {d d' d₁ : Disk} {dir : Path}

lemma Proper.locked (hd : d.Proper) (hdir : dir.isAbs = true) : (d.locked dir).Proper := by
  unfold Disk.locked
  split
  · exact hd
  · next d₁ hm =>
    have hproper := hd.makeDirs hdir hm
    split
    · exact hproper
    · split
      · next d₂ hw => exact hproper.write (key_join hdir plain_lockName) hw
      · exact hproper

/-- Asking for a lock leaves every file where it is. -/
lemma Proper.get?_locked {k : Path} {data : Text} (hd : d.Proper) (dir : Path) (h : d.get? k = some (.file data)) :
    (d.locked dir).get? k = some (.file data) := by
  have hkey := hd.key_eq k _ h
  have hstored : d.stored? k = some data := stored?_eq_some_iff.mpr (hkey.symm ▸ h)
  have hstill : (d.locked dir).stored? k = some data := by
    rw [(keeps_locked d dir).stored?_eq k fun hnew => by simp [hstored] at hnew, hstored]
  rw [← hkey]
  exact stored?_eq_some_iff.mp hstill

/-- Where directories can be made, there was a directory or nothing, also when less was stored. -/
lemma follow_of_makeDirsFrom {parts : List Text}
    (hdirs : ∀ k, d.get? k = some .directory → d'.get? k = some .directory)
    (hfiles : ∀ k x, d.get? k = some (.file x) → d'.get? k = some (.file x)) (h : d'.makeDirsFrom dir parts = .ok d₁) :
    d.follow dir .directory parts = .ok .directory ∨ d.follow dir .directory parts = .error .noEntry := by
  induction parts generalizing dir with
  | nil => exact .inl rfl
  | cons name rest ih =>
    unfold makeDirsFrom at h
    simp only at h
    split at h
    · cases h
    · next hlen =>
      simp only [follow, if_neg hlen]
      cases hnext : d.get? (dir ++ slash :: name) with
      | none => exact .inr rfl
      | some n =>
        cases n with
        | file x =>
          rw [hfiles _ _ hnext] at h
          cases h
        | directory =>
          rw [hdirs _ hnext] at h
          exact ih h

end Disk

namespace Backups
open DeclPieces.Path Backup
variable {b : Backups} {d d' d'' d₀ : Disk} {source text : Text} {now : Int} {before entries : List Backup.Entry}
  {e : Backup.Entry} {log : List Log.Record}

/-- The copies apart from that of the moment `now`. -/
def others (b : Backups) (source : Text) (now : Int) (entries : List Backup.Entry) : List Backup.Entry :=
  entries.filter (·.path ≠ b.copyPath source now)

/-- What becomes of the copy of `text` that is taken at the moment `now`, where `before` are the copies that there were:
it is left if all copies are kept, or if fewer of the others than may be kept are as late, and it is gone if as many are
later. -/
structure CopyFate (b : Backups) (source text : Text) (now : Int) (before : List Backup.Entry) (d : Disk) : Prop where
  left : b.keep ≤ 0 ∨ (b.others source now before).countP (now ≤ ·.createdAt) < b.keep.toNat →
    b.read d (b.copyPath source now) = .ok text
  gone : 0 < b.keep → b.keep.toNat ≤ (b.others source now before).countP (now < ·.createdAt) →
    d.stored? (b.copyPath source now) = none

/-- The copies can be listed before one is stored. -/
lemma list_isOk_of_save (hdirs : ∀ k, d₀.get? k = some .directory → d.get? k = some .directory)
    (hfiles : ∀ k x, d₀.get? k = some (.file x) → d.get? k = some (.file x))
    (h : b.save source text now d = (.ok e, log, d')) : ∃ before, b.list d₀ source = .ok before := by
  unfold save at h
  simp only at h
  cases hm : Storage.makeDirs d (b.sourceDir source) with
  | error fault => simp [hm] at h
  | ok d₁ =>
    have hm : d.makeDirs (b.sourceDir source) = .ok d₁ := hm
    rcases Disk.follow_of_makeDirsFrom hdirs hfiles hm with hlook | hlook
    · exact ⟨_, list_of_look hlook⟩
    · exact ⟨_, list_of_look_noEntry hlook⟩

/-- The copy that was just stored is up to the limit if few of the others are as late, and beyond it if many are
later. -/
lemma listed_mem (hperm : entries.Perm (b.listed source text now :: b.others source now before))
    (hsorted : entries.Pairwise fun x y => y.createdAt ≤ x.createdAt) :
    (b.keep ≤ 0 ∨ (b.others source now before).countP (now ≤ ·.createdAt) < b.keep.toNat →
      b.listed source text now ∈ b.retained entries) ∧
    (0 < b.keep → b.keep.toNat ≤ (b.others source now before).countP (now < ·.createdAt) →
      b.listed source text now ∈ b.surplus entries) := by
  have hmem : b.listed source text now ∈ entries := hperm.mem_iff.mpr List.mem_cons_self
  constructor
  · intro hroom
    have hsplit := hmem
    rw [← b.retained_append_surplus entries] at hsplit
    refine (List.mem_append.mp hsplit).resolve_right ?_
    unfold surplus
    split
    · exact List.not_mem_nil
    · next hkeep =>
      refine List.not_mem_drop_of_countP_le (f := (·.createdAt)) hsorted ?_
      have hcount := hroom.resolve_left hkeep
      change entries.countP (fun x => decide (now ≤ x.createdAt)) ≤ b.keep.toNat
      rw [hperm.countP_eq, List.countP_cons_of_pos (by simp [listed])]
      exact hcount
  · intro hkeep hlate
    unfold surplus
    rw [if_neg (by omega)]
    refine List.mem_drop_of_le_countP (f := (·.createdAt)) hsorted hmem ?_
    change b.keep.toNat ≤ entries.countP fun x => decide (now < x.createdAt)
    rw [hperm.countP_eq, List.countP_cons_of_neg (by simp [listed])]
    exact hlate

/-- What becomes of the copy that is saved. The others are those of a disk that has the same files under the names of
copies, and what happens later leaves the copy alone. -/
lemma copyFate_of_save (hcodec : b.codec.Lossless) (hd : d.Proper) (hd₀ : d₀.Proper) (hb : b.dir.isAbs = true)
    (hnow : Number.fits64 now = true)
    (hsame : ∀ c n e, Plain c → ofListed? source (b.sourceDir source) ⟨c, false, n⟩ = some e →
      d.stored? (join (b.sourceDir source) c) = d₀.stored? (join (b.sourceDir source) c))
    (hbefore : b.list d₀ source = .ok before) (h : b.save source text now d = (.ok e, log, d'))
    (hlater : d'.Keeps d'' fun x => Disk.key x ≠ Disk.key (b.copyPath source now)) :
    e.path = b.copyPath source now ∧ b.CopyFate source text now before d'' := by
  obtain ⟨rfl, d₁, hd₁, hlook, hkeeps, hcopy, hprune⟩ := save_eq_ok hd hb (congrArg Prod.fst h)
  have hlist := list_of_look hlook
  generalize entriesOf source (b.sourceDir source) (d₁.members (b.sourceDir source)) = entries at hlist
  have hperm : entries.Perm (b.listed source text now :: b.others source now before) := by
    refine list_stored_perm hd₀ hd₁ hb hnow ?_ hcopy hbefore hlist
    intro c n e hc hne hlisted
    rw [hkeeps.stored?_eq _ (key_join_ne_copyPath hb hc hne), hsame c n e hc hlisted]
  obtain ⟨hretained, hsurplus⟩ := listed_mem hperm (pairwise_list hlist)
  obtain ⟨hproper, hkeeps', hgone⟩ := prune_spec hd₁ hb hlist (hprune.symm.trans (congrArg (fun r => r.2.2) h))
  refine ⟨rfl, fun hroom => ?_, fun hkeep hlate => ?_⟩
  · have hleft := stored?_of_mem_retained hd₁ hb hlist hkeeps' (hretained hroom)
    have hstored : d'.stored? (b.copyPath source now) = some (b.codec.encode text) := hleft.trans hcopy
    rw [Disk.stored?_eq_some_iff, key_copyPath hb] at hstored
    have hread : d'.read (b.copyPath source now) = .content (b.codec.encode text) :=
      Disk.read_eq_content_iff.mpr (hproper.look _ _ hstored)
    exact read_of_content hcodec (hlater.read (not_not_intro rfl) hread)
  · have hnone := hgone (b.listed source text now) (hsurplus hkeep hlate)
    exact (hlater.stored?_eq _ (not_not_intro rfl)).trans hnone

end Backups

namespace Workspace
open Activity
variable {w : Workspace} {source path : Path} {text : Text} {plan : Plan} {p p' p₁ : Project}
  {merged : Merged} {o : MergeOptions} {b : Backups} {r : Partial MergeResult}

/-! The copy. -/

lemma leads_keepCopy_saves (hbackups : w.backups = some b) (source : Path) (text : Text) (p : Project) :
    Leads (w.keepCopy source text true) p (fun p' => p'.database = p.database) fun copy p' => ∃ e log,
      b.save (w.key source) text (w.clock p.ticks) p.disk = (.ok e, log, p'.disk) ∧ copy = e.path := by
  unfold keepCopy
  rw [hbackups]
  simp only [Bool.not_true, Bool.false_eq_true, if_false]
  rw [leads_get_bind]
  split
  · exact leads_fail rfl
  · unfold now
    simp only [bind_assoc, pure_bind]
    rw [leads_get_bind, leads_set_bind, leads_get_bind, leads_set_bind]
    simp only
    generalize hsave : b.save (w.key source) text (w.clock p.ticks) p.disk = saved
    obtain ⟨outcome, records, disk⟩ := saved
    have hreturns (p' : Project) (hdisk : p'.disk = disk) (hdb : p'.database = p.database) :
        Leads (do return (← ofExcept outcome).path) p' (fun p' => p'.database = p.database) fun copy p' => ∃ e log,
          (outcome, records, disk) = (.ok e, log, p'.disk) ∧ copy = e.path := by
      refine (leads_ofExcept outcome p').bind (fun _ h => h ▸ hdb) ?_
      rintro e _ rfl rfl
      exact leads_pure hdb ⟨e, records, by rw [hdisk], rfl⟩
    split
    · exact leads_tell_bind.mpr (hreturns _ rfl rfl)
    · exact hreturns _ rfl rfl

lemma leads_overwrite_keeps (path : Path) (text what : Text) (p : Project) :
    Leads (overwrite path text what) p (fun p' => p'.database = p.database) fun _ p' =>
      p.disk.Keeps p'.disk (fun x => Disk.key x = Disk.key path) ∧ p'.disk.read path = .content text := by
  unfold Leads
  rcases overwrite_run path text what p with ⟨e, h⟩ | ⟨disk, hdisk, h⟩
  · simp [h]
  · simp only [h]
    exact ⟨trivial, fun _ _ => ⟨Disk.keeps_write hdisk fun _ hx => hx, Disk.read_write_self hdisk⟩⟩

/-- A merge that writes its source has saved a copy of it, and then changes no file but the source. -/
lemma conclude_saves (hbackups : w.backups = some b) (hbackup : o.backup = true) (plan : Plan) (merged : Merged)
    (p : Project) :
    Leads (w.conclude plan merged o) p (fun p' => p'.database = p.database) fun r p' => r.done.written = true →
      p'.disk.read plan.source = .content merged.text ∧ ∃ e log disk,
        b.save (w.key plan.source) plan.text (w.clock p.ticks) p.disk = (.ok e, log, disk) ∧ r.done.backup = e.path ∧
          disk.Keeps p'.disk fun x => Disk.key x = Disk.key plan.source := by
  unfold conclude
  simp only
  split
  · split <;> exact leads_pure rfl fun h => by cases h
  · split
    · exact leads_tell_bind.mpr (leads_pure rfl fun h => by cases h)
    · rw [hbackup]
      refine (leads_keepCopy_saves hbackups _ _ p).bind (fun _ h => h) ?_
      rintro _ p₁ hdb ⟨e, log, hsave, rfl⟩
      refine (leads_overwrite_keeps _ _ _ p₁).bind (fun _ h => h.trans hdb) ?_
      rintro - p₂ hdb₂ ⟨hkeeps, hread⟩
      exact leads_tell_bind.mpr (leads_pure (hdb₂.trans hdb) fun _ => ⟨hread, e, log, p₁.disk, hsave, rfl, hkeeps⟩)

/-- So does one that then splits again. At a path beside the source that its pieces miss there is no change either. -/
lemma finish_saves {x : Path} (hbackups : w.backups = some b) (hbackup : o.backup = true)
    (hx : Disk.key x ≠ Disk.key plan.source)
    (hmiss : o.resplit = true → w.PiecesMiss plan.source merged.text p.database x) :
    Leads (w.finish plan merged o) p (fun _ => True) fun r p' => r.done.written = true → ∃ e log disk,
      b.save (w.key plan.source) plan.text (w.clock p.ticks) p.disk = (.ok e, log, disk) ∧ r.done.backup = e.path ∧
        disk.Keeps p'.disk fun y => Disk.key y ≠ Disk.key x := by
  have hbeside : ∀ y, Disk.key y = Disk.key plan.source → Disk.key y ≠ Disk.key x := fun y hy hyx =>
    hx (hyx.symm.trans hy)
  unfold finish
  refine (conclude_saves hbackups hbackup plan merged p).bind (fun _ _ => trivial) ?_
  rintro r p₁ hdb hsaves
  split
  · refine leads_pure trivial fun hwritten => ?_
    obtain ⟨-, e, log, disk, hsave, hpath, hkeeps⟩ := hsaves hwritten
    exact ⟨e, log, disk, hsave, hpath, hkeeps.mono hbeside⟩
  · next hagain =>
    obtain ⟨hresplit, hwritten⟩ : o.resplit = true ∧ r.done.written = true := by simpa using hagain
    obtain ⟨hread, e, log, disk, hsave, hpath, hkeeps⟩ := hsaves hwritten
    have hmiss := hmiss hresplit
    rw [← hdb] at hmiss
    have hstays := (hkeeps.mono hbeside).trans (splitAgain_keeps hmiss hread)
    refine ⟨trivial, fun r' hr' _ => ⟨e, log, disk, hsave, ?_, hstays⟩⟩
    obtain rfl := Except.ok.inj hr'
    cases ((w.splitAgain plan.source).run p₁).1 with
    | ok split => exact hpath
    | error e => exact hpath

/-- The pieces of what is planned are put where all pieces are. -/
lemma dir_isAbs_of_layout {parser : Parser} {opts : Options} {isFile : Path → Bool} {d : Decomposition}
    (h : parser.layout opts isFile source text = .ok d) (hroot : opts.piecesRoot.isAbs = true) :
    d.dir.isAbs = true := by
  unfold Parser.layout at h
  split at h
  · exact (Decomposition.dir_clean h hroot).2
  · cases h

/-- A lock is not taken for a copy. -/
lemma stored?_locked_of_listed {d : Disk} {dir D c : Path} {n : Nat} {e : Backup.Entry} {source : Text}
    (hdir : dir.isAbs = true) (hD : D.isAbs = true) (hc : Path.Plain c)
    (hlisted : Backups.ofListed? source D ⟨c, false, n⟩ = some e) :
    (d.locked dir).stored? (Path.join D c) = d.stored? (Path.join D c) := by
  refine Disk.stored?_locked d fun hkey => ?_
  rw [lockPath, Path.key_join hD hc, Path.key_join hdir plain_lockName] at hkey
  have hname := congrArg Path.base hkey
  rw [Path.base_join hc, Path.base_join plain_lockName] at hname
  subst hname
  have hnot : (lockName.hasSuffix Backup.suffix) = false := by decide
  simp [Backups.ofListed?, hnot] at hlisted

/-- A merge that writes its source reports the path of a copy of the text from before. Whether the copy is there after
the merge is told by the moments of the others: the merge goes on in either case. The directory of the copies and the
pieces root are absolute in a workspace that is made from settings. -/
theorem copy_of_written_merge (hd : p.disk.Proper) (hbackups : w.backups = some b) (hcodec : b.codec.Lossless)
    (hb : b.dir.isAbs = true) (hroot : w.options.piecesRoot.isAbs = true)
    (hnow : Number.fits64 (w.clock p.ticks) = true)
    (hsource : Disk.key (b.copyPath (w.key (w.abs path)) (w.clock p.ticks)) ≠ Disk.key (w.abs path))
    (hmiss : o.resplit = true → ∀ merged, ((w.fold path).run p).1 = .ok merged →
      w.PiecesMiss (w.abs path) merged.text p.database (b.copyPath (w.key (w.abs path)) (w.clock p.ticks)))
    (hbackup : o.backup = true) (hrun : (w.merge path o).run p = (.ok r, p'))
    (hwritten : r.done.written = true) :
    ∃ text before, p.disk.read (w.abs path) = .content text ∧
      b.list p.disk (w.key (w.abs path)) = .ok before ∧
      r.done.backup = b.copyPath (w.key (w.abs path)) (w.clock p.ticks) ∧
      b.CopyFate (w.key (w.abs path)) text (w.clock p.ticks) before p'.disk := by
  rcases w.merge_run_fold path p with
    ⟨e, p', -, hmerge, -⟩ | ⟨merged, plan, p₁, hfolded, hfold, hmerge⟩
  · rw [hmerge o] at hrun
    cases hrun
  · rw [hmerge o] at hrun
    obtain ⟨hresult, rfl⟩ := Prod.mk.inj hrun
    have hplanned : (w.planAt (w.abs path)).run p = (.ok plan, _) := Prod.ext hfolded.planned rfl
    obtain ⟨-, -, -, hlayout, -⟩ := planAt_eq_ok hplanned
    have hdir := dir_isAbs_of_layout hlayout hroot
    have hd₁ : p₁.disk.Proper := hfolded.disk_eq ▸ hd.locked hdir
    rw [hfold] at hmiss
    rw [← hfolded.source_eq, ← hfolded.ticks_eq, ← hfolded.database_eq] at hmiss
    rw [← hfolded.source_eq, ← hfolded.ticks_eq] at hsource ⊢
    obtain ⟨e, log, disk, hsave, hpath, hkeeps⟩ :=
      (finish_saves hbackups hbackup hsource fun hresplit => hmiss hresplit merged rfl).2 r hresult hwritten
    obtain ⟨before, hbefore⟩ := Backups.list_isOk_of_save
      (hfolded.disk_eq ▸ (Disk.keeps_locked p.disk plan.decomposition.dir).directory)
      (fun k x hfile => hfolded.disk_eq ▸ hd.get?_locked plan.decomposition.dir hfile) hsave
    rw [← hfolded.ticks_eq] at hnow
    obtain ⟨hcopy, hfate⟩ := Backups.copyFate_of_save hcodec hd₁ hd hb hnow
      (fun c n e hc hlisted => hfolded.disk_eq ▸
        stored?_locked_of_listed hdir (Backups.isAbs_sourceDir hb) hc hlisted) hbefore hsave hkeeps
    exact ⟨plan.text, before, hfolded.source_eq ▸ hfolded.read, hbefore, hpath.trans hcopy, hfate⟩

/-! Samples. -/

/-- Room for one copy of each source. -/
def singleCopy : Backups := ⟨"/b", 1, .framed⟩

def singleCopyWorkspace : Workspace := { openWorkspace with backups := some singleCopy }

/-- The edit of the sample, where a copy of the source was stored before. -/
def copiedPair (now : Int) : Project :=
  let copies : List (Path × Node) := [
    ("/b", .directory), (singleCopy.sourceDir "t/x.ts", .directory),
    (singleCopy.copyPath "t/x.ts" now, .file (singleCopy.codec.encode "type A=0\n"))]
  { editedPair with disk := { nodes := editedPair.disk.nodes ++ copies } }

def copyAndSplit : MergeOptions := { backup := true, resplit := true }

/-- A merge of the edit that keeps a copy and splits again, where one was stored before. -/
def mergeBeside (now : Int) : Except Failure (Partial MergeResult) × Project :=
  (singleCopyWorkspace.merge "t/x.ts" copyAndSplit).run (copiedPair now)

/-- An older copy makes room for that of the text which a merge overwrites. -/
theorem copy_of_merge_after_older : ∃ r p', mergeBeside 5 = (.ok r, p') ∧
    r.done.written = true ∧ r.done.split.isSome = true ∧ singleCopy.read p'.disk r.done.backup = .ok pairText := by
  have hfacts : (mergeBeside 5).1.map (fun r => (r.done.written, r.done.split.isSome)) = .ok (true, true) ∧
      ((singleCopyWorkspace.fold "t/x.ts").run (copiedPair 5)).1.map (·.text) = .ok mergedText ∧
      singleCopy.list (copiedPair 5).disk "t/x.ts" = .ok [⟨"t/x.ts", singleCopy.copyPath "t/x.ts" 5, 5, 13⟩] ∧
      ((copiedPair 5).disk.nodes.map (·.1)).Nodup ∧
      (∀ e ∈ (copiedPair 5).disk.nodes, Disk.key e.1 = e.1 ∧ (copiedPair 5).disk.look e.1 = .ok e.2) ∧
      (copiedPair 5).disk.read (singleCopyWorkspace.abs "t/x.ts") = .content pairText ∧
      ∀ x ∈ ("/work/t/x.ts" : Path) :: (mergedPieces.pieces.map (·.path) ++
          editedManifest.pieces.map fun r => openWorkspace.ofKey r.path),
        Disk.key x ≠ Disk.key (singleCopy.copyPath "t/x.ts" 1700000001000000000) := by
    decide +kernel
  obtain ⟨hmerge, hfold, hlist, hnodup, hnodes, hpair, hplaces⟩ := hfacts
  have hproper : (copiedPair 5).disk.Proper := Disk.proper_of_nodes hnodup hnodes
  have hroot : singleCopyWorkspace.options.piecesRoot.isAbs = true := by decide +kernel
  have hnow : Number.fits64 (singleCopyWorkspace.clock (copiedPair 5).ticks) = true := by decide +kernel
  have hmiss : openWorkspace.PiecesMiss (openWorkspace.abs "t/x.ts") mergedText editedPair.database
      (singleCopy.copyPath "t/x.ts" 1700000001000000000) := by
    refine editedPair_miss (fun q hq => hplaces _ ?_) (fun r hr => hplaces _ ?_)
    · exact List.mem_cons_of_mem _ (List.mem_append_left _ (List.mem_map_of_mem hq))
    · exact List.mem_cons_of_mem _ (List.mem_append_right _ (List.mem_map_of_mem hr))
  have hkey : singleCopyWorkspace.key (singleCopyWorkspace.abs "t/x.ts") = "t/x.ts" := by decide +kernel
  have hcopy : singleCopy.copyPath (singleCopyWorkspace.key (singleCopyWorkspace.abs "t/x.ts"))
      (singleCopyWorkspace.clock (copiedPair 5).ticks) = singleCopy.copyPath "t/x.ts" 1700000001000000000 := by
    rw [hkey]
    rfl
  obtain ⟨r, hr, hparts⟩ := exists_of_map_eq_ok hmerge
  obtain ⟨hwritten, hsplit⟩ := Prod.mk.inj hparts
  obtain ⟨p', hrun⟩ := exists_run_eq hr
  have hmain := copy_of_written_merge (b := singleCopy) hproper rfl Backup.Codec.framed_lossless rfl hroot hnow
    (hcopy ▸ (hplaces _ List.mem_cons_self).symm) (fun _ merged hmerged => ?_) rfl hrun hwritten
  · obtain ⟨text, before, hread, hbefore, hbackup, hleft, -⟩ := hmain
    obtain rfl := Except.ok.inj (hlist.symm.trans (hkey ▸ hbefore))
    obtain rfl := Reading.content.inj (hpair.symm.trans hread)
    refine ⟨r, p', hrun, hwritten, hsplit, hbackup ▸ hleft (.inr ?_)⟩
    exact Nat.lt_of_le_of_lt (List.filter_sublist.countP_le) (by decide +kernel)
  · obtain ⟨merged', hmerged', htext⟩ := exists_of_map_eq_ok hfold
    obtain rfl := Except.ok.inj (hmerged.symm.trans hmerged')
    rw [htext, hcopy]
    exact ⟨hmiss.pieces, hmiss.recorded⟩

/-- With a copy that is named by a later moment, the one that a merge takes is removed before the source is
overwritten. -/
theorem copy_of_merge_before_newer :
    (mergeBeside 9000000000000000000).1.map (fun r => (r.done.written, r.done.backup)) =
      .ok (true, singleCopy.copyPath "t/x.ts" 1700000001000000000) ∧
    (mergeBeside 9000000000000000000).2.disk.stored? (singleCopy.copyPath "t/x.ts" 1700000001000000000) = none ∧
    (mergeBeside 9000000000000000000).2.disk.read (singleCopyWorkspace.abs "t/x.ts") = .content mergedText := by
  decide +kernel

end Workspace

end DeclPieces
