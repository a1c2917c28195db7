import DeclPieces.Proofs.CopyName
import DeclPieces.Proofs.Lists
import DeclPieces.Proofs.ProperDisk

/-! The copies of a source that a disk holds: which are listed, and which are left when a copy is stored and those
beyond the limit are removed. -/
namespace DeclPieces.Backups
open Path Backup
variable {b : Backups} {d d' : Disk} {source text : Text} {now : Int} {e : Backup.Entry} {c : Text}
  {entries before after : List Backup.Entry}

lemma clean_sourceDir (b : Backups) (source : Text) : Path.clean (b.sourceDir source) = b.sourceDir source :=
  clean_join _ (plain_key source).ne_nil

lemma isAbs_sourceDir (hb : b.dir.isAbs = true) : Path.isAbs (b.sourceDir source) = true :=
  (isAbs_join (ne_nil_of_isAbs hb) _).trans hb

lemma length_key_le (source : Text) : (key source).length ≤ Disk.nameLimit :=
  (List.length_take_le 32 _).trans (by decide)

lemma join_inj {D c c' : Path} (hc : Plain c) (hc' : Plain c') (h : join D c = join D c') :
    c = c' := by
  rw [← base_join hc, h, base_join hc']

/-! Lists. -/

lemma ofListed?_copyName (D : Path) (n : Nat) (h : Number.fits64 now = true) :
    ofListed? source D ⟨copyName now, false, n⟩ = some ⟨source, join D (copyName now), now, n⟩ := by
  have hend : (copyName now).hasSuffix suffix = true := List.isSuffixOf_iff_suffix.mpr (List.suffix_append _ _)
  have hinstant : instant? ((copyName now).dropSuffix suffix) = some now := by
    rw [copyName, Text.dropSuffix_append, instant?_ofInt h]
  simp [ofListed?, hend, hinstant]

lemma path_of_ofListed? {D : Path} {l : Listed} (h : ofListed? source D l = some e) :
    e.path = join D l.name ∧ l.isDir = false := by
  unfold ofListed? at h
  split at h
  · cases h
  · next hnot =>
    obtain ⟨at_, -, rfl⟩ := Option.map_eq_some_iff.mp h
    refine ⟨rfl, ?_⟩
    by_contra hdir
    exact hnot (by simp [hdir])

/-- The entries of the members of a directory, newest first. -/
def entriesOf (source : Text) (dir : Path) (ls : List Listed) : List Backup.Entry :=
  (ls.filterMap (ofListed? source dir)).stableSort fun x y => y.createdAt ≤ x.createdAt

lemma list_eq : b.list d source = match d.list (b.sourceDir source) with
    | .missing _ => .ok []
    | .failed e => .error (.note "listing backups" e)
    | .content ls => .ok (entriesOf source (b.sourceDir source) ls) := rfl

lemma list_of_look (h : d.look (b.sourceDir source) = .ok .directory) :
    b.list d source = .ok (entriesOf source (b.sourceDir source) (d.members (b.sourceDir source))) := by
  rw [list_eq, Disk.list, h]

lemma list_of_look_noEntry (h : d.look (b.sourceDir source) = .error .noEntry) : b.list d source = .ok [] := by
  rw [list_eq, Disk.list, h]
  rfl

lemma look_of_list (h : b.list d source = .ok entries) :
    d.look (b.sourceDir source) = .ok .directory ∨ d.look (b.sourceDir source) = .error .noEntry ∧ entries = [] := by
  rw [list_eq, Disk.list] at h
  cases hlook : d.look (b.sourceDir source) with
  | ok n =>
    rw [hlook] at h
    cases n with
    | directory => exact .inl rfl
    | file x => cases h
  | error o =>
    rw [hlook] at h
    cases o with
    | noEntry => exact .inr ⟨rfl, (Except.ok.inj h).symm⟩
    | _ => cases h

lemma pairwise_list (h : b.list d source = .ok entries) : entries.Pairwise fun x y => y.createdAt ≤ x.createdAt := by
  rcases look_of_list h with hlook | ⟨-, rfl⟩
  · rw [list_of_look hlook] at h
    obtain rfl := Except.ok.inj h
    have hsorted : (entriesOf source (b.sourceDir source) (d.members (b.sourceDir source))).Pairwise
        fun x y => decide (y.createdAt ≤ x.createdAt) = true :=
      List.pairwise_stableSort (by simp only [decide_eq_true_eq]; intros; omega)
        (by simp only [Bool.or_eq_true, decide_eq_true_eq]; intros; omega) _
    exact hsorted.imp fun h => of_decide_eq_true h
  · exact .nil

/-- What is listed are the files in the directory of the source that are named by a moment. -/
lemma mem_list_iff (hd : d.Proper) (hb : b.dir.isAbs = true) (h : b.list d source = .ok entries) :
    e ∈ entries ↔ ∃ c stored, Plain c ∧ d.stored? (join (b.sourceDir source) c) = some stored ∧
      ofListed? source (b.sourceDir source) ⟨c, false, stored.length⟩ = some e := by
  have hD : Path.isAbs (b.sourceDir source) = true := isAbs_sourceDir hb
  have hget {c stored : Text} (hc : Plain c) : d.stored? (join (b.sourceDir source) c) = some stored ↔
      d.get? (join (b.sourceDir source) c) = some (.file stored) := by
    rw [Disk.stored?_eq_some_iff, key_join hD hc]
  rcases look_of_list h with hlook | ⟨hlook, rfl⟩
  · rw [list_of_look hlook] at h
    obtain rfl := Except.ok.inj h
    rw [entriesOf, (List.stableSort_perm _ _).mem_iff, List.mem_filterMap]
    constructor
    · rintro ⟨l, hl, he⟩
      obtain ⟨c, n, hc, hn, rfl⟩ := (hd.mem_members_iff hD).mp hl
      cases n with
      | file stored => exact ⟨c, stored, hc, (hget hc).mpr hn, he⟩
      | directory => exact absurd (path_of_ofListed? he).2 (by simp [Node.listed])
    · rintro ⟨c, stored, hc, hstored, he⟩
      exact ⟨_, (hd.mem_members_iff hD).mpr ⟨c, _, hc, (hget hc).mp hstored, rfl⟩, he⟩
  · refine iff_of_false List.not_mem_nil ?_
    rintro ⟨c, stored, hc, hstored, -⟩
    have hparent := Disk.look_of_look_join (ne_nil_of_isAbs hD) hc (hd.look _ _ ((hget hc).mp hstored))
    rw [hlook] at hparent
    cases hparent

lemma nodup_list (hd : d.Proper) (hb : b.dir.isAbs = true) (h : b.list d source = .ok entries) :
    (entries.map (·.path)).Nodup := by
  have hD : Path.isAbs (b.sourceDir source) = true := isAbs_sourceDir hb
  rcases look_of_list h with hlook | ⟨-, rfl⟩
  · rw [list_of_look hlook] at h
    obtain rfl := Except.ok.inj h
    rw [entriesOf, ((List.stableSort_perm _ _).map _).nodup_iff]
    have hnames := hd.nodup_members hD
    rw [List.Nodup, List.pairwise_map] at hnames ⊢
    rw [List.pairwise_filterMap]
    refine hnames.imp_of_mem ?_
    intro l l' hl hl' hne e he e' he' hpath
    obtain ⟨c, n, hc, -, rfl⟩ := (hd.mem_members_iff hD).mp hl
    obtain ⟨c', n', hc', -, rfl⟩ := (hd.mem_members_iff hD).mp hl'
    rw [(path_of_ofListed? he).1, (path_of_ofListed? he').1] at hpath
    have hname : ∀ (c : Text) (n : Node), (n.listed c).name = c := by
      intro c n
      cases n <;> rfl
    rw [hname, hname] at hpath hne
    exact hne (join_inj hc hc' hpath)
  · exact List.nodup_nil

/-- What is listed has a path of its own in the directory of the source. -/
lemma key_path_of_mem_list (hd : d.Proper) (hb : b.dir.isAbs = true) (hlist : b.list d source = .ok entries)
    (he : e ∈ entries) : Disk.key e.path = e.path := by
  obtain ⟨c, _, hc, _, hlisted⟩ := (mem_list_iff hd hb hlist).mp he
  rw [(path_of_ofListed? hlisted).1, key_join (isAbs_sourceDir hb) hc]

lemma copyPath_injective : Function.Injective (b.copyPath source) := fun _ _ h =>
  copyName_injective (join_inj (plain_copyName _) (plain_copyName _) h)

lemma key_copyPath (hb : b.dir.isAbs = true) : Disk.key (b.copyPath source now) = b.copyPath source now :=
  key_join (isAbs_sourceDir hb) (plain_copyName now)

/-- At a place beside that of a copy there is another name. -/
lemma key_join_ne_copyPath (hb : b.dir.isAbs = true) (hc : Plain c) (hne : c ≠ copyName now) :
    Disk.key (join (b.sourceDir source) c) ≠ Disk.key (b.copyPath source now) := by
  have hD : Path.isAbs (b.sourceDir source) = true := isAbs_sourceDir hb
  rw [copyPath, key_join hD hc, key_join hD (plain_copyName now)]
  exact fun hpath => hne (join_inj hc (plain_copyName now) hpath)

/-! Storing a copy. -/

section Limit
variable {β : Type}

/-- What is up to the limit. -/
def retained (b : Backups) (l : List β) : List β := if b.keep ≤ 0 then l else l.take b.keep.toNat

/-- What is beyond the limit. -/
def surplus (b : Backups) (l : List β) : List β := if b.keep ≤ 0 then [] else l.drop b.keep.toNat

lemma retained_append_surplus (b : Backups) (l : List β) : b.retained l ++ b.surplus l = l := by
  unfold retained surplus
  split
  · exact List.append_nil l
  · exact List.take_append_drop _ l

lemma retained_sublist (b : Backups) (l : List β) : (b.retained l).Sublist l := by
  conv_rhs => rw [← b.retained_append_surplus l]
  exact List.sublist_append_left _ _

lemma surplus_sublist (b : Backups) (l : List β) : (b.surplus l).Sublist l := by
  conv_rhs => rw [← b.retained_append_surplus l]
  exact List.sublist_append_right _ _

lemma map_retained {γ : Type} (f : β → γ) (l : List β) : (b.retained l).map f = b.retained (l.map f) := by
  unfold retained
  split
  · rfl
  · exact List.map_take

/-- The limit may be applied before something is put in front. -/
lemma retained_cons_retained (a : β) (l : List β) : b.retained (a :: b.retained l) = b.retained (a :: l) := by
  unfold retained
  split
  · rfl
  · next hkeep =>
    obtain ⟨k, hk⟩ : ∃ k, b.keep.toNat = k + 1 := ⟨b.keep.toNat - 1, by omega⟩
    simp [hk, List.take_take]

end Limit

/-- How a copy is listed: with the size in which it is stored. -/
def listed (b : Backups) (source text : Text) (now : Int) : Backup.Entry :=
  ⟨source, b.copyPath source now, now, (b.codec.encode text).length⟩

lemma removeAll_spec {gone : List Backup.Entry} (hd : d.Proper)
    (hread : ∀ e ∈ gone, ∃ stored, d.read e.path = .content stored)
    (hkeys : gone.Pairwise fun e e' => Disk.key e.path ≠ Disk.key e'.path)
    (h : (removeAll source gone d).2.2 = d') :
    d'.Proper ∧ d.Keeps d' (fun x => ∃ e ∈ gone, Disk.key x = Disk.key e.path) ∧
      ∀ e ∈ gone, d'.stored? e.path = none := by
  induction gone generalizing d with
  | nil =>
    obtain rfl : d = d' := h
    exact ⟨hd, Disk.keeps_rfl, by simp⟩
  | cons first rest ih =>
    obtain ⟨hfirst, hrest⟩ := List.pairwise_cons.mp hkeys
    obtain ⟨stored, hstored⟩ := hread first (by simp)
    have hlook := Disk.read_eq_content_iff.mp hstored
    obtain ⟨d₁, hremove⟩ : ∃ d₁, d.remove first.path = .ok d₁ := by
      unfold Disk.remove
      rw [hlook]
      exact ⟨_, rfl⟩
    have hthen : (removeAll source rest d₁).2.2 = d' := by
      have hstep : Storage.remove d first.path = .ok d₁ := hremove
      rw [← h, removeAll, hstep]
    have hkeeps : d.Keeps d₁ fun x => Disk.key x = Disk.key first.path :=
      Disk.keeps_remove hstored hremove fun _ hx => hx
    have hread' : ∀ e ∈ rest, ∃ stored, d₁.read e.path = .content stored := by
      intro e he
      obtain ⟨x, hx⟩ := hread e (List.mem_cons_of_mem first he)
      exact ⟨x, hkeeps.read (hfirst e he).symm hx⟩
    obtain ⟨hproper, hkeeps', hgone⟩ := ih (hd.remove hstored hremove) hread' hrest hthen
    refine ⟨hproper, ?_, ?_⟩
    · refine (hkeeps.mono fun x hx => ⟨first, by simp, hx⟩).trans (hkeeps'.mono ?_)
      rintro x ⟨e, he, hx⟩
      exact ⟨e, List.mem_cons_of_mem first he, hx⟩
    · intro e he
      rcases List.mem_cons.mp he with rfl | he
      · have hnone : d₁.stored? e.path = none := by
          obtain rfl := Disk.remove_eq hremove
          rw [Disk.stored?, Disk.get?_filter_ne, if_pos rfl]
        rw [hkeeps'.stored?_eq, hnone]
        rintro ⟨e', he', hkey⟩
        exact hfirst e' he' hkey
      · exact hgone e he

lemma prune_spec (hd : d.Proper) (hb : b.dir.isAbs = true) (hlist : b.list d source = .ok entries)
    (h : (b.prune source d).2 = d') :
    d'.Proper ∧ d.Keeps d' (fun x => ∃ e ∈ b.surplus entries, Disk.key x = Disk.key e.path) ∧
      ∀ e ∈ b.surplus entries, d'.stored? e.path = none := by
  have hremoved : (removeAll source (b.surplus entries) d).2.2 = d' := by
    unfold prune at h
    unfold surplus
    by_cases hkeep : b.keep ≤ 0
    · rw [if_pos hkeep] at h ⊢
      exact h
    · simp only [if_neg hkeep, hlist] at h ⊢
      exact h
  have hmem : ∀ e ∈ b.surplus entries, e ∈ entries := fun e he => (b.surplus_sublist entries).subset he
  refine removeAll_spec hd ?_ ?_ hremoved
  · intro e he
    obtain ⟨c, stored, hc, hstored, hlisted⟩ := (mem_list_iff hd hb hlist).mp (hmem e he)
    rw [← (path_of_ofListed? hlisted).1, Disk.stored?_eq_some_iff,
      key_path_of_mem_list hd hb hlist (hmem e he)] at hstored
    exact ⟨stored, Disk.read_eq_content_iff.mpr (hd.look _ _ hstored)⟩
  · have hnodup := (nodup_list hd hb hlist).sublist ((b.surplus_sublist entries).map _)
    rw [List.Nodup, List.pairwise_map] at hnodup
    refine hnodup.imp_of_mem fun {e e'} he he' hne => ?_
    rwa [key_path_of_mem_list hd hb hlist (hmem e he), key_path_of_mem_list hd hb hlist (hmem e' he')]

/-- What is up to the limit is left as it is. -/
lemma stored?_of_mem_retained (hd : d.Proper) (hb : b.dir.isAbs = true) (hlist : b.list d source = .ok entries)
    (hkeeps : d.Keeps d' fun x => ∃ e ∈ b.surplus entries, Disk.key x = Disk.key e.path) (he : e ∈ b.retained entries) :
    d'.stored? e.path = d.stored? e.path := by
  have hsplit := nodup_list hd hb hlist
  rw [← b.retained_append_surplus entries, List.map_append, List.nodup_append] at hsplit
  refine hkeeps.stored?_eq _ ?_
  rintro ⟨e', he', hkey⟩
  rw [key_path_of_mem_list hd hb hlist ((b.retained_sublist _).subset he),
    key_path_of_mem_list hd hb hlist ((b.surplus_sublist _).subset he')] at hkey
  exact hsplit.2.2 _ (List.mem_map_of_mem he) _ (List.mem_map_of_mem he') hkey

/-- What is removed are the copies beyond the limit. -/
lemma list_pruned_perm (hd : d.Proper) (hd' : d'.Proper) (hb : b.dir.isAbs = true)
    (hlist : b.list d source = .ok entries)
    (hkeeps : d.Keeps d' fun x => ∃ e ∈ b.surplus entries, Disk.key x = Disk.key e.path)
    (hgone : ∀ e ∈ b.surplus entries, d'.stored? e.path = none) (hafter : b.list d' source = .ok after) :
    after.Perm (b.retained entries) := by
  have hnodup := nodup_list hd hb hlist
  have hsplit := hnodup
  rw [← b.retained_append_surplus entries, List.map_append, List.nodup_append] at hsplit
  refine (List.perm_ext_iff_of_nodup (nodup_list hd' hb hafter).of_map hsplit.1.of_map).mpr fun e => ?_
  rw [mem_list_iff hd' hb hafter]
  constructor
  · rintro ⟨c, stored, hc, hstored, hlisted⟩
    have hpath := (path_of_ofListed? hlisted).1
    have hkept : ¬ ∃ e' ∈ b.surplus entries, Disk.key (join (b.sourceDir source) c) = Disk.key e'.path := by
      rintro ⟨e', he', hkey⟩
      rw [Disk.stored?_congr hkey, hgone e' he'] at hstored
      cases hstored
    have hmem : e ∈ entries :=
      (mem_list_iff hd hb hlist).mpr ⟨c, stored, hc, hkeeps.stored?_eq _ hkept ▸ hstored, hlisted⟩
    rw [← b.retained_append_surplus entries] at hmem
    exact (List.mem_append.mp hmem).resolve_right fun he => hkept ⟨e, he, hpath ▸ rfl⟩
  · intro he
    have hmem : e ∈ entries := (b.retained_sublist entries).subset he
    obtain ⟨c, stored, hc, hstored, hlisted⟩ := (mem_list_iff hd hb hlist).mp hmem
    refine ⟨c, stored, hc, ?_, hlisted⟩
    rw [← (path_of_ofListed? hlisted).1, stored?_of_mem_retained hd hb hlist hkeeps he, (path_of_ofListed? hlisted).1,
      hstored]

/-- Before old copies are removed, a copy is stored beside the others. -/
lemma save_eq_ok (hd : d.Proper) (hb : b.dir.isAbs = true) (h : (b.save source text now d).1 = .ok e) :
    e = ⟨source, b.copyPath source now, now, text.length⟩ ∧
      ∃ d₁ : Disk, d₁.Proper ∧ d₁.look (b.sourceDir source) = .ok .directory ∧
        d.Keeps d₁ (fun x => Disk.key x = Disk.key (b.copyPath source now)) ∧
        d₁.stored? (b.copyPath source now) = some (b.codec.encode text) ∧
        (b.save source text now d).2.2 = (b.prune source d₁).2 := by
  unfold save at h ⊢
  simp only at h ⊢
  cases hm : Storage.makeDirs d (b.sourceDir source) with
  | error fault =>
    rw [hm] at h
    cases h
  | ok d₀ =>
    simp only [hm] at h ⊢
    cases hw : Storage.write d₀ (join (b.sourceDir source) (Text.ofInt now ++ suffix)) (b.codec.encode text) with
    | error fault =>
      rw [hw] at h
      cases h
    | ok d₁ =>
      simp only [hw] at h ⊢
      have hm : d.makeDirs (b.sourceDir source) = .ok d₀ := hm
      have hw : d₀.write (b.copyPath source now) (b.codec.encode text) = .ok d₁ := hw
      have hD : Path.isAbs (b.sourceDir source) = true := isAbs_sourceDir hb
      have hkeeps : d₀.Keeps d₁ fun x => Disk.key x = Disk.key (b.copyPath source now) :=
        Disk.keeps_write hw fun _ hx => hx
      refine ⟨(Except.ok.inj h).symm, d₁, ?_, ?_, ?_, ?_, rfl⟩
      · exact (hd.makeDirs hD hm).write (key_join hD (plain_copyName now)) hw
      · exact Disk.look_directory hkeeps.directory (Disk.look_makeDirs hm)
      · exact (Disk.keeps_makeDirs hm).trans hkeeps
      · rw [Disk.stored?_write hw, if_pos rfl]

/-- With a copy stored, the others are listed as they were on a disk that has the same files under the names of
copies. -/
lemma list_stored_perm (hd : d.Proper) (hd' : d'.Proper) (hb : b.dir.isAbs = true) (hnow : Number.fits64 now = true)
    (hothers : ∀ c n e, Plain c → c ≠ copyName now → ofListed? source (b.sourceDir source) ⟨c, false, n⟩ = some e →
      d'.stored? (join (b.sourceDir source) c) = d.stored? (join (b.sourceDir source) c))
    (hcopy : d'.stored? (b.copyPath source now) = some (b.codec.encode text))
    (hbefore : b.list d source = .ok before) (hafter : b.list d' source = .ok after) :
    after.Perm (b.listed source text now :: before.filter (·.path ≠ b.copyPath source now)) := by
  have hD : Path.isAbs (b.sourceDir source) = true := isAbs_sourceDir hb
  have hnodup : (b.listed source text now :: before.filter (·.path ≠ b.copyPath source now)).Nodup := by
    refine List.nodup_cons.mpr ⟨fun hmem => ?_, (nodup_list hd hb hbefore).of_map.filter _⟩
    simpa [listed] using (List.mem_filter.mp hmem).2
  refine (List.perm_ext_iff_of_nodup (nodup_list hd' hb hafter).of_map hnodup).mpr fun e => ?_
  rw [mem_list_iff hd' hb hafter, List.mem_cons, List.mem_filter, mem_list_iff hd hb hbefore, decide_eq_true_iff]
  constructor
  · rintro ⟨c, stored, hc, hstored, hlisted⟩
    by_cases hname : c = copyName now
    · subst hname
      obtain rfl := Option.some.inj (hstored.symm.trans hcopy)
      rw [ofListed?_copyName _ _ hnow] at hlisted
      exact .inl (Option.some.inj hlisted).symm
    · refine .inr ⟨⟨c, stored, hc, hothers c _ _ hc hname hlisted ▸ hstored, hlisted⟩, ?_⟩
      rw [(path_of_ofListed? hlisted).1]
      exact fun hpath => hname (join_inj hc (plain_copyName now) hpath)
  · rintro (rfl | ⟨⟨c, stored, hc, hstored, hlisted⟩, hpath⟩)
    · exact ⟨copyName now, b.codec.encode text, plain_copyName now, hcopy, ofListed?_copyName _ _ hnow⟩
    · have hname : c ≠ copyName now := by
        rintro rfl
        exact hpath (path_of_ofListed? hlisted).1
      exact ⟨c, stored, hc, (hothers c _ _ hc hname hlisted).symm ▸ hstored, hlisted⟩

/-- What is stored is read back, if decoding undoes encoding. -/
lemma read_of_content (hcodec : b.codec.Lossless) {path : Path} (h : d.read path = .content (b.codec.encode text)) :
    b.read d path = .ok text := by
  have hread : Storage.read d path = .content (b.codec.encode text) := h
  simp [read, hread, Reading.toExcept, hcodec text, Except.mapError]

end DeclPieces.Backups
