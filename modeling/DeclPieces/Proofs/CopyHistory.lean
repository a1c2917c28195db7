import DeclPieces.Proofs.CopyList
import DeclPieces.Proofs.NumericDigest

/-! The copies that are kept are a bounded history: of every source the last ones that were saved, newest first,
whatever was saved for other sources in between. -/
namespace DeclPieces

namespace Backups
open Path Backup
variable {b : Backups} {d d' : Disk} {source other text : Text} {now : Int} {entries before : List Backup.Entry}
  {e : Backup.Entry}

/-- A copy that was saved. -/
structure Copy where
  source : Text
  text : Text
  now : Int
  deriving DecidableEq, Repr

variable {c : Copy} {copies rest : List Copy} {S : Set Text}

/-- Saves copies one after the other; fails if one cannot be saved. -/
def saveAll (b : Backups) : List Copy → Disk → Except Fault Disk
  | [], d => .ok d
  | c :: rest, d => match b.save c.source c.text c.now d with
    | (.error fault, _, _) => .error fault
    | (.ok _, _, d) => saveAll b rest d

/-- The last copies of a source up to the limit, newest first. -/
def kept (b : Backups) (copies : List Copy) (source : Text) : List Copy :=
  b.retained (copies.filter (·.source = source)).reverse

/-- How a copy is listed. -/
def entryOf (b : Backups) (c : Copy) : Backup.Entry := b.listed c.source c.text c.now

/-- The disk after saving copies. -/
structure History (b : Backups) (S : Set Text) (copies : List Copy) (d : Disk) : Prop where
  proper : d.Proper
  ready : d.look b.dir = .ok .directory ∨ d.look b.dir = .error .noEntry
  list_eq : ∀ source ∈ S, b.list d source = .ok ((b.kept copies source).map b.entryOf)
  stored : ∀ source ∈ S, ∀ c ∈ b.kept copies source, d.stored? (b.copyPath source c.now) = some (b.codec.encode c.text)

lemma kept_append_of_ne (h : c.source ≠ source) : b.kept (copies ++ [c]) source = b.kept copies source := by
  simp [kept, List.filter_append, h]

lemma kept_append_self : b.kept (copies ++ [c]) c.source = b.retained (c :: b.kept copies c.source) := by
  unfold kept
  rw [retained_cons_retained, List.filter_append, List.reverse_append]
  simp

lemma mem_kept (h : c ∈ b.kept copies source) : c ∈ copies ∧ c.source = source := by
  simpa using (b.retained_sublist _).subset h

lemma pairwise_kept (hclock : copies.Pairwise fun c c' => c.now < c'.now) :
    ((b.kept copies source).map b.entryOf).Pairwise fun x y => y.createdAt < x.createdAt := by
  have hnewest : (copies.filter (·.source = source)).reverse.Pairwise fun c c' => c'.now < c.now :=
    List.pairwise_reverse.mpr (hclock.filter _)
  exact List.pairwise_map.mpr (hnewest.sublist (b.retained_sublist _))

/-- The list of a source is there to be read, if no file is in the place of the directory. -/
lemma list_isOk (hb : b.dir.isAbs = true)
    (hready : d.look b.dir = .ok .directory ∨ d.look b.dir = .error .noEntry)
    (hfile : d.stored? (b.sourceDir source) = none) : ∃ entries, b.list d source = .ok entries := by
  have hne := ne_nil_of_isAbs hb
  rcases hready with hlook | hlook
  · cases hget : d.get? (Disk.key (b.sourceDir source)) with
    | none =>
      have hnone := Disk.look_join_of_get?_eq_none hne (plain_key source) (length_key_le source) hlook hget
      exact ⟨[], list_of_look_noEntry hnone⟩
    | some n =>
      have hsome := Disk.look_join_of_get? hne (plain_key source) (length_key_le source) hlook hget
      cases n with
      | directory => exact ⟨_, list_of_look hsome⟩
      | file x =>
        rw [Disk.stored?_eq_some_iff.mpr hget] at hfile
        cases hfile
  · refine ⟨[], list_of_look_noEntry ?_⟩
    unfold sourceDir Disk.look
    rw [components_join_plain hne (plain_key source)]
    exact Disk.follow_append_error _ hlook

lemma stored?_sourceDir_of_list (hb : b.dir.isAbs = true) (h : b.list d source = .ok entries) (hd : d.Proper) :
    d.stored? (b.sourceDir source) = none := by
  rw [← Option.not_isSome_iff_eq_none, Option.isSome_iff_exists]
  rintro ⟨x, hx⟩
  rw [Disk.stored?_eq_some_iff] at hx
  have hlook := hd.look _ _ hx
  rw [show Disk.key (b.sourceDir source) = b.sourceDir source from key_join hb (plain_key source)] at hlook
  rcases look_of_list h with hdir | ⟨hnone, -⟩
  · rw [hdir] at hlook
    cases hlook
  · rw [hnone] at hlook
    cases hlook

/-- Saving a copy touches only files in the directory of its source, which is there afterwards. -/
lemma keeps_save (hd : d.Proper) (hb : b.dir.isAbs = true) (h : (b.save source text now d).1 = .ok e)
    (hd' : (b.save source text now d).2.2 = d') :
    d'.Proper ∧ d'.look (b.sourceDir source) = .ok .directory ∧
      d.Keeps d' fun x => ∃ n, Plain n ∧ Disk.key x = Disk.key (join (b.sourceDir source) n) := by
  obtain ⟨-, d₁, hd₁, hlook, hkeeps, -, hprune⟩ := save_eq_ok hd hb h
  have hlist := list_of_look hlook
  obtain ⟨hproper, hkeeps', -⟩ := prune_spec hd₁ hb hlist (hprune.symm.trans hd')
  refine ⟨hproper, Disk.look_directory hkeeps'.directory hlook, ?_⟩
  refine (hkeeps.mono fun x hx => ⟨copyName now, plain_copyName now, hx⟩).trans (hkeeps'.mono ?_)
  rintro x ⟨e, he, hx⟩
  have hmem := (b.surplus_sublist _).subset he
  obtain ⟨n, _, hn, _, hlisted⟩ := (mem_list_iff hd₁ hb hlist).mp hmem
  exact ⟨n, hn, hx.trans (congrArg Disk.key (path_of_ofListed? hlisted).1)⟩

lemma sourceDir_inj (h : b.sourceDir source = b.sourceDir other) : key source = key other :=
  join_inj (plain_key source) (plain_key other) h

/-- The directories of two sources have nothing in common, and neither lies in the other. -/
lemma key_join_sourceDir_ne (hb : b.dir.isAbs = true) (hne : key source ≠ key other) {n : Text} (hn : Plain n) :
    Disk.key (b.sourceDir other) ≠ Disk.key (join (b.sourceDir source) n) ∧
      ∀ {m : Text}, Plain m → Disk.key (join (b.sourceDir other) m) ≠ Disk.key (join (b.sourceDir source) n) := by
  have hD : b.sourceDir source ≠ [] := ne_nil_of_isAbs (isAbs_sourceDir hb)
  constructor
  · intro hkey
    have hcomponents := Disk.components_eq_of_key_eq hkey
    rw [components_join_plain hD hn, sourceDir, sourceDir, components_join_plain (ne_nil_of_isAbs hb) (plain_key other),
      components_join_plain (ne_nil_of_isAbs hb) (plain_key source)] at hcomponents
    have hlength := congrArg List.length hcomponents
    simp at hlength
  · intro m hm hkey
    rw [key_join (isAbs_sourceDir hb) hm, key_join (isAbs_sourceDir hb) hn] at hkey
    have hdir := congrArg Path.dir hkey
    rw [dir_join (clean_sourceDir b other) hm, dir_join (clean_sourceDir b source) hn] at hdir
    exact hne (sourceDir_inj hdir.symm)

/-- Saving a copy for another source changes no list. -/
lemma list_save_of_ne (hd : d.Proper) (hb : b.dir.isAbs = true) (hne : key source ≠ key other)
    (h : (b.save source text now d).1 = .ok e) (hd' : (b.save source text now d).2.2 = d')
    (hbefore : b.list d other = .ok before) (hstrict : before.Pairwise fun x y => y.createdAt < x.createdAt) :
    b.list d' other = .ok before := by
  obtain ⟨hproper, hlook, hkeeps⟩ := keeps_save hd hb h hd'
  have hfile : d'.stored? (b.sourceDir other) = none := by
    rw [hkeeps.stored?_eq, stored?_sourceDir_of_list hb hbefore hd]
    rintro ⟨n, hn, hkey⟩
    exact (key_join_sourceDir_ne hb hne hn).1 hkey
  have hready := Disk.look_of_look_join (ne_nil_of_isAbs hb) (plain_key source) hlook
  obtain ⟨after, hafter⟩ := list_isOk hb (.inl hready) hfile
  have hstored : ∀ {m : Text}, Plain m →
      d'.stored? (join (b.sourceDir other) m) = d.stored? (join (b.sourceDir other) m) := by
    intro m hm
    refine hkeeps.stored?_eq _ ?_
    rintro ⟨n, hn, hkey⟩
    exact (key_join_sourceDir_ne hb hne hn).2 hm hkey
  have hperm : after.Perm before := by
    refine (List.perm_ext_iff_of_nodup (nodup_list hproper hb hafter).of_map (nodup_list hd hb hbefore).of_map).mpr ?_
    intro e
    rw [mem_list_iff hproper hb hafter, mem_list_iff hd hb hbefore]
    exact exists_congr fun m => exists_congr fun x => and_congr_right fun hm => by rw [hstored hm]
  rw [hafter, List.eq_of_perm_of_pairwise hperm (pairwise_list hafter) hstrict]

/-- A save puts its copy in front of those that there were, and keeps as many as are wanted. -/
lemma History.list_save (h : b.History S copies d) (hb : b.dir.isAbs = true) (hS : c.source ∈ S)
    (hclock : (copies ++ [c]).Pairwise fun c c' => c.now < c'.now) (hfits : Number.fits64 c.now = true)
    (hsave : (b.save c.source c.text c.now d).1 = .ok e) (hd' : (b.save c.source c.text c.now d).2.2 = d') :
    b.list d' c.source = .ok ((b.kept (copies ++ [c]) c.source).map b.entryOf) ∧
      ∀ c' ∈ b.kept (copies ++ [c]) c.source, d'.stored? (b.copyPath c.source c'.now) = some (b.codec.encode c'.text) := by
  obtain ⟨-, d₁, hd₁, hlook, hkeeps, hcopy, hprune⟩ := save_eq_ok h.proper hb hsave
  have hbefore := h.list_eq c.source hS
  have hpast : ∀ c' ∈ copies, c'.now < c.now := fun c' hc' =>
    (List.pairwise_append.mp hclock).2.2 c' hc' c (by simp)
  have hlist := list_of_look hlook
  generalize entriesOf c.source (b.sourceDir c.source) (d₁.members (b.sourceDir c.source)) = entries at hlist
  -- none of the copies before is at the place of the new one
  have hfilter : ((b.kept copies c.source).map b.entryOf).filter (·.path ≠ b.copyPath c.source c.now) =
      (b.kept copies c.source).map b.entryOf := by
    refine List.filter_eq_self.mpr fun e he => ?_
    obtain ⟨c', hc', rfl⟩ := List.mem_map.mp he
    obtain ⟨hmem, hsource⟩ := mem_kept hc'
    have hne : b.copyPath c'.source c'.now ≠ b.copyPath c.source c.now := by
      rw [hsource]
      exact fun hpath => absurd (copyPath_injective hpath) (by have := hpast c' hmem; omega)
    exact decide_eq_true hne
  have hall : entries = b.entryOf c :: (b.kept copies c.source).map b.entryOf := by
    have hperm := list_stored_perm h.proper hd₁ hb hfits
      (fun _ _ _ hn hne _ => hkeeps.stored?_eq _ (key_join_ne_copyPath hb hn hne)) hcopy hbefore hlist
    rw [hfilter] at hperm
    refine List.eq_of_perm_of_pairwise hperm (pairwise_list hlist) (List.pairwise_cons.mpr ⟨?_, ?_⟩)
    · intro e he
      obtain ⟨c', hc', rfl⟩ := List.mem_map.mp he
      exact hpast c' (mem_kept hc').1
    · exact pairwise_kept (List.pairwise_append.mp hclock).1
  obtain ⟨hproper, hkeeps', hgone⟩ := prune_spec hd₁ hb hlist (hprune.symm.trans hd')
  have hafter := list_of_look (Disk.look_directory hkeeps'.directory hlook)
  have hretained : b.retained entries = (b.kept (copies ++ [c]) c.source).map b.entryOf := by
    rw [kept_append_self, hall, map_retained, List.map_cons]
  constructor
  · have hperm := list_pruned_perm hd₁ hproper hb hlist hkeeps' hgone hafter
    rw [hretained] at hperm
    rw [hafter, List.eq_of_perm_of_pairwise hperm (pairwise_list hafter) (pairwise_kept hclock)]
  · intro c' hc'
    have hsource := (mem_kept hc').2
    have hkept : b.entryOf c' ∈ b.retained entries := hretained ▸ List.mem_map_of_mem hc'
    have hstill := stored?_of_mem_retained hd₁ hb hlist hkeeps' hkept
    rw [show (b.entryOf c').path = b.copyPath c'.source c'.now from rfl, hsource] at hstill
    rw [hstill]
    rw [kept_append_self] at hc'
    rcases List.mem_cons.mp ((b.retained_sublist _).subset hc') with rfl | hold
    · exact hcopy
    · rw [hkeeps.stored?_eq, h.stored c.source hS c' hold]
      rw [key_copyPath hb, key_copyPath hb]
      have hlt := hpast c' (mem_kept hold).1
      exact fun hpath => absurd (copyPath_injective hpath) (by omega)

lemma History.save (h : b.History S copies d) (hb : b.dir.isAbs = true) (hkeys : Set.InjOn key S) (hS : c.source ∈ S)
    (hclock : (copies ++ [c]).Pairwise fun c c' => c.now < c'.now) (hfits : Number.fits64 c.now = true)
    (hsave : (b.save c.source c.text c.now d).1 = .ok e) (hd' : (b.save c.source c.text c.now d).2.2 = d') :
    b.History S (copies ++ [c]) d' := by
  obtain ⟨hproper, hlook, hkeeps⟩ := keeps_save h.proper hb hsave hd'
  obtain ⟨hlist, hstored⟩ := h.list_save hb hS hclock hfits hsave hd'
  have hne : ∀ source ∈ S, source ≠ c.source → key c.source ≠ key source := fun source hs hne hkey =>
    hne (hkeys hs hS hkey.symm)
  constructor
  · exact hproper
  · exact .inl (Disk.look_of_look_join (ne_nil_of_isAbs hb) (plain_key c.source) hlook)
  · intro source hs
    by_cases hown : source = c.source
    · exact hown ▸ hlist
    · rw [kept_append_of_ne (Ne.symm hown)]
      exact list_save_of_ne h.proper hb (hne source hs hown) hsave hd' (h.list_eq source hs)
        (pairwise_kept (List.pairwise_append.mp hclock).1)
  · intro source hs
    by_cases hown : source = c.source
    · exact hown ▸ hstored
    · rw [kept_append_of_ne (Ne.symm hown)]
      intro c' hc'
      rw [hkeeps.stored?_eq, h.stored source hs c' hc']
      rintro ⟨n, hn, hkey⟩
      exact (key_join_sourceDir_ne hb (hne source hs hown) hn).2 (plain_copyName c'.now) hkey

/-- The history of the copies before a run is continued by those that the run saves. -/
lemma History.saveAll (h : b.History S copies d) (hb : b.dir.isAbs = true) (hkeys : Set.InjOn key S)
    (hS : ∀ c ∈ rest, c.source ∈ S) (hclock : (copies ++ rest).Pairwise fun c c' => c.now < c'.now)
    (hfits : ∀ c ∈ rest, Number.fits64 c.now = true) (hrun : b.saveAll rest d = .ok d') :
    b.History S (copies ++ rest) d' := by
  induction rest generalizing copies d with
  | nil =>
    obtain rfl : d = d' := Except.ok.inj hrun
    rwa [List.append_nil]
  | cons c rest ih =>
    rw [List.append_cons] at hclock ⊢
    have hfirst := (List.pairwise_append.mp hclock).1
    unfold Backups.saveAll at hrun
    split at hrun
    · cases hrun
    · next e log d₁ hsave =>
      have hstep : b.History S (copies ++ [c]) d₁ :=
        h.save hb hkeys (hS c (by simp)) hfirst (hfits c (by simp)) (congrArg Prod.fst hsave)
          (congrArg (fun r => r.2.2) hsave)
      exact ih hstep (fun c' hc' => hS c' (by simp [hc'])) hclock (fun c' hc' => hfits c' (by simp [hc'])) hrun

/-- Where nothing is stored there is no history. -/
lemma history_start (hd : d.Proper) (hb : b.dir.isAbs = true)
    (hempty : d.look b.dir = .ok .directory ∧ d.members b.dir = [] ∨ d.look b.dir = .error .noEntry) :
    b.History S [] d := by
  have hne := ne_nil_of_isAbs hb
  have hnothing : ∀ source n, d.look (b.sourceDir source) ≠ .ok n := by
    intro source n hlook
    have hdir : d.look b.dir = .ok .directory := Disk.look_of_look_join hne (plain_key source) hlook
    rcases hempty with ⟨-, hmembers⟩ | hmissing
    · have hparts : (b.sourceDir source).components ≠ [] := by
        rw [sourceDir, components_join_plain hne (plain_key source)]
        simp
      have hget := Disk.get?_of_look hparts hlook
      rw [sourceDir, key_join hb (plain_key source)] at hget
      have hmem := (hd.mem_members_iff hb).mpr ⟨key source, n, plain_key source, hget, rfl⟩
      rw [hmembers] at hmem
      cases hmem
    · rw [hmissing] at hdir
      cases hdir
  have hready : d.look b.dir = .ok .directory ∨ d.look b.dir = .error .noEntry := hempty.imp_left And.left
  refine ⟨hd, hready, fun source _ => ?_, fun source _ c hc => absurd (mem_kept hc).1 List.not_mem_nil⟩
  have hfile : d.stored? (b.sourceDir source) = none := by
    rw [← Option.not_isSome_iff_eq_none, Option.isSome_iff_exists]
    rintro ⟨x, hx⟩
    rw [Disk.stored?_eq_some_iff, sourceDir, key_join hb (plain_key source)] at hx
    exact hnothing source _ (hd.look _ _ hx)
  obtain ⟨entries, hlist⟩ := list_isOk hb hready hfile
  have hkept : b.kept [] source = [] :=
    List.eq_nil_iff_forall_not_mem.mpr fun c hc => absurd (mem_kept hc).1 List.not_mem_nil
  rw [hkept]
  rcases look_of_list hlist with hlook | ⟨-, rfl⟩
  · exact absurd hlook (hnothing source _)
  · exact hlist

lemma head?_kept : (b.kept copies source).head? = (copies.filter (·.source = source)).getLast? := by
  rw [← List.head?_reverse]
  unfold kept retained
  split
  · rfl
  · rw [List.head?_take, if_neg (by omega)]

lemma latest_eq {l : List Copy} (h : b.list d source = .ok (l.map b.entryOf)) : b.latest d source =
    match l.head? with
    | some c => .ok (b.entryOf c)
    | none => .error (.coded .backupMissing "no backup found" source) := by
  unfold latest
  rw [h]
  cases l <;> rfl

lemma read_of_stored? (hcodec : b.codec.Lossless) (hd : d.Proper) {path : Path} (hpath : Disk.key path = path)
    (h : d.stored? path = some (b.codec.encode text)) : b.read d path = .ok text := by
  rw [Disk.stored?_eq_some_iff, hpath] at h
  exact read_of_content hcodec (Disk.read_eq_content_iff.mpr (hd.look _ _ h))

/-- Whatever was saved for whichever sources, in an empty directory, with a codec that loses nothing and a clock that
goes forward: of each source the last copies up to the limit are listed, newest first, and can be read, the latest is
the last one, and saving for another source leaves the list. -/
theorem list_after_saves (hcodec : b.codec.Lossless) (hb : b.dir.isAbs = true) (hd : d.Proper)
    (hempty : d.look b.dir = .ok .directory ∧ d.members b.dir = [] ∨ d.look b.dir = .error .noEntry)
    (hkeys : Set.InjOn key S) (hS : ∀ c ∈ copies, c.source ∈ S)
    (hclock : copies.Pairwise fun c c' => c.now < c'.now) (hfits : ∀ c ∈ copies, Number.fits64 c.now = true)
    (hrun : b.saveAll copies d = .ok d') :
    ∀ source ∈ S,
      b.list d' source = .ok ((b.kept copies source).map b.entryOf) ∧
      b.latest d' source = (match (copies.filter (·.source = source)).getLast? with
        | some c => .ok (b.entryOf c)
        | none => .error (.coded .backupMissing "no backup found" source)) ∧
      (∀ c ∈ b.kept copies source, b.read d' (b.copyPath source c.now) = .ok c.text) ∧
      ∀ other ∈ S, other ≠ source → ∀ text now e, (b.save other text now d').1 = .ok e →
        b.list (b.save other text now d').2.2 source = b.list d' source := by
  have h : b.History S copies d' := (history_start hd hb hempty).saveAll hb hkeys hS hclock hfits hrun
  intro source hs
  have hlist := h.list_eq source hs
  refine ⟨hlist, ?_, ?_, ?_⟩
  · rw [latest_eq hlist, head?_kept]
  · exact fun c hc => read_of_stored? hcodec h.proper (key_copyPath hb) (h.stored source hs c hc)
  · intro other ho hne text now e hsave
    rw [hlist]
    exact list_save_of_ne h.proper hb (fun hkey => hne (hkeys ho hs hkey)) hsave rfl hlist (pairwise_kept hclock)

/-- With room for two copies of a source, the first of its three is gone. -/
theorem list_after_four_saves :
    let b : Backups := ⟨"/b", 2, .framed⟩
    let copies : List Copy := [⟨"x", "1", 1⟩, ⟨"y", "2", 2⟩, ⟨"x", "3", 3⟩, ⟨"x", "4", 4⟩]
    ∃ d', b.saveAll copies { nodes := [("/b", .directory)] } = .ok d' ∧
      b.list d' "x" = .ok [b.entryOf ⟨"x", "4", 4⟩, b.entryOf ⟨"x", "3", 3⟩] ∧
      b.latest d' "x" = .ok (b.entryOf ⟨"x", "4", 4⟩) ∧ b.read d' (b.copyPath "x" 3) = .ok "3" ∧
      b.list d' "y" = .ok [b.entryOf ⟨"y", "2", 2⟩] := by
  intro b copies
  have hproper : Disk.Proper { nodes := [("/b", .directory)] } :=
    Disk.proper_empty.makeDirs (p := "/b") (by decide) (by decide)
  have hkeys : Set.InjOn key {("x" : Text), ("y" : Text)} := by
    have hne : key "x" ≠ key "y" := by
      unfold key
      rw [Digest.Numeric.hash_eq]
      decide +kernel
    rintro s (rfl | rfl) s' (rfl | rfl) h
    · rfl
    · exact absurd h hne
    · exact absurd h.symm hne
    · rfl
  have hrun : (b.saveAll copies { nodes := [("/b", .directory)] }).toOption.isSome = true := by decide +kernel
  obtain ⟨d', hd'⟩ : ∃ d', b.saveAll copies { nodes := [("/b", .directory)] } = .ok d' := by
    revert hrun
    cases b.saveAll copies { nodes := [("/b", .directory)] } with
    | error fault => exact fun h => nomatch h
    | ok d' => exact fun _ => ⟨d', rfl⟩
  have h := list_after_saves (b := b) (S := {("x" : Text), ("y" : Text)}) Codec.framed_lossless (by decide) hproper
    (.inl (by decide)) hkeys (by simp [copies]) (by simp [copies]) (by decide) hd'
  obtain ⟨hx, hlatest, hread, -⟩ := h "x" (by simp)
  obtain ⟨hy, -⟩ := h "y" (by simp)
  exact ⟨d', hd', hx, hlatest, hread ⟨"x", "3", 3⟩ (by decide), hy⟩

end Backups

end DeclPieces
