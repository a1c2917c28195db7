import DeclPieces.Proofs.LowerCase
import Mathlib.Data.List.Nodup

/-! Disks on which everything is stored once, under the name of its path, and can be reached. Changes to files and
directories keep a disk so. -/
namespace DeclPieces

/-- The member of a directory that a node is. -/
def Node.listed (name : Text) : Node → Listed
  | .file data => ⟨name, false, data.length⟩
  | .directory => ⟨name, true, 0⟩

namespace Path
variable {D c : Path}

lemma components_flatMap_slash {parts : List Text} (h : ∀ c ∈ parts, Plain c) :
    components (parts.flatMap (slash :: ·)) = parts := by
  have hfirst : ∀ rooted, push rooted [] [] = [] := fun _ => rfl
  rw [components, Disk.splitBy_flatMap_slash fun c hc => (h c hc).not_slash, List.foldl_cons, hfirst,
    foldl_push_plain h]
  simp

lemma key_join (hD : D.isAbs = true) (hc : Plain c) : Disk.key (join D c) = join D c := by
  have hne := ne_nil_of_isAbs hD
  refine key_eq_self (clean_join D hc.ne_nil) ((isAbs_join hne c).trans hD) ?_
  rw [components_join_plain hne hc]
  simp

lemma join_clean (hD : D.isAbs = true) (hc : Plain c) : join D.clean c = join D c := by
  have hD' : D.clean.isAbs = true := (isAbs_clean D).trans hD
  refine eq_of_components (clean_join _ hc.ne_nil) (clean_join _ hc.ne_nil) ?_ ?_
  · rw [isAbs_join (ne_nil_of_isAbs hD'), isAbs_join (ne_nil_of_isAbs hD), isAbs_clean]
  · rw [components_join_plain (ne_nil_of_isAbs hD') hc, components_join_plain (ne_nil_of_isAbs hD) hc, components_clean]

end Path

namespace Disk
open Path
variable {d d' : Disk} {p q D c : Path} {n : Node} {data : Text}

/-- Is everything stored once and under the name of its path, and is what is above it a directory? -/
structure Proper (d : Disk) : Prop where
  nodup : (d.nodes.map (·.1)).Nodup
  key_eq : ∀ q n, d.get? q = some n → key q = q
  look : ∀ q n, d.get? q = some n → d.look q = .ok n

lemma proper_empty : Proper {} := ⟨List.nodup_nil, by simp [get?], by simp [get?]⟩

lemma get?_eq_some_iff (hd : (d.nodes.map (·.1)).Nodup) : d.get? q = some n ↔ (q, n) ∈ d.nodes := by
  unfold get?
  rw [List.lookup_eq_some_iff]
  constructor
  · rintro ⟨before, after, heq, -⟩
    simp [heq]
  · intro hmem
    obtain ⟨before, after, heq⟩ := List.append_of_mem hmem
    refine ⟨before, after, heq, fun e he => ?_⟩
    rw [heq, List.map_append, List.nodup_append] at hd
    have hne : e.1 ≠ q := hd.2.2 e.1 (List.mem_map_of_mem he) q (by simp)
    simpa using hne.symm

lemma proper_of_nodes (hnodup : (d.nodes.map (·.1)).Nodup)
    (h : ∀ e ∈ d.nodes, key e.1 = e.1 ∧ d.look e.1 = .ok e.2) : d.Proper :=
  ⟨hnodup, fun q n hget => (h (q, n) ((get?_eq_some_iff hnodup).mp hget)).1,
    fun q n hget => (h (q, n) ((get?_eq_some_iff hnodup).mp hget)).2⟩

lemma nodup_set (hd : (d.nodes.map (·.1)).Nodup) (k : Path) (n : Node) : ((d.set k n).nodes.map (·.1)).Nodup := by
  unfold set
  split
  · rw [List.map_map]
    refine (congrArg List.Nodup (List.map_congr_left fun e _ => ?_)).mpr hd
    simp only [Function.comp_apply]
    split <;> rfl
  · next hnone =>
    rw [List.map_append, List.nodup_append]
    refine ⟨hd, by simp, ?_⟩
    rintro a ha b hb rfl
    obtain ⟨⟨q, m⟩, hmem, rfl⟩ := List.mem_map.mp ha
    obtain rfl : q = k := by simpa using hb
    rw [(get?_eq_some_iff hd).mpr hmem] at hnone
    exact hnone rfl

lemma nodup_filter (hd : (d.nodes.map (·.1)).Nodup) (keep : Path × Node → Bool) :
    ((d.nodes.filter keep).map (·.1)).Nodup :=
  hd.sublist (List.filter_sublist.map _)

/-! Ways. -/

lemma follow_append {dir : Path} {parts : List Text} {m : Node} (rest : List Text)
    (h : d.follow dir n parts = .ok m) :
    d.follow dir n (parts ++ rest) = d.follow (dir ++ parts.flatMap (slash :: ·)) m rest := by
  induction parts generalizing dir n with
  | nil =>
    obtain rfl : n = m := Except.ok.inj h
    simp
  | cons name parts ih =>
    cases n with
    | file x => simp [follow] at h
    | directory =>
      simp only [List.cons_append, follow] at h ⊢
      split at h
      · cases h
      · next hlen =>
        rw [if_neg hlen]
        cases hnext : d.get? (dir ++ slash :: name) with
        | none => simp [hnext] at h
        | some m =>
          simp only [hnext] at h ⊢
          simpa using ih h

/-- A way that is blocked leads nowhere further. -/
lemma follow_append_error {dir : Path} {parts : List Text} {o : Obstacle} (rest : List Text)
    (h : d.follow dir n parts = .error o) : d.follow dir n (parts ++ rest) = .error o := by
  induction parts generalizing dir n with
  | nil => cases h
  | cons name parts ih =>
    cases n with
    | file x => exact h
    | directory =>
      simp only [List.cons_append, follow] at h ⊢
      split at h
      · next hlen => rwa [if_pos hlen]
      · next hlen =>
        rw [if_neg hlen]
        cases hnext : d.get? (dir ++ slash :: name) with
        | none => simpa [hnext] using h
        | some m =>
          simp only [hnext] at h ⊢
          exact ih h

/-- Along a way there are directories. -/
lemma follow_front {dir : Path} {front rest : List Text} (hrest : rest ≠ [])
    (h : d.follow dir .directory (front ++ rest) = .ok n) : d.follow dir .directory front = .ok .directory := by
  induction front generalizing dir with
  | nil => rfl
  | cons name front ih =>
    simp only [List.cons_append, follow] at h ⊢
    split at h
    · cases h
    · next hlen =>
      rw [if_neg hlen]
      cases hnext : d.get? (dir ++ slash :: name) with
      | none => simp [hnext] at h
      | some m =>
        simp only [hnext] at h ⊢
        cases m with
        | directory => exact ih h
        | file x =>
          obtain ⟨part, parts, heq⟩ := List.exists_cons_of_ne_nil (List.append_ne_nil_of_right_ne_nil front hrest)
          rw [heq] at h
          simp [follow] at h

lemma look_join (hD : D ≠ []) (hc : Plain c) (h : d.look D = .ok .directory) :
    d.look (join D c) = d.follow (key D) .directory [c] := by
  unfold look key
  rw [components_join_plain hD hc]
  exact follow_append [c] h

lemma key_join_eq_append (hD : D ≠ []) (hc : Plain c) : key (join D c) = key D ++ slash :: c := by
  unfold key
  rw [components_join_plain hD hc, List.flatMap_append]
  simp

lemma look_join_of_get? (hD : D ≠ []) (hc : Plain c) (hlen : c.length ≤ nameLimit) (h : d.look D = .ok .directory)
    (hget : d.get? (key (join D c)) = some n) : d.look (join D c) = .ok n := by
  rw [key_join_eq_append hD hc] at hget
  rw [look_join hD hc h]
  simp [follow, hlen, hget]

lemma look_join_of_get?_eq_none (hD : D ≠ []) (hc : Plain c) (hlen : c.length ≤ nameLimit)
    (h : d.look D = .ok .directory) (hget : d.get? (key (join D c)) = none) :
    d.look (join D c) = .error .noEntry := by
  rw [key_join_eq_append hD hc] at hget
  rw [look_join hD hc h]
  simp [follow, hlen, hget]

/-- What lies in a directory says that the directory is there. -/
lemma look_of_look_join (hD : D ≠ []) (hc : Plain c) (h : d.look (join D c) = .ok n) : d.look D = .ok .directory := by
  unfold look at h
  rw [components_join_plain hD hc] at h
  exact follow_front (List.cons_ne_nil c []) h

/-- What is stored at a path is still found there, whatever it is now. -/
lemma look_of_get? (hdirs : ∀ k, d.get? k = some .directory → d'.get? k = some .directory) {m : Node}
    (hp : p.components ≠ []) (h : d.look p = .ok m) (hget : d'.get? (key p) = some n) : d'.look p = .ok n :=
  follow_of_get? hp hdirs hget h

lemma look_directory (hdirs : ∀ k, d.get? k = some .directory → d'.get? k = some .directory)
    (h : d.look p = .ok .directory) : d'.look p = .ok .directory := by
  by_cases hp : p.components = []
  · simp [look, hp, follow]
  · exact look_of_get? hdirs hp h (hdirs _ (get?_of_look hp h))

lemma members_perm (d : Disk) (p : Path) :
    (d.members p).Perm ((d.nodes.filter fun e => isChildOf p.clean e.1).map fun e => e.2.listed (base e.1)) := by
  refine (List.stableSort_perm _ _).trans (.of_eq (List.map_congr_left ?_))
  rintro ⟨q, n⟩ -
  cases n <;> rfl

/-! Changes. -/

lemma follow_makeDirsFrom {dir : Path} {parts : List Text} (h : d.makeDirsFrom dir parts = .ok d') :
    d'.follow dir .directory parts = .ok .directory := by
  induction parts generalizing d dir with
  | nil => rfl
  | cons name rest ih =>
    unfold makeDirsFrom at h
    simp only at h
    split at h
    · cases h
    · next hlen =>
      unfold follow
      simp only [if_neg hlen]
      split at h
      · cases h
      · next hnext =>
        rw [(makeDirsFrom_spec h).1 _ _ hnext]
        exact ih h
      · have hnext : (d.set (dir ++ slash :: name) .directory).get? (dir ++ slash :: name) = some .directory := by
          rw [get?_set, if_pos rfl]
        rw [(makeDirsFrom_spec h).1 _ _ hnext]
        exact ih h

lemma look_makeDirs (h : d.makeDirs p = .ok d') : d'.look p = .ok .directory := follow_makeDirsFrom h

/-- What making directories adds are directories on the way. -/
lemma of_get?_makeDirsFrom {dir : Path} {parts : List Text} (h : d.makeDirsFrom dir parts = .ok d')
    (hget : d'.get? q = some n) (hnone : d.get? q = none) :
    ∃ front, front <+: parts ∧ front ≠ [] ∧ q = dir ++ front.flatMap (slash :: ·) := by
  induction parts generalizing d dir with
  | nil =>
    obtain rfl : d = d' := Except.ok.inj h
    rw [hnone] at hget
    cases hget
  | cons name rest ih =>
    have hlater : ∀ front, front <+: rest ∧ front ≠ [] ∧ q = (dir ++ slash :: name) ++ front.flatMap (slash :: ·) →
        ∃ front, front <+: name :: rest ∧ front ≠ [] ∧ q = dir ++ front.flatMap (slash :: ·) := by
      rintro front ⟨hfront, -, rfl⟩
      exact ⟨name :: front, by simpa using hfront, by simp, by simp⟩
    unfold makeDirsFrom at h
    simp only at h
    split at h
    · cases h
    · split at h
      · cases h
      · obtain ⟨front, hfront⟩ := ih h hnone
        exact hlater front hfront
      · by_cases hq : q = dir ++ slash :: name
        · exact ⟨[name], by simp, by simp, by simpa using hq⟩
        · have hnone' : (d.set (dir ++ slash :: name) .directory).get? q = none := by
            rw [get?_set, if_neg hq, hnone]
          obtain ⟨front, hfront⟩ := ih h hnone'
          exact hlater front hfront

lemma nodup_makeDirsFrom {dir : Path} {parts : List Text} (hd : (d.nodes.map (·.1)).Nodup)
    (h : d.makeDirsFrom dir parts = .ok d') : (d'.nodes.map (·.1)).Nodup := by
  induction parts generalizing d dir with
  | nil =>
    obtain rfl : d = d' := Except.ok.inj h
    exact hd
  | cons name rest ih =>
    unfold makeDirsFrom at h
    simp only at h
    split at h
    · cases h
    · split at h
      · cases h
      · exact ih hd h
      · exact ih (nodup_set hd _ _) h

namespace Proper

/-- A path at which something is stored. -/
lemma path (hd : d.Proper) (h : d.get? q = some n) (hq : q ≠ []) :
    q.clean = q ∧ q.isAbs = true ∧ q.components ≠ [] := by
  have hkey := hd.key_eq q n h
  have hne : q.components ≠ [] := by
    intro hnil
    rw [key, hnil] at hkey
    exact hq hkey.symm
  obtain ⟨c, rest, hc⟩ := List.exists_cons_of_ne_nil hne
  have hkey' : q = ofComponents true q.components := by
    conv_lhs => rw [← hkey]
    rw [key, hc, flatMap_slash_eq_joinWith]
    rfl
  have habs : q.isAbs = true := by
    rw [hkey']
    rfl
  exact ⟨by rw [clean_eq_ofComponents, habs, ← hkey'], habs, hne⟩

lemma of_change (hd : d.Proper) (hnodup : (d'.nodes.map (·.1)).Nodup)
    (hdirs : ∀ k, d.get? k = some .directory → d'.get? k = some .directory)
    (hnew : ∀ q n, d'.get? q = some n → d.get? q = none → key q = q ∧ d'.look q = .ok n) : d'.Proper := by
  have hold : ∀ q n m, d'.get? q = some n → d.get? q = some m → d'.look q = .ok n := by
    intro q n m hget hget'
    by_cases hq : q.components = []
    · have hkey := hd.key_eq q m hget'
      obtain rfl : q = [] := by rw [← hkey, key, hq]; rfl
      have hroot := hd.look [] m hget'
      obtain rfl : m = .directory := (Except.ok.inj hroot).symm
      rw [hdirs _ hget'] at hget
      obtain rfl := Option.some.inj hget
      rfl
    · exact look_of_get? hdirs hq (hd.look q m hget') ((hd.key_eq q m hget').symm ▸ hget)
  constructor
  · exact hnodup
  · intro q n hget
    cases hget' : d.get? q with
    | none => exact (hnew q n hget hget').1
    | some m => exact hd.key_eq q m hget'
  · intro q n hget
    cases hget' : d.get? q with
    | none => exact (hnew q n hget hget').2
    | some m => exact hold q n m hget hget'

lemma makeDirs (hd : d.Proper) (hp : p.isAbs = true) (h : d.makeDirs p = .ok d') : d'.Proper := by
  refine hd.of_change (nodup_makeDirsFrom hd.nodup h) (fun k hk => (makeDirsFrom_spec h).1 k _ hk) ?_
  intro q n hget hnone
  obtain ⟨front, hfront, hne, hq⟩ := of_get?_makeDirsFrom h hget hnone
  obtain ⟨rest, hrest⟩ := hfront
  have hcomponents : q.components = front := by
    rw [hq, List.nil_append]
    exact components_flatMap_slash fun c hc => plain_of_mem_components hp c (hrest ▸ List.mem_append_left rest hc)
  have hlook : d'.look q = .ok .directory := by
    have hway := look_makeDirs h
    unfold Disk.look at hway ⊢
    rw [hcomponents]
    rw [← hrest] at hway
    by_cases hlast : rest = []
    · rwa [hlast, List.append_nil] at hway
    · exact follow_front hlast hway
  have hkey : key q = q := by
    rw [key, hcomponents, hq]
    rfl
  refine ⟨hkey, ?_⟩
  have hdir := get?_of_look (hcomponents ▸ hne) hlook
  rw [hkey, hget] at hdir
  rw [hlook, Option.some.inj hdir]

lemma write (hd : d.Proper) (hp : key p = p) (h : d.write p data = .ok d') : d'.Proper := by
  have hread := read_write_self h
  obtain ⟨heq, -⟩ := write_spec h
  refine hd.of_change (heq ▸ nodup_set hd.nodup _ _) (directories_write h) ?_
  intro q n hget hnone
  rw [heq, get?_set] at hget
  split at hget
  · next hq =>
    obtain rfl := Option.some.inj hget
    rw [hq, hp]
    exact ⟨hp, read_eq_content_iff.mp hread⟩
  · rw [hnone] at hget
    cases hget

lemma remove (hd : d.Proper) (hp : d.read p = .content data) (h : d.remove p = .ok d') : d'.Proper := by
  obtain ⟨heq, hdir⟩ := remove_spec hp h
  have hkeeps : d.Keeps d' fun x => key x = key p := keeps_remove hp h fun _ hx => hx
  refine hd.of_change (heq ▸ nodup_filter hd.nodup _) hkeeps.directory ?_
  intro q n hget hnone
  rw [heq, get?_filter_ne] at hget
  split at hget
  · cases hget
  · rw [hnone] at hget
    cases hget

/-! Members. -/

/-- What lies in a directory is stored under a plain name in it. -/
lemma isChildOf_iff (hd : d.Proper) (hD : D.isAbs = true) (h : d.get? q = some n) :
    isChildOf D.clean q = true ↔ ∃ c, Plain c ∧ q = join D c := by
  have hD' : D.clean.isAbs = true := (isAbs_clean D).trans hD
  simp only [isChildOf, Bool.and_eq_true, decide_eq_true_eq]
  constructor
  · rintro ⟨-, hdir⟩
    have hq : q ≠ [] := by
      rintro rfl
      rw [← hdir] at hD'
      exact absurd hD' (by decide)
    obtain ⟨hqclean, hqabs, hqne⟩ := hd.path h hq
    obtain ⟨D', c, hclean', -, hc, rfl⟩ := exists_eq_join hqclean hqabs hqne
    rw [dir_join hclean' hc] at hdir
    exact ⟨c, hc, by rw [hdir, join_clean hD hc]⟩
  · rintro ⟨c, hc, rfl⟩
    rw [← join_clean hD hc]
    refine ⟨fun he => ?_, dir_join (clean_clean D) hc⟩
    have hcomponents := components_join_plain (ne_nil_of_isAbs hD') hc
    rw [he] at hcomponents
    simp at hcomponents

lemma mem_members_iff (hd : d.Proper) (hD : D.isAbs = true) {l : Listed} :
    l ∈ d.members D ↔ ∃ c n, Plain c ∧ d.get? (join D c) = some n ∧ l = n.listed c := by
  rw [(members_perm d D).mem_iff, List.mem_map]
  simp only [List.mem_filter]
  constructor
  · rintro ⟨⟨q, n⟩, ⟨hmem, hchild⟩, rfl⟩
    have hget := (get?_eq_some_iff hd.nodup).mpr hmem
    obtain ⟨c, hc, rfl⟩ := (hd.isChildOf_iff hD hget).mp hchild
    exact ⟨c, n, hc, hget, by rw [base_join hc]⟩
  · rintro ⟨c, n, hc, hget, rfl⟩
    have hchild := (hd.isChildOf_iff hD hget).mpr ⟨c, hc, rfl⟩
    exact ⟨(join D c, n), ⟨(get?_eq_some_iff hd.nodup).mp hget, hchild⟩, by rw [base_join hc]⟩

/-- No two members of a directory have one name. -/
lemma nodup_members (hd : d.Proper) (hD : D.isAbs = true) :
    ((d.members D).map (·.name)).Nodup := by
  rw [((members_perm d D).map _).nodup_iff, List.map_map]
  refine List.Nodup.map_on ?_ (hd.nodup.of_map.filter _)
  rintro ⟨q, n⟩ hq ⟨q', n'⟩ hq' hname
  rw [List.mem_filter] at hq hq'
  obtain ⟨c, hc, rfl⟩ := (hd.isChildOf_iff hD ((get?_eq_some_iff hd.nodup).mpr hq.1)).mp hq.2
  obtain ⟨c', hc', rfl⟩ := (hd.isChildOf_iff hD ((get?_eq_some_iff hd.nodup).mpr hq'.1)).mp hq'.2
  have hbase : base (join D c) = base (join D c') := by
    cases n <;> cases n' <;> exact hname
  rw [base_join hc, base_join hc'] at hbase
  subst hbase
  exact List.inj_on_of_nodup_map hd.nodup hq.1 hq'.1 rfl

end Proper

end Disk

end DeclPieces
