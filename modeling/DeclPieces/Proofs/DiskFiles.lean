import DeclPieces.Backup
import DeclPieces.Proofs.Decomposition
import DeclPieces.Proofs.Emission
import DeclPieces.Storage.Disk

/-! What changes to a disk leave as it was. A change at one path does not reach the file at another. -/
namespace DeclPieces.Disk
open DeclPieces.Path
variable {d d' : Disk} {p q : Path} {data other : Text}

lemma get?_set (d : Disk) (k name : Path) (n : Node) :
    (d.set k n).get? name = if name = k then some n else d.get? name := by
  unfold set
  split
  · next hs =>
    obtain ⟨old, ho⟩ := Option.isSome_iff_exists.mp hs
    unfold get? at ho ⊢
    rw [lookup_map_replace]
    split
    · next he => simp [he, ho]
    · rfl
  · next hs =>
    have hn : d.nodes.lookup k = none := Option.not_isSome_iff_eq_none.mp hs
    unfold get?
    rw [List.lookup_append]
    split
    · next he => simp [he, hn]
    · next he =>
      have hb : (name == k) = false := by simpa using he
      simp [List.lookup_cons, hb]

lemma get?_filter_ne (d : Disk) (k name : Path) :
    ({ d with nodes := d.nodes.filter (·.1 ≠ k) } : Disk).get? name = if name = k then none else d.get? name := by
  unfold get?
  simp only
  induction d.nodes with
  | nil => simp
  | cons entry rest ih =>
    obtain ⟨r, n⟩ := entry
    by_cases hr : r = k
    · subst hr
      by_cases hn : name = r
      · simpa [hn] using ih
      · have hb : (name == r) = false := by simpa using hn
        simpa [hn, List.lookup_cons, hb] using ih
    · by_cases hn : name = r
      · subst hn
        simp [hr]
      · have hb : (name == r) = false := by simpa using hn
        simpa [hr, List.lookup_cons, hb] using ih

lemma flatMap_slash_eq_joinWith (part : Text) (rest : List Text) :
    (part :: rest).flatMap (slash :: ·) = slash :: Text.joinWith [slash] (part :: rest) := by
  induction rest generalizing part with
  | nil => simp [Text.joinWith]
  | cons next rest ih => simp [Text.joinWith, ← ih next]

/-- Names after slashes are told apart again by splitting at the slashes. -/
lemma splitBy_flatMap_slash {parts : List Text} (h : ∀ part ∈ parts, slash ∉ part) :
    Text.splitBy slash (parts.flatMap (slash :: ·)) = [] :: parts := by
  cases parts with
  | nil => rfl
  | cons part rest => rw [flatMap_slash_eq_joinWith, Text.splitBy_cons_sep, Text.splitBy_joinWith (by simp) h]

lemma slash_not_mem_components (p : Path) : ∀ part ∈ p.components, slash ∉ part := fun part hp =>
  ((resolved_components p).not_slash part (by simpa using hp)).2

/-- What is stored under the name of a path has the components of the path. -/
lemma eq_components_of_flatMap_eq_key {parts : List Text} (hparts : ∀ part ∈ parts, slash ∉ part)
    (h : parts.flatMap (slash :: ·) = key p) : parts = p.components := by
  have hsplit := congrArg (Text.splitBy slash) h
  unfold key at hsplit
  rw [splitBy_flatMap_slash hparts, splitBy_flatMap_slash (slash_not_mem_components p)] at hsplit
  exact (List.cons.inj hsplit).2

lemma components_eq_of_key_eq (h : key p = key q) : p.components = q.components :=
  eq_components_of_flatMap_eq_key (slash_not_mem_components p) h

/-- What is found at the end of a way is what is stored there. -/
lemma get?_of_follow {dir : Path} {parts : List Text} {n : Node} (hne : parts ≠ [])
    (h : d.follow dir .directory parts = .ok n) : d.get? (dir ++ parts.flatMap (slash :: ·)) = some n := by
  induction parts generalizing dir with
  | nil => exact absurd rfl hne
  | cons name rest ih =>
    unfold follow at h
    simp only at h
    split at h
    · cases h
    · split at h
      · next next hnext =>
        cases rest with
        | nil =>
          obtain rfl : next = n := by simpa [follow] using h
          simpa using hnext
        | cons name' rest' =>
          cases next with
          | file x => simp [follow] at h
          | directory =>
            have hrest := ih (by simp) h
            simpa using hrest
      · cases h

/-- Nothing is stored at the end of a way that is missing there and nowhere before. -/
lemma get?_of_follow_noEntry {dir : Path} {parts : List Text} (h : d.follow dir .directory parts = .error .noEntry)
    (hparent : d.follow dir .directory parts.dropLast = .ok .directory) :
    d.get? (dir ++ parts.flatMap (slash :: ·)) = none := by
  induction parts generalizing dir with
  | nil => simp [follow] at h
  | cons name rest ih =>
    unfold follow at h
    simp only at h
    split at h
    · cases h
    · next hlen =>
      cases hnext : d.get? (dir ++ slash :: name) with
      | none =>
        cases rest with
        | nil => simpa using hnext
        | cons name' rest' =>
          rw [List.dropLast_cons_cons, follow] at hparent
          simp [hlen, hnext] at hparent
      | some n =>
        rw [hnext] at h
        cases rest with
        | nil => simp [follow] at h
        | cons name' rest' =>
          cases n with
          | file x => simp [follow] at h
          | directory =>
            rw [List.dropLast_cons_cons, follow] at hparent
            simp only [hlen, if_false, hnext] at hparent
            simpa using ih h hparent

/-- A way leads to what is there now, if all directories are still there. -/
lemma follow_of_get? {dir : Path} {parts : List Text} {n n' : Node} (hne : parts ≠ [])
    (hdirs : ∀ k, d.get? k = some .directory → d'.get? k = some .directory)
    (hlast : d'.get? (dir ++ parts.flatMap (slash :: ·)) = some n') (h : d.follow dir .directory parts = .ok n) :
    d'.follow dir .directory parts = .ok n' := by
  induction parts generalizing dir with
  | nil => exact absurd rfl hne
  | cons name rest ih =>
    unfold follow at h ⊢
    simp only at h ⊢
    split at h
    · cases h
    · next hlen =>
      rw [if_neg hlen]
      split at h
      · next next hnext =>
        cases rest with
        | nil =>
          have hthere : d'.get? (dir ++ slash :: name) = some n' := by simpa using hlast
          rw [hthere]
          rfl
        | cons name' rest' =>
          cases next with
          | file x => simp [follow] at h
          | directory =>
            rw [hdirs _ hnext]
            exact ih (by simp) (by simpa using hlast) h
      · cases h

/-- A way that is missing only at its end leads to the file that is put there. -/
lemma follow_of_noEntry {dir : Path} {parts : List Text}
    (hdirs : ∀ k, d.get? k = some .directory → d'.get? k = some .directory)
    (hlast : d'.get? (dir ++ parts.flatMap (slash :: ·)) = some (.file other))
    (h : d.follow dir .directory parts = .error .noEntry)
    (hparent : d.follow dir .directory parts.dropLast = .ok .directory) :
    d'.follow dir .directory parts = .ok (.file other) := by
  induction parts generalizing dir with
  | nil => simp [follow] at h
  | cons name rest ih =>
    unfold follow at h ⊢
    simp only at h ⊢
    split at h
    · cases h
    · next hlen =>
      rw [if_neg hlen]
      cases rest with
      | nil =>
        have hfile : d'.get? (dir ++ slash :: name) = some (.file other) := by simpa using hlast
        rw [hfile]
        rfl
      | cons name' rest' =>
        rw [List.dropLast_cons_cons, follow] at hparent
        simp only [hlen, if_false] at hparent
        cases hnext : d.get? (dir ++ slash :: name) with
        | none => simp [hnext] at hparent
        | some n =>
          rw [hnext] at h hparent
          cases n with
          | file x => simp [follow] at h
          | directory =>
            rw [hdirs _ hnext]
            exact ih (by simpa using hlast) h hparent

/-- Following a way only sees what is stored along it. -/
lemma follow_congr {dir : Path} {n : Node} {parts : List Text}
    (h : ∀ front, front <+: parts → front ≠ [] →
      d'.get? (dir ++ front.flatMap (slash :: ·)) = d.get? (dir ++ front.flatMap (slash :: ·))) :
    d'.follow dir n parts = d.follow dir n parts := by
  induction parts generalizing dir n with
  | nil => rfl
  | cons name rest ih =>
    have hnext : d'.get? (dir ++ slash :: name) = d.get? (dir ++ slash :: name) := by
      simpa using h [name] (by simp) (by simp)
    unfold follow
    cases n with
    | file x => rfl
    | directory =>
      simp only [hnext]
      cases d.get? (dir ++ slash :: name) with
      | none => rfl
      | some m =>
        have hrest : d'.follow (dir ++ slash :: name) m rest = d.follow (dir ++ slash :: name) m rest := by
          refine ih fun front hf hne => ?_
          simpa using h (name :: front) (by simpa using hf) (by simp)
        simp only [hrest]

lemma read_eq_content_iff : d.read p = .content data ↔ d.look p = .ok (.file data) := by
  unfold read
  cases hl : d.look p with
  | ok n => cases n <;> simp
  | error o => cases o <;> simp [refusal]

lemma components_ne_nil_of_look (h : d.look p = .ok (.file data)) : p.components ≠ [] := by
  intro hc
  simp [look, hc, follow] at h

lemma get?_of_look {n : Node} (hne : p.components ≠ []) (h : d.look p = .ok n) : d.get? (key p) = some n :=
  get?_of_follow hne h

/-- A file is still read where it was, if all directories are still there. -/
lemma read_of_get? (hdirs : ∀ k, d.get? k = some .directory → d'.get? k = some .directory)
    (hfile : d'.get? (key p) = some (.file other)) (h : d.read p = .content data) : d'.read p = .content other := by
  rw [read_eq_content_iff] at h ⊢
  exact follow_of_get? (components_ne_nil_of_look h) hdirs hfile h

/-- The content of the file stored at a path, whether or not a way leads there. -/
def stored? (d : Disk) (p : Path) : Option Text :=
  match d.get? (key p) with
  | some (.file data) => some data
  | _ => none

lemma stored?_eq_some_iff : d.stored? p = some data ↔ d.get? (key p) = some (.file data) := by
  unfold stored?
  split
  · next x hx => simp [hx]
  · next hx =>
    constructor
    · simp
    · exact fun h => absurd h (hx data)

lemma stored?_of_read (h : d.read p = .content data) : d.stored? p = some data := by
  rw [read_eq_content_iff] at h
  exact stored?_eq_some_iff.mpr (get?_of_look (components_ne_nil_of_look h) h)

/-- Two ways to write a path name the same file. -/
lemma stored?_congr (h : key p = key q) : d.stored? p = d.stored? q := by
  unfold stored?
  rw [h]

/-- Making directories adds directories and changes nothing else. -/
lemma makeDirsFrom_spec {dir : Path} {parts : List Text} (h : d.makeDirsFrom dir parts = .ok d') :
    (∀ k n, d.get? k = some n → d'.get? k = some n) ∧
      ∀ k data, d'.get? k = some (.file data) → d.get? k = some (.file data) := by
  induction parts generalizing d dir with
  | nil =>
    obtain rfl : d = d' := Except.ok.inj h
    exact ⟨fun _ _ hk => hk, fun _ _ hk => hk⟩
  | cons name rest ih =>
    unfold makeDirsFrom at h
    simp only at h
    split at h
    · cases h
    · split at h
      · cases h
      · exact ih h
      · next hnone =>
        obtain ⟨hkeep, hfiles⟩ := ih h
        constructor
        · intro k n hk
          refine hkeep k n ?_
          rw [get?_set, if_neg, hk]
          rintro rfl
          rw [hnone] at hk
          cases hk
        · intro k data hk
          have hset := hfiles k data hk
          rw [get?_set] at hset
          split at hset
          · cases hset
          · exact hset

lemma write_spec (h : d.write p data = .ok d') :
    d' = d.set (key p) (.file data) ∧ d.get? (key p) ≠ some .directory := by
  unfold write at h
  split at h
  · cases h
  · next x hl =>
    obtain rfl := Except.ok.inj h
    exact ⟨rfl, by simp [get?_of_look (components_ne_nil_of_look hl) hl]⟩
  · next hl =>
    split at h
    · next hparent =>
      obtain rfl := Except.ok.inj h
      refine ⟨rfl, ?_⟩
      have hnone : d.get? (key p) = none := get?_of_follow_noEntry hl hparent
      simp [hnone]
    · cases h
    · cases h
  · cases h

lemma remove_eq (h : d.remove p = .ok d') : d' = { d with nodes := d.nodes.filter (·.1 ≠ key p) } := by
  unfold remove at h
  split at h
  · cases h
  · split at h
    · exact (Except.ok.inj h).symm
    · cases h
  · exact (Except.ok.inj h).symm

lemma remove_spec (hr : d.read p = .content other) (h : d.remove p = .ok d') :
    d' = { d with nodes := d.nodes.filter (·.1 ≠ key p) } ∧ d.get? (key p) ≠ some .directory := by
  rw [read_eq_content_iff] at hr
  exact ⟨remove_eq h, by simp [get?_of_look (components_ne_nil_of_look hr) hr]⟩

section Frames
variable {except except' : Path → Prop}

/-- From the first disk to the second no directory goes, and no file changes but those for which `except` holds. -/
structure Keeps (d d' : Disk) (except : Path → Prop) : Prop where
  directory : ∀ k, d.get? k = some .directory → d'.get? k = some .directory
  stored?_eq : ∀ x, ¬ except x → d'.stored? x = d.stored? x

lemma keeps_rfl : d.Keeps d except := ⟨fun _ hk => hk, fun _ _ => rfl⟩

lemma Keeps.trans {d₁ : Disk} (h : d.Keeps d₁ except) (h' : d₁.Keeps d' except) : d.Keeps d' except :=
  ⟨fun k hk => h'.directory k (h.directory k hk), fun x hx => (h'.stored?_eq x hx).trans (h.stored?_eq x hx)⟩

lemma Keeps.mono (h : d.Keeps d' except) (himp : ∀ x, except x → except' x) : d.Keeps d' except' :=
  ⟨h.directory, fun x hx => h.stored?_eq x fun hex => hx (himp x hex)⟩

/-- The other files can still be read. -/
lemma Keeps.read (h : d.Keeps d' except) (hq : ¬ except q) (hr : d.read q = .content data) :
    d'.read q = .content data := by
  refine read_of_get? h.directory ?_ hr
  rw [← stored?_eq_some_iff, h.stored?_eq q hq]
  exact stored?_of_read hr

lemma stored?_makeDirs (h : d.makeDirs p = .ok d') (hs : d'.stored? q = some data) : d.stored? q = some data :=
  stored?_eq_some_iff.mpr ((makeDirsFrom_spec h).2 _ _ (stored?_eq_some_iff.mp hs))

lemma stored?_makeDirs_eq (h : d.makeDirs p = .ok d') (q : Path) : d'.stored? q = d.stored? q := by
  refine Option.ext fun data => ⟨stored?_makeDirs h, fun hs => ?_⟩
  exact stored?_eq_some_iff.mpr ((makeDirsFrom_spec h).1 _ _ (stored?_eq_some_iff.mp hs))

lemma keeps_makeDirs (h : d.makeDirs p = .ok d') : d.Keeps d' except :=
  ⟨fun k hk => (makeDirsFrom_spec h).1 k _ hk, fun x _ => stored?_makeDirs_eq h x⟩

lemma read_makeDirs (h : d.makeDirs p = .ok d') (hr : d.read q = .content data) : d'.read q = .content data :=
  Keeps.read (keeps_makeDirs h : d.Keeps d' fun _ => False) not_false hr

lemma directories_write (h : d.write p other = .ok d') (k : Path) (hk : d.get? k = some .directory) :
    d'.get? k = some .directory := by
  obtain ⟨rfl, hdir⟩ := write_spec h
  rw [get?_set, if_neg, hk]
  rintro rfl
  exact hdir hk

lemma stored?_write (h : d.write p other = .ok d') (q : Path) :
    d'.stored? q = if key q = key p then some other else d.stored? q := by
  obtain ⟨rfl, -⟩ := write_spec h
  unfold stored?
  rw [get?_set]
  by_cases hq : key q = key p <;> simp [hq]

lemma keeps_write (h : d.write p other = .ok d') (hp : ∀ x, key x = key p → except x) : d.Keeps d' except :=
  ⟨directories_write h, fun x hx => by rw [stored?_write h, if_neg fun hkey => hx (hp x hkey)]⟩

lemma read_write (h : d.write p other = .ok d') (hne : key q ≠ key p) (hr : d.read q = .content data) :
    d'.read q = .content data :=
  Keeps.read (keeps_write h fun _ hx => hx) hne hr

/-- What is written can be read. -/
lemma read_write_self (h : d.write p other = .ok d') : d'.read p = .content other := by
  have hdirs := directories_write h
  have hfile : d'.get? (key p) = some (.file other) := by
    obtain ⟨rfl, -⟩ := write_spec h
    rw [get?_set, if_pos rfl]
  unfold write at h
  split at h
  · cases h
  · next x hl => exact read_of_get? hdirs hfile (read_eq_content_iff.mpr hl)
  · next hl =>
    split at h
    · next hparent => exact read_eq_content_iff.mpr (follow_of_noEntry hdirs hfile hl hparent)
    · cases h
    · cases h
  · cases h

/-- What is written where nothing is found is a new file. -/
lemma stored?_of_look_error {o : Obstacle} (hl : d.look p = .error o) (h : d.write p data = .ok d') :
    d.stored? p = none := by
  unfold write at h
  rw [hl] at h
  cases o with
  | noEntry =>
    simp only at h
    split at h
    · next hparent =>
      have hnone : d.get? (key p) = none := get?_of_follow_noEntry hl hparent
      simp [stored?, hnone]
    · cases h
    · cases h
  | _ => cases h

lemma keeps_remove (hp : d.read p = .content other) (h : d.remove p = .ok d') (hx : ∀ x, key x = key p → except x) :
    d.Keeps d' except := by
  obtain ⟨rfl, hdir⟩ := remove_spec hp h
  refine ⟨fun k hk => ?_, fun x hnot => ?_⟩
  · rw [get?_filter_ne, if_neg, hk]
    rintro rfl
    exact hdir hk
  · unfold stored?
    rw [get?_filter_ne, if_neg fun hkey => hnot (hx x hkey)]

lemma read_remove (hp : d.read p = .content other) (h : d.remove p = .ok d') (hne : key q ≠ key p)
    (hr : d.read q = .content data) : d'.read q = .content data :=
  Keeps.read (keeps_remove hp h fun _ hx => hx) hne hr

/-- Removing what is neither at a path nor above it changes nothing for the path. -/
lemma read_remove_of_not_above (h : d.remove p = .ok d') (hnot : ¬ p.components <+: q.components) :
    d'.read q = d.read q := by
  obtain rfl := remove_eq h
  unfold read look
  rw [follow_congr]
  intro front hfront hne
  rw [get?_filter_ne, if_neg]
  intro hkey
  have hslash : ∀ part ∈ front, slash ∉ part := fun part hp => slash_not_mem_components q part (hfront.subset hp)
  rw [List.nil_append] at hkey
  rw [eq_components_of_flatMap_eq_key hslash hkey] at hfront
  exact hnot hfront

lemma stored?_remove (hp : d.read p = .content other) (h : d.remove p = .ok d') (hs : d'.stored? q = some data) :
    d.stored? q = some data := by
  obtain ⟨rfl, -⟩ := remove_spec hp h
  rw [stored?_eq_some_iff, get?_filter_ne] at hs
  split at hs
  · cases hs
  · exact stored?_eq_some_iff.mpr hs

/-- Two ways to write a path lead to the same file. -/
lemma read_congr (h : key p = key q) : d.read p = .content data ↔ d.read q = .content data := by
  rw [read_eq_content_iff, read_eq_content_iff, look, look, components_eq_of_key_eq h]

end Frames

section Pieces
variable {text : Text} {ps : List Piece}

/-- Writing pieces changes no file at another place. -/
lemma stored?_writePieces (h : ∀ r ∈ ps, key q ≠ key r.path) : (writePieces text ps d).2.stored? q = d.stored? q := by
  refine writePieces_preserves (P := fun s => s.stored? q = d.stored? q) ?_ ps ?_ d rfl
  · intro s s' path hm hs
    rw [stored?_makeDirs_eq hm, hs]
  · intro r hr content s s' _ hw hs
    rw [stored?_write hw, if_neg (h r hr), hs]

/-- A file stays as it is if no piece, or only the same, is written at its place. -/
lemma read_writePieces (h : ∀ r ∈ ps, key q = key r.path → r.render? text = some data) (hr : d.read q = .content data) :
    (writePieces text ps d).2.read q = .content data := by
  refine writePieces_preserves (P := fun s => s.read q = .content data) ?_ ps ?_ d hr
  · exact fun s s' path hm hs => read_makeDirs hm hs
  · intro r hmem content s s' hrender hw hs
    by_cases hkey : key q = key r.path
    · obtain rfl : content = data := Option.some.inj (hrender.symm.trans (h r hmem hkey))
      exact (read_congr hkey).mpr (read_write_self hw)
    · exact read_write hw hkey hs

/-- Pieces at places of their own can all be read. -/
lemma read_of_writePieces_eq_ok (hp : ps.Pairwise fun r q => key r.path ≠ key q.path)
    (h : writePieces text ps d = (.ok [], d')) :
    ∀ r ∈ ps, ∃ content, r.render? text = some content ∧ d'.read r.path = .content content := by
  induction ps generalizing d with
  | nil => simp
  | cons r rest ih =>
    rw [List.pairwise_cons] at hp
    obtain ⟨d₁, hw, hrest⟩ := writePieces_cons_eq_ok h
    obtain ⟨d₀, content, -, hrender, hstore⟩ := Piece.write_eq_ok hw
    intro q hq
    rcases List.mem_cons.mp hq with rfl | hq
    · have hkept : (writePieces text rest d₁).2.read q.path = .content content :=
        read_writePieces (fun r hr he => absurd he (hp.1 r hr)) (read_write_self hstore)
      rw [hrest] at hkept
      exact ⟨content, hrender, hkept⟩
    · exact ih hp.2 hrest q hq

lemma stored?_of_writePieces_eq_ok (hp : ps.Pairwise fun r q => key r.path ≠ key q.path)
    (h : writePieces text ps d = (.ok [], d')) :
    ∀ r ∈ ps, ∃ content, r.render? text = some content ∧ d'.stored? r.path = some content := by
  intro r hr
  obtain ⟨content, hrender, hread⟩ := read_of_writePieces_eq_ok hp h r hr
  exact ⟨content, hrender, stored?_of_read hread⟩

end Pieces

section Copies
variable {b : Backups} {source text : Text}

lemma read_removeAll {entries : List Backup.Entry} (h : ∀ e ∈ entries, ¬ Path.components e.path <+: q.components) :
    (Backups.removeAll source entries d).2.2.read q = d.read q := by
  induction entries generalizing d with
  | nil => rfl
  | cons e rest ih =>
    unfold Backups.removeAll
    cases hr : Storage.remove d e.path with
    | error fault => rfl
    | ok d₁ =>
      have hrest := ih (d := d₁) fun e' he' => h e' (List.mem_cons_of_mem _ he')
      exact hrest.trans (read_remove_of_not_above hr (h e (by simp)))

/-- Copies are listed from the directory they are kept in. -/
lemma exists_of_mem_list {entries : List Backup.Entry} (h : b.list d source = .ok entries) :
    ∀ e ∈ entries, ∃ name, e.path = Path.join (b.sourceDir source) name := by
  intro e he
  unfold Backups.list at h
  simp only at h
  split at h
  · obtain rfl := Except.ok.inj h
    cases he
  · cases h
  · obtain rfl := Except.ok.inj h
    obtain ⟨l, -, hl⟩ := List.mem_filterMap.mp ((List.stableSort_perm _ _).mem_iff.mp he)
    unfold Backups.ofListed? at hl
    split at hl
    · cases hl
    · obtain ⟨at_, -, rfl⟩ := Option.map_eq_some_iff.mp hl
      exact ⟨l.name, rfl⟩

/-- Storing a copy, and removing old ones, leaves a file alone at or above which there is no copy. -/
lemma read_save (hq : ∀ name, ¬ (Path.join (b.sourceDir source) name).components <+: q.components) (now : Int)
    (h : d.read q = .content data) : (b.save source text now d).2.2.read q = .content data := by
  have hprune (d₁ : Disk) : (b.prune source d₁).2.read q = d₁.read q := by
    unfold Backups.prune
    simp only
    split
    · rfl
    · split
      · rfl
      · next entries hlist =>
        refine read_removeAll fun e he => ?_
        obtain ⟨name, hname⟩ := exists_of_mem_list hlist e (List.mem_of_mem_drop he)
        rw [hname]
        exact hq name
  unfold Backups.save
  simp only
  split
  · exact h
  · next d₁ hm =>
    have h₁ : d₁.read q = .content data := read_makeDirs hm h
    split
    · exact h₁
    · next d₂ hw =>
      have hne : key q ≠ key (Path.join (b.sourceDir source) (Text.ofInt now ++ Backup.suffix)) := by
        intro hkey
        have hc := components_eq_of_key_eq hkey
        exact hq (Text.ofInt now ++ Backup.suffix) (by simp [hc])
      exact (hprune d₂).trans (read_write hw hne h₁)

end Copies

end DeclPieces.Disk

namespace DeclPieces.Decomposition

/-- Different pieces of a file are stored at different places. -/
lemma keys_apart {f : SourceFile} {opts : Options} {d : Decomposition} (hd : f.decompose opts = .ok d) :
    d.pieces.Pairwise fun p q => Disk.key p.path ≠ Disk.key q.path := by
  obtain ⟨⟨rooted, hclean⟩, hdistinct⟩ := paths_apart hd
  refine hdistinct.imp_of_mem fun {p q} hp hq hne hkey => hne ?_
  calc p.path = Path.ofComponents (Path.isAbs p.path) (Path.components p.path) := (hclean p hp).1.symm
    _ = Path.ofComponents (Path.isAbs q.path) (Path.components q.path) := by
        rw [(hclean p hp).2, (hclean q hq).2, Disk.components_eq_of_key_eq hkey]
    _ = q.path := (hclean q hq).1

end DeclPieces.Decomposition
