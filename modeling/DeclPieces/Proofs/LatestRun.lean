import DeclPieces.Manifest.Database
import DeclPieces.Proofs.Success
import Mathlib.Data.List.Nodup

/-! The last run of a source in a manifest: it is the one recorded last as long as the clock does not go
back, dropping old runs leaves it, and the runs of other sources do not matter for it. -/
namespace DeclPieces.Manifest
variable {m m' : Manifest} {run : Run} {pieces : List RecordedPiece} {source : Text} {keep : Int}

/-- Is every run named once, and every piece that of a run? -/
structure Sound (m : Manifest) : Prop where
  ids : (m.runs.map (·.id)).Nodup
  pieces : ∀ q ∈ m.pieces, ∃ r ∈ m.runs, r.id = q.run

lemma repeated?_eq_none {seen : List Text} (h : repeated? seen pieces = none) :
    (pieces.map (·.path)).Nodup ∧ ∀ q ∈ pieces, q.path ∉ seen := by
  induction pieces generalizing seen with
  | nil => simp
  | cons q rest ih =>
    unfold repeated? at h
    split at h
    · cases h
    · next hq =>
      obtain ⟨hnodup, hnot⟩ := ih h
      refine ⟨?_, ?_⟩
      · refine List.nodup_cons.mpr ⟨?_, hnodup⟩
        intro hmem
        obtain ⟨r, hr, hpath⟩ := List.mem_map.mp hmem
        exact hnot r hr (by simp [hpath])
      · intro r hr
        rcases List.mem_cons.mp hr with rfl | hr
        · exact hq
        · exact fun hseen => hnot r hr (by simp [hseen])

/-- What recording a run adds: the run, under a new name, and its pieces, at different paths. -/
lemma record_eq_ok (h : m.record run pieces = .ok m') :
    (∀ r ∈ m.runs, r.id ≠ run.id) ∧ (pieces.map (·.path)).Nodup ∧
      m'.runs = m.runs ++ [run] ∧ m'.pieces = m.pieces ++ pieces.map fun q => { q with run := run.id } := by
  unfold record at h
  split at h
  · cases h
  · next hid =>
    split at h
    · cases h
    · next hrep =>
      obtain rfl := Except.ok.inj h
      refine ⟨?_, (repeated?_eq_none hrep).1, rfl, rfl⟩
      intro r hr he
      exact hid (List.any_eq_true.mpr ⟨r, hr, by simpa using he⟩)

lemma repeated?_of_nodup {seen : List Text} (h : (pieces.map (·.path)).Nodup) (hseen : ∀ q ∈ pieces, q.path ∉ seen) :
    repeated? seen pieces = none := by
  induction pieces generalizing seen with
  | nil => rfl
  | cons q rest ih =>
    rw [List.map_cons, List.nodup_cons] at h
    obtain ⟨hq, hrest⟩ := List.forall_mem_cons.mp hseen
    rw [repeated?, if_neg hq]
    refine ih h.2 fun r hr hmem => ?_
    rcases List.mem_cons.mp hmem with he | hmem
    · exact h.1 (he ▸ List.mem_map_of_mem hr)
    · exact hrest r hr hmem

/-- A run with a new name can be recorded if its pieces have names of their own. -/
lemma record_of_fresh (hid : ∀ r ∈ m.runs, r.id ≠ run.id) (h : (pieces.map (·.path)).Nodup) :
    ∃ m', m.record run pieces = .ok m' := by
  have hnew : ¬ m.runs.any (·.id = run.id) = true := by simpa using hid
  rw [record, if_neg hnew, repeated?_of_nodup h fun q _ => List.not_mem_nil]
  exact ⟨_, rfl⟩

lemma Sound.record (hs : m.Sound) (h : m.record run pieces = .ok m') : m'.Sound := by
  obtain ⟨hid, -, hruns, hpieces⟩ := record_eq_ok h
  constructor
  · rw [hruns, List.map_append, List.nodup_append]
    refine ⟨hs.ids, by simp, ?_⟩
    intro a ha b hb
    obtain ⟨r, hr, rfl⟩ := List.mem_map.mp ha
    rw [List.map_singleton, List.mem_singleton] at hb
    exact hb ▸ hid r hr
  · intro q hq
    rw [hpieces] at hq
    rw [hruns]
    rcases List.mem_append.mp hq with hq | hq
    · obtain ⟨r, hr, he⟩ := hs.pieces q hq
      exact ⟨r, List.mem_append_left _ hr, he⟩
    · obtain ⟨q', -, rfl⟩ := List.mem_map.mp hq
      exact ⟨run, by simp, rfl⟩

/-- The names of the runs that are dropped: those of runs of the source, and never that of the last one. -/
def stale (m : Manifest) (source : Text) (keep : Int) : List Text :=
  ((m.history source).drop (max keep 1).toNat).map (·.id)

lemma prune_runs : (m.prune source keep).1.runs = m.runs.filter fun r => !(m.stale source keep).contains r.id := rfl

lemma prune_pieces :
    (m.prune source keep).1.pieces = m.pieces.filter fun q => !(m.stale source keep).contains q.run := rfl

lemma mem_history {r : Run} : r ∈ m.history source ↔ r ∈ m.runs ∧ r.source = source := by
  unfold history
  rw [(List.stableSort_perm _ _).mem_iff, List.mem_reverse, List.mem_filter]
  simp

lemma Sound.nodup_history (hs : m.Sound) : ((m.history source).map (·.id)).Nodup := by
  have hperm : (m.history source).Perm (m.runs.filter (·.source = source)) :=
    (List.stableSort_perm _ _).trans (List.reverse_perm _)
  rw [(hperm.map _).nodup_iff]
  exact hs.ids.sublist (List.filter_sublist.map _)

/-- A name that is dropped is that of a run of the source. -/
lemma Sound.not_mem_stale_of_source (hs : m.Sound) {r : Run} (hr : r ∈ m.runs) (hne : r.source ≠ source) :
    r.id ∉ m.stale source keep := by
  intro hmem
  obtain ⟨r', hr', hid⟩ := List.mem_map.mp hmem
  obtain ⟨hruns, hsource⟩ := mem_history.mp (List.mem_of_mem_drop hr')
  obtain rfl : r' = r := List.inj_on_of_nodup_map hs.ids hruns hr hid
  exact hne hsource

lemma Sound.not_mem_stale_of_latest (hs : m.Sound) {r : Run} (hr : m.latest? source = some r) :
    r.id ∉ m.stale source keep := by
  unfold latest? at hr
  unfold stale
  have hnodup : ((m.history source).map (·.id)).Nodup := hs.nodup_history
  cases hh : m.history source with
  | nil => simp [hh] at hr
  | cons first rest =>
    obtain rfl : first = r := by simpa [hh] using hr
    rw [hh, List.map_cons, List.nodup_cons] at hnodup
    have hpos : ∃ n, (max keep 1).toNat = n + 1 := ⟨(max keep 1).toNat - 1, by omega⟩
    obtain ⟨n, hn⟩ := hpos
    rw [hn, List.drop_succ_cons]
    intro hmem
    exact hnodup.1 ((List.drop_sublist n rest).map _ |>.subset hmem)

lemma Sound.prune (hs : m.Sound) (source : Text) (keep : Int) : (m.prune source keep).1.Sound := by
  constructor
  · rw [prune_runs]
    exact hs.ids.sublist (List.filter_sublist.map _)
  · intro q hq
    rw [prune_pieces, List.mem_filter] at hq
    obtain ⟨r, hr, he⟩ := hs.pieces q hq.1
    refine ⟨r, ?_, he⟩
    rw [prune_runs, List.mem_filter, he]
    exact ⟨hr, hq.2⟩

/-- Of the runs of a source the one recorded last is the last one, if none is dated after it. -/
lemma latest?_eq_some {before : List Run} (hruns : m.runs = before ++ [run])
    (hlate : ∀ r ∈ before, r.source = run.source → r.createdAt ≤ run.createdAt) :
    m.latest? run.source = some run := by
  unfold latest? history
  rw [hruns, List.filter_append, List.reverse_append]
  simp only [List.filter_cons, List.filter_nil, decide_true, if_true, List.reverse_cons, List.reverse_nil,
    List.nil_append, List.cons_append, List.stableSort]
  generalize hsorted : ((before.filter (·.source = run.source)).reverse.stableSort
    fun a b => b.createdAt ≤ a.createdAt) = sorted
  cases sorted with
  | nil => rfl
  | cons first rest =>
    have hmem : first ∈ (before.filter (·.source = run.source)).reverse := by
      rw [← (List.stableSort_perm _ (fun a b : Run => decide (b.createdAt ≤ a.createdAt))).mem_iff, hsorted]
      simp
    have hfirst : first.createdAt ≤ run.createdAt := by
      simp only [List.mem_reverse, List.mem_filter, decide_eq_true_eq] at hmem
      exact hlate first hmem.1 hmem.2
    simp [List.insertStable, hfirst]

lemma latest?_mem (h : m.latest? source = some run) : run ∈ m.runs ∧ run.source = source :=
  mem_history.mp (List.mem_of_mem_head? h)

lemma latest?_eq_none (h : ∀ r ∈ m.runs, r.source ≠ source) : m.latest? source = none := by
  have hnil : m.history source = [] := by
    refine List.eq_nil_iff_forall_not_mem.mpr fun r hr => ?_
    exact h r (mem_history.mp hr).1 (mem_history.mp hr).2
  simp [latest?, hnil]

/-- The pieces of a new run are those recorded with it. -/
lemma Sound.piecesOf_record (hs : m.Sound) (h : m.record run pieces = .ok m') :
    (m'.piecesOf run.id).Perm (pieces.map fun q => { q with run := run.id }) := by
  obtain ⟨hid, -, -, hpieces⟩ := record_eq_ok h
  have hold : m.pieces.filter (·.run = run.id) = [] := by
    refine List.filter_eq_nil_iff.mpr fun q hq hrun => ?_
    obtain ⟨r, hr, he⟩ := hs.pieces q hq
    exact hid r hr (he.trans (by simpa using hrun))
  have hnew : (pieces.map fun q => { q with run := run.id }).filter (·.run = run.id) =
      pieces.map fun q => { q with run := run.id } := by
    refine List.filter_eq_self.mpr fun q hq => ?_
    obtain ⟨q', -, rfl⟩ := List.mem_map.mp hq
    simp
  unfold piecesOf
  rw [hpieces, List.filter_append, hold, hnew, List.nil_append]
  exact List.stableSort_perm _ _

lemma piecesOf_record_of_ne {id : Text} (h : m.record run pieces = .ok m') (hne : id ≠ run.id) :
    m'.piecesOf id = m.piecesOf id := by
  obtain ⟨-, -, -, hpieces⟩ := record_eq_ok h
  have hnew : (pieces.map fun q => { q with run := run.id }).filter (·.run = id) = [] := by
    refine List.filter_eq_nil_iff.mpr fun q hq hrun => ?_
    obtain ⟨q', -, rfl⟩ := List.mem_map.mp hq
    have hid : run.id = id := by simpa using hrun
    exact hne hid.symm
  unfold piecesOf
  rw [hpieces, List.filter_append, hnew, List.append_nil]

lemma piecesOf_prune {id : Text} (h : id ∉ m.stale source keep) :
    (m.prune source keep).1.piecesOf id = m.piecesOf id := by
  unfold piecesOf
  rw [prune_pieces, List.filter_filter]
  congr 1
  refine List.filter_congr fun q _ => ?_
  by_cases hq : q.run = id
  · simp [hq, h]
  · simp [hq]

lemma history_record_of_ne (h : m.record run pieces = .ok m') (hne : run.source ≠ source) :
    m'.history source = m.history source := by
  obtain ⟨-, -, hruns, -⟩ := record_eq_ok h
  unfold history
  rw [hruns, List.filter_append]
  simp [hne]

lemma Sound.history_prune_of_ne (hs : m.Sound) {other : Text} (hne : other ≠ source) :
    (m.prune other keep).1.history source = m.history source := by
  unfold history
  rw [prune_runs, List.filter_filter]
  congr 2
  refine List.filter_congr fun r hr => ?_
  by_cases hsource : r.source = source
  · have hkept : r.id ∉ m.stale other keep :=
      hs.not_mem_stale_of_source hr fun he => hne (he.symm.trans hsource)
    simp [hsource, hkept]
  · simp [hsource]

end DeclPieces.Manifest

namespace DeclPieces.Database
variable {d d' : Database} {run : Run} {pieces : List RecordedPiece} {source what : Text} {keep : Int} {n : Nat}

lemma query_eq_ok {α : Type} {f : Manifest → α} {a : α} (h : d.query what f = .ok a) :
    ∃ m, d.manifest = some m ∧ f m = a := by
  unfold query at h
  split at h
  · next m hm => exact ⟨m, hm, Except.ok.inj h⟩
  · cases h

lemma record_eq_ok (h : d.record run pieces = .ok d') :
    ∃ m m', d.manifest = some m ∧ m.record run pieces = .ok m' ∧ d' = { d with manifest := some m' } := by
  obtain ⟨_, hquery, h⟩ := bind_eq_ok_iff.mp h
  obtain ⟨m, hm, rfl⟩ := query_eq_ok hquery
  obtain ⟨m', hrecord, h⟩ := bind_eq_ok_iff.mp h
  exact ⟨m, m', hm, hrecord, (pure_eq_ok_iff.mp h).symm⟩

lemma prune_eq_ok (h : d.prune source keep = .ok (n, d')) :
    ∃ m, d.manifest = some m ∧ d' = { d with manifest := some (m.prune source keep).1 } := by
  obtain ⟨_, hquery, h⟩ := bind_eq_ok_iff.mp h
  obtain ⟨m, hm, rfl⟩ := query_eq_ok hquery
  exact ⟨m, hm, (Prod.mk.inj (pure_eq_ok_iff.mp h)).2.symm⟩

end DeclPieces.Database
