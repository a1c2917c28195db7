import DeclPieces.Proofs.LatestRun
import DeclPieces.Proofs.TextOrder

/-! The order of the runs in a manifest: by the moment, and at one moment by the order of recording. The queries
agree on it, and dropping old runs keeps the greatest. -/
namespace DeclPieces.Manifest
variable {m : Manifest} {r r' : Run} {source other : Text} {keep : Int}

/-- The second run is later: by its moment, or at the same moment by the order of recording. -/
def Before (m : Manifest) (r r' : Run) : Prop :=
  r.createdAt < r'.createdAt ∨ r.createdAt = r'.createdAt ∧ [r, r'].Sublist m.runs

instance : DecidableRel m.Before := fun _ _ => inferInstanceAs (Decidable (_ ∨ _))

/-- How many runs of its source are later than a run. -/
def laterThan (m : Manifest) (r : Run) : Nat := m.runs.countP fun r' => r'.source = r.source ∧ m.Before r r'

/-- The run is the greatest of the source. -/
structure IsLatest (m : Manifest) (source : Text) (r : Run) : Prop where
  mem : r ∈ m.runs
  source_eq : r.source = source
  greatest : ∀ r' ∈ m.runs, r'.source = source → r' ≠ r → m.Before r' r

lemma Sound.nodup_runs (hs : m.Sound) : m.runs.Nodup := hs.ids.of_map

lemma Sound.not_before_self (hs : m.Sound) : ¬ m.Before r r := by
  rintro (hlt | ⟨-, hsub⟩)
  · omega
  · exact (hs.nodup_runs.sublist hsub).not_sublist_swap (.refl _) (.refl _)

lemma Sound.before_asymm (hs : m.Sound) (h : m.Before r r') : ¬ m.Before r' r := by
  rcases h with hlt | ⟨heq, hsub⟩ <;> rintro (hlt' | ⟨heq', hsub'⟩)
  · omega
  · omega
  · omega
  · exact hs.nodup_runs.not_sublist_swap hsub hsub'

/-- The history of a source is its runs, the latest first. -/
lemma pairwise_history : (m.history source).Pairwise fun r r' => m.Before r' r := by
  have hrecorded : (m.runs.filter (·.source = source)).reverse.Pairwise fun r r' => [r', r].Sublist m.runs := by
    rw [List.pairwise_reverse]
    exact (List.pairwise_iff_forall_sublist.mpr fun h => h).filter _
  have hsorted : (m.history source).Pairwise fun r r' => decide (r'.createdAt ≤ r.createdAt) = true :=
    List.pairwise_stableSort (by simp only [decide_eq_true_eq]; intros; omega)
      (by simp only [Bool.or_eq_true, decide_eq_true_eq]; intros; omega) _
  have hties : (m.history source).Pairwise fun r r' =>
      decide (r.createdAt ≤ r'.createdAt) = true → [r', r].Sublist m.runs :=
    List.pairwise_stableSort_of_pairwise hrecorded
  refine (hsorted.and hties).imp ?_
  rintro r r' ⟨hle, htie⟩
  simp only [decide_eq_true_eq] at hle htie
  rcases Int.lt_or_eq_of_le hle with hlt | heq
  · exact .inl hlt
  · exact .inr ⟨heq, htie (by omega)⟩

lemma Sound.latest?_eq_some_iff (hs : m.Sound) : m.latest? source = some r ↔ m.IsLatest source r := by
  have hsorted : (m.history source).Pairwise fun r r' => m.Before r' r := pairwise_history
  unfold latest?
  constructor
  · intro hhead
    cases hh : m.history source with
    | nil => simp [hh] at hhead
    | cons first rest =>
      obtain rfl : first = r := by simpa [hh] using hhead
      rw [hh, List.pairwise_cons] at hsorted
      obtain ⟨hmem, hsource⟩ := mem_history.mp (hh ▸ List.mem_cons_self : first ∈ m.history source)
      refine ⟨hmem, hsource, fun r' hr' hsource' hne => ?_⟩
      have hr' : r' ∈ first :: rest := hh ▸ mem_history.mpr ⟨hr', hsource'⟩
      exact hsorted.1 r' ((List.mem_cons.mp hr').resolve_left hne)
  · intro hlatest
    have hmem : r ∈ m.history source := mem_history.mpr ⟨hlatest.mem, hlatest.source_eq⟩
    cases hh : m.history source with
    | nil => simp [hh] at hmem
    | cons first rest =>
      by_contra hne
      have hne : first ≠ r := by simpa [hh] using hne
      rw [hh] at hmem hsorted
      have hfirst : first ∈ m.history source := hh ▸ List.mem_cons_self
      have hbefore : m.Before r first :=
        (List.pairwise_cons.mp hsorted).1 r ((List.mem_cons.mp hmem).resolve_left hne.symm)
      exact hs.before_asymm hbefore
        (hlatest.greatest first (mem_history.mp hfirst).1 (mem_history.mp hfirst).2 hne)

lemma latest?_eq_none_iff : m.latest? source = none ↔ ∀ r ∈ m.runs, r.source ≠ source := by
  refine ⟨fun h r hr hsource => ?_, latest?_eq_none⟩
  have hnil : m.history source = [] := List.head?_eq_none_iff.mp h
  exact List.not_mem_nil (hnil ▸ mem_history.mpr ⟨hr, hsource⟩)

/-! Dropping old runs. -/

lemma laterThan_eq_countP_history (hr : r.source = source) :
    m.laterThan r = (m.history source).countP fun r' => m.Before r r' := by
  have hperm : (m.history source).Perm (m.runs.filter (·.source = source)) :=
    (List.stableSort_perm _ _).trans (List.reverse_perm _)
  rw [hperm.countP_eq, List.countP_filter]
  unfold laterThan
  refine List.countP_congr fun r' _ => ?_
  simp [hr, and_comm]

/-- A run comes after the first `k` of its source if at least `k` runs of the source are later. -/
lemma Sound.mem_drop_history_iff (hs : m.Sound) {k : Nat} :
    r ∈ (m.history source).drop k ↔ r ∈ m.runs ∧ r.source = source ∧ k ≤ m.laterThan r := by
  have hfalls : (m.history source).Pairwise fun r r' => m.Before r' r ∧ ¬ m.Before r r' :=
    pairwise_history.imp fun h => ⟨h, hs.before_asymm h⟩
  rw [List.mem_drop_iff_countP (fun _ _ => hs.not_before_self) hfalls, mem_history, and_assoc]
  refine and_congr_right fun _ => and_congr_right fun hsource => ?_
  rw [laterThan_eq_countP_history hsource]

lemma Sound.id_mem_stale_iff (hs : m.Sound) (hr : r ∈ m.runs) :
    r.id ∈ m.stale source keep ↔ r.source = source ∧ (max keep 1).toNat ≤ m.laterThan r := by
  constructor
  · intro hmem
    obtain ⟨r', hr', hid⟩ := List.mem_map.mp hmem
    obtain ⟨hruns, hstale⟩ := hs.mem_drop_history_iff.mp hr'
    obtain rfl : r' = r := List.inj_on_of_nodup_map hs.ids hruns hr hid
    exact hstale
  · exact fun hstale => List.mem_map_of_mem (hs.mem_drop_history_iff.mpr ⟨hr, hstale⟩)

lemma Sound.prune_runs_eq (hs : m.Sound) :
    (m.prune source keep).1.runs =
      m.runs.filter fun r => r.source ≠ source ∨ m.laterThan r < (max keep 1).toNat := by
  rw [prune_runs]
  refine List.filter_congr fun r hr => ?_
  have hiff : r.id ∈ m.stale source keep ↔ r.source = source ∧ (max keep 1).toNat ≤ m.laterThan r :=
    hs.id_mem_stale_iff hr
  by_cases hstale : r.id ∈ m.stale source keep
  · obtain ⟨hsource, hlate⟩ := hiff.mp hstale
    have hgone : ¬(r.source ≠ source ∨ m.laterThan r < (max keep 1).toNat) :=
      not_or.mpr ⟨not_not_intro hsource, Nat.not_lt.mpr hlate⟩
    simp only [List.contains_eq_mem, hstale, decide_true, Bool.not_true]
    exact (decide_eq_false hgone).symm
  · have hkept := mt hiff.mpr hstale
    simp only [List.contains_eq_mem, hstale, decide_false, Bool.not_false]
    simp only [true_eq_decide_iff]
    by_cases hsource : r.source = source
    · exact .inr (Nat.lt_of_not_le fun h => hkept ⟨hsource, h⟩)
    · exact .inl hsource

/-- A piece goes with its run. -/
lemma Sound.prune_pieces_eq (hs : m.Sound) :
    (m.prune source keep).1.pieces =
      m.pieces.filter fun q => (m.prune source keep).1.runs.any (·.id = q.run) := by
  rw [prune_pieces]
  refine List.filter_congr fun q hq => ?_
  obtain ⟨r, hr, hid⟩ := hs.pieces q hq
  rw [Bool.eq_iff_iff, List.any_eq_true]
  constructor
  · intro hkept
    exact ⟨r, prune_runs ▸ List.mem_filter.mpr ⟨hr, hid ▸ hkept⟩, by simpa using hid⟩
  · rintro ⟨r', hr', hid'⟩
    have hkept := (List.mem_filter.mp (prune_runs ▸ hr')).2
    rwa [of_decide_eq_true hid'] at hkept

/-- As many runs are counted as are dropped. -/
lemma Sound.prune_count (hs : m.Sound) :
    (m.prune source keep).2 = m.runs.countP fun r => r.source = source ∧ (max keep 1).toNat ≤ m.laterThan r := by
  have hnodup : (m.history source).Nodup := hs.nodup_history.of_map
  have hperm : ((m.history source).drop (max keep 1).toNat).Perm
      (m.runs.filter fun r => r.source = source ∧ (max keep 1).toNat ≤ m.laterThan r) := by
    refine (List.perm_ext_iff_of_nodup (hnodup.sublist (List.drop_sublist _ _)) (hs.nodup_runs.filter _)).mpr
      fun r => ?_
    rw [hs.mem_drop_history_iff, List.mem_filter, decide_eq_true_iff]
  rw [List.countP_eq_length_filter, ← hperm.length_eq]
  exact List.length_map _

/-- The runs that stay stand in the order in which they stood. -/
lemma Before.prune (h : m.Before r r') (hr : r ∈ (m.prune source keep).1.runs)
    (hr' : r' ∈ (m.prune source keep).1.runs) : (m.prune source keep).1.Before r r' := by
  rcases h with hlt | ⟨heq, hsub⟩
  · exact .inl hlt
  · refine .inr ⟨heq, ?_⟩
    rw [prune_runs] at hr hr' ⊢
    have hkept := hsub.filter fun r => !(m.stale source keep).contains r.id
    rwa [List.filter_cons, if_pos (List.mem_filter.mp hr).2, List.filter_cons, if_pos (List.mem_filter.mp hr').2,
      List.filter_nil] at hkept

/-- At least the latest run stays, so what is asked for afterwards is what was asked for before. -/
lemma Sound.latest?_prune (hs : m.Sound) : (m.prune source keep).1.latest? other = m.latest? other := by
  have hsubset : (m.prune source keep).1.runs ⊆ m.runs := prune_runs ▸ List.filter_sublist.subset
  cases hlatest : m.latest? other with
  | none =>
    have hnone := latest?_eq_none_iff.mp hlatest
    exact latest?_eq_none fun r hr => hnone r (hsubset hr)
  | some r =>
    have hr := hs.latest?_eq_some_iff.mp hlatest
    have hkept : r ∈ (m.prune source keep).1.runs := by
      rw [prune_runs, List.mem_filter]
      refine ⟨hr.mem, ?_⟩
      by_cases hne : other = source
      · simpa using hs.not_mem_stale_of_latest (hne ▸ hlatest)
      · simpa using hs.not_mem_stale_of_source hr.mem (hr.source_eq ▸ hne)
    refine (hs.prune source keep).latest?_eq_some_iff.mpr ⟨hkept, hr.source_eq, ?_⟩
    intro r' hr' hsource' hne
    exact (hr.greatest r' (hsubset hr') hsource' hne).prune hr' hkept

/-- What belongs to other sources stays as it is. -/
lemma Sound.prune_of_ne (hs : m.Sound) (hne : other ≠ source) :
    (m.prune source keep).1.runs.filter (·.source = other) = m.runs.filter (·.source = other) ∧
      ∀ r ∈ m.runs, r.source = other → (m.prune source keep).1.piecesOf r.id = m.piecesOf r.id := by
  constructor
  · rw [hs.prune_runs_eq, List.filter_filter]
    refine List.filter_congr fun r _ => ?_
    by_cases hr : r.source = other
    · simp [hr, hne]
    · simp [hr]
  · intro r hr hsource
    exact piecesOf_prune (hs.not_mem_stale_of_source hr (hsource ▸ hne))

/-! The latest runs of all sources. -/

lemma nodup_sources : m.sources.Nodup :=
  (List.stableSort_perm _ _).nodup_iff.mpr (List.nodup_eraseDups _)

lemma mem_sources {s : Text} : s ∈ m.sources ↔ ∃ r ∈ m.runs, r.source = s := by
  unfold sources Text.sort
  rw [(List.stableSort_perm _ _).mem_iff, List.mem_eraseDups, List.mem_map]

lemma pairwise_sources : m.sources.Pairwise fun s s' => Text.lt s s' := by
  have hsorted : m.sources.Pairwise fun s s' => Text.le s s' = true :=
    List.pairwise_stableSort Text.le_trans Text.le_total _
  exact (hsorted.and nodup_sources).imp fun h => Text.lt_iff.mpr h

lemma mem_latestRuns_iff : r ∈ m.latestRuns ↔ m.latest? r.source = some r := by
  unfold latestRuns
  rw [List.mem_filterMap]
  constructor
  · rintro ⟨s, -, hlatest⟩
    rwa [(latest?_mem hlatest).2]
  · intro hlatest
    exact ⟨r.source, mem_sources.mpr ⟨r, (latest?_mem hlatest).1, rfl⟩, hlatest⟩

/-- There is one run for each source, in the order of the sources. -/
lemma pairwise_latestRuns : m.latestRuns.Pairwise fun r r' => Text.lt r.source r'.source := by
  refine List.pairwise_filterMap.mpr (pairwise_sources.imp ?_)
  intro s s' hlt r hr r' hr'
  rwa [(latest?_mem hr).2, (latest?_mem hr').2]

end DeclPieces.Manifest
