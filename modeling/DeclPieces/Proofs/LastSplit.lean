import DeclPieces.Proofs.LatestRun
import DeclPieces.Proofs.SplitEffect
import Mathlib

/-! What the record knows of the last split of a source, and that it stays so when sources are split. -/
namespace DeclPieces

namespace Workspace
variable {w : Workspace} {source : Path} {p p' : Project} {plan : Plan} {plan? : Option Plan} {run : Run}
  {m m₁ : Manifest} {ticks : Nat}

/-- A manifest that has the last split of a source, which made `plan?`, and nothing of the source if there was
none. -/
structure Remembers (w : Workspace) (source : Path) (plan? : Option Plan) (ticks : Nat) (m : Manifest) : Prop where
  sound : m.Sound
  past : ∀ r ∈ m.runs, r.source = w.key source → r.createdAt ≤ w.clock ticks
  latest_none : plan? = none → m.latest? (w.key source) = none
  latest_some : ∀ plan, plan? = some plan → ∃ run, m.latest? (w.key source) = some run ∧ run.hash = plan.hash ∧
    (m.piecesOf run.id).Perm (plan.decomposition.pieces.map (w.toRecord run.id plan))

lemma Filed.manifest {plan : Plan} {run : Run} {m : Manifest} (h : w.Filed plan p p' run)
    (hm : p.database.manifest = some m) :
    ∃ m₁, m.record run (plan.decomposition.pieces.map (w.toRecord run.id plan)) = .ok m₁ ∧
      (p'.database.manifest = some m₁ ∨ p'.database.manifest = some (m₁.prune run.source w.keepRuns).1) := by
  obtain ⟨database, hrecord, hthen⟩ := h.database_eq
  obtain ⟨m₀, m₁, hm₀, hm₁, rfl⟩ := Database.record_eq_ok hrecord
  obtain rfl := Option.some.inj (hm₀.symm.trans hm)
  refine ⟨m₁, hm₁, ?_⟩
  rcases hthen with hsame | ⟨n, hprune⟩
  · exact .inl (by rw [hsame])
  · obtain ⟨m₂, hm₂, hpruned⟩ := Database.prune_eq_ok hprune
    obtain rfl := Option.some.inj hm₂
    exact .inr (by rw [hpruned])

lemma map_toRecord (w : Workspace) (id : Text) (plan : Plan) (pieces : List Piece) :
    (pieces.map (w.toRecord id plan)).map (fun q => { q with run := id }) = pieces.map (w.toRecord id plan) := by
  rw [List.map_map]
  rfl

/-- A split that is recorded last is the last one, if no run of its source is dated later. -/
lemma Filed.remembers (hclock : Monotone w.clock) (hs : m.Sound)
    (hpast : ∀ r ∈ m.runs, r.source = w.key plan.source → r.createdAt ≤ w.clock p.ticks)
    (hm : p.database.manifest = some m) (hf : w.Filed plan p p' run) :
    ∃ m', p'.database.manifest = some m' ∧ w.Remembers plan.source (some plan) p'.ticks m' ∧
      m'.latest? (w.key plan.source) = some run := by
  obtain ⟨m₁, hrecord, hthen⟩ := hf.manifest hm
  obtain ⟨-, -, hruns, -⟩ := Manifest.record_eq_ok hrecord
  have hsound := hs.record hrecord
  have hpieces := hs.piecesOf_record hrecord
  rw [map_toRecord] at hpieces
  have hold (r : Run) (hr : r ∈ m.runs) (hs : r.source = w.key plan.source) : r.createdAt ≤ run.createdAt := by
    rw [hf.createdAt_eq]
    exact hpast r hr hs
  have hpast' (r : Run) (hr : r ∈ m₁.runs) (hs : r.source = w.key plan.source) : r.createdAt ≤ w.clock p'.ticks := by
    have hlater : run.createdAt ≤ w.clock p'.ticks := by
      rw [hf.createdAt_eq, hf.ticks_eq]
      exact hclock (Nat.le_succ _)
    rw [hruns] at hr
    rcases List.mem_append.mp hr with hr | hr
    · exact (hold r hr hs).trans hlater
    · rwa [List.mem_singleton.mp hr]
  have hlatest (runs : List Run) (hsub : ∀ r ∈ runs, r ∈ m.runs) {m' : Manifest} (hm' : m'.runs = runs ++ [run]) :
      m'.latest? (w.key plan.source) = some run := by
    rw [← hf.source_eq]
    exact Manifest.latest?_eq_some hm' fun r hr hs => hold r (hsub r hr) (hs.trans hf.source_eq)
  have hfirst : m₁.latest? (w.key plan.source) = some run := hlatest m.runs (fun _ hr => hr) hruns
  rcases hthen with hsame | hpruned
  · refine ⟨m₁, hsame, ⟨hsound, hpast', by simp, ?_⟩, hfirst⟩
    rintro _ ⟨⟩
    exact ⟨run, hfirst, hf.hash_eq, hpieces⟩
  · have hkept : run.id ∉ m₁.stale run.source w.keepRuns :=
      hsound.not_mem_stale_of_latest (hf.source_eq ▸ hfirst)
    have hstill : (m₁.prune run.source w.keepRuns).1.latest? (w.key plan.source) = some run := by
      refine hlatest (m.runs.filter fun r => !(m₁.stale run.source w.keepRuns).contains r.id) ?_ ?_
      · exact fun r hr => (List.mem_filter.mp hr).1
      · rw [Manifest.prune_runs, hruns, List.filter_append]
        simp [hkept]
    refine ⟨_, hpruned, ⟨hsound.prune _ _, ?_, by simp, ?_⟩, hstill⟩
    · intro r hr
      rw [Manifest.prune_runs, List.mem_filter] at hr
      exact hpast' r hr.1
    · rintro _ ⟨⟩
      refine ⟨run, hstill, hf.hash_eq, ?_⟩
      rwa [Manifest.piecesOf_prune hkept]

/-- The last split is remembered. -/
lemma Remembers.filed_own (hclock : Monotone w.clock) (h : w.Remembers (plan.source) plan? p.ticks m)
    (hm : p.database.manifest = some m) (hf : w.Filed plan p p' run) :
    ∃ m', p'.database.manifest = some m' ∧ w.Remembers plan.source (some plan) p'.ticks m' := by
  obtain ⟨m', hm', hremembers, -⟩ := hf.remembers hclock h.sound h.past hm
  exact ⟨m', hm', hremembers⟩

/-- A split of another source does not matter. -/
lemma Remembers.filed_other (hclock : Monotone w.clock) (h : w.Remembers source plan? p.ticks m)
    (hm : p.database.manifest = some m) (hf : w.Filed plan p p' run) (hne : w.key plan.source ≠ w.key source) :
    ∃ m', p'.database.manifest = some m' ∧ w.Remembers source plan? p'.ticks m' := by
  obtain ⟨m₁, hrecord, hthen⟩ := hf.manifest hm
  obtain ⟨hid, -, hruns, -⟩ := Manifest.record_eq_ok hrecord
  have hother : run.source ≠ w.key source := by rwa [hf.source_eq]
  have hsound := h.sound.record hrecord
  have hpast (r : Run) (hr : r ∈ m₁.runs) (hs : r.source = w.key source) : r.createdAt ≤ w.clock p'.ticks := by
    rw [hruns] at hr
    rcases List.mem_append.mp hr with hr | hr
    · refine (h.past r hr hs).trans (hclock ?_)
      rw [hf.ticks_eq]
      exact Nat.le_succ _
    · exact absurd (List.mem_singleton.mp hr ▸ hs) hother
  have hlatest : m₁.latest? (w.key source) = m.latest? (w.key source) := by
    unfold Manifest.latest?
    rw [Manifest.history_record_of_ne hrecord hother]
  have hpieces (r : Run) (hr : r ∈ m.runs) : m₁.piecesOf r.id = m.piecesOf r.id :=
    Manifest.piecesOf_record_of_ne hrecord (hid r hr)
  rcases hthen with hsame | hpruned
  · refine ⟨m₁, hsame, hsound, hpast, fun hn => hlatest.trans (h.latest_none hn), ?_⟩
    intro plan' hplan'
    obtain ⟨last, hlast, hhash, hperm⟩ := h.latest_some plan' hplan'
    refine ⟨last, hlatest.trans hlast, hhash, ?_⟩
    rwa [hpieces last (Manifest.latest?_mem hlast).1]
  · have hpruned' : (m₁.prune run.source w.keepRuns).1.latest? (w.key source) = m.latest? (w.key source) := by
      rw [← hlatest]
      unfold Manifest.latest?
      rw [hsound.history_prune_of_ne hother]
    refine ⟨_, hpruned, hsound.prune _ _, ?_, fun hn => hpruned'.trans (h.latest_none hn), ?_⟩
    · intro r hr
      rw [Manifest.prune_runs, List.mem_filter] at hr
      exact hpast r hr.1
    · intro plan' hplan'
      obtain ⟨last, hlast, hhash, hperm⟩ := h.latest_some plan' hplan'
      obtain ⟨hmem, hs⟩ := Manifest.latest?_mem hlast
      have hmem₁ : last ∈ m₁.runs := by
        rw [hruns]
        exact List.mem_append_left _ hmem
      refine ⟨last, hpruned'.trans hlast, hhash, ?_⟩
      rwa [Manifest.piecesOf_prune (hsound.not_mem_stale_of_source hmem₁ fun he => hother (he.symm.trans hs)),
        hpieces last hmem]

lemma Remembers.later (hclock : Monotone w.clock) (h : w.Remembers source plan? ticks m) {later : Nat}
    (hle : ticks ≤ later) : w.Remembers source plan? later m :=
  { h with past := fun r hr hs => (h.past r hr hs).trans (hclock hle) }

/-- The recorded pieces are those of the last split. -/
lemma Remembers.mem_lastPieces (h : w.Remembers source plan? ticks m) (hrecords : w.records = true) {database : Database}
    (hm : database.manifest = some m) {recorded : List RecordedPiece}
    (hr : w.lastPieces source database = .ok recorded) (r : RecordedPiece) :
    r ∈ recorded ↔ ∃ plan run, plan? = some plan ∧ m.latest? (w.key source) = some run ∧
      ∃ q ∈ plan.decomposition.pieces, w.toRecord run.id plan q = r := by
  unfold lastPieces Database.latest? Database.piecesOf Database.query at hr
  simp only [hrecords, hm, Bool.not_true, Bool.false_eq_true, if_false, bind, Except.bind] at hr
  cases hplan : plan? with
  | none =>
    simp only [h.latest_none hplan, pure, Except.pure, Except.ok.injEq] at hr
    simp [← hr]
  | some plan =>
    obtain ⟨run, hlatest, -, hperm⟩ := h.latest_some plan hplan
    simp only [hlatest, Except.ok.injEq] at hr
    rw [← hr, hperm.mem_iff, List.mem_map]
    constructor
    · rintro ⟨q, hq, rfl⟩
      exact ⟨plan, run, rfl, hlatest, q, hq, rfl⟩
    · rintro ⟨plan', run', hp, hrun, q, hq, rfl⟩
      obtain rfl := Option.some.inj hp
      obtain rfl := Option.some.inj (hlatest.symm.trans hrun)
      exact ⟨q, hq, rfl⟩

lemma monotone_sampleClock : Monotone sampleWorkspace.clock := by
  intro a b hab
  simp only [sampleWorkspace]
  omega

end Workspace

end DeclPieces
