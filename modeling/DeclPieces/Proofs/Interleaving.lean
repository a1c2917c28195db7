import DeclPieces.Proofs.DryRun
import DeclPieces.Proofs.History
import DeclPieces.Proofs.LogBlind
import Mathlib.Logic.Function.Basic

/-! Two operations on one source, step by step: each reads the source and makes its plan, asks for the lock, acts on
its plan, and releases the lock. A merge that gets the lock with a plan of an older text is refused, for the other
operation recorded a split of a newer one. A split is not, so that it must not be so late; then what comes of any
interleaving of the steps comes of one operation after the other. -/
namespace DeclPieces

namespace Workspace
open Activity
variable {w : Workspace} {path : Path} {p p' q : Project} {plan plan' : Plan} {m : Manifest}

/-! Plans that are out of date. -/

/-- Is the last split of the source that is recorded one of another text than that of the plan? -/
def Outdated (w : Workspace) (plan : Plan) (database : Database) : Prop :=
  ∃ run, database.latest? (w.key plan.source) = .ok (some run) ∧ run.hash ≠ plan.hash

lemma Outdated.congr {database : Database} (h : w.Outdated plan database) (hsource : plan.source = plan'.source)
    (hhash : plan.hash = plan'.hash) : w.Outdated plan' database := by
  unfold Outdated at h ⊢
  rwa [← hsource, ← hhash]

/-- A merge with such a plan is refused before it does anything. -/
lemma Outdated.mergePlan_run (h : w.Outdated plan p.database) (hrecords : w.records = true) (o : MergeOptions) :
    ∃ e : Failure, e.toFault.code = .sourceChanged ∧ (w.mergePlan plan o).run p = (.error e, p) := by
  obtain ⟨run, hlatest, hhash⟩ := h
  refine ⟨.fault (.coded .sourceChanged "source changed since it was last split; split it again before merging"
    plan.source), rfl, ?_⟩
  unfold mergePlan checkSplitOf
  simp only [hrecords, Bool.not_true, Bool.false_eq_true, if_false, bind_assoc]
  rw [run_get_bind, run_bind, run_ofExcept, hlatest]
  simp only [SourceFile.lift, ne_eq, hhash, not_false_eq_true, if_true]
  rfl

/-- The last split that is recorded after a second split is the second split. -/
lemma splitAgain_latest {source : Path} {text : Text} {split : SplitResult} (hrecords : w.records = true)
    (hclock : Monotone w.clock) (hm : p.database.manifest = some m) (hsound : m.Sound)
    (hpast : ∀ r ∈ m.runs, r.source = w.key source → r.createdAt ≤ w.clock p.ticks)
    (hread : p.disk.read source = .content text) (h : (w.splitAgain source).run p = (.ok split, p')) :
    ∃ run, p'.database.latest? (w.key source) = .ok (some run) ∧ run.hash = w.digest text := by
  rw [splitAgain, run_bind] at h
  cases hplan : (w.planAt source).run p with
  | mk plan? p₁ =>
    rw [hplan] at h
    cases plan? with
    | error e => cases h
    | ok next =>
      obtain ⟨hread', rfl, hhash, -, log, rfl⟩ := planAt_eq_ok hplan
      obtain rfl : next.text = text := Reading.content.inj (hread'.symm.trans hread)
      have hsplit : (w.splitPlan next true).run { p with log := log } = (.ok split, p') := h
      have hperforms := (splitPlan_performs hrecords next true { p with log := log }).2
      rw [hsplit] at hperforms
      obtain ⟨recorded, disk, run, hperformed⟩ := hperforms split rfl
      have hfiled : w.Filed next { p with log := log } p' run := hperformed.filed
      obtain ⟨m', hm', -, hlatest⟩ := Filed.remembers (p := { p with log := log }) hclock hsound hpast hm hfiled
      refine ⟨run, ?_, hfiled.hash_eq.trans hhash⟩
      simp [Database.latest?, Database.query, hm', hlatest]

/-- A merge that succeeds and changes the source has recorded a split of the new text. -/
lemma mergePlan_outdates {o : MergeOptions} {r : Partial MergeResult} (hrecords : w.records = true)
    (hdigest : Function.Injective w.digest) (hclock : Monotone w.clock) (hm : p.database.manifest = some m)
    (hsound : m.Sound) (hpast : ∀ r ∈ m.runs, r.source = w.key plan.source → r.createdAt ≤ w.clock p.ticks)
    (hread : p.disk.read plan.source = .content plan.text) (hhash : plan.hash = w.digest plan.text)
    (hresplit : o.resplit = true) (h : (w.mergePlan plan o).run p = (.ok r, p')) (hdone : r.failure = none) :
    p'.disk.read plan.source = .content plan.text ∨ w.Outdated plan p'.database := by
  obtain ⟨r₀, log, hfold, hmerge⟩ := w.foldPlan_run plan p
  rw [mergePlan_eq_fold, run_bind, hfold] at h
  cases r₀ with
  | error e => cases h
  | ok merged =>
    simp only at h
    cases hdry : o.dryRun with
    | true =>
      rw [finish_run_dry hdry] at h
      exact .inl ((Prod.mk.inj h).2 ▸ hread)
    | false =>
      have hchanged := merge_changed (hmerge merged rfl)
      obtain ⟨hfiles, hwrites⟩ := conclude_writes (w := w) (o := o) (p := { p with log := log }) hdry hchanged hread
      unfold finish at h
      rw [run_bind] at h
      cases hconclude : (w.conclude plan merged o).run { p with log := log } with
      | mk r₁ p₁ =>
        rw [hconclude] at h hfiles hwrites
        obtain ⟨hdb, hticks⟩ := hfiles
        cases r₁ with
        | error e => cases h
        | ok r₁ =>
          obtain ⟨-, hconcluded, hread₁⟩ := hwrites r₁ rfl
          simp only [hresplit, Bool.true_and, hconcluded.written_eq, hchanged] at h
          by_cases htext : merged.text = plan.text
          · simp only [htext, ne_eq, not_true_eq_false, decide_false, Bool.not_false, if_true] at h
            obtain rfl := (Prod.mk.inj h).2
            exact .inl (htext ▸ hread₁)
          · simp only [htext, ne_eq, not_false_eq_true, decide_true, Bool.not_true, Bool.false_eq_true, if_false] at h
            rw [run_fun] at h
            obtain ⟨hr, rfl⟩ := Prod.mk.inj h
            obtain rfl := Except.ok.inj hr
            cases hagain : (w.splitAgain plan.source).run p₁ with
            | mk split? p₂ =>
              rw [hagain] at hdone
              cases split? with
              | error e => cases hdone
              | ok split =>
                have hpast' : ∀ r ∈ m.runs, r.source = w.key plan.source → r.createdAt ≤ w.clock p₁.ticks :=
                  fun r hr hs => (hpast r hr hs).trans (hclock hticks)
                have hm' : p₁.database.manifest = some m := by rw [hdb]; exact hm
                obtain ⟨run, hlatest, hrun⟩ := splitAgain_latest hrecords hclock hm' hsound hpast' hread₁ hagain
                exact .inr ⟨run, hlatest, fun he => htext (hdigest (hrun.symm.trans (he.trans hhash)))⟩

/-! Operations. -/

inductive Operation where
  | split (force : Bool)
  /-- A merge that splits again. -/
  | merge (o : MergeOptions)

def Operation.isMerge : Operation → Bool
  | split _ => false
  | merge _ => true

/-- The project after an operation as a whole. -/
def Operation.run (w : Workspace) (path : Path) (p : Project) : Operation → Project
  | split force => ((w.split path force).run p).2
  | merge o => ((w.merge path { o with resplit := true }).run p).2

/-- What an operation does while it holds the lock: how it fails, if it does, and the project then. -/
def Operation.work (w : Workspace) (plan : Plan) (p : Project) : Operation → Option Failure × Project
  | split force =>
    match (w.splitPlan plan force).run p with
    | (.ok _, p) => (none, p)
    | (.error e, p) => (some e, p)
  | merge o =>
    match (w.mergePlan plan { o with resplit := true }).run p with
    | (.ok r, p) => (r.failure, p)
    | (.error e, p) => (some e, p)

lemma Operation.work_split_snd (force : Bool) (plan : Plan) (p : Project) :
    ((Operation.split force).work w plan p).2 = ((w.splitPlan plan force).run p).2 := by
  rw [work]
  cases (w.splitPlan plan force).run p with
  | mk r p' => cases r <;> rfl

lemma Operation.work_merge_snd (o : MergeOptions) (plan : Plan) (p : Project) :
    ((Operation.merge o).work w plan p).2 = ((w.mergePlan plan { o with resplit := true }).run p).2 := by
  rw [work]
  cases (w.mergePlan plan { o with resplit := true }).run p with
  | mk r p' => cases r <;> rfl

lemma Operation.run_of_opened (op : Operation) {p₁ : Project} (h : w.opened path p = some (plan, p₁)) :
    op.run w path p = release (lockPath plan.decomposition.dir) (op.work w plan p₁).2 := by
  cases op with
  | split force =>
    rw [work_split_snd, run, split_eq_guarded, guarded_run h]
  | merge o =>
    rw [work_merge_snd, run, merge_eq_guarded, guarded_run h]

lemma Operation.work_alike (op : Operation) (h : Alike p q) (plan : Plan) :
    Alike (op.work w plan p).2 (op.work w plan q).2 := by
  cases op with
  | split force =>
    rw [work_split_snd, work_split_snd]
    exact (blind_splitPlan plan force p q h).2
  | merge o =>
    rw [work_merge_snd, work_merge_snd]
    exact (blind_mergePlan plan _ p q h).2

/-- A merge that succeeds leaves its plan current, or has it out of date. -/
lemma Operation.work_outdates {op : Operation} (hrecords : w.records = true) (hdigest : Function.Injective w.digest)
    (hclock : Monotone w.clock) (hm : p.database.manifest = some m) (hsound : m.Sound)
    (hpast : ∀ r ∈ m.runs, r.source = w.key plan.source → r.createdAt ≤ w.clock p.ticks)
    (hread : p.disk.read plan.source = .content plan.text) (hhash : plan.hash = w.digest plan.text)
    (hmerge : op.isMerge = true) (hdone : (op.work w plan p).1.isNone = true) :
    (op.work w plan p).2.disk.read plan.source = .content plan.text ∨ w.Outdated plan (op.work w plan p).2.database := by
  cases op with
  | split force => cases hmerge
  | merge o =>
    rw [work_merge_snd]
    cases hrun : (w.mergePlan plan { o with resplit := true }).run p with
    | mk r p' =>
      simp only [work, hrun] at hdone
      cases r with
      | error e => cases hdone
      | ok r =>
        exact mergePlan_outdates hrecords hdigest hclock hm hsound hpast hread hhash rfl hrun
          (Option.isNone_iff_eq_none.mp hdone)

/-! The lock. -/

lemma release_alike (h : Alike p q) (lock : Path) : Alike (release lock p) (release lock q) := by
  obtain ⟨log, rfl⟩ := h
  exact ⟨log, rfl⟩

lemma locked_alike (h : Alike p q) (dir : Path) :
    Alike { p with disk := p.disk.locked dir } { q with disk := q.disk.locked dir } := by
  obtain ⟨log, rfl⟩ := h
  exact ⟨log, rfl⟩

lemma grants_alike (h : Alike p q) (dir : Path) : grants dir p = grants dir q := by
  obtain ⟨log, rfl⟩ := h
  rfl

lemma locking_alike (h : Alike p q) (dir : Path) : Alike (locking dir p) (locking dir q) := by
  obtain ⟨log, rfl⟩ := h
  exact ⟨log, rfl⟩

/-- Who gets the lock for a plan of the source as it reads would get there in one go. -/
lemma opened_of_grants [w.parser.Deterministic w.options] (h : w.Planned (w.abs path) plan)
    (hread : p.disk.read (w.abs path) = .content plan.text)
    (hg : grants plan.decomposition.dir p = true) :
    ∃ p₁, w.opened path p = some (plan, p₁) ∧ Alike p₁ (locking plan.decomposition.dir p) := by
  obtain ⟨log, hplan⟩ := planAt_of_read h hread
  have hagain : grants plan.decomposition.dir { p with log := log } = true := hg
  refine ⟨locking plan.decomposition.dir { p with log := log }, ?_, log, rfl⟩
  unfold opened
  rw [hplan]
  simp only [acquire_of_grants hagain]

/-! Interleavings. -/

/-- How far an operation has come. -/
inductive Stage where
  | waiting
  /-- It could not make a plan. -/
  | failed
  | planned (plan : Plan)
  /-- It did not get the lock. -/
  | refused (plan : Plan)
  | holding (plan : Plan)
  /-- It did what it does while it holds the lock, and failed if there is a failure. -/
  | worked (plan : Plan) (failure : Option Failure)
  | done (plan : Plan) (failure : Option Failure)

namespace Stage

def planned? : Stage → Option Plan
  | planned plan => some plan
  | _ => none

def holding? : Stage → Option Plan
  | holding plan => some plan
  | _ => none

def holds : Stage → Bool
  | holding _ => true
  | worked _ _ => true
  | _ => false

/-- Did the operation work, whether or not it holds the lock still? -/
def through : Stage → Bool
  | worked _ _ => true
  | done _ _ => true
  | _ => false

/-- Did the operation take the lock, whether or not it holds it still? -/
def took : Stage → Bool
  | done _ _ => true
  | s => s.holds

lemma took_eq_true_iff {s : Stage} : s.took = true ↔ s.holds = true ∨ ∃ plan failure, s = .done plan failure := by
  cases s <;> simp [took, holds]

lemma done_of_through {s : Stage} (h : s.through = true) (hs : s.holds = false) :
    ∃ plan failure, s = .done plan failure := by
  cases s <;> simp_all [through, holds]

end Stage

/-- A project on which two operations are under way, and who took the lock so far and found the source as planned. -/
structure World where
  project : Project
  stage : Bool → Stage := fun _ => .waiting
  order : List Bool := []

namespace World

/-- One operation makes its next step. -/
def step (w : Workspace) (path : Path) (op : Bool → Operation) (world : World) (i : Bool) : World :=
  match world.stage i with
  | .waiting =>
    match (w.planAt (w.abs path)).run world.project with
    | (.ok plan, p) => { world with project := p, stage := Function.update world.stage i (.planned plan) }
    | (.error _, p) => { world with project := p, stage := Function.update world.stage i .failed }
  | .planned plan =>
    match (acquire plan.decomposition.dir).run world.project with
    | (.ok _, p) => {
        project := p
        stage := Function.update world.stage i (.holding plan)
        order := if world.project.disk.read (w.abs path) = .content plan.text then world.order ++ [i] else world.order }
    | (.error _, p) => { world with project := p, stage := Function.update world.stage i (.refused plan) }
  | .holding plan =>
    let (failure, p) := (op i).work w plan world.project
    { world with project := p, stage := Function.update world.stage i (.worked plan failure) }
  | .worked plan failure =>
    { world with
      project := release (lockPath plan.decomposition.dir) world.project
      stage := Function.update world.stage i (.done plan failure) }
  | .failed => world
  | .refused _ => world
  | .done _ _ => world

def run (w : Workspace) (path : Path) (op : Bool → Operation) (world : World) (schedule : List Bool) : World :=
  schedule.foldl (step w path op) world

/-- After the step at most one operation holds the lock. -/
def Exclusive (w : Workspace) (path : Path) (op : Bool → Operation) (world : World) (i : Bool) : Prop :=
  ¬ (((world.step w path op i).stage false).holds ∧ ((world.step w path op i).stage true).holds)

/-- A split that takes the lock with this step finds the source as it was when the plan was made. -/
def Fresh (w : Workspace) (path : Path) (op : Bool → Operation) (world : World) (i : Bool) : Prop :=
  ∀ plan ∈ (world.stage i).planned?, ((world.step w path op i).stage i).holds → (op i).isMerge = false →
    world.project.disk.read (w.abs path) = .content plan.text

/-- What works with this step on a source as planned leaves it so, but for a merge that succeeds. -/
def Sparing (w : Workspace) (path : Path) (op : Bool → Operation) (world : World) (i : Bool) : Prop :=
  ∀ plan ∈ (world.stage i).holding?,
    ¬ ((op i).isMerge = true ∧ ((op i).work w plan world.project).1.isNone = true) →
    world.project.disk.read (w.abs path) = .content plan.text →
      (world.step w path op i).project.disk.read (w.abs path) = .content plan.text

/-- Each step of the schedule meets the condition. -/
def Throughout (w : Workspace) (path : Path) (op : Bool → Operation) (condition : World → Bool → Prop) (world : World) :
    List Bool → Prop
  | [] => True
  | i :: rest => condition world i ∧ Throughout w path op condition (world.step w path op i) rest

instance (w : Workspace) (path : Path) (op : Bool → Operation) (world : World) (i : Bool) :
    Decidable (world.Exclusive w path op i) :=
  inferInstanceAs (Decidable (¬ (_ ∧ _)))

instance (w : Workspace) (path : Path) (op : Bool → Operation) (world : World) (i : Bool) :
    Decidable (world.Fresh w path op i) :=
  inferInstanceAs (Decidable (∀ plan ∈ (world.stage i).planned?, _ → _ → _))

instance (w : Workspace) (path : Path) (op : Bool → Operation) (world : World) (i : Bool) :
    Decidable (world.Sparing w path op i) :=
  inferInstanceAs (Decidable (∀ plan ∈ (world.stage i).holding?, _ → _ → _))

instance decidableThroughout (w : Workspace) (path : Path) (op : Bool → Operation) (condition : World → Bool → Prop)
    [∀ world i, Decidable (condition world i)] (world : World) :
    (schedule : List Bool) → Decidable (world.Throughout w path op condition schedule)
  | [] => .isTrue trivial
  | i :: rest =>
    have := decidableThroughout w path op condition (world.step w path op i) rest
    inferInstanceAs (Decidable (condition world i ∧ Throughout w path op condition (world.step w path op i) rest))

end World

/-- One operation after the other. -/
def serial (w : Workspace) (path : Path) (op : Bool → Operation) (p : Project) (order : List Bool) : Project :=
  order.foldl (fun p i => (op i).run w path p) p

lemma serial_append (w : Workspace) (path : Path) (op : Bool → Operation) (p : Project) (order : List Bool) (i : Bool) :
    w.serial path op p (order ++ [i]) = (op i).run w path (w.serial path op p order) := by
  unfold serial
  rw [List.foldl_append]
  rfl

namespace World
variable {op : Bool → Operation} {world : World} {i : Bool} {s : Stage}

/-- The project is that, but for the log, and the file of the lock if somebody asked for it in vain. -/
def Near (world : World) (p : Project) : Prop :=
  Alike world.project p ∨ ∃ j plan, world.stage j = .refused plan ∧
    Alike world.project { p with disk := p.disk.locked plan.decomposition.dir }

/-- Nobody holds the lock: the operations that took it are through. -/
structure Free (w : Workspace) (path : Path) (op : Bool → Operation) (p : Project) (world : World) : Prop where
  nobody : ∀ j, (world.stage j).holds = false
  near : world.Near (w.serial path op p world.order)

/-- The last that took the lock holds it, and the others are through. -/
structure Held (w : Workspace) (path : Path) (op : Bool → Operation) (p : Project) (world : World) (i : Bool)
    (plan : Plan) (front : List Bool) (p₁ : Project) : Prop where
  order_eq : world.order = front ++ [i]
  opened : w.opened path (w.serial path op p front) = some (plan, p₁)
  alone : ∀ j, (world.stage j).holds → j = i
  near : (world.stage i = .holding plan ∧ Alike world.project p₁) ∨
    ∃ failure, world.stage i = .worked plan failure ∧ world.Near ((op i).work w plan p₁).2

/-- As long as whoever took the lock found the source as planned. A plan is out of date only once an operation worked. -/
structure Timely (w : Workspace) (path : Path) (op : Bool → Operation) (p : Project) (world : World) : Prop where
  plans : ∀ j plan, world.stage j = .planned plan ∨ world.stage j = .refused plan → w.Planned (w.abs path) plan ∧
    (world.order = [] → p.disk.read (w.abs path) = .content plan.text)
  current : ∀ j plan, world.stage j = .planned plan → world.project.disk.read (w.abs path) = .content plan.text ∨
    w.Outdated plan world.project.database ∧ ∃ k, (world.stage k).through
  order_iff : ∀ j, j ∈ world.order ↔ (world.stage j).took
  nodup : world.order.Nodup
  state : world.Free w path op p ∨ ∃ i plan front p₁, world.Held w path op p i plan front p₁

/-- The other operation is through when a merge takes the lock with a plan that is out of date. It is refused. -/
structure Late (w : Workspace) (path : Path) (op : Bool → Operation) (p : Project) (world : World) (i : Bool)
    (plan : Plan) : Prop where
  merge : ∃ o, op i = .merge o
  outdated : w.Outdated plan world.project.database
  stage_eq : world.stage i = .holding plan ∨ ∃ e : Failure, e.toFault.code = .sourceChanged ∧
    (world.stage i = .worked plan (some e) ∨ world.stage i = .done plan (some e))
  other : ∀ j, j ≠ i → ∃ plan' failure, world.stage j = .done plan' failure
  order_iff : ∀ j, j ∈ world.order ↔ j ≠ i
  nodup : world.order.Nodup
  database_eq : world.project.database = (w.serial path op p world.order).database
  disk_eq : world.project.disk = (w.serial path op p world.order).disk.locked plan.decomposition.dir

/-- What holds after each step. -/
def Invariant (w : Workspace) (path : Path) (op : Bool → Operation) (p : Project) (world : World) : Prop :=
  world.Timely w path op p ∨ ∃ i plan, world.Late w path op p i plan

/-! Steps. -/

/-- A world with one operation moved on. -/
def moved (world : World) (i : Bool) (s : Stage) (p : Project) : World :=
  { world with project := p, stage := Function.update world.stage i s }

lemma moved_stage_self : (world.moved i s p).stage i = s := Function.update_self ..

lemma moved_stage_of_ne {j : Bool} (h : j ≠ i) : (world.moved i s p).stage j = world.stage j :=
  Function.update_of_ne h ..

lemma moved_stage (j : Bool) : (world.moved i s p).stage j = if j = i then s else world.stage j := by
  split
  · next h => rw [h, moved_stage_self]
  · next h => exact moved_stage_of_ne h

lemma step_holding_eq (hi : world.stage i = .holding plan) : world.step w path op i =
    world.moved i (.worked plan ((op i).work w plan world.project).1) ((op i).work w plan world.project).2 := by
  unfold World.step
  rw [hi]
  rfl

lemma step_worked_eq {failure : Option Failure} (hi : world.stage i = .worked plan failure) : world.step w path op i =
    world.moved i (.done plan failure) (release (lockPath plan.decomposition.dir) world.project) := by
  unfold World.step
  rw [hi]
  rfl

lemma Near.moved (h : world.Near q) (hi : ∀ plan, world.stage i ≠ .refused plan) (hp : Alike p world.project) :
    (world.moved i s p).Near q := by
  rcases h with h | ⟨j, plan, hj, h⟩
  · exact .inl (hp.trans h)
  · have hne : j ≠ i := fun he => hi plan (he ▸ hj)
    exact .inr ⟨j, plan, (moved_stage_of_ne hne).trans hj, hp.trans h⟩

/-- Who asks for the lock in vain makes its file, unless that was made before. -/
lemma Near.refused (h : world.Near q)
    (hdirs : ∀ j plan', world.stage j = .refused plan' → plan'.decomposition.dir = plan.decomposition.dir) :
    (world.moved i (.refused plan)
      { world.project with disk := world.project.disk.locked plan.decomposition.dir }).Near q := by
  refine .inr ⟨i, plan, moved_stage_self, ?_⟩
  rcases h with h | ⟨j, plan', hj, h⟩
  · exact locked_alike h _
  · have hagain := locked_alike h plan.decomposition.dir
    rw [hdirs j plan' hj] at hagain
    simp only [Disk.locked_locked] at hagain
    exact hagain

lemma Near.database_eq (h : world.Near q) : world.project.database = q.database := by
  rcases h with h | ⟨j, plan, -, h⟩ <;> exact h.database_eq

lemma Exclusive.eq (h : world.Exclusive w path op i) {j k : Bool} (hj : ((world.step w path op i).stage j).holds)
    (hk : ((world.step w path op i).stage k).holds) : j = k := by
  cases j <;> cases k <;> first | rfl | exact absurd ⟨‹_›, ‹_›⟩ h

lemma Held.holds {k : Bool} {front : List Bool} {p₁ : Project} (h : world.Held w path op p k plan front p₁) :
    (world.stage k).holds := by
  rcases h.near with ⟨hk, -⟩ | ⟨failure, hk, -⟩
  · rw [hk]; rfl
  · rw [hk]; rfl

/-- There are only two operations. -/
lemma eq_of_ne_of_ne {j k : Bool} (hj : j ≠ i) (hk : k ≠ i) : j = k := by
  revert hj hk
  cases i <;> cases j <;> cases k <;> simp

section Timely
variable [w.parser.Deterministic w.options] (h : world.Timely w path op p)
include h

lemma Timely.dir_eq {j : Bool} (hi : world.stage i = .planned plan) (hj : world.stage j = .refused plan') :
    plan'.decomposition.dir = plan.decomposition.dir :=
  (h.plans j plan' (.inr hj)).1.dir_eq (h.plans i plan (.inl hi)).1

omit [w.parser.Deterministic w.options] in
/-- As long as nobody takes or leaves the lock, the order stands. -/
lemma Timely.order_iff_moved (hs : s.took = (world.stage i).took) (q : Project) (j : Bool) :
    j ∈ world.order ↔ ((world.moved i s q).stage j).took := by
  rw [h.order_iff, moved_stage]
  split
  · next hj => rw [hj, hs]
  · rfl

omit [w.parser.Deterministic w.options] in
/-- While nobody has taken the lock the source reads as at first. -/
lemma Timely.read_of_order_nil (horder : world.order = []) {text : Text}
    (hread : world.project.disk.read (w.abs path) = .content text) : p.disk.read (w.abs path) = .content text := by
  have hfree : world.Free w path op p := by
    rcases h.state with hfree | ⟨i, plan, front, p₁, hheld⟩
    · exact hfree
    · have hne : world.order ≠ [] := by simp [hheld.order_eq]
      exact absurd horder hne
  have hnear : world.Near p := by
    have hserial := hfree.near
    rwa [horder] at hserial
  rcases hnear with hnear | ⟨j, plan, hj, hnear⟩
  · rwa [← hnear.disk_eq]
  · have hplan := (h.plans j plan (.inr hj)).2 horder
    have hlocked := Disk.read_locked hplan plan.decomposition.dir
    rw [hnear.disk_eq, hlocked] at hread
    rw [hplan, hread]

omit [w.parser.Deterministic w.options] in
/-- A plan stays as current as it is while the others move on without changing the source or the record. -/
lemma Timely.current_moved {p' : Project}
    (hread : ∀ text, world.project.disk.read (w.abs path) = .content text → p'.disk.read (w.abs path) = .content text)
    (hdb : p'.database = world.project.database) (hthrough : (world.stage i).through → s.through)
    (hnew : ∀ plan, s = .planned plan → p'.disk.read (w.abs path) = .content plan.text) (j : Bool) (plan : Plan)
    (hj : (world.moved i s p').stage j = .planned plan) : p'.disk.read (w.abs path) = .content plan.text ∨
      w.Outdated plan p'.database ∧ ∃ k, ((world.moved i s p').stage k).through := by
  rw [moved_stage] at hj
  split at hj
  · exact .inl (hnew plan hj)
  · refine (h.current j plan hj).imp (hread _) ?_
    rintro ⟨houtdated, k, hk⟩
    refine ⟨hdb ▸ houtdated, k, ?_⟩
    rw [moved_stage]
    split
    · next hki => exact hthrough (hki ▸ hk)
    · exact hk

omit [w.parser.Deterministic w.options] in
/-- A step of an operation that has not taken the lock, and does not. -/
lemma Timely.moved {p' : Project} (hi : (world.stage i).took = false) (hs : s.took = false)
    (hplans : ∀ plan, s = .planned plan ∨ s = .refused plan → w.Planned (w.abs path) plan ∧
      (world.order = [] → p.disk.read (w.abs path) = .content plan.text))
    (hread : ∀ text, world.project.disk.read (w.abs path) = .content text → p'.disk.read (w.abs path) = .content text)
    (hdb : p'.database = world.project.database)
    (hnew : ∀ plan, s = .planned plan → p'.disk.read (w.abs path) = .content plan.text)
    (hnear : ∀ q, world.Near q → (world.moved i s p').Near q)
    (hheld : ∀ j plan front p₁, world.Held w path op p j plan front p₁ → Alike world.project p₁ → Alike p' p₁) :
    (world.moved i s p').Timely w path op p := by
  have hidle : s.holds = false := by
    by_contra hholds
    simp [Stage.took_eq_true_iff.mpr (.inl (by simpa using hholds))] at hs
  have hbefore : (world.stage i).through = false := by
    revert hi
    cases world.stage i <;> simp [Stage.took, Stage.holds, Stage.through]
  refine ⟨?_, h.current_moved hread hdb (by simp [hbefore]) hnew, h.order_iff_moved (hs.trans hi.symm) p', h.nodup, ?_⟩
  · intro j plan hj
    rw [moved_stage] at hj
    split at hj
    · exact hplans plan hj
    · exact h.plans j plan hj
  · rcases h.state with hfree | ⟨k, plan, front, p₁, hk⟩
    · refine .inl ⟨fun j => ?_, hnear _ hfree.near⟩
      rw [moved_stage]
      split
      · exact hidle
      · exact hfree.nobody j
    · have hne : k ≠ i := by
        rintro rfl
        simp [Stage.took_eq_true_iff.mpr (.inl hk.holds)] at hi
      refine .inr ⟨k, plan, front, p₁, hk.order_eq, hk.opened, fun j hj => ?_, ?_⟩
      · rw [moved_stage] at hj
        split at hj
        · simp [hidle] at hj
        · exact hk.alone j hj
      · rw [moved_stage_of_ne hne]
        refine hk.near.imp ?_ ?_
        · exact fun ⟨hstage, halike⟩ => ⟨hstage, hheld k plan front p₁ hk halike⟩
        · exact fun ⟨failure, hstage, hwork⟩ => ⟨failure, hstage, hnear _ hwork⟩

lemma Timely.step_waiting (hi : world.stage i = .waiting) : (world.step w path op i).Timely w path op p := by
  obtain ⟨r, log, hrun, hplan⟩ := w.planAt_run (w.abs path) world.project
  have halike : Alike { world.project with log := log } world.project := ⟨log, rfl⟩
  have hquiet (s : Stage) (hs : s.took = false) (hplans : ∀ plan, s = .planned plan ∨ s = .refused plan →
      w.Planned (w.abs path) plan ∧ world.project.disk.read (w.abs path) = .content plan.text) :
      (world.moved i s { world.project with log := log }).Timely w path op p := by
    refine h.moved (by rw [hi]; rfl) hs ?_ (fun _ hread => hread) rfl (fun plan hs => (hplans plan (.inl hs)).2) ?_ ?_
    · intro plan hplan
      obtain ⟨hplanned, hread⟩ := hplans plan hplan
      exact ⟨hplanned, fun horder => h.read_of_order_nil horder hread⟩
    · exact fun q hnear => hnear.moved (by simp [hi]) halike
    · exact fun _ _ _ _ _ hheld => halike.trans hheld
  unfold World.step
  rw [hi]
  simp only [hrun]
  cases r with
  | error e => exact hquiet .failed rfl (by rintro plan (hs | hs) <;> cases hs)
  | ok plan =>
    refine hquiet (.planned plan) rfl ?_
    rintro plan' (hs | hs)
    · obtain rfl := Stage.planned.inj hs
      exact hplan plan rfl
    · cases hs

/-- An operation that is refused the lock. -/
lemma Timely.refused (hi : world.stage i = .planned plan) :
    (world.moved i (.refused plan)
      { world.project with disk := world.project.disk.locked plan.decomposition.dir }).Timely w path op p := by
  refine h.moved (by rw [hi]; rfl) rfl ?_ (fun _ hread => Disk.read_locked hread _) rfl ?_ ?_ ?_
  · rintro plan' (hs | hs)
    · cases hs
    · obtain rfl := Stage.refused.inj hs
      exact h.plans i plan (.inl hi)
  · rintro plan' hs
    cases hs
  · exact fun q hnear => hnear.refused fun j plan' hj => h.dir_eq hi hj
  · -- while somebody holds the lock its file is there
    intro j plan' front p₁ hheld halike
    have ho := opened_eq_some hheld.opened
    have hdir : plan'.decomposition.dir = plan.decomposition.dir :=
      ho.planned.dir_eq (h.plans i plan (.inl hi)).1
    have hthere : p₁.disk.locked plan.decomposition.dir = p₁.disk := by
      rw [ho.disk_eq, hdir, Disk.locked_locked]
    have hlocked := locked_alike halike plan.decomposition.dir
    rwa [hthere] at hlocked

omit [w.parser.Deterministic w.options] in
/-- If one of the two has not taken the lock, only the other can have. -/
lemma Timely.ne_of_mem_order {j k : Bool} (hj : (world.stage j).took = false) (hk : k ∈ world.order) : k ≠ j := by
  rintro rfl
  rw [h.order_iff, hj] at hk
  cases hk

omit [w.parser.Deterministic w.options] in
lemma Timely.order_eq_nil {j : Bool} (hi : (world.stage i).took = false) (hj : (world.stage j).took = false)
    (hji : j ≠ i) : world.order = [] :=
  List.eq_nil_iff_forall_not_mem.mpr fun _ hk =>
    h.ne_of_mem_order hj hk (eq_of_ne_of_ne (h.ne_of_mem_order hi hk) hji)

/-- Who gets the lock would have got it after the operations before. -/
lemma Timely.exists_opened (hfree : world.Free w path op p) (hi : world.stage i = .planned plan)
    (hfresh : world.project.disk.read (w.abs path) = .content plan.text)
    (hgrants : grants plan.decomposition.dir world.project = true) :
    ∃ p₁, w.opened path (w.serial path op p world.order) = some (plan, p₁) ∧
      Alike (locking plan.decomposition.dir world.project) p₁ := by
  obtain ⟨hplanned, hfirst⟩ := h.plans i plan (.inl hi)
  rcases hfree.near with hnear | ⟨j, plan', hj, hnear⟩
  · have hread : (w.serial path op p world.order).disk.read (w.abs path) = .content plan.text := by
      rwa [← hnear.disk_eq]
    obtain ⟨p₁, hopen, halike⟩ := opened_of_grants hplanned hread ((grants_alike hnear _).symm.trans hgrants)
    exact ⟨p₁, hopen, (locking_alike hnear _).trans halike.symm⟩
  · -- the other was refused, so nobody has taken the lock yet
    have hne : j ≠ i := by
      rintro rfl
      rw [hi] at hj
      cases hj
    have horder : world.order = [] := h.order_eq_nil (by rw [hi]; rfl) (by rw [hj]; rfl) hne
    rw [horder] at hnear ⊢
    have hdir := h.dir_eq hi hj
    rw [hdir] at hnear
    have hgrants' : grants plan.decomposition.dir (w.serial path op p []) = true :=
      grants_of_locked ((grants_alike hnear _).symm.trans hgrants)
    obtain ⟨p₁, hopen, halike⟩ := opened_of_grants hplanned (hfirst horder) hgrants'
    refine ⟨p₁, hopen, (locking_alike hnear _).trans ?_⟩
    have hagain : locking plan.decomposition.dir { w.serial path op p [] with
        disk := (w.serial path op p []).disk.locked plan.decomposition.dir } =
          locking plan.decomposition.dir (w.serial path op p []) := by
      simp only [locking, Disk.locked_locked]
    rw [hagain]
    exact halike.symm

/-- An operation that is granted the lock while nobody holds it, and finds the source as planned. -/
lemma Timely.granted (hfree : world.Free w path op p) (hi : world.stage i = .planned plan)
    (hfresh : world.project.disk.read (w.abs path) = .content plan.text)
    (hgrants : grants plan.decomposition.dir world.project = true) :
    ({ world.moved i (.holding plan) (locking plan.decomposition.dir world.project) with
      order := world.order ++ [i] } : World).Timely w path op p := by
  obtain ⟨p₁, hopen, halike⟩ := h.exists_opened hfree hi hfresh hgrants
  have hnew : i ∉ world.order := by
    rw [h.order_iff, hi]
    exact Bool.false_ne_true
  refine ⟨?_, h.current_moved (fun _ hread => Disk.read_locked hread _) rfl (by simp [hi, Stage.through])
    (fun plan' hs => by cases hs), ?_, ?_, .inr ⟨i, plan, world.order, p₁, rfl, hopen, ?_, .inl ⟨?_, halike⟩⟩⟩
  · intro j plan' hj
    simp only [moved_stage] at hj
    split at hj
    · rcases hj with hj | hj <;> cases hj
    · exact ⟨(h.plans j plan' hj).1, fun horder => by simp at horder⟩
  · intro j
    simp only [moved_stage, List.mem_append, List.mem_singleton, h.order_iff]
    split
    · next hj => exact iff_of_true (.inr hj) rfl
    · next hj => exact or_iff_left hj
  · refine List.nodup_append.mpr ⟨h.nodup, List.pairwise_singleton _ i, ?_⟩
    rintro j hj k hk rfl
    exact hnew (List.mem_singleton.mp hk ▸ hj)
  · intro j hj
    simp only [moved_stage] at hj
    split at hj
    · assumption
    · simp [hfree.nobody j] at hj
  · exact moved_stage_self (p := world.project)

omit [w.parser.Deterministic w.options] in
/-- A merge that is granted the lock when its plan is out of date. -/
lemma Timely.late (hfree : world.Free w path op p) (hi : world.stage i = .planned plan) {o : MergeOptions}
    (hmerge : op i = .merge o) (hstale : world.project.disk.read (w.abs path) ≠ .content plan.text) :
    (world.moved i (.holding plan) (locking plan.decomposition.dir world.project)).Late w path op p i plan := by
  obtain ⟨houtdated, k, hk⟩ := (h.current i plan hi).resolve_left hstale
  have hki : k ≠ i := by
    rintro rfl
    rw [hi] at hk
    cases hk
  have hother (j : Bool) (hj : j ≠ i) : ∃ plan' failure, world.stage j = .done plan' failure :=
    Stage.done_of_through (eq_of_ne_of_ne hki hj ▸ hk) (hfree.nobody j)
  have hnear : Alike world.project (w.serial path op p world.order) := by
    rcases hfree.near with hnear | ⟨j, plan', hj, -⟩
    · exact hnear
    · by_cases hji : j = i
      · rw [hji, hi] at hj
        cases hj
      · obtain ⟨_, _, hdone⟩ := hother j hji
        rw [hdone] at hj
        cases hj
  refine ⟨⟨o, hmerge⟩, houtdated, .inl moved_stage_self, fun j hj => ?_, fun j => ?_, h.nodup, hnear.database_eq, ?_⟩
  · rw [moved_stage_of_ne hj]
    exact hother j hj
  · change j ∈ world.order ↔ j ≠ i
    rw [h.order_iff]
    by_cases hji : j = i
    · rw [hji, hi]
      exact iff_of_false Bool.false_ne_true fun hne => hne rfl
    · obtain ⟨_, _, hdone⟩ := hother j hji
      rw [hdone]
      exact iff_of_true rfl hji
  · change (locking plan.decomposition.dir world.project).disk = _
    rw [locking, hnear.disk_eq]
    rfl

lemma Timely.step_planned (hi : world.stage i = .planned plan) (hexclusive : world.Exclusive w path op i)
    (hfresh : world.Fresh w path op i) : (world.step w path op i).Invariant w path op p := by
  cases hg : grants plan.decomposition.dir world.project with
  | false =>
    obtain ⟨e, hacq⟩ := acquire_of_not_grants hg
    unfold World.step
    rw [hi]
    simp only [hacq]
    exact .inl (h.refused hi)
  | true =>
    have hstep : world.step w path op i =
        { world.moved i (.holding plan) (locking plan.decomposition.dir world.project) with
          order := if world.project.disk.read (w.abs path) = .content plan.text then world.order ++ [i]
            else world.order } := by
      unfold World.step
      rw [hi]
      simp only [acquire_of_grants hg]
      rfl
    have hholds : ((world.step w path op i).stage i).holds := by
      rw [hstep, moved_stage_self]
      rfl
    have hfree : world.Free w path op p := by
      rcases h.state with hfree | ⟨k, plan', front, p₁, hk⟩
      · exact hfree
      · have hne : k ≠ i := by
          rintro rfl
          have hidle := hk.holds
          rw [hi] at hidle
          cases hidle
        have hboth : ((world.step w path op i).stage k).holds := by
          rw [hstep, moved_stage_of_ne hne]
          exact hk.holds
        exact absurd (hexclusive.eq hboth hholds) hne
    have hsplit := hfresh plan (by rw [hi]; rfl) hholds
    rw [hstep]
    by_cases hread : world.project.disk.read (w.abs path) = .content plan.text
    · rw [if_pos hread]
      exact .inl (h.granted hfree hi hread hg)
    · rw [if_neg hread]
      cases hop : op i with
      | split force => exact absurd (hsplit (by rw [hop]; rfl)) hread
      | merge o => exact .inr ⟨i, plan, h.late hfree hi hop hread⟩

omit [w.parser.Deterministic w.options] in
lemma Timely.plans_moved (hs : s.took = true) (q : Project) (j : Bool) (plan : Plan)
    (hj : (world.moved i s q).stage j = .planned plan ∨ (world.moved i s q).stage j = .refused plan) :
    w.Planned (w.abs path) plan ∧ (world.order = [] → p.disk.read (w.abs path) = .content plan.text) := by
  rw [moved_stage] at hj
  split at hj
  · rcases hj with rfl | rfl <;> cases hs
  · exact h.plans j plan hj

omit [w.parser.Deterministic w.options] in
/-- Who holds the lock is the last that took it. -/
lemma Timely.held (hi : (world.stage i).holds) : ∃ plan front p₁, world.Held w path op p i plan front p₁ := by
  rcases h.state with hfree | ⟨k, plan, front, p₁, hk⟩
  · simp [hfree.nobody i] at hi
  · obtain rfl := hk.alone i hi
    exact ⟨plan, front, p₁, hk⟩

omit [w.parser.Deterministic w.options] in
lemma Timely.held_holding (hi : world.stage i = .holding plan) :
    ∃ front p₁, world.Held w path op p i plan front p₁ ∧ Alike world.project p₁ := by
  obtain ⟨plan', front, p₁, hheld⟩ := h.held (i := i) (by rw [hi]; rfl)
  rcases hheld.near with ⟨hstage, halike⟩ | ⟨failure, hstage, -⟩
  · obtain rfl := Stage.holding.inj (hi.symm.trans hstage)
    exact ⟨front, p₁, hheld, halike⟩
  · rw [hi] at hstage
    cases hstage

omit [w.parser.Deterministic w.options] in
lemma Timely.held_worked {failure : Option Failure} (hi : world.stage i = .worked plan failure) :
    ∃ front p₁, world.Held w path op p i plan front p₁ ∧ world.Near ((op i).work w plan p₁).2 := by
  obtain ⟨plan', front, p₁, hheld⟩ := h.held (i := i) (by rw [hi]; rfl)
  rcases hheld.near with ⟨hstage, -⟩ | ⟨failure', hstage, hnear⟩
  · rw [hi] at hstage
    cases hstage
  · obtain ⟨rfl, -⟩ := Stage.worked.inj (hi.symm.trans hstage)
    exact ⟨front, p₁, hheld, hnear⟩

omit [w.parser.Deterministic w.options] in
/-- If the other has a plan, who holds the lock is the first that took it. -/
lemma Timely.front_eq_nil {front : List Bool} {p₁ : Project} (hheld : world.Held w path op p i plan front p₁) {j : Bool}
    (hj : world.stage j = .planned plan') (hji : j ≠ i) : front = [] := by
  refine List.eq_nil_iff_forall_not_mem.mpr fun k hk => ?_
  have hnodup := h.nodup
  rw [hheld.order_eq, List.nodup_append] at hnodup
  have hki : k ≠ i := hnodup.2.2 k hk i (List.mem_singleton_self i)
  have hmem : k ∈ world.order := by
    rw [hheld.order_eq]
    exact List.mem_append_left _ hk
  exact h.ne_of_mem_order (by rw [hj]; rfl) hmem (eq_of_ne_of_ne hki hji)

omit [w.parser.Deterministic w.options] in
/-- Nobody has worked while one holds the lock and the other has a plan. -/
lemma Timely.read_of_holding {j : Bool} (hi : world.stage i = .holding plan) (hj : world.stage j = .planned plan')
    (hji : j ≠ i) : world.project.disk.read (w.abs path) = .content plan'.text := by
  refine (h.current j plan' hj).resolve_right ?_
  rintro ⟨-, k, hk⟩
  by_cases hki : k = i
  · rw [hki, hi] at hk
    cases hk
  · rw [eq_of_ne_of_ne hki hji, hj] at hk
    cases hk

section Record
variable (hrecords : w.records = true) (hdigest : Function.Injective w.digest) (hclock : Monotone w.clock)
  (hm : p.database.manifest = some m) (hsound : m.Sound)
  (hpast : ∀ r ∈ m.runs, r.source = w.key (w.abs path) → r.createdAt ≤ w.clock p.ticks)
include hrecords hdigest hclock hm hsound hpast

/-- The plan of the other was made of the same text. After the work it is either still one of the source as it reads,
or out of date. -/
lemma Timely.current_worked (hi : world.stage i = .holding plan) (hsparing : world.Sparing w path op i) (j : Bool)
    (plan' : Plan) (hj : (world.step w path op i).stage j = .planned plan') :
    (world.step w path op i).project.disk.read (w.abs path) = .content plan'.text ∨
      w.Outdated plan' (world.step w path op i).project.database ∧
        ∃ k, ((world.step w path op i).stage k).through := by
  have hpart := hsparing plan (by rw [hi]; rfl)
  have hthrough : ((world.step w path op i).stage i).through := by
    rw [step_holding_eq hi, moved_stage_self]
    rfl
  have hji : j ≠ i := by
    rintro rfl
    rw [hj] at hthrough
    cases hthrough
  rw [step_holding_eq hi] at hpart hj hthrough ⊢
  rw [moved_stage_of_ne hji] at hj
  obtain ⟨front, p₁, hheld, halike⟩ := h.held_holding hi
  obtain rfl := h.front_eq_nil hheld hj hji
  have ho := opened_eq_some hheld.opened
  have hown : world.project.disk.read (w.abs path) = .content plan.text := by
    rw [halike.disk_eq, ho.disk_eq]
    exact Disk.read_locked ho.source_read _
  have htext : plan.text = plan'.text := Reading.content.inj (hown.symm.trans (h.read_of_holding hi hj hji))
  have hplanned' := (h.plans j plan' (.inl hj)).1
  by_cases hsuccess : (op i).isMerge = true ∧ ((op i).work w plan world.project).1.isNone = true
  swap
  · exact .inl (htext ▸ hpart hsuccess hown)
  have hticks : world.project.ticks = p.ticks := by
    obtain ⟨log, hlog⟩ := halike
    rw [hlog]
    exact ho.ticks_eq
  have hsource := ho.planned.source_eq
  have hafter := Operation.work_outdates hrecords hdigest hclock
    ((halike.database_eq.trans ho.database_eq) ▸ hm) hsound (by rw [hsource, hticks]; exact hpast)
    (by rw [hsource]; exact hown) ho.planned.hash_eq hsuccess.1 hsuccess.2
  rw [hsource] at hafter
  refine hafter.imp (fun hread => htext ▸ hread) fun houtdated => ⟨houtdated.congr ?_ ?_, i, hthrough⟩
  · rw [hsource, hplanned'.source_eq]
  · rw [ho.planned.hash_eq, htext, ← hplanned'.hash_eq]

lemma Timely.step_holding (hi : world.stage i = .holding plan) (hsparing : world.Sparing w path op i) :
    (world.step w path op i).Timely w path op p := by
  have hcurrent := h.current_worked hrecords hdigest hclock hm hsound hpast hi hsparing
  obtain ⟨front, p₁, hheld, halike⟩ := h.held_holding hi
  rw [step_holding_eq hi] at hcurrent ⊢
  refine ⟨h.plans_moved rfl _, hcurrent, h.order_iff_moved (by rw [hi]; rfl) _, h.nodup,
    .inr ⟨i, plan, front, p₁, hheld.order_eq, hheld.opened, ?_, .inr ⟨_, moved_stage_self, ?_⟩⟩⟩
  · intro j hj
    rw [moved_stage] at hj
    split at hj
    · assumption
    · exact hheld.alone j hj
  · exact .inl ((op i).work_alike halike plan)

end Record

omit [w.parser.Deterministic w.options] in
lemma Timely.step_worked {failure : Option Failure} (hi : world.stage i = .worked plan failure) :
    (world.step w path op i).Timely w path op p := by
  obtain ⟨front, p₁, hheld, hnear⟩ := h.held_worked hi
  have hserial : w.serial path op p world.order =
      release (lockPath plan.decomposition.dir) ((op i).work w plan p₁).2 := by
    rw [hheld.order_eq, serial_append, (op i).run_of_opened hheld.opened]
  rw [step_worked_eq hi]
  refine ⟨h.plans_moved rfl _, h.current_moved (fun _ hread => hread) rfl (fun _ => rfl) (fun _ hs => by cases hs),
    h.order_iff_moved (by rw [hi]; rfl) _, h.nodup, .inl ⟨?_, ?_⟩⟩
  · intro j
    rw [moved_stage]
    split
    · rfl
    · next hne => exact Bool.eq_false_iff.mpr fun hj => hne (hheld.alone j hj)
  · change (world.moved i (.done plan failure) _).Near (w.serial path op p world.order)
    rw [hserial]
    rcases hnear with hnear | ⟨j, plan', hj, hnear⟩
    · exact .inl (release_alike hnear _)
    · have hne : j ≠ i := by
        rintro rfl
        rw [hi] at hj
        cases hj
      exact .inr ⟨j, plan', (moved_stage_of_ne hne).trans hj, release_alike hnear _⟩

end Timely

/-- The merge that is late only gives back the lock. -/
lemma Late.step (hrecords : w.records = true) {k : Bool} (h : world.Late w path op p k plan) (i : Bool) :
    (world.step w path op i).Late w path op p k plan := by
  by_cases hik : i = k
  swap
  · obtain ⟨_, _, hdone⟩ := h.other i hik
    have hstep : world.step w path op i = world := by simp only [World.step, hdone]
    rwa [hstep]
  subst hik
  have hothers (s : Stage) (q : Project) (j : Bool) (hj : j ≠ i) :
      ∃ plan' failure, (world.moved i s q).stage j = .done plan' failure := by
    rw [moved_stage_of_ne hj]
    exact h.other j hj
  obtain ⟨o, hop⟩ := h.merge
  rcases h.stage_eq with hi | ⟨e, he, hi | hi⟩
  · obtain ⟨e, he, hrun⟩ := h.outdated.mergePlan_run hrecords { o with resplit := true }
    have hwork : (op i).work w plan world.project = (some e, world.project) := by simp only [hop, Operation.work, hrun]
    rw [step_holding_eq hi, hwork]
    exact ⟨h.merge, h.outdated, .inr ⟨e, he, .inl moved_stage_self⟩, hothers _ _, h.order_iff, h.nodup, h.database_eq,
      h.disk_eq⟩
  · rw [step_worked_eq hi]
    exact ⟨h.merge, h.outdated, .inr ⟨e, he, .inr moved_stage_self⟩, hothers _ _, h.order_iff, h.nodup, h.database_eq,
      h.disk_eq⟩
  · have hstep : world.step w path op i = world := by simp only [World.step, hi]
    rwa [hstep]

section Invariants
variable [w.parser.Deterministic w.options] (hrecords : w.records = true) (hdigest : Function.Injective w.digest)
  (hclock : Monotone w.clock) (hm : p.database.manifest = some m) (hsound : m.Sound)
  (hpast : ∀ r ∈ m.runs, r.source = w.key (w.abs path) → r.createdAt ≤ w.clock p.ticks)
include hrecords hdigest hclock hm hsound hpast

/-- Each step keeps what holds throughout. -/
lemma Invariant.step (h : world.Invariant w path op p) (hexclusive : world.Exclusive w path op i)
    (hfresh : world.Fresh w path op i) (hsparing : world.Sparing w path op i) :
    (world.step w path op i).Invariant w path op p := by
  rcases h with h | ⟨k, plan, h⟩
  · cases hi : world.stage i with
    | waiting => exact .inl (h.step_waiting hi)
    | planned plan => exact h.step_planned hi hexclusive hfresh
    | holding plan => exact .inl (h.step_holding hrecords hdigest hclock hm hsound hpast hi hsparing)
    | worked plan failure => exact .inl (h.step_worked hi)
    | failed => exact .inl (by simpa only [World.step, hi] using h)
    | refused plan => exact .inl (by simpa only [World.step, hi] using h)
    | done plan failure => exact .inl (by simpa only [World.step, hi] using h)
  · exact .inr ⟨k, plan, h.step hrecords i⟩

lemma Invariant.run (h : world.Invariant w path op p) {schedule : List Bool}
    (hexclusive : world.Throughout w path op (Exclusive w path op) schedule)
    (hfresh : world.Throughout w path op (Fresh w path op) schedule)
    (hsparing : world.Throughout w path op (Sparing w path op) schedule) :
    (world.run w path op schedule).Invariant w path op p := by
  induction schedule generalizing world with
  | nil => exact h
  | cons i rest ih =>
    exact ih (h.step hrecords hdigest hclock hm hsound hpast hexclusive.1 hfresh.1 hsparing.1) hexclusive.2 hfresh.2
      hsparing.2

end Invariants

lemma Invariant.start (w : Workspace) (path : Path) (op : Bool → Operation) (p : Project) :
    Invariant w path op p { project := p } := by
  refine .inl ⟨?_, ?_, fun j => iff_of_false List.not_mem_nil Bool.false_ne_true, List.nodup_nil,
    .inl ⟨fun _ => rfl, .inl (Alike.refl p)⟩⟩
  · rintro j plan (hj | hj) <;> cases hj
  · intro j plan hj
    cases hj

end World

/-- Two operations on a source, splits or merges that split again, whose steps are interleaved: at most one holds the
lock. As long as a split that takes it finds the source as planned, and no split and no operation that fails changes
the source, the record and the files are those of the operations that took the lock and found the source as planned, one
after the other in the order they took it. An operation that got further and is not among them is a merge that was
refused, because the source had changed. Only the file of the lock may be there although nobody in the order took it. -/
theorem interleaving_serial (w : Workspace) [w.parser.Deterministic w.options] (path : Path) (op : Bool → Operation)
    (p : Project) (schedule : List Bool) (hrecords : w.records = true) (hdigest : Function.Injective w.digest)
    (hclock : Monotone w.clock) (hm : p.database.manifest = some m) (hsound : m.Sound)
    (hpast : ∀ r ∈ m.runs, r.source = w.key (w.abs path) → r.createdAt ≤ w.clock p.ticks)
    (hexclusive : World.Throughout w path op (World.Exclusive w path op) { project := p } schedule)
    (hfresh : World.Throughout w path op (World.Fresh w path op) { project := p } schedule)
    (hsparing : World.Throughout w path op (World.Sparing w path op) { project := p } schedule)
    {final : World} (hfinal : World.run w path op { project := p } schedule = final)
    (hfree : ∀ i, (final.stage i).holds = false) :
    final.order.Nodup ∧ (∀ i ∈ final.order, ∃ plan failure, final.stage i = .done plan failure) ∧
    (∀ i plan failure, final.stage i = .done plan failure →
      i ∈ final.order ∨ (op i).isMerge = true ∧ ∃ e : Failure, failure = some e ∧ e.toFault.code = .sourceChanged) ∧
    final.project.database = (w.serial path op p final.order).database ∧
    (∀ x data, (w.serial path op p final.order).disk.read x = .content data →
      final.project.disk.read x = .content data) ∧
    ∀ x, (∀ i plan, final.stage i = .refused plan ∨ i ∉ final.order ∧ (∃ failure, final.stage i = .done plan failure) →
        Disk.key x ≠ Disk.key (lockPath plan.decomposition.dir)) →
      final.project.disk.stored? x = (w.serial path op p final.order).disk.stored? x := by
  have h : final.Invariant w path op p :=
    hfinal ▸ (World.Invariant.start w path op p).run hrecords hdigest hclock hm hsound hpast hexclusive hfresh hsparing
  rcases h with h | ⟨k, plan, h⟩
  · have hnear : final.Near (w.serial path op p final.order) := by
      rcases h.state with hfree | ⟨i, plan, front, p₁, hheld⟩
      · exact hfree.near
      · have hholds := hheld.holds
        simp [hfree i] at hholds
    refine ⟨h.nodup, fun i hi => ?_, fun i plan failure hi => .inl ?_, hnear.database_eq, ?_⟩
    · exact (Stage.took_eq_true_iff.mp ((h.order_iff i).mp hi)).resolve_left (by simp [hfree i])
    · rw [h.order_iff, hi]
      rfl
    · rcases hnear with hnear | ⟨i, plan, hi, hnear⟩
      · rw [hnear.disk_eq]
        exact ⟨fun _ _ hread => hread, fun _ _ => rfl⟩
      · rw [hnear.disk_eq]
        exact ⟨fun x data hread => Disk.read_locked hread _, fun x hx => Disk.stored?_locked _ (hx i plan (.inl hi))⟩
  · -- the late merge is through too, as nobody holds the lock
    obtain ⟨e, he, hk⟩ : ∃ e : Failure, e.toFault.code = .sourceChanged ∧ final.stage k = .done plan (some e) := by
      rcases h.stage_eq with hk | ⟨e, he, hk | hk⟩
      · have hholds := hfree k
        rw [hk] at hholds
        cases hholds
      · have hholds := hfree k
        rw [hk] at hholds
        cases hholds
      · exact ⟨e, he, hk⟩
    refine ⟨h.nodup, fun i hi => h.other i ((h.order_iff i).mp hi), fun i plan' failure hi => ?_, h.database_eq, ?_⟩
    · by_cases hik : i = k
      · subst hik
        obtain ⟨-, rfl⟩ := Stage.done.inj (hk.symm.trans hi)
        obtain ⟨o, hop⟩ := h.merge
        exact .inr ⟨by rw [hop]; rfl, e, rfl, he⟩
      · exact .inl ((h.order_iff i).mpr hik)
    · rw [h.disk_eq]
      refine ⟨fun x data hread => Disk.read_locked hread _, fun x hx => Disk.stored?_locked _ (hx k plan (.inr ?_))⟩
      exact ⟨fun hmem => (h.order_iff k).mp hmem rfl, _, hk⟩

def twoMerges : Bool → Operation := fun _ => .merge {}

/-- Both plan before the first takes the lock, which folds in an edit and splits again. The second is refused. -/
theorem interleaved_plans_serial :
    ∃ final, World.run openWorkspace "t/x.ts" twoMerges { project := editedPair }
        [false, true, false, false, false, true, true, true] = final ∧
      final.order = [false] ∧
      (∃ plan e, final.stage true = .done plan (some e) ∧ e.toFault.code = .sourceChanged) ∧
      final.project.database = (openWorkspace.serial "t/x.ts" twoMerges editedPair [false]).database ∧
      final.project.disk.read "/work/t/x.ts" = .content mergedText := by
  have hfacts : World.Throughout openWorkspace "t/x.ts" twoMerges
        (World.Exclusive openWorkspace "t/x.ts" twoMerges) { project := editedPair }
        [false, true, false, false, false, true, true, true] ∧
      World.Throughout openWorkspace "t/x.ts" twoMerges (World.Fresh openWorkspace "t/x.ts" twoMerges)
        { project := editedPair } [false, true, false, false, false, true, true, true] ∧
      World.Throughout openWorkspace "t/x.ts" twoMerges (World.Sparing openWorkspace "t/x.ts" twoMerges)
        { project := editedPair } [false, true, false, false, false, true, true, true] ∧
      (World.run openWorkspace "t/x.ts" twoMerges { project := editedPair }
        [false, true, false, false, false, true, true, true]).order = [false] ∧
      (∀ i, ((World.run openWorkspace "t/x.ts" twoMerges { project := editedPair }
        [false, true, false, false, false, true, true, true]).stage i).through = true) ∧
      (∀ i, ((World.run openWorkspace "t/x.ts" twoMerges { project := editedPair }
        [false, true, false, false, false, true, true, true]).stage i).holds = false) ∧
      (openWorkspace.serial "t/x.ts" twoMerges editedPair [false]).disk.read "/work/t/x.ts" = .content mergedText ∧
      ∀ run ∈ editedManifest.runs, run.source = openWorkspace.key (openWorkspace.abs "t/x.ts") →
        run.createdAt ≤ openWorkspace.clock editedPair.ticks := by
    decide +kernel
  obtain ⟨hexclusive, hfresh, hsparing, horder, hthrough, hfree, hread, hpast⟩ := hfacts
  have hsound : editedManifest.Sound := by constructor <;> decide
  obtain ⟨-, -, hdone, hdatabase, hkept, -⟩ := interleaving_serial openWorkspace "t/x.ts" twoMerges editedPair _ rfl
    Function.injective_id monotone_sampleClock rfl hsound hpast hexclusive hfresh hsparing rfl hfree
  rw [horder] at hdone hdatabase hkept
  refine ⟨_, rfl, horder, ?_, hdatabase, hkept _ _ hread⟩
  obtain ⟨plan, failure, hsecond⟩ := Stage.done_of_through (hthrough true) (hfree true)
  rcases hdone true plan failure hsecond with hmem | ⟨-, e, rfl, he⟩
  · simp at hmem
  · exact ⟨plan, e, hsecond, he⟩

/-- A project whose only piece was edited after it was split. -/
def editedProject : Project :=
  (sampleWorkspace.story loneProject [.split "t/x.ts", .put "/work/p/x/types/A.d.ts" "type A=5\n"]).project

def splitAndMerge : Bool → Operation
  | false => .split false
  | true => .merge {}

/-- A project in which a directory stands where the second piece belongs. -/
def blockedProject : Project := (Event.makeDir "/work/p/x/types/B.d.ts").run sampleWorkspace unsplitProject

/-- A split that planned before a merge was through puts back the old piece, which it does in neither order. And a
split that fails leaves what it wrote. -/
theorem interleavings_not_serial :
    (World.Throughout sampleWorkspace "t/x.ts" splitAndMerge
        (World.Exclusive sampleWorkspace "t/x.ts" splitAndMerge) { project := editedProject }
        [false, true, true, true, true, false, false, false] ∧
      (World.run sampleWorkspace "t/x.ts" splitAndMerge { project := editedProject }
        [false, true, true, true, true, false, false, false]).project.disk.read "/work/p/x/types/A.d.ts" =
          .content "type A=1\n\n/*@piece-export*/ export \x7b A \x7d;\n" ∧
      ∀ i, (sampleWorkspace.serial "t/x.ts" splitAndMerge editedProject [i, !i]).disk.read "/work/p/x/types/A.d.ts" =
        .content "type A=5\n\n/*@piece-export*/ export \x7b A \x7d;\n") ∧
    World.Throughout sampleWorkspace "t/x.ts" (fun _ => .split false)
        (World.Exclusive sampleWorkspace "t/x.ts" fun _ => .split false) { project := blockedProject }
        [false, false, false, false, true, true, true, true] ∧
      ((sampleWorkspace.split "t/x.ts" false).run blockedProject).1.isOk = false ∧
      ((sampleWorkspace.split "t/x.ts" false).run
        ((sampleWorkspace.split "t/x.ts" false).run blockedProject).2).1.isOk = false ∧
      blockedProject.disk.stored? "/work/p/x/types/A.d.ts" = none ∧
      (World.run sampleWorkspace "t/x.ts" (fun _ => .split false) { project := blockedProject }
        [false, false, false, false, true, true, true, true]).project.disk.stored? "/work/p/x/types/A.d.ts" =
          some "type A=1\n\n/*@piece-export*/ export \x7b A \x7d;\n" := by
  unfold editedProject blockedProject
  rw [sampleWorkspace_eq]
  decide +kernel

end Workspace

end DeclPieces
