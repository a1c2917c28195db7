import DeclPieces.Jobs
import Mathlib.Data.List.Basic
import Mathlib.Order.OrderIsoNat

/-! Workers that run over many files at once, never more of them than a limit. In whatever order they make their
steps, each entry of the list is taken up once, and what is reported is what running over the files one after the
other reports. -/
namespace DeclPieces
variable {σ : Type} {limit : Nat} {cancelled : Bool} {result : Except Fault Unit} {outcome : Path → Except Fault Unit}

/-- What is done to one file, step by step. Between the steps others may change the state. -/
inductive Task (σ : Type) where
  | done (result : Except Fault Unit)
  | step (effect : σ → σ) (next : σ → Task σ)

namespace Task

/-- The task without interruption. -/
def run : Task σ → σ → Except Fault Unit × σ
  | done result, s => (result, s)
  | step effect next, s => (next s).run (effect s)

/-- The task ends with that result, whatever others do between its steps. -/
inductive Settles (result : Except Fault Unit) : Task σ → Prop
  | done : Settles result (.done result)
  | step {effect : σ → σ} {next : σ → Task σ} (h : ∀ s, Settles result (next s)) : Settles result (.step effect next)

end Task

namespace RunOutcome

/-- The fault with which a file failed, if it did. -/
def fault? : Except Fault Unit → Option Fault
  | .ok () => none
  | .error e => some e

end RunOutcome

/-! Pools. -/

namespace Pool

/-- How far a worker has come with its file. -/
inductive Stage (σ : Type) where
  | launched
  /-- The function is called; that is what is left to do. -/
  | calling (rest : Task σ)
  /-- The outcome is stored, but the worker still has its place. -/
  | returned (fault : Option Fault)
  | finished (fault : Option Fault)

structure Worker (σ : Type) where
  path : Path
  stage : Stage σ

/-- What is done next: a worker is launched for the next file, or a worker makes a step. -/
inductive Move where
  | launch
  | advance (i : Nat)
  deriving DecidableEq, Repr

namespace Stage

def isRunning : Stage σ → Bool
  | finished _ => false
  | _ => true

def isLaunched : Stage σ → Bool
  | launched => true
  | _ => false

/-- The fault that is stored. -/
def fault? : Stage σ → Option Fault
  | returned fault => fault
  | finished fault => fault
  | _ => none

/-- The next step of a worker whose file has that task. Once cancelled, the function is not called. -/
def next? (cancelled : Bool) (task : Task σ) : Stage σ → σ → Option (Stage σ × σ)
  | launched, s => if cancelled then some (returned (some RunOutcome.interrupted), s) else some (calling task, s)
  | calling (.step effect next), s => some (calling (next s), effect s)
  | calling (.done result), s => some (returned (RunOutcome.fault? result), s)
  | returned fault, s => some (finished fault, s)
  | finished _, _ => none

end Stage

end Pool

/-- The files for which no worker is launched yet, and the workers of the others in the order of the files. -/
structure Pool (σ : Type) where
  waiting : List Path
  workers : List (Pool.Worker σ) := []
  state : σ
  /-- The entries of the list for which the function was called, in the order of the calls. -/
  calls : List Nat := []

namespace Pool
variable {work : Path → Task σ} {files : List Path} {pool later : Pool σ} {move : Move} {schedule : List Move}

/-- The workers that have a place. -/
def running (pool : Pool σ) : Nat := pool.workers.countP (·.stage.isRunning)

def start (files : List Path) (s : σ) : Pool σ := { waiting := files, state := s }

def step (limit : Nat) (cancelled : Bool) (work : Path → Task σ) (pool : Pool σ) : Move → Option (Pool σ)
  | .launch =>
    match pool.waiting with
    | [] => none
    | path :: rest =>
      if pool.running < limit then
        some { pool with waiting := rest, workers := pool.workers ++ [⟨path, .launched⟩] }
      else none
  | .advance i => do
    let worker ← pool.workers[i]?
    let (stage, state) ← worker.stage.next? cancelled (work worker.path) pool.state
    return { pool with
      workers := pool.workers.set i { worker with stage := stage }
      state := state
      calls := if worker.stage.isLaunched && !cancelled then pool.calls ++ [i] else pool.calls }

def run (limit : Nat) (cancelled : Bool) (work : Path → Task σ) (pool : Pool σ) (schedule : List Move) :
    Option (Pool σ) :=
  schedule.foldlM (step limit cancelled work) pool

/-- All that a step can do. -/
lemma step_cases (h : pool.step limit cancelled work move = some later) :
    (∃ path rest, pool.waiting = path :: rest ∧ pool.running < limit ∧
      later = { pool with waiting := rest, workers := pool.workers ++ [⟨path, .launched⟩] }) ∨
    ∃ before worker after stage state, pool.workers = before ++ worker :: after ∧
      worker.stage.next? cancelled (work worker.path) pool.state = some (stage, state) ∧
      later = { pool with
        workers := before ++ { worker with stage := stage } :: after
        state := state
        calls := if worker.stage.isLaunched && !cancelled then pool.calls ++ [before.length] else pool.calls } := by
  cases move with
  | launch =>
    left
    simp only [step] at h
    split at h
    · cases h
    · next path rest hwaiting =>
      split at h
      · next hfree => exact ⟨path, rest, hwaiting, hfree, (Option.some.inj h).symm⟩
      · cases h
  | advance i =>
    right
    obtain ⟨worker, hworker, h⟩ := Option.bind_eq_some_iff.mp h
    obtain ⟨⟨stage, state⟩, hnext, h⟩ := Option.bind_eq_some_iff.mp h
    obtain ⟨hi, rfl⟩ := List.getElem?_eq_some_iff.mp hworker
    obtain ⟨before, after, hworkers, hlength, hset⟩ : ∃ before after,
        pool.workers = before ++ pool.workers[i] :: after ∧ before.length = i ∧
          pool.workers.set i ⟨pool.workers[i].path, stage⟩ = before ++ ⟨pool.workers[i].path, stage⟩ :: after :=
      List.exists_of_set hi
    refine ⟨before, pool.workers[i], after, stage, state, hworkers, hnext, ?_⟩
    rw [hlength, ← hset]
    exact (Option.some.inj h).symm

/-! What holds after each step. -/

/-- A stage that a worker can have come to whose file ends with that result. -/
def Stage.Fits (cancelled : Bool) (result : Except Fault Unit) : Stage σ → Prop
  | launched => True
  | calling rest => cancelled = false ∧ rest.Settles result
  | returned fault => fault = if cancelled then some RunOutcome.interrupted else RunOutcome.fault? result
  | finished fault => fault = if cancelled then some RunOutcome.interrupted else RunOutcome.fault? result

/-- The entries of the list that were taken up. -/
def begun (workers : List (Worker σ)) : List Nat := (workers.zipIdx.filter fun w => !w.1.stage.isLaunched).map (·.2)

lemma begun_append (before : List (Worker σ)) (worker : Worker σ) (after : List (Worker σ)) :
    begun (before ++ worker :: after) = begun before ++ (if worker.stage.isLaunched then [] else [before.length]) ++
      ((after.zipIdx (before.length + 1)).filter fun w => !w.1.stage.isLaunched).map (·.2) := by
  unfold begun
  rw [List.zipIdx_append, List.zipIdx_cons, List.filter_append, List.map_append, List.filter_cons, Nat.zero_add]
  cases worker.stage.isLaunched <;> simp

structure Sound (cancelled : Bool) (outcome : Path → Except Fault Unit) (limit : Nat) (files : List Path)
    (pool : Pool σ) : Prop where
  files_eq : pool.workers.map (·.path) ++ pool.waiting = files
  running_le : pool.running ≤ limit
  calls_perm : pool.calls.Perm (if cancelled then [] else begun pool.workers)
  fits : ∀ worker ∈ pool.workers, worker.stage.Fits cancelled (outcome worker.path)

lemma Sound.start (files : List Path) (s : σ) : (start files s).Sound cancelled outcome limit files where
  files_eq := rfl
  running_le := Nat.zero_le _
  calls_perm := by cases cancelled <;> exact List.Perm.nil
  fits := by
    intro worker hworker
    cases hworker

/-- What the step of one worker does to its stage. -/
lemma Stage.Fits.next {stage stage' : Stage σ} {task : Task σ} {s s' : σ} (h : stage.Fits cancelled result)
    (htask : task.Settles result) (hnext : stage.next? cancelled task s = some (stage', s')) :
    stage'.Fits cancelled result ∧ stage.isRunning = true ∧ stage'.isLaunched = false := by
  cases stage with
  | launched =>
    cases cancelled with
    | true =>
      obtain ⟨rfl, -⟩ := Prod.mk.inj (Option.some.inj hnext)
      exact ⟨rfl, rfl, rfl⟩
    | false =>
      obtain ⟨rfl, -⟩ := Prod.mk.inj (Option.some.inj hnext)
      exact ⟨⟨rfl, htask⟩, rfl, rfl⟩
  | calling rest =>
    obtain ⟨rfl, hrest⟩ := h
    cases hrest with
    | done =>
      obtain ⟨rfl, -⟩ := Prod.mk.inj (Option.some.inj hnext)
      exact ⟨rfl, rfl, rfl⟩
    | step hrest =>
      obtain ⟨rfl, -⟩ := Prod.mk.inj (Option.some.inj hnext)
      exact ⟨⟨rfl, hrest s⟩, rfl, rfl⟩
  | returned fault =>
    obtain ⟨rfl, -⟩ := Prod.mk.inj (Option.some.inj hnext)
    exact ⟨h, rfl, rfl⟩
  | finished fault => cases hnext

lemma Sound.step (h : pool.Sound cancelled outcome limit files)
    (hwork : ∀ p ∈ files, (work p).Settles (outcome p))
    (hstep : pool.step limit cancelled work move = some later) : later.Sound cancelled outcome limit files := by
  rcases step_cases hstep with ⟨path, rest, hwaiting, hfree, rfl⟩ |
    ⟨before, worker, after, stage, state, hworkers, hnext, rfl⟩
  · refine ⟨?_, ?_, ?_, ?_⟩
    · have hfiles := h.files_eq
      rw [hwaiting] at hfiles
      simpa using hfiles
    · unfold running at hfree ⊢
      rw [List.countP_append]
      exact hfree
    · rw [begun_append]
      simpa [Stage.isLaunched] using h.calls_perm
    · intro w hw
      rcases List.mem_append.mp hw with hw | hw
      · exact h.fits w hw
      · obtain rfl := List.mem_singleton.mp hw
        trivial
  · have hmem : worker ∈ pool.workers := by simp [hworkers]
    have hpath : worker.path ∈ files := by
      rw [← h.files_eq]
      simp only [List.mem_append, List.mem_map]
      exact .inl ⟨worker, hmem, rfl⟩
    obtain ⟨hfits, hran, hbegun⟩ := (h.fits worker hmem).next (hwork _ hpath) hnext
    refine ⟨?_, ?_, ?_, ?_⟩
    · have hfiles := h.files_eq
      rw [hworkers] at hfiles
      simpa using hfiles
    · have hle := h.running_le
      unfold running at hle ⊢
      rw [hworkers] at hle
      simp only [List.countP_append, List.countP_cons, hran, if_true] at hle ⊢
      split <;> omega
    · have hcalls := h.calls_perm
      rw [hworkers, begun_append] at hcalls
      rw [begun_append, hbegun]
      cases cancelled with
      | true => simpa using hcalls
      | false =>
        cases hlaunched : worker.stage.isLaunched with
        | false => simpa [hlaunched] using hcalls
        | true =>
          -- the entry of this worker is new, and stands between those before and after it
          simp only [hlaunched, if_true, Bool.false_eq_true, if_false, List.append_nil, Bool.not_false,
            Bool.and_self] at hcalls ⊢
          rw [List.append_assoc, List.singleton_append]
          exact (hcalls.append_right _).trans (List.perm_append_singleton _ _ |>.trans List.perm_middle.symm)
    · intro w hw
      rcases List.mem_append.mp hw with hw | hw
      · exact h.fits w (by simp [hworkers, hw])
      · rcases List.mem_cons.mp hw with rfl | hw
        · exact hfits
        · exact h.fits w (by simp [hworkers, hw])

lemma Sound.run (h : pool.Sound cancelled outcome limit files) (hwork : ∀ p ∈ files, (work p).Settles (outcome p))
    (hrun : pool.run limit cancelled work schedule = some later) : later.Sound cancelled outcome limit files := by
  induction schedule generalizing pool with
  | nil => exact Option.some.inj hrun ▸ h
  | cons move rest ih =>
    unfold Pool.run at hrun
    rw [List.foldlM_cons] at hrun
    obtain ⟨pool', hstep, hrun⟩ := Option.bind_eq_some_iff.mp hrun
    exact ih (h.step hwork hstep) hrun

end Pool

end DeclPieces
