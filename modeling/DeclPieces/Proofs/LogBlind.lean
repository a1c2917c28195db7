import DeclPieces.Proofs.SplitEffect

/-! The log is written and never read: operations that start from projects that differ in the log only have the same
result and end in projects that differ in the log only. -/
namespace DeclPieces

/-- Do two projects differ in the log only? -/
def Alike (p q : Project) : Prop := ∃ log, p = { q with log := log }

namespace Alike
variable {p q r : Project}

lemma refl (p : Project) : Alike p p := ⟨p.log, rfl⟩

lemma symm (h : Alike p q) : Alike q p := by
  obtain ⟨log, rfl⟩ := h
  exact ⟨q.log, rfl⟩

lemma trans (h : Alike p q) (h' : Alike q r) : Alike p r := by
  obtain ⟨log, rfl⟩ := h
  obtain ⟨log', rfl⟩ := h'
  exact ⟨log, rfl⟩

lemma disk_eq (h : Alike p q) : p.disk = q.disk := by
  obtain ⟨log, rfl⟩ := h
  rfl

lemma database_eq (h : Alike p q) : p.database = q.database := by
  obtain ⟨log, rfl⟩ := h
  rfl

end Alike

namespace Activity
variable {α β : Type} {p q : Project}

/-- Run from `p` and from `q`, the two activities have the same result and end alike. -/
def Matches (x y : Activity α) (p q : Project) : Prop := (x.run p).1 = (y.run q).1 ∧ Alike (x.run p).2 (y.run q).2

/-- An activity that does not read the log. -/
def Blind (x : Activity α) : Prop := ∀ p q, Alike p q → Matches x x p q

lemma Matches.bind {x y : Activity α} {f g : α → Activity β} (hx : Matches x y p q)
    (hf : ∀ a p' q', Alike p' q' → Matches (f a) (g a) p' q') : Matches (x >>= f) (y >>= g) p q := by
  obtain ⟨hresult, hstate⟩ := hx
  unfold Matches
  rw [run_bind, run_bind]
  cases hp : x.run p with
  | mk r p' =>
    cases hq : y.run q with
    | mk r' q' =>
      rw [hp, hq] at hresult hstate
      obtain rfl : r = r' := hresult
      cases r with
      | ok a => exact hf a p' q' hstate
      | error e => exact ⟨rfl, hstate⟩

lemma Blind.bind {x : Activity α} {f : α → Activity β} (hx : Blind x) (hf : ∀ a, Blind (f a)) : Blind (x >>= f) :=
  fun p q h => (hx p q h).bind fun a => hf a

lemma blind_pure (a : α) : Blind (pure a : Activity α) := fun _ _ h => ⟨rfl, h⟩

lemma blind_throw (e : Failure) : Blind (throw e : Activity α) := fun _ _ h => ⟨rfl, h⟩

lemma blind_fail (e : Fault) : Blind (fail e : Activity α) := blind_throw _

lemma blind_ofExcept (e : Except Fault α) : Blind (ofExcept e) := by
  cases e with
  | ok a => exact blind_pure a
  | error e => exact blind_fail e

lemma blind_tell (records : List Log.Record) : Blind (tell records) := by
  rintro p q ⟨log, rfl⟩
  exact ⟨rfl, _, rfl⟩

lemma blind_modify {g : Project → Project} (h : ∀ p log, Alike (g { p with log := log }) (g p)) :
    Blind (modify g : Activity PUnit) := by
  rintro p q ⟨log, rfl⟩
  exact ⟨rfl, h q log⟩

/-- What is done with the project, if that is the same whatever the log is. -/
lemma blind_get_bind {f : Project → Activity α} (h : ∀ p log, Matches (f { p with log := log }) (f p)
    { p with log := log } p) : Blind (get >>= f) := by
  rintro p q ⟨log, rfl⟩
  have hrun := h q log
  unfold Matches at hrun ⊢
  rwa [run_get_bind, run_get_bind]

lemma matches_set_bind {f g : PUnit → Activity α} {p' q' : Project} (h : Matches (f ()) (g ()) p' q') :
    Matches (set p' >>= f) (set q' >>= g) p q := h

lemma Blind.apply {x : Activity α} (h : Blind x) (log : List Log.Record) (p : Project) :
    Matches x x { p with log := log } p := h _ _ ⟨log, rfl⟩

end Activity

open Activity

namespace Workspace
variable {w : Workspace}

lemma blind_recordedPieces (source : Path) : Blind (w.recordedPieces source) := by
  rintro p q ⟨log, rfl⟩
  unfold Matches
  rw [recordedPieces_run, recordedPieces_run]
  exact ⟨rfl, log, rfl⟩

lemma blind_writeAll (d : Decomposition) (text : Text) : Blind (writeAll d text) := by
  unfold writeAll
  refine blind_get_bind fun p log => ?_
  simp only
  refine matches_set_bind ?_
  cases (d.write text p.disk).1 with
  | ok _ => exact (blind_pure ()).apply log { p with disk := (d.write text p.disk).2 }
  | error e => exact (blind_throw e).apply log { p with disk := (d.write text p.disk).2 }

lemma blind_clearStale (d : Decomposition) (recorded : List RecordedPiece) (result : SplitResult) :
    Blind (w.clearStale d recorded result) := by
  induction recorded generalizing result with
  | nil => exact blind_pure result
  | cons r rest ih =>
    unfold clearStale
    split
    · exact ih result
    · refine blind_get_bind fun p log => ?_
      simp only
      split
      · split
        · exact ((blind_tell _).bind fun _ => ih _).apply log p
        · refine Blind.apply (blind_get_bind fun p log => ?_) log p
          simp only
          split
          · exact (blind_fail _).apply log p
          · refine Blind.apply (Blind.bind ?_ fun _ => ih _) log p
            exact blind_modify fun p log => ⟨log, rfl⟩
      · exact (ih result).apply log p

lemma blind_nextRunName : Blind nextRunName := by
  unfold nextRunName
  refine blind_get_bind fun p log => matches_set_bind ?_
  exact (blind_pure _).apply log { p with named := p.named + 1 }

lemma blind_now : Blind w.now := by
  unfold now
  refine blind_get_bind fun p log => matches_set_bind ?_
  exact (blind_pure _).apply log { p with ticks := p.ticks + 1 }

lemma blind_recordRun (plan : Plan) (result : SplitResult) : Blind (w.recordRun plan result) := by
  have hreplace (database : Database) : Blind (modify fun p => { p with database := database } : Activity PUnit) :=
    blind_modify fun p log => ⟨log, rfl⟩
  unfold recordRun
  refine blind_nextRunName.bind fun id => blind_now.bind fun createdAt => ?_
  refine blind_get_bind fun p log => Blind.apply ?_ log p
  refine (blind_ofExcept _).bind fun database => (hreplace database).bind fun _ => ?_
  split
  · refine blind_get_bind fun p log => ?_
    simp only
    split
    · exact ((blind_tell _).bind fun _ => blind_pure _).apply log p
    · refine Blind.apply ((hreplace _).bind fun _ => ?_) log p
      split
      · exact (blind_tell _).bind fun _ => blind_pure _
      · exact blind_pure _
  · exact blind_pure _

lemma blind_checkEdited (plan : Plan) (edited : List Path) : Blind (checkEdited plan edited) := by
  unfold checkEdited
  split
  · exact blind_throw _
  · exact blind_pure _

/-- Splits do not read the log. -/
lemma blind_splitPlan (plan : Plan) (force : Bool) : Blind (w.splitPlan plan force) := by
  unfold splitPlan
  refine (blind_recordedPieces _).bind fun recorded => blind_get_bind fun p log => Blind.apply ?_ log p
  refine (blind_checkEdited _ _).bind fun _ => (blind_tell _).bind fun _ => (blind_writeAll _ _).bind fun _ => ?_
  simp only
  split
  · refine (blind_clearStale _ _ _).bind fun result => (blind_recordRun _ _).bind fun result => ?_
    exact (blind_tell _).bind fun _ => blind_pure _
  · exact (blind_tell _).bind fun _ => blind_pure _

lemma blind_checkSplitOf (plan : Plan) : Blind (w.checkSplitOf plan) := by
  unfold checkSplitOf
  split
  · exact blind_pure _
  · refine blind_get_bind fun p log => Blind.apply ?_ log p
    refine (blind_ofExcept _).bind fun run? => ?_
    cases run? with
    | none => exact blind_pure _
    | some run =>
      simp only
      split
      · exact blind_fail _
      · exact blind_pure _

lemma blind_keepCopy (path : Path) (text : Text) (wanted : Bool) : Blind (w.keepCopy path text wanted) := by
  unfold keepCopy
  split
  · exact blind_pure _
  · next b hb =>
    split
    · exact blind_pure _
    · refine blind_get_bind fun p log => ?_
      simp only
      split
      · exact (blind_fail _).apply log p
      · refine Blind.apply (blind_now.bind fun at_ => blind_get_bind fun p log => matches_set_bind ?_) log p
        refine Blind.apply ?_ log { p with disk := (b.save (w.key path) text at_ p.disk).2.2 }
        have hpath : Blind (do return (← ofExcept (b.save (w.key path) text at_ p.disk).1).path) :=
          (blind_ofExcept _).bind fun entry => blind_pure _
        split
        · exact (blind_tell _).bind fun _ => hpath
        · exact hpath

lemma blind_overwrite (path : Path) (text what : Text) : Blind (overwrite path text what) := by
  unfold overwrite
  refine blind_get_bind fun p log => ?_
  simp only
  split
  · exact ⟨rfl, log, rfl⟩
  · exact (blind_fail _).apply log p

lemma blind_planAt (source : Path) : Blind (w.planAt source) := by
  unfold planAt sourceText
  simp only [bind_assoc]
  refine blind_get_bind fun p log => Blind.apply ((blind_ofExcept _).bind fun text => ?_) log p
  intro p q hpq
  obtain ⟨log, hp⟩ := w.planOf_run source text p
  obtain ⟨log', hq⟩ := w.planOf_run source text q
  have hlayout : w.parser.layout w.options q.disk.isFile source text =
      w.parser.layout w.options p.disk.isFile source text := by rw [hpq.disk_eq]
  unfold Matches
  rw [hp, hq, hlayout]
  exact ⟨rfl, Alike.trans ⟨log, rfl⟩ (hpq.trans (Alike.symm ⟨log', rfl⟩))⟩

/-- Nor do merges. -/
lemma blind_mergePlan (plan : Plan) (o : MergeOptions) : Blind (w.mergePlan plan o) := by
  have hfirst (o : MergeOptions) (hresplit : o.resplit = false) : Blind (w.mergePlan plan o) := by
    unfold mergePlan
    refine (blind_checkSplitOf plan).bind fun _ => blind_get_bind fun p log => Blind.apply ?_ log p
    refine (blind_ofExcept _).bind fun merged => (blind_tell _).bind fun _ => ?_
    split
    · split
      · exact blind_pure _
      · exact blind_pure _
    · split
      · exact (blind_tell _).bind fun _ => blind_pure _
      · refine (blind_keepCopy _ _ _).bind fun backup => (blind_overwrite _ _ _).bind fun _ => ?_
        refine (blind_tell _).bind fun _ => ?_
        rw [hresplit]
        exact blind_pure _
  cases hresplit : o.resplit with
  | false => exact hfirst o hresplit
  | true =>
    intro p q hpq
    obtain ⟨hresult, hstate⟩ := hfirst { o with resplit := false } rfl p q hpq
    unfold Matches
    rw [mergePlan_resplit hresplit, mergePlan_resplit hresplit]
    cases hp : (w.mergePlan plan { o with resplit := false }).run p with
    | mk r p' =>
      cases hq : (w.mergePlan plan { o with resplit := false }).run q with
      | mk r' q' =>
        rw [hp, hq] at hresult hstate
        obtain rfl : r = r' := hresult
        cases r with
        | error e => exact ⟨rfl, hstate⟩
        | ok r =>
          simp only
          split
          · have hagain : Blind (w.splitAgain plan.source) :=
              (blind_planAt _).bind fun plan => blind_splitPlan plan true
            obtain ⟨hresult', hstate'⟩ := hagain p' q' hstate
            exact ⟨by simp only [hresult'], hstate'⟩
          · exact ⟨rfl, hstate⟩

end Workspace

end DeclPieces
