import DeclPieces.Proofs.DiskFiles
import DeclPieces.Proofs.Outline
import DeclPieces.Workspace.Merge

/-! What an activity leads to: what holds of the project afterwards, whether it fails or not, and what holds
of its result if it does not. -/
namespace DeclPieces

namespace Activity
variable {α β : Type} {p : Project} {P : Project → Prop}

/-- Run from `p`, the activity ends in a project for which `P` holds, and a result comes with `Q`. -/
def Leads (x : Activity α) (p : Project) (P : Project → Prop) (Q : α → Project → Prop) : Prop :=
  P (x.run p).2 ∧ ∀ a, (x.run p).1 = .ok a → Q a (x.run p).2

lemma run_bind (x : Activity α) (f : α → Activity β) (p : Project) :
    (x >>= f).run p = match x.run p with
      | (.ok a, p') => (f a).run p'
      | (.error e, p') => (.error e, p') := by
  have hrun : (x >>= f).run p =
      (ExceptT.bindCont f (x.run p).1 : StateM Project (Except Failure β)) (x.run p).2 := rfl
  rw [hrun]
  cases x.run p with
  | mk r p' => cases r <;> rfl

/-- A result comes with a project. On a sample this names the project without computing it. -/
lemma exists_run_eq {x : Activity α} {r : Except Failure α} (h : (x.run p).1 = r) : ∃ p', x.run p = (r, p') :=
  ⟨_, Prod.ext h rfl⟩

/-- What the first of two activities leads to is where the second starts. -/
lemma Leads.bind {x : Activity α} {f : α → Activity β} {P' : Project → Prop} {Q : β → Project → Prop}
    {R : α → Project → Prop} (hx : Leads x p P' R) (hP : ∀ p', P' p' → P p')
    (hf : ∀ a p', P' p' → R a p' → Leads (f a) p' P Q) : Leads (x >>= f) p P Q := by
  unfold Leads at hx ⊢
  rw [run_bind]
  cases h : x.run p with
  | mk r p' =>
    rw [h] at hx
    cases r with
    | ok a => exact hf a p' hx.1 (hx.2 a rfl)
    | error e => exact ⟨hP p' hx.1, fun a ha => by cases ha⟩

/-- The same where the first result does not matter. -/
lemma Leads.andThen {x : Activity α} {f : α → Activity β} {Q : β → Project → Prop}
    (hx : Leads x p P fun _ _ => True) (hf : ∀ a p', P p' → Leads (f a) p' P Q) : Leads (x >>= f) p P Q :=
  hx.bind (fun _ h => h) fun a p' hp _ => hf a p' hp

lemma Leads.mono {x : Activity α} {P' : Project → Prop} {Q R : α → Project → Prop} (hx : Leads x p P R)
    (hP : ∀ p', P p' → P' p') (h : ∀ a p', P p' → R a p' → Q a p') : Leads x p P' Q :=
  ⟨hP _ hx.1, fun a ha => h a _ hx.1 (hx.2 a ha)⟩

lemma leads_pure {a : α} {Q : α → Project → Prop} (hP : P p) (hQ : Q a p) : Leads (pure a) p P Q :=
  ⟨hP, fun b hb => by
    obtain rfl : a = b := Except.ok.inj hb
    exact hQ⟩

lemma leads_throw {e : Failure} {Q : α → Project → Prop} (hP : P p) : Leads (throw e : Activity α) p P Q :=
  ⟨hP, fun a ha => by cases ha⟩

lemma leads_fail {e : Fault} {Q : α → Project → Prop} (hP : P p) : Leads (fail e : Activity α) p P Q := leads_throw hP

lemma leads_get_bind {f : Project → Activity α} {Q : α → Project → Prop} :
    Leads (get >>= f) p P Q ↔ Leads (f p) p P Q := by
  unfold Leads
  rw [run_bind]
  rfl

lemma leads_set_bind {f : PUnit → Activity α} {Q : α → Project → Prop} {p' : Project} :
    Leads (set p' >>= f) p P Q ↔ Leads (f ()) p' P Q := by
  unfold Leads
  rw [run_bind]
  rfl

lemma leads_modify_bind {g : Project → Project} {f : PUnit → Activity α} {Q : α → Project → Prop} :
    Leads (modify g >>= f) p P Q ↔ Leads (f ()) (g p) P Q := by
  unfold Leads
  rw [run_bind]
  rfl

lemma leads_ofExcept (e : Except Fault α) (p : Project) : Leads (ofExcept e) p (· = p) fun a _ => e = .ok a := by
  cases e with
  | ok a => exact leads_pure rfl rfl
  | error fault => exact leads_fail rfl

lemma leads_ofExcept_map {e : Except Fault α} {g : α → β} (h : P p) :
    Leads (do return g (← ofExcept e)) p P fun _ _ => True := by
  refine (leads_ofExcept e p).bind (fun _ hp => hp ▸ h) fun a p' hp _ => ?_
  exact leads_pure (hp ▸ h) trivial

lemma leads_tell_bind {records : List Log.Record} {f : PUnit → Activity α} {Q : α → Project → Prop} :
    Leads (tell records >>= f) p P Q ↔ Leads (f ()) { p with log := p.log ++ records } P Q := leads_modify_bind

/-- If the activity fails when it is run from `p`, then `E` holds of the project it leaves. -/
def Throws (x : Activity α) (p : Project) (E : Project → Prop) : Prop :=
  ∀ e, (x.run p).1 = .error e → E (x.run p).2

lemma Throws.bind {x : Activity α} {f : α → Activity β} {E : Project → Prop} {R : α → Project → Prop}
    (hx : Leads x p P R) (hP : ∀ p', P p' → E p') (hf : ∀ a p', P p' → R a p' → Throws (f a) p' E) :
    Throws (x >>= f) p E := by
  unfold Leads at hx
  unfold Throws
  rw [run_bind]
  cases h : x.run p with
  | mk r p' =>
    rw [h] at hx
    cases r with
    | ok a => exact hf a p' hx.1 (hx.2 a rfl)
    | error e => exact fun _ _ => hP p' hx.1

lemma throws_pure (a : α) (p : Project) (E : Project → Prop) : Throws (pure a) p E := fun e he => by cases he

lemma throws_get_bind {f : Project → Activity α} {E : Project → Prop} :
    Throws (get >>= f) p E ↔ Throws (f p) p E := by
  unfold Throws
  rw [run_bind]
  rfl

lemma throws_tell_bind {records : List Log.Record} {f : PUnit → Activity α} {E : Project → Prop} :
    Throws (tell records >>= f) p E ↔ Throws (f ()) { p with log := p.log ++ records } E := by
  unfold Throws
  rw [run_bind]
  rfl

lemma Leads.finally_ {x : Activity α} {after : Project → Project} {Q : α → Project → Prop} (hx : Leads x p P Q)
    (hP : ∀ p', P p' → P (after p')) (hQ : ∀ a p', Q a p' → Q a (after p')) :
    Leads (Activity.finally_ x after) p P Q :=
  ⟨hP _ hx.1, fun a ha => hQ a _ (hx.2 a ha)⟩

lemma Throws.finally_ {x : Activity α} {after : Project → Project} {E : Project → Prop} (hx : Throws x p E)
    (hE : ∀ p', E p' → E (after p')) : Throws (Activity.finally_ x after) p E :=
  fun e he => hE _ (hx e he)

end Activity

open Activity

lemma leads_onDisk {f : Disk → Except Fault Disk} {p : Project} {P : Project → Prop}
    (hP : ∀ e, f p.disk = .error e → P p) (h : ∀ disk, f p.disk = .ok disk → P { p with disk := disk }) :
    Leads (onDisk f) p P fun _ _ => True := by
  unfold onDisk
  rw [leads_get_bind]
  cases hf : f p.disk with
  | error e => exact leads_fail (hP e hf)
  | ok disk => exact ⟨h disk hf, fun _ _ => trivial⟩

/-- The files once the lock of a piece directory is asked for. -/
def Disk.locked (disk : Disk) (dir : Path) : Disk :=
  match disk.makeDirs dir with
  | .error _ => disk
  | .ok disk =>
    match disk.look (Workspace.lockPath dir) with
    | .ok _ => disk
    | .error _ =>
      match disk.write (Workspace.lockPath dir) [] with
      | .ok disk => disk
      | .error _ => disk

namespace Workspace
variable {w : Workspace} {p : Project}

/-- Asking for a lock makes its file, and touches neither other files nor the record of splits. -/
lemma leads_acquire (dir : Path) (p : Project) :
    Leads (acquire dir) p (fun p' => p'.disk = p.disk.locked dir ∧ p'.database = p.database) fun _ _ => True := by
  have hheld (p' : Project) (hp' : p'.disk = p.disk.locked dir ∧ p'.database = p.database) :
      Leads (do modify fun p => { p with held := lockPath dir :: p.held }; return lockPath dir : Activity Path) p'
        (fun p' => p'.disk = p.disk.locked dir ∧ p'.database = p.database) fun _ _ => True :=
    leads_modify_bind.mpr (leads_pure hp' trivial)
  unfold acquire
  rw [leads_get_bind]
  cases hm : p.disk.makeDirs dir with
  | error e => exact leads_fail ⟨by simp [Disk.locked, hm], rfl⟩
  | ok disk =>
    simp only
    rw [leads_set_bind]
    cases hl : disk.look (lockPath dir) with
    | ok n =>
      cases n with
      | directory => exact leads_fail ⟨by simp [Disk.locked, hm, hl], rfl⟩
      | file x =>
        have hP : disk = p.disk.locked dir ∧ p.database = p.database := ⟨by simp [Disk.locked, hm, hl], rfl⟩
        simp only
        split
        · exact (leads_fail hP).andThen fun _ => hheld
        · exact hheld _ hP
    | error o =>
      simp only
      refine (leads_onDisk ?_ ?_).andThen fun _ => hheld
      · intro e he
        exact ⟨by simp [Disk.locked, hm, hl, he], rfl⟩
      · intro disk' hd
        exact ⟨by simp [Disk.locked, hm, hl, hd], rfl⟩

end Workspace

end DeclPieces
