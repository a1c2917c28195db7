import DeclPieces.Proofs.SplitEffect

/-! The history of a project: splits and merges of its sources, and changes that others make to its files. Of
each split it is known which files it wrote and which edited ones it kept, so that what stands in a file can be
compared with what the splits wrote there. -/
namespace DeclPieces

/-- A disk, and what was written to it, the latest first. -/
structure Noting where
  disk : Disk
  notes : List (Path × Text) := []

namespace Noting
variable {s s' : Noting} {text : Text} {ps : List Piece}

instance : Storage Noting where
  read s := s.disk.read
  list s := s.disk.list
  makeDirs s path := (s.disk.makeDirs path).map fun disk => { s with disk := disk }
  write s path data := (s.disk.write path data).map fun disk => { disk := disk, notes := (path, data) :: s.notes }
  remove s path := (s.disk.remove path).map fun disk => { s with disk := disk }

lemma makeDirs_eq_ok {path : Path} (h : Storage.makeDirs s path = .ok s') :
    s.disk.makeDirs path = .ok s'.disk ∧ s'.notes = s.notes := by
  change (s.disk.makeDirs path).map _ = .ok s' at h
  cases hm : s.disk.makeDirs path with
  | error e => simp [hm, Except.map] at h
  | ok disk =>
    obtain rfl : { s with disk := disk } = s' := by simpa [hm, Except.map] using h
    exact ⟨rfl, rfl⟩

lemma write_eq_ok {path : Path} {data : Text} (h : Storage.write s path data = .ok s') :
    s.disk.write path data = .ok s'.disk ∧ s'.notes = (path, data) :: s.notes := by
  change (s.disk.write path data).map _ = .ok s' at h
  cases hw : s.disk.write path data with
  | error e => simp [hw, Except.map] at h
  | ok disk =>
    obtain rfl : { disk := disk, notes := (path, data) :: s.notes } = s' := by simpa [hw, Except.map] using h
    exact ⟨rfl, rfl⟩

/-- Taking notes changes nothing else. -/
lemma write_disk (p : Piece) (text : Text) (s : Noting) :
    p.write text s.disk = ((p.write text s).1, (p.write text s).2.disk) := by
  have hdirs : Storage.makeDirs s.disk (Path.dir p.path) = s.disk.makeDirs (Path.dir p.path) := rfl
  have hnoting : Storage.makeDirs s (Path.dir p.path) =
      (s.disk.makeDirs (Path.dir p.path)).map fun disk => { s with disk := disk } := rfl
  unfold Piece.write
  rw [hdirs, hnoting]
  cases s.disk.makeDirs (Path.dir p.path) with
  | error e => rfl
  | ok disk =>
    simp only [Except.map]
    cases p.render? text with
    | none => rfl
    | some content =>
      have hwrite : Storage.write disk p.path content = disk.write p.path content := rfl
      have hnoted : Storage.write ({ s with disk := disk } : Noting) p.path content =
          (disk.write p.path content).map fun disk => { disk := disk, notes := (p.path, content) :: s.notes } := rfl
      simp only [hwrite, hnoted]
      cases disk.write p.path content <;> rfl

lemma writePieces_disk (text : Text) (ps : List Piece) (s : Noting) :
    writePieces text ps s.disk = ((writePieces text ps s).1, (writePieces text ps s).2.disk) := by
  induction ps generalizing s with
  | nil => rfl
  | cons p rest ih =>
    unfold writePieces
    rw [write_disk p text s]
    cases p.write text s with
    | mk r s₁ =>
      cases r with
      | ok _ => exact ih s₁
      | error e =>
        cases e with
        | outOfRange => rfl
        | fault fault =>
          simp only
          rw [ih s₁]

/-- Each note is of a piece. -/
lemma mem_notes {e : Path × Text} (h : e ∈ (writePieces text ps s).2.notes) :
    e ∈ s.notes ∨ ∃ q ∈ ps, q.path = e.1 ∧ q.render? text = some e.2 := by
  refine writePieces_preserves
    (P := fun s' => ∀ e ∈ s'.notes, e ∈ s.notes ∨ ∃ q ∈ ps, q.path = e.1 ∧ q.render? text = some e.2)
    ?_ ps ?_ s (fun e he => .inl he) e h
  · intro s₁ s₂ path hm h₁ e he
    rw [(makeDirs_eq_ok hm).2] at he
    exact h₁ e he
  · intro q hq content s₁ s₂ hrender hw h₁ e he
    rw [(write_eq_ok hw).2] at he
    rcases List.mem_cons.mp he with rfl | he
    · exact .inr ⟨q, hq, rfl, hrender⟩
    · exact h₁ e he

/-- If all goes well there is a note of each piece. -/
lemma exists_mem_notes (h : writePieces text ps s = (.ok [], s')) :
    ∀ q ∈ ps, ∃ content, q.render? text = some content ∧ (q.path, content) ∈ s'.notes := by
  induction ps generalizing s with
  | nil => simp
  | cons p rest ih =>
    obtain ⟨s₁, hw, hrest⟩ := writePieces_cons_eq_ok h
    obtain ⟨s₀, content, -, hrender, hstore⟩ := Piece.write_eq_ok hw
    intro q hq
    rcases List.mem_cons.mp hq with rfl | hq
    · refine ⟨content, hrender, ?_⟩
      have hnoted : (q.path, content) ∈ s₁.notes := by simp [(write_eq_ok hstore).2]
      have hkeep : (q.path, content) ∈ (writePieces text rest s₁).2.notes := by
        refine writePieces_preserves (P := fun s => (q.path, content) ∈ s.notes) ?_ rest ?_ s₁ hnoted
        · intro s₂ s₃ path hm h₂
          rwa [(makeDirs_eq_ok hm).2]
        · intro r _ data s₂ s₃ _ hw h₂
          rw [(write_eq_ok hw).2]
          exact List.mem_cons_of_mem _ h₂
      rwa [hrest] at hkeep
    · exact ih hrest q hq

end Noting

namespace Workspace
open Activity
variable {w : Workspace} {source path x : Path} {p p' : Project}

/-! Events. -/

/-- What happens in a project: an operation on a source, or a change of the files by somebody else. -/
inductive Event where
  | split (path : Path)
  | merge (path : Path) (o : MergeOptions)
  | edit (change : Disk → Disk)

/-- A split that is about to act on its plan. -/
structure Splitting where
  plan : Plan
  force : Bool
  start : Project

namespace Event

def run (w : Workspace) (p : Project) : Event → Project
  | split path => ((w.split path false).run p).2
  | merge path o => ((w.merge path o).run p).2
  | edit change => { p with disk := change p.disk }

/-- Somebody writes a file. -/
def put (path : Path) (data : Text) : Event := .edit fun disk => (disk.put path data).toOption.getD disk

/-- Somebody makes a directory. -/
def makeDir (path : Path) : Event := .edit fun disk => (disk.makeDirs path).toOption.getD disk

/-- The split that an event comes to: its own, or the one after a merge. -/
def splitting? (w : Workspace) (p : Project) : Event → Option Splitting
  | split path => (w.opened path p).map fun (plan, p) => ⟨plan, false, p⟩
  | merge path o =>
    match w.opened path p, o.resplit with
    | some (plan, p), true =>
      match (w.mergePlan plan { o with resplit := false }).run p with
      | (.ok r, p) =>
        if r.done.written then
          match (w.planAt plan.source).run p with
          | (.ok plan, p) => some ⟨plan, true, p⟩
          | (.error _, _) => none
        else none
      | (.error _, _) => none
    | _, _ => none
  | edit _ => none

end Event

/-- The two projects have the same files and records at the same time. -/
structure SameState (p q : Project) : Prop where
  disk_eq : p.disk = q.disk
  database_eq : p.database = q.database
  ticks_eq : p.ticks = q.ticks

lemma guarded_state {α : Type} (body : Plan → Activity α) {plan : Plan} {p₁ : Project}
    (h : w.opened path p = some (plan, p₁)) : SameState ((w.guarded path body).run p).2 ((body plan).run p₁).2 := by
  rw [guarded_run h]
  exact ⟨rfl, rfl, rfl⟩

/-- What an event comes to that splits. -/
structure Event.Splits (w : Workspace) (p : Project) (e : Event) (s : Splitting) : Prop where
  planned : w.Planned s.plan.source s.plan
  database_eq : s.start.database = p.database
  ticks_le : p.ticks ≤ s.start.ticks
  same : SameState (e.run w p) ((w.splitPlan s.plan s.force).run s.start).2

section Deterministic
variable [w.parser.Deterministic w.options]

lemma Event.splits_of_some {e : Event} {s : Splitting} (h : e.splitting? w p = some s) : e.Splits w p s := by
  cases e with
  | edit change => cases h
  | split path =>
    obtain ⟨⟨plan, p₁⟩, hopen, rfl⟩ := Option.map_eq_some_iff.mp h
    have ho := opened_eq_some hopen
    refine ⟨ho.planned.source_eq ▸ ho.planned, ho.database_eq, ho.ticks_eq.ge, ?_⟩
    exact guarded_state _ hopen
  | merge path o =>
    simp only [splitting?] at h
    split at h
    · next plan p₁ hopen hresplit =>
      have ho := opened_eq_some hopen
      have hmerge := (leads_mergePlan_check (w := w) (o := { o with resplit := false }) rfl plan p₁).1
      have hboth := mergePlan_resplit (w := w) hresplit plan p₁
      split at h
      · next r p₂ hrun =>
        rw [hrun] at hmerge hboth
        split at h
        · next hwritten =>
          obtain ⟨r', log, hplan, hplanned⟩ := w.planAt_run plan.source p₂
          split at h
          · next plan' p₃ hagain =>
            obtain rfl := Option.some.inj h
            obtain ⟨rfl, rfl⟩ := Prod.mk.inj (hplan.symm.trans hagain)
            have hstate := guarded_state (w.mergePlan · o) hopen
            have hsplit : (w.splitAgain plan.source).run p₂ =
                (w.splitPlan plan' true).run { p₂ with log := log } := by
              unfold splitAgain
              rw [run_bind, hagain]
            rw [← merge_eq_guarded, hboth] at hstate
            simp only [hwritten, if_true, hsplit] at hstate
            obtain ⟨hp, -⟩ := hplanned plan' rfl
            refine ⟨hp.source_eq ▸ hp, ?_, ?_, hstate⟩
            · exact hmerge.1.trans ho.database_eq
            · exact ho.ticks_eq.ge.trans hmerge.2
          · cases h
        · cases h
      · cases h
    · cases h

/-- An event that does not split leaves the record as it is. -/
lemma Event.same_of_none {e : Event} (h : e.splitting? w p = none) :
    (e.run w p).database = p.database ∧ p.ticks ≤ (e.run w p).ticks := by
  cases e with
  | edit change => exact ⟨rfl, le_rfl⟩
  | split path =>
    obtain ⟨e, p', hrun, hdb, hticks, -⟩ := guarded_run_of_none (w.splitPlan · false) (Option.map_eq_none_iff.mp h)
    have hsplit : (Event.split path).run w p = p' := congrArg Prod.snd hrun
    rw [hsplit]
    exact ⟨hdb, hticks.ge⟩
  | merge path o =>
    have hmerge : (Event.merge path o).run w p = ((w.guarded path (w.mergePlan · o)).run p).2 := by
      rw [← merge_eq_guarded]
      rfl
    rw [hmerge]
    cases hopen : w.opened path p with
    | none =>
      obtain ⟨e, p', hrun, hdb, hticks, -⟩ := guarded_run_of_none (w.mergePlan · o) hopen
      rw [hrun]
      exact ⟨hdb, hticks.ge⟩
    | some opened =>
      obtain ⟨plan, p₁⟩ := opened
      have ho := opened_eq_some hopen
      have hstate := guarded_state (w.mergePlan · o) hopen
      rw [hstate.database_eq, hstate.ticks_eq, ← ho.database_eq, ← ho.ticks_eq]
      cases hresplit : o.resplit with
      | false => exact (leads_mergePlan_check hresplit plan p₁).1
      | true =>
        have hfirst := (leads_mergePlan_check (w := w) (o := { o with resplit := false }) rfl plan p₁).1
        rw [mergePlan_resplit hresplit plan p₁]
        simp only [splitting?, hopen, hresplit] at h
        cases hrun : (w.mergePlan plan { o with resplit := false }).run p₁ with
        | mk r p₂ =>
          rw [hrun] at hfirst h
          cases r with
          | error e => exact hfirst
          | ok r =>
            simp only at h ⊢
            split
            · next hwritten =>
              rw [if_pos hwritten] at h
              obtain ⟨r', log, hplan, -⟩ := w.planAt_run plan.source p₂
              rw [hplan] at h
              cases r' with
              | ok plan' => cases h
              | error e =>
                unfold splitAgain
                rw [run_bind, hplan]
                exact hfirst
            · exact hfirst

end Deterministic

/-! Stories. -/

/-- A split that took the lock: the files it wrote, the latest first, and the edited ones it kept if it was
recorded. -/
structure Turn where
  plan : Plan
  writes : List (Path × Text)
  kept? : Option (List Path)

/-- What was written at a path. -/
def Turn.textsAt (t : Turn) (x : Path) : List Text :=
  t.writes.filterMap fun e => if Disk.key e.1 = Disk.key x then some e.2 else none

lemma Turn.mem_textsAt {t : Turn} {data : Text} :
    data ∈ t.textsAt x ↔ ∃ e ∈ t.writes, Disk.key e.1 = Disk.key x ∧ e.2 = data := by
  simp [textsAt]

def Splitting.turn (w : Workspace) (s : Splitting) : Turn where
  plan := s.plan
  writes := match w.lastPieces s.plan.source s.start.database with
    | .ok recorded =>
      ((w.remaining s.plan s.force recorded s.start.disk).write s.plan.text ({ disk := s.start.disk } : Noting)).2.notes
    | .error _ => []
  kept? := match ((w.splitPlan s.plan s.force).run s.start).1 with
    | .ok result => some result.kept
    | .error _ => none

/-- A project and its past: the splits, the latest first, and whether what stands at a path now was put there by
somebody else although a split had written it there before. -/
structure Story where
  project : Project
  turns : List Turn := []
  restored : Path → Bool := fun _ => false

namespace Story
variable {s : Story} {e : Event}

/-- What the splits wrote at a path, the latest first. -/
def wrote (s : Story) (x : Path) : List Text := s.turns.flatMap (·.textsAt x)

/-- The last split of a source that was recorded: its plan, and the edited pieces it kept. -/
def last? (s : Story) (source : Path) : Option (Plan × List Path) :=
  s.turns.findSome? fun t => if t.plan.source = source then t.kept?.map (t.plan, ·) else none

def next (w : Workspace) (s : Story) (e : Event) : Story :=
  let project := e.run w s.project
  let turns := ((e.splitting? w s.project).map (·.turn w)).toList
  { project := project
    turns := turns ++ s.turns
    restored := fun x =>
      if turns.any fun t => !(t.textsAt x).isEmpty then false
      else if project.disk.stored? x = s.project.disk.stored? x then s.restored x
      else (project.disk.stored? x).any (s.wrote x).contains }

def run (w : Workspace) (s : Story) (events : List Event) : Story := events.foldl (next w) s

lemma turns_of_none (h : e.splitting? w s.project = none) : (s.next w e).turns = s.turns := by
  simp [next, h]

lemma turns_of_some {sp : Splitting} (h : e.splitting? w s.project = some sp) :
    (s.next w e).turns = sp.turn w :: s.turns := by
  simp [next, h]

lemma subset_next (w : Workspace) (s : Story) (e : Event) : s.turns ⊆ (s.next w e).turns :=
  List.subset_append_right _ _

lemma subset_run (w : Workspace) (s : Story) (events : List Event) : s.turns ⊆ (s.run w events).turns := by
  induction events generalizing s with
  | nil => exact List.Subset.refl _
  | cons e rest ih => exact List.Subset.trans (subset_next w s e) (ih (s.next w e))

/-- No split of the event wrote at the path. -/
def Passes (w : Workspace) (s : Story) (e : Event) (x : Path) : Prop :=
  ∀ sp, e.splitting? w s.project = some sp → (sp.turn w).textsAt x = []

lemma Passes.wrote_eq (h : s.Passes w e x) : (s.next w e).wrote x = s.wrote x := by
  unfold wrote
  cases hs : e.splitting? w s.project with
  | none => rw [turns_of_none hs]
  | some sp => rw [turns_of_some hs, List.flatMap_cons, h sp hs, List.nil_append]

/-- What stands at a path then stood there before, or somebody put it there. -/
lemma Passes.stored? (h : s.Passes w e x) {data : Text} (hdata : (s.next w e).project.disk.stored? x = some data)
    (hr : (s.next w e).restored x = false) :
    (s.project.disk.stored? x = some data ∧ s.restored x = false) ∨ data ∉ s.wrote x := by
  have hnone : ((e.splitting? w s.project).map (·.turn w)).toList.any (fun t => !(t.textsAt x).isEmpty) = false := by
    cases hs : e.splitting? w s.project with
    | none => rfl
    | some sp => simp [h sp hs]
  simp only [next, hnone, Bool.false_eq_true, if_false] at hr hdata
  split at hr
  · next hsame => exact .inl ⟨hsame ▸ hdata, hr⟩
  · right
    intro hmem
    simp [hdata, hmem] at hr

lemma last?_of_none (h : e.splitting? w s.project = none) : (s.next w e).last? source = s.last? source := by
  unfold last?
  rw [turns_of_none h]

lemma last?_of_some {sp : Splitting} (h : e.splitting? w s.project = some sp) :
    (s.next w e).last? source =
      (if sp.plan.source = source then (sp.turn w).kept?.map (sp.plan, ·) else none).or (s.last? source) := by
  unfold last?
  rw [turns_of_some h, List.findSome?_cons]
  have hplan : (sp.turn w).plan = sp.plan := rfl
  rw [hplan]
  cases (if sp.plan.source = source then (sp.turn w).kept?.map (sp.plan, ·) else none) <;> rfl

lemma exists_turn {last : Plan × List Path} (h : last ∈ s.last? source) :
    ∃ t ∈ s.turns, t.plan = last.1 ∧ t.plan.source = source ∧ t.kept? = some last.2 := by
  obtain ⟨t, ht, hlast⟩ := List.exists_of_findSome?_eq_some h
  split at hlast
  · next hsource =>
    obtain ⟨kept, hkept, rfl⟩ := Option.map_eq_some_iff.mp hlast
    exact ⟨t, ht, rfl, hsource, hkept⟩
  · cases hlast

end Story

/-- The history of a project. -/
def story (w : Workspace) (p : Project) (events : List Event) : Story := Story.run w { project := p } events

lemma story_append (w : Workspace) (p : Project) (events : List Event) (e : Event) :
    w.story p (events ++ [e]) = (w.story p events).next w e := by
  unfold story Story.run
  rw [List.foldl_append]
  rfl

/-- One declaration, not split yet. -/
def loneProject : Project :=
  { disk := { nodes := [("/work", .directory), ("/work/t", .directory), ("/work/t/x.ts", .file "type A=1\n")] } }

end Workspace

end DeclPieces
