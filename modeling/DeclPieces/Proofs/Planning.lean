import DeclPieces.Proofs.Remerge

/-! How an operation on a source begins and ends: it reads the source and makes a plan, takes the lock of the piece
directory, acts on the plan, and releases the lock. -/
namespace DeclPieces

namespace Activity
variable {α β : Type}

lemma ext {x y : Activity α} (h : ∀ p, x.run p = y.run p) : x = y := funext h

lemma run_pure (a : α) (p : Project) : (pure a : Activity α).run p = (.ok a, p) := rfl

lemma run_fun (f : Project → Except Failure α × Project) (p : Project) :
    @ExceptT.run Failure (StateM Project) α f p = f p := rfl

lemma run_get (p : Project) : (get : Activity Project).run p = (.ok p, p) := rfl

lemma run_tell (records : List Log.Record) (p : Project) :
    (tell records).run p = (.ok (), { p with log := p.log ++ records }) := rfl

lemma run_get_bind (f : Project → Activity α) (p : Project) : (get >>= f).run p = (f p).run p := rfl

lemma run_set_bind (q : Project) (f : PUnit → Activity α) (p : Project) : (set q >>= f).run p = (f ()).run q := rfl

lemma run_modify_bind (g : Project → Project) (f : PUnit → Activity α) (p : Project) :
    (modify g >>= f).run p = (f ()).run (g p) := rfl

lemma run_tell_bind (records : List Log.Record) (f : PUnit → Activity α) (p : Project) :
    (tell records >>= f).run p = (f ()).run { p with log := p.log ++ records } := rfl

lemma run_ofExcept (e : Except Fault α) (p : Project) :
    (ofExcept e).run p = (SourceFile.lift e, p) := by
  cases e <;> rfl

/-- An activity of two parts fails in the first or in the second. -/
lemma Throws.andThen {x : Activity α} {f : α → Activity β} {p : Project} {E : Project → Prop} (hx : Throws x p E)
    (hf : ∀ a p', Throws (f a) p' E) : Throws (x >>= f) p E := by
  intro e he
  rw [run_bind] at he ⊢
  unfold Throws at hx
  cases h : x.run p with
  | mk r p' =>
    rw [h] at he hx
    cases r with
    | ok a => exact hf a p' e he
    | error e' => exact hx e' rfl

end Activity

namespace Disk
variable {d d' e : Disk} {dir x : Path} {data : Text}

/-- Where the directories are there already, making them changes nothing. -/
lemma makeDirsFrom_again {parts : List Text} (h : d.makeDirsFrom dir parts = .ok d')
    (hdirs : ∀ k, d'.get? k = some .directory → e.get? k = some .directory) : e.makeDirsFrom dir parts = .ok e := by
  induction parts generalizing d dir with
  | nil => rfl
  | cons name rest ih =>
    unfold makeDirsFrom at h ⊢
    simp only at h ⊢
    split at h
    · cases h
    · next hlen =>
      rw [if_neg hlen]
      split at h
      · cases h
      · next hnext =>
        rw [hdirs _ ((makeDirsFrom_spec h).1 _ _ hnext)]
        exact ih h
      · have hnext : (d.set (dir ++ Path.slash :: name) .directory).get? (dir ++ Path.slash :: name) =
            some .directory := by
          rw [get?_set, if_pos rfl]
        rw [hdirs _ ((makeDirsFrom_spec h).1 _ _ hnext)]
        exact ih h

lemma makeDirs_again (h : d.makeDirs dir = .ok d')
    (hdirs : ∀ k, d'.get? k = some .directory → e.get? k = some .directory) : e.makeDirs dir = .ok e :=
  makeDirsFrom_again h hdirs

/-- To ask for a lock twice is to ask for it once. -/
lemma locked_locked (d : Disk) (dir : Path) : (d.locked dir).locked dir = d.locked dir := by
  unfold locked
  cases hm : d.makeDirs dir with
  | error e => simp only [hm]
  | ok d₁ =>
    have hagain : d₁.makeDirs dir = .ok d₁ := makeDirs_again hm fun _ hk => hk
    simp only
    cases hl : d₁.look (Workspace.lockPath dir) with
    | ok n => simp only [hagain, hl]
    | error o =>
      simp only
      cases hw : d₁.write (Workspace.lockPath dir) [] with
      | error e => simp only [hagain, hl, hw]
      | ok d₂ =>
        have hmade : d₂.makeDirs dir = .ok d₂ := makeDirs_again hm (directories_write hw)
        have hlook : d₂.look (Workspace.lockPath dir) = .ok (.file []) := read_eq_content_iff.mp (read_write_self hw)
        simp only [hmade, hlook]

/-- Asking for a lock makes its file, if there is none, and changes no other. -/
lemma keeps_locked (d : Disk) (dir : Path) :
    d.Keeps (d.locked dir) fun x => key x = key (Workspace.lockPath dir) ∧ d.stored? x = none := by
  unfold locked
  split
  · exact keeps_rfl
  · next d₁ hm =>
    have h₁ : d.Keeps d₁ fun x => key x = key (Workspace.lockPath dir) ∧ d.stored? x = none := keeps_makeDirs hm
    split
    · exact h₁
    · next o hlook =>
      split
      · next d₂ hw =>
        refine h₁.trans (keeps_write hw fun x hkey => ⟨hkey, ?_⟩)
        rw [← stored?_makeDirs_eq hm, stored?_congr hkey]
        exact stored?_of_look_error hlook hw
      · exact h₁

/-- Asking for a lock leaves a file as it is. -/
lemma read_locked (h : d.read x = .content data) (dir : Path) : (d.locked dir).read x = .content data :=
  (keeps_locked d dir).read (fun hx => by simp [stored?_of_read h] at hx) h

/-- Asking for a lock changes no other file. -/
lemma stored?_locked (d : Disk) {x : Path} (hx : key x ≠ key (Workspace.lockPath dir)) :
    (d.locked dir).stored? x = d.stored? x :=
  (keeps_locked d dir).stored?_eq x fun h => hx h.1

end Disk

/-- What is loaded is the content of a file. -/
lemma SourceFile.load_eq_ok_iff {read : Path → Reading Text} {path : Path} {text : Text} :
    SourceFile.load read path = .ok text ↔ read path = .content text := by
  unfold SourceFile.load
  cases read path with
  | content data => simp [Reading.toExcept]
  | missing fault => simp [Reading.toExcept]
  | failed fault => simp [Reading.toExcept]

namespace Workspace
open Activity
variable {w : Workspace} {source path dir : Path} {plan plan' : Plan} {p p₁ : Project} {q q' : Piece}

/-! Plans. -/

/-- The plan of a source as it reads now. -/
def planAt (w : Workspace) (source : Path) : Activity Plan := do w.planOf source (← sourceText source)

/-- A plan that is made of the text of a source. -/
structure Planned (w : Workspace) (source : Path) (plan : Plan) : Prop where
  source_eq : plan.source = source
  hash_eq : plan.hash = w.digest plan.text
  pieces_eq : w.layout source plan.text = .ok plan.decomposition

/-- Making a plan of a text only adds to the log. -/
lemma planOf_run (w : Workspace) (source : Path) (text : Text) (p : Project) :
    ∃ log, (w.planOf source text).run p =
      (match w.parser.layout w.options p.disk.isFile source text with
      | .ok d => .ok { source := source, hash := w.digest text, text := text, decomposition := d }
      | .error e => .error e, { p with log := log }) := by
  unfold planOf Parser.layout
  rw [run_get_bind, run_tell_bind]
  cases (w.parser p.disk.isFile source text).1 with
  | error e => exact ⟨_, rfl⟩
  | ok f =>
    simp only [run_tell_bind]
    cases f.decompose w.options with
    | error e => exact ⟨_, rfl⟩
    | ok d => exact ⟨_, rfl⟩

/-- So does making a plan of a source that can be read. -/
lemma planAt_run_of_read (h : p.disk.read source = .content text) :
    ∃ log, (w.planAt source).run p =
      (match w.parser.layout w.options p.disk.isFile source text with
      | .ok d => .ok { source := source, hash := w.digest text, text := text, decomposition := d }
      | .error e => .error e, { p with log := log }) := by
  have hload : SourceFile.load p.disk.read source = .ok text := SourceFile.load_eq_ok_iff.mpr h
  obtain ⟨log, hrun⟩ := w.planOf_run source text p
  refine ⟨log, ?_⟩
  unfold planAt sourceText
  simp only [bind_assoc]
  rw [run_get_bind, run_bind, run_ofExcept, hload]
  exact hrun

/-- Whether or not it can be read, nothing else is changed. -/
lemma planAt_run_log (w : Workspace) (source : Path) (p : Project) :
    ∃ log, ((w.planAt source).run p).2 = { p with log := log } := by
  cases hload : SourceFile.load p.disk.read source with
  | error e =>
    unfold planAt sourceText
    simp only [bind_assoc]
    rw [run_get_bind, run_bind, run_ofExcept, hload]
    exact ⟨p.log, rfl⟩
  | ok text =>
    obtain ⟨log, hrun⟩ := planAt_run_of_read (w := w) (SourceFile.load_eq_ok_iff.mp hload)
    exact ⟨log, by rw [hrun]⟩

/-- A plan is made only of a source that can be read. -/
lemma planAt_eq_ok (h : (w.planAt source).run p = (.ok plan, p₁)) :
    p.disk.read source = .content plan.text ∧ plan.source = source ∧ plan.hash = w.digest plan.text ∧
      w.parser.layout w.options p.disk.isFile source plan.text = .ok plan.decomposition ∧
      ∃ log, p₁ = { p with log := log } := by
  cases hload : SourceFile.load p.disk.read source with
  | error e =>
    unfold planAt sourceText at h
    simp only [bind_assoc] at h
    rw [run_get_bind, run_bind, run_ofExcept, hload] at h
    cases h
  | ok text =>
    have hread := SourceFile.load_eq_ok_iff.mp hload
    obtain ⟨log, hrun⟩ := planAt_run_of_read (w := w) hread
    rw [h] at hrun
    obtain ⟨hplan, hp₁⟩ := Prod.mk.inj hrun
    cases hd : w.parser.layout w.options p.disk.isFile source text with
    | error e => simp [hd] at hplan
    | ok d =>
      simp only [hd, Except.ok.injEq] at hplan
      subst hplan
      exact ⟨hread, rfl, rfl, hd, log, hp₁⟩

lemma Planned.exists_file (h : w.Planned source plan) :
    ∃ f : SourceFile, f.decompose w.options = .ok plan.decomposition := Parser.layout_eq_ok h.pieces_eq

lemma Planned.eq_of_key (h : w.Planned source plan) (hq : q ∈ plan.decomposition.pieces)
    (hq' : q' ∈ plan.decomposition.pieces) (hkey : Disk.key q.path = Disk.key q'.path) : q = q' := by
  have hsymm : Std.Symm fun p q : Piece => Disk.key p.path ≠ Disk.key q.path := ⟨fun _ _ h => h.symm⟩
  obtain ⟨f, hf⟩ := h.exists_file
  by_contra hne
  exact (Decomposition.keys_apart hf).forall hq hq' hne hkey

lemma Planned.mem_content_iff (h : w.Planned source plan) (hq : q ∈ plan.decomposition.pieces) :
    q ∈ plan.decomposition.content ↔ q.isGenerated = false := by
  obtain ⟨f, hf⟩ := h.exists_file
  obtain ⟨dir, opening, pieces, hm⟩ := Decomposition.exists_made hf
  refine ⟨fun hc => (hm.origin hc).1, fun hgenerated => ?_⟩
  unfold Decomposition.content
  cases hp : plan.decomposition.pieces with
  | nil => simp [hp] at hq
  | cons index rest =>
    have hindex := hm.index_generated index (by simp [Decomposition.index?, hp])
    rw [hp] at hq
    rcases List.mem_cons.mp hq with rfl | hq
    · simp [hindex] at hgenerated
    · exact hq

/-- The first piece is the index, which stands in that directory. -/
lemma Planned.exists_index (h : w.Planned source plan) : ∃ index rest, plan.decomposition.pieces = index :: rest ∧
    index.path = Path.join plan.decomposition.dir w.options.withDefaults.indexFile := by
  obtain ⟨f, hf⟩ := h.exists_file
  obtain ⟨dir, opening, a, parts, index, -, -, -, -, hd⟩ := SourceFile.decompose_eq_ok hf
  rw [hd]
  exact ⟨_, _, rfl, rfl⟩

section Deterministic
variable [w.parser.Deterministic w.options]

lemma planned_of_planAt (h : (w.planAt source).run p = (.ok plan, p₁)) : w.Planned source plan := by
  obtain ⟨-, hsource, hhash, hlayout, -⟩ := planAt_eq_ok h
  exact ⟨hsource, hhash, w.parser_layout _ _ _ ▸ hlayout⟩

/-- What a plan of a source is, if there is one. -/
lemma planAt_run (w : Workspace) [w.parser.Deterministic w.options] (source : Path) (p : Project) :
    ∃ r log, (w.planAt source).run p = (r, { p with log := log }) ∧
      ∀ plan, r = .ok plan → w.Planned source plan ∧ p.disk.read source = .content plan.text := by
  obtain ⟨log, hlog⟩ := w.planAt_run_log source p
  refine ⟨_, log, Prod.ext rfl hlog, fun plan hplan => ?_⟩
  have hrun : (w.planAt source).run p = (.ok plan, ((w.planAt source).run p).2) := Prod.ext hplan rfl
  exact ⟨planned_of_planAt hrun, (planAt_eq_ok hrun).1⟩

/-- The plan of a text is made again as long as the source reads the same. -/
lemma planAt_of_read (h : w.Planned source plan) (hread : p.disk.read source = .content plan.text) :
    ∃ log, (w.planAt source).run p = (.ok plan, { p with log := log }) := by
  obtain ⟨log, hrun⟩ := planAt_run_of_read (w := w) hread
  rw [w.parser_layout, h.pieces_eq] at hrun
  obtain ⟨rfl, hhash, -⟩ := h
  exact ⟨log, by rw [hrun, ← hhash]⟩

/-- The directory of the pieces depends on the source alone. -/
lemma Planned.pieceDirectory_eq (h : w.Planned source plan) :
    Address.pieceDirectory w.options.withDefaults source = .ok plan.decomposition.dir :=
  Parser.pieceDirectory_eq h.pieces_eq

lemma Planned.dir_eq (h : w.Planned source plan) (h' : w.Planned source plan') :
    plan.decomposition.dir = plan'.decomposition.dir :=
  Except.ok.inj (h.pieceDirectory_eq.symm.trans h'.pieceDirectory_eq)

/-- Two plans of a source have the same index. -/
lemma Planned.index_eq (h : w.Planned source plan) (h' : w.Planned source plan') : ∃ index index' rest rest',
    plan.decomposition.pieces = index :: rest ∧ plan'.decomposition.pieces = index' :: rest' ∧
      index.path = index'.path := by
  obtain ⟨index, rest, hp, hi⟩ := h.exists_index
  obtain ⟨index', rest', hp', hi'⟩ := h'.exists_index
  exact ⟨index, index', rest, rest', hp, hp', by rw [hi, hi', h.dir_eq h']⟩

/-- Pieces of two plans of a source that stand at the same place have the same path. -/
lemma Planned.path_eq (h : w.Planned source plan) (h' : w.Planned source plan') (hq : q ∈ plan.decomposition.pieces)
    (hq' : q' ∈ plan'.decomposition.pieces) (hkey : Disk.key q.path = Disk.key q'.path) : q.path = q'.path := by
  obtain ⟨index, index', rest, rest', hp, hp', hindex⟩ := h.index_eq h'
  obtain ⟨f, hf⟩ := h.exists_file
  obtain ⟨f', hf'⟩ := h'.exists_file
  obtain ⟨⟨rooted, hclean⟩, -⟩ := Decomposition.paths_apart hf
  obtain ⟨⟨rooted', hclean'⟩, -⟩ := Decomposition.paths_apart hf'
  have hrooted : rooted = rooted' := by
    rw [← (hclean index (by simp [hp])).2, hindex, (hclean' index' (by simp [hp'])).2]
  calc q.path = Path.ofComponents (Path.isAbs q.path) (Path.components q.path) := (hclean q hq).1.symm
    _ = Path.ofComponents (Path.isAbs q'.path) (Path.components q'.path) := by
        rw [(hclean q hq).2, (hclean' q' hq').2, hrooted, Disk.components_eq_of_key_eq hkey]
    _ = q'.path := (hclean' q' hq').1

/-- No content piece of one stands where the other has its index. -/
lemma Planned.mem_content_of_path (h : w.Planned source plan) (h' : w.Planned source plan')
    (hq : q ∈ plan.decomposition.content) (hq' : q' ∈ plan'.decomposition.pieces) (hpath : q.path = q'.path) :
    q' ∈ plan'.decomposition.content := by
  obtain ⟨index, index', rest, rest', hp, hp', hindex⟩ := h.index_eq h'
  obtain ⟨f, hf⟩ := h.exists_file
  obtain ⟨-, hapart⟩ := Decomposition.paths_apart hf
  unfold Decomposition.content at hq ⊢
  rw [hp, List.pairwise_cons] at hapart
  rw [hp] at hq
  rw [hp'] at hq' ⊢
  rcases List.mem_cons.mp hq' with rfl | hq'
  · exact absurd (hindex.trans hpath.symm) (hapart.1 q hq)
  · exact hq'

end Deterministic

/-! The lock. -/

/-- The project once the lock of a directory is held. -/
def locking (dir : Path) (p : Project) : Project :=
  { p with disk := p.disk.locked dir, held := lockPath dir :: p.held }

/-- Is the lock of a directory granted? Its directory can be made, and its file can be too or is there and not held. -/
def grants (dir : Path) (p : Project) : Bool :=
  match p.disk.makeDirs dir with
  | .error _ => false
  | .ok disk =>
    match disk.look (lockPath dir) with
    | .ok .directory => false
    | .ok (.file _) => !p.held.contains (lockPath dir)
    | .error _ => (disk.write (lockPath dir) []).isOk

lemma acquire_of_grants (h : grants dir p = true) : (acquire dir).run p = (.ok (lockPath dir), locking dir p) := by
  unfold grants at h
  unfold acquire locking
  rw [run_get_bind]
  cases hm : p.disk.makeDirs dir with
  | error e => simp [hm] at h
  | ok disk =>
    simp only [hm] at h
    simp only [run_set_bind]
    split at h
    · cases h
    · next data hl =>
      have hheld : p.held.contains (lockPath dir) = false := by simpa using h
      simp only [hl, hheld, Disk.locked, hm, Bool.false_eq_true, if_false]
      rfl
    · next o hl =>
      cases hw : disk.write (lockPath dir) [] with
      | error e => simp [hw, Except.isOk, Except.toBool] at h
      | ok disk' =>
        simp only [hl, onDisk, bind_assoc, run_get_bind, hw, Disk.locked, hm]
        rfl

lemma acquire_of_not_grants (h : grants dir p = false) :
    ∃ e, (acquire dir).run p = (.error e, { p with disk := p.disk.locked dir }) := by
  unfold grants at h
  unfold acquire
  rw [run_get_bind]
  cases hm : p.disk.makeDirs dir with
  | error e => exact ⟨_, by simp only [hm, Disk.locked]; rfl⟩
  | ok disk =>
    simp only [hm] at h
    simp only [run_set_bind]
    split at h
    · next hl => exact ⟨_, by simp only [hl, Disk.locked, hm]; rfl⟩
    · next data hl =>
      have hheld : p.held.contains (lockPath dir) = true := by simpa using h
      exact ⟨_, by simp only [hl, hheld, Disk.locked, hm, if_true]; rfl⟩
    · next o hl =>
      cases hw : disk.write (lockPath dir) [] with
      | ok disk' => simp [hw, Except.isOk, Except.toBool] at h
      | error e => exact ⟨_, by simp only [hl, onDisk, bind_assoc, run_get_bind, hw, Disk.locked, hm]; rfl⟩

/-- Where the lock is granted, it is taken. -/
lemma withLock_run_of_grants {α : Type} (h : grants dir p = true) (body : Activity α) :
    (withLock dir body).run p =
      ((body.run (locking dir p)).1, release (lockPath dir) (body.run (locking dir p)).2) := by
  unfold withLock
  rw [run_bind, acquire_of_grants h]
  rfl

/-- What gives a result under a lock ran with the lock taken, and the lock is released afterwards. -/
lemma withLock_eq_ok {α : Type} {body : Activity α} {a : α} {p' : Project}
    (h : (withLock dir body).run p = (.ok a, p')) :
    grants dir p = true ∧ ∃ p₁, body.run (locking dir p) = (.ok a, p₁) ∧ p' = release (lockPath dir) p₁ := by
  cases hg : grants dir p with
  | false =>
    obtain ⟨e, hacq⟩ := acquire_of_not_grants hg
    unfold withLock at h
    rw [run_bind, hacq] at h
    cases h
  | true =>
    rw [withLock_run_of_grants hg] at h
    obtain ⟨hbody, hp'⟩ := Prod.mk.inj h
    exact ⟨rfl, _, Prod.ext hbody rfl, hp'.symm⟩

/-- Who gets the lock after it was asked for in vain would have got it before. -/
lemma grants_of_locked (h : grants dir { p with disk := p.disk.locked dir } = true) : grants dir p = true := by
  unfold grants at h ⊢
  cases hm : p.disk.makeDirs dir with
  | error e => simp [Disk.locked, hm] at h
  | ok disk =>
    have hagain : disk.makeDirs dir = .ok disk := Disk.makeDirs_again hm fun _ hk => hk
    cases hl : disk.look (lockPath dir) with
    | ok n => simpa [Disk.locked, hm, hagain, hl] using h
    | error o =>
      cases hw : disk.write (lockPath dir) [] with
      | ok disk' => simp [hl, hw, Except.isOk, Except.toBool]
      | error e => simpa [Disk.locked, hm, hagain, hl, hw] using h

/-! Operations under the lock. -/

/-- An operation on a source: what is done with its plan while the lock is held. -/
def guarded {α : Type} (w : Workspace) (path : Path) (body : Plan → Activity α) : Activity α := do
  let plan ← w.planAt (w.abs path)
  withLock plan.decomposition.dir (body plan)

lemma split_eq_guarded (w : Workspace) (path : Path) (force : Bool) :
    w.split path force = w.guarded path (w.splitPlan · force) := rfl

lemma merge_eq_guarded (w : Workspace) (path : Path) (o : MergeOptions) :
    w.merge path o = w.guarded path (w.mergePlan · o) := by
  unfold merge guarded planAt
  simp only [bind_assoc]

/-- The plan of an operation, and the project once the lock is taken, if it comes to that. -/
def opened (w : Workspace) (path : Path) (p : Project) : Option (Plan × Project) :=
  match (w.planAt (w.abs path)).run p with
  | (.error _, _) => none
  | (.ok plan, p) =>
    match (acquire plan.decomposition.dir).run p with
    | (.error _, _) => none
    | (.ok _, p) => some (plan, p)

/-- What is known once the lock is taken. -/
structure Opened (w : Workspace) (path : Path) (p : Project) (plan : Plan) (p₁ : Project) : Prop where
  planned : w.Planned (w.abs path) plan
  source_read : p.disk.read (w.abs path) = .content plan.text
  disk_eq : p₁.disk = p.disk.locked plan.decomposition.dir
  database_eq : p₁.database = p.database
  ticks_eq : p₁.ticks = p.ticks

lemma opened_eq_some [w.parser.Deterministic w.options] (h : w.opened path p = some (plan, p₁)) :
    w.Opened path p plan p₁ := by
  obtain ⟨r, log, hrun, hplan⟩ := w.planAt_run (w.abs path) p
  unfold opened at h
  rw [hrun] at h
  cases r with
  | error e => cases h
  | ok plan' =>
    cases hg : grants plan'.decomposition.dir { p with log := log } with
    | false =>
      obtain ⟨e, hacq⟩ := acquire_of_not_grants hg
      simp only [hacq] at h
      cases h
    | true =>
      simp only [acquire_of_grants hg, Option.some.injEq, Prod.mk.injEq] at h
      obtain ⟨rfl, rfl⟩ := h
      obtain ⟨hplanned, hread⟩ := hplan plan' rfl
      exact ⟨hplanned, hread, rfl, rfl, rfl⟩

/-- An operation that takes the lock acts on its plan, and releases the lock afterwards. -/
lemma guarded_run {α : Type} {body : Plan → Activity α} (h : w.opened path p = some (plan, p₁)) :
    (w.guarded path body).run p =
      (((body plan).run p₁).1, release (lockPath plan.decomposition.dir) ((body plan).run p₁).2) := by
  unfold opened at h
  unfold guarded withLock
  simp only [run_bind]
  cases hrun : (w.planAt (w.abs path)).run p with
  | mk r p₀ =>
    rw [hrun] at h
    cases r with
    | error e => cases h
    | ok plan' =>
      cases hg : grants plan'.decomposition.dir p₀ with
      | false =>
        obtain ⟨e, hacq⟩ := acquire_of_not_grants hg
        simp only [hacq] at h
        cases h
      | true =>
        simp only [acquire_of_grants hg, Option.some.injEq, Prod.mk.injEq] at h ⊢
        obtain ⟨rfl, rfl⟩ := h
        rfl

/-- An operation that does not take the lock fails. It records nothing, and makes at most the file of the lock. -/
lemma guarded_run_of_none {α : Type} (body : Plan → Activity α) (h : w.opened path p = none) :
    ∃ e p', (w.guarded path body).run p = (.error e, p') ∧ p'.database = p.database ∧ p'.ticks = p.ticks ∧
      (p'.disk = p.disk ∨ ∃ dir, p'.disk = p.disk.locked dir) := by
  obtain ⟨log, hlog⟩ := w.planAt_run_log (w.abs path) p
  unfold opened at h
  unfold guarded withLock
  simp only [run_bind] at h ⊢
  cases hrun : (w.planAt (w.abs path)).run p with
  | mk r p₀ =>
    rw [hrun] at h hlog
    obtain rfl : p₀ = { p with log := log } := hlog
    cases r with
    | error e => exact ⟨e, _, rfl, rfl, rfl, .inl rfl⟩
    | ok plan' =>
      cases hg : grants plan'.decomposition.dir { p with log := log } with
      | true =>
        simp only [acquire_of_grants hg] at h
        cases h
      | false =>
        obtain ⟨e, hacq⟩ := acquire_of_not_grants hg
        simp only [hacq]
        exact ⟨e, _, rfl, rfl, rfl, .inr ⟨_, rfl⟩⟩

end Workspace

end DeclPieces
