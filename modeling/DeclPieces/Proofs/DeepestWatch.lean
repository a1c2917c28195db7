import DeclPieces.Proofs.Enclosure
import DeclPieces.Watch
import Mathlib.Data.List.Induction
import Mathlib.Data.List.Nodup

/-! Which watch takes an event. Watches come from additions, one for each directory; those around one path have
directories of different lengths, so that the order in which they are gone through does not matter. Directories of
pieces are named after files; a directory without a name, as the top of a file system, is not watched as it should. -/
namespace DeclPieces

namespace Watch
variable {x y : Watch} {ws : List Watch} {p : Path}

/-- A watch around a path, and none around it has a longer directory. -/
structure Deepest (ws : List Watch) (p : Path) (x : Watch) : Prop where
  mem : x ∈ ws
  around : x.dir.Encloses p
  longest : ∀ y ∈ ws, y.dir.Encloses p → y.dir.length ≤ x.dir.length

instance (ws : List Watch) (p : Path) (x : Watch) : Decidable (Deepest ws p x) :=
  decidable_of_iff (x ∈ ws ∧ x.dir.Encloses p ∧ ∀ y ∈ ws, y.dir.Encloses p → y.dir.length ≤ x.dir.length)
    ⟨fun ⟨h₁, h₂, h₃⟩ => ⟨h₁, h₂, h₃⟩, fun h => ⟨h.1, h.2, h.3⟩⟩

/-- Do the watches have clean directories with names, each its own? -/
structure Placed (ws : List Watch) : Prop where
  clean : ∀ x ∈ ws, x.dir.clean = x.dir
  named : ∀ x ∈ ws, x.dir.HasName
  once : (ws.map Watch.dir).Nodup

namespace Placed

lemma encloses_iff_append (h : Placed ws) (hp : p.clean = p) (hx : x ∈ ws) :
    x.dir.Encloses p ↔ ∃ rest, p = x.dir ++ Path.slash :: rest :=
  Path.encloses_iff_append (h.clean x hx) hp (h.named x hx).ne_nil

lemma eq_of_length_eq (h : Placed ws) (hp : p.clean = p) (hx : x ∈ ws) (hy : y ∈ ws) (hxp : x.dir.Encloses p)
    (hyp : y.dir.Encloses p) (hlength : x.dir.length = y.dir.length) : x = y := by
  obtain ⟨rest, hrest⟩ := (h.encloses_iff_append hp hx).mp hxp
  obtain ⟨rest', hrest'⟩ := (h.encloses_iff_append hp hy).mp hyp
  exact List.inj_on_of_nodup_map h.once hx hy (List.append_inj (hrest.symm.trans hrest') hlength).1

lemma deepest_unique (h : Placed ws) (hp : p.clean = p) (hx : Deepest ws p x) (hy : Deepest ws p y) : x = y :=
  h.eq_of_length_eq hp hx.mem hy.mem hx.around hy.around
    (Nat.le_antisymm (hy.longest x hx.mem hx.around) (hx.longest y hy.mem hy.around))

/-- A directory whose name goes on where that of another ends lies apart from it. -/
lemma apart {c : UInt8} {rest : Text} (h : Placed ws) (hp : p.clean = p) (hx : x ∈ ws) (hy : y ∈ ws)
    (hxp : x.dir.Encloses p) (hdir : y.dir = x.dir ++ c :: rest) (hc : c ≠ Path.slash) : ¬ y.dir.Encloses p := by
  intro hyp
  obtain ⟨after, hafter⟩ := (h.encloses_iff_append hp hx).mp hxp
  obtain ⟨after', hafter'⟩ := (h.encloses_iff_append hp hy).mp hyp
  rw [hafter, hdir, List.append_assoc, List.append_cancel_left_eq, List.cons_append, List.cons.injEq] at hafter'
  exact hc hafter'.1.symm

end Placed

/-- Is an event on a path in `dir` on its index, or on a name that is to be ignored? -/
def Settings.Ignores (s : Settings) (dir p : Path) : Prop :=
  (s.indexFile ≠ [] ∧ p = Path.join dir s.indexFile) ∨
    ∃ pattern ∈ s.ignorePatterns, Glob.accepts pattern (Path.base p) = true

end Watch

namespace Watcher
open Watch
variable {w : Watcher} {x : Watch} {p D source dir : Path} {e : Event} {d : Disk} {ns : List Notice}

lemma ignores_iff {s : Watch.Settings} : ignores s dir p = true ↔ s.Ignores dir p := by
  simp [ignores, Watch.Settings.Ignores]

/-! The owner of a path. -/

lemma exists_deeper (x a : Watch) : ∃ b, deeper (some x) a = some b ∧ (b = x ∨ b = a) ∧
    x.dir.length ≤ b.dir.length ∧ a.dir.length ≤ b.dir.length := by
  rw [deeper]
  split
  · next hlt => exact ⟨a, rfl, .inr rfl, hlt.le, le_rfl⟩
  · next hlt => exact ⟨x, rfl, .inl rfl, le_rfl, Nat.le_of_not_lt hlt⟩

/-- Going through watches leaves one of them, and none has a longer directory. -/
lemma exists_foldl_deeper (x : Watch) (xs : List Watch) : ∃ y ∈ x :: xs,
    xs.foldl deeper (some x) = some y ∧ ∀ z ∈ x :: xs, z.dir.length ≤ y.dir.length := by
  induction xs generalizing x with
  | nil => exact ⟨x, List.mem_singleton_self x, rfl, by simp⟩
  | cons a xs ih =>
    obtain ⟨b, hb, hfrom, hx, ha⟩ := exists_deeper x a
    obtain ⟨y, hy, hfold, hle⟩ := ih b
    rw [List.forall_mem_cons] at hle
    refine ⟨y, ?_, by rw [List.foldl_cons, hb, hfold], List.forall_mem_cons.mpr
      ⟨hx.trans hle.1, List.forall_mem_cons.mpr ⟨ha.trans hle.1, hle.2⟩⟩⟩
    rcases List.mem_cons.mp hy with rfl | hy
    · rcases hfrom with rfl | rfl <;> simp
    · simp [hy]

/-- The top and the current directory are not gone through. -/
lemma mem_around_iff (hclean : ∀ x ∈ w.watches, x.dir.clean = x.dir) (hp : p.clean = p) :
    x ∈ w.watches.filter (fun x => p.hasPrefix (x.dir ++ [Path.slash])) ↔
      x ∈ w.watches ∧ x.dir.components ≠ [] ∧ x.dir.Encloses p := by
  rw [List.mem_filter]
  exact and_congr_right fun hx => Path.hasPrefix_slash_iff (hclean x hx) hp

lemma exists_owner (hws : Placed w.watches) (hp : p.clean = p) (h : ∃ x ∈ w.watches, x.dir.Encloses p) :
    ∃ x, w.owner? p = some x ∧ Deepest w.watches p x := by
  have haround (x : Watch) : x ∈ w.watches.filter (fun x => p.hasPrefix (x.dir ++ [Path.slash])) ↔
      x ∈ w.watches ∧ x.dir.Encloses p := by
    rw [mem_around_iff hws.clean hp]
    exact and_congr_right fun hx => and_iff_right (hws.named x hx).ne_nil
  obtain ⟨z, hz⟩ : ∃ z, z ∈ w.watches.filter (fun x => p.hasPrefix (x.dir ++ [Path.slash])) :=
    h.imp fun x hx => (haround x).mpr hx
  obtain ⟨first, others, hfilter⟩ := List.exists_cons_of_ne_nil (List.ne_nil_of_mem hz)
  obtain ⟨x, hx, hfold, hle⟩ := exists_foldl_deeper first others
  rw [← hfilter] at hx hle
  obtain ⟨hmem, hencloses⟩ := (haround x).mp hx
  refine ⟨x, ?_, hmem, hencloses, fun y hy hy' => hle y ((haround y).mpr ⟨hy, hy'⟩)⟩
  rw [owner?, hfilter, List.foldl_cons]
  exact hfold

lemma owner?_of_deepest (hws : Placed w.watches) (hp : p.clean = p) (h : Deepest w.watches p x) :
    w.owner? p = some x := by
  obtain ⟨y, howner, hy⟩ := exists_owner hws hp ⟨x, h.mem, h.around⟩
  rw [howner, hws.deepest_unique hp h hy]

lemma owner?_eq_none (hclean : ∀ x ∈ w.watches, x.dir.clean = x.dir) (hp : p.clean = p)
    (h : ∀ x ∈ w.watches, x.dir.components ≠ [] → ¬ x.dir.Encloses p) : w.owner? p = none := by
  have haround : w.watches.filter (fun x => p.hasPrefix (x.dir ++ [Path.slash])) = [] := by
    refine List.eq_nil_iff_forall_not_mem.mpr fun x hx => ?_
    obtain ⟨hmem, hnamed, hencloses⟩ := (mem_around_iff hclean hp).mp hx
    exact h x hmem hnamed hencloses
  rw [owner?, haround]
  rfl

/-! What an event does. -/

/-- What is left when one watch has taken an event. -/
def received (w : Watcher) (x : Watch) (e : Event) : Watcher :=
  { w with watches := w.watches.map fun y => if y = x then { y with pending := y.pending.add e } else y }

lemma enqueue_eq (honce : (w.watches.map Watch.dir).Nodup) (hx : x ∈ w.watches) :
    w.enqueue x.dir e = w.received x e := by
  rw [enqueue, received, Watcher.mk.injEq]
  refine ⟨rfl, List.map_congr_left fun y hy => ?_, rfl⟩
  have hsame : y.dir = x.dir ↔ y = x := ⟨List.inj_on_of_nodup_map honce hy hx, congrArg Watch.dir⟩
  simp only [hsame]

lemma handle_eq (hkind : Event.Kind.ofNotices? ns = some e.kind) (hpath : p.clean = e.path)
    (hnew : ¬(e.kind = .create ∧ d.isDir e.path = true)) :
    w.handle d e.timestamp p ns = (w.owner? e.path).elim ([], w) fun x =>
      if ignores w.settings x.dir e.path then ([], w) else ([], w.enqueue x.dir e) := by
  have hcond : ¬((e.kind = .create && d.isDir e.path) = true) := by simpa using hnew
  simp only [handle, hkind, hpath, if_neg hcond]
  cases w.owner? e.path <;> rfl

/-! How the watches came to be. -/

/-- What is done with a watcher. -/
inductive Act where
  | add (d : Disk) (source dir : Path)
  | notice (d : Disk) (now : Int) (p : Path) (ns : List Notice)
  | flush
  | cancel

def act (w : Watcher) : Act → Watcher
  | .add d source dir => (w.add d source dir).2
  | .notice d now p ns => (w.handle d now p ns).2
  | .flush => w.flush.2.2
  | .cancel => w.cancel

/-- A new watcher after all that was done with it. -/
def after (s : Watch.Settings) (acts : List Act) : Watcher := acts.foldl act { settings := s }

/-- What is added to watch: the source and the clean directory. -/
def Act.added : Act → List (Path × Path)
  | .add _ source dir => [(source, dir.clean)]
  | .notice .. | .flush | .cancel => []

def added (acts : List Act) : List (Path × Path) := acts.flatMap Act.added

lemma clean_of_mem_added {acts : List Act} (h : (source, D) ∈ added acts) : D.clean = D := by
  obtain ⟨a, -, ha⟩ := List.mem_flatMap.mp h
  cases a with
  | add d source' dir =>
    obtain ⟨-, rfl⟩ := Prod.mk.inj (List.mem_singleton.mp ha)
    exact Path.clean_clean dir
  | notice d now p ns => cases ha
  | flush => cases ha
  | cancel => cases ha

/-- What is watched: the source and the directory. -/
def registered (w : Watcher) : List (Path × Path) := w.watches.map fun x => (x.source, x.dir)

/-- Is each directory watched once, and for the source it was first added for? -/
structure Registers (rs adds : List (Path × Path)) : Prop where
  once : (rs.map Prod.snd).Nodup
  first : ∀ D, rs.find? (·.2 = D) = adds.find? (·.2 = D)

lemma any_registered (D : Path) : w.registered.any (·.2 = D) = w.watches.any (·.dir = D) := by
  simp [registered, List.any_map, Function.comp_def]

lemma registered_add (d : Disk) (source dir : Path) : (w.add d source dir).2.registered =
    if w.registered.any (·.2 = dir.clean) then w.registered else w.registered ++ [(source, dir.clean)] := by
  simp only [add, any_registered]
  split
  · rfl
  · split <;> simp [registered, addDirs]

lemma registered_map {f : Watch → Watch} (hf : ∀ x, (f x).source = x.source ∧ (f x).dir = x.dir) :
    ({ w with watches := w.watches.map f }).registered = w.registered := by
  simp [registered, hf]

lemma registered_handle (d : Disk) (now : Int) (p : Path) (ns : List Notice) :
    (w.handle d now p ns).2.registered = w.registered := by
  have henqueue (dir : Path) (e : Event) : (w.enqueue dir e).registered = w.registered :=
    registered_map fun x => by split <;> exact ⟨rfl, rfl⟩
  unfold handle
  split
  · rfl
  · dsimp only
    split
    · split <;> rfl
    · split
      · rfl
      · split
        · rfl
        · exact henqueue _ _

lemma registered_flush : w.flush.2.2.registered = w.registered := registered_map fun _ => ⟨rfl, rfl⟩

lemma registered_cancel : w.cancel.registered = w.registered := registered_map fun _ => ⟨rfl, rfl⟩

namespace Registers
variable {rs adds : List (Path × Path)}

lemma add (h : Registers rs adds) (r : Path × Path) :
    Registers (if rs.any (·.2 = r.2) then rs else rs ++ [r]) (adds ++ [r]) := by
  by_cases hany : rs.any (·.2 = r.2) = true
  · -- a later source of a directory is never the first that a search comes to
    rw [if_pos hany]
    refine ⟨h.once, fun D => ?_⟩
    rw [List.find?_append, ← h.first D]
    by_cases hD : r.2 = D
    · subst hD
      rw [Option.or_of_isSome (by rw [List.find?_isSome]; simpa using hany)]
    · simp [hD]
  · rw [if_neg hany]
    have hnew : r.2 ∉ rs.map Prod.snd := by simpa using hany
    refine ⟨?_, fun D => by rw [List.find?_append, List.find?_append, h.first D]⟩
    rw [List.map_append, List.map_singleton, ← List.concat_eq_append]
    exact List.Nodup.concat hnew h.once

lemma mem_iff (h : Registers rs adds) : (source, D) ∈ rs ↔ adds.find? (·.2 = D) = some (source, D) := by
  rw [← h.first D]
  constructor
  · intro hmem
    obtain ⟨r, hr⟩ := Option.isSome_iff_exists.mp
      (List.find?_isSome.mpr ⟨(source, D), hmem, decide_eq_true rfl⟩ : (rs.find? (·.2 = D)).isSome = true)
    have hdir : r.2 = D := by simpa using List.find?_some hr
    rw [hr, List.inj_on_of_nodup_map h.once (List.mem_of_find?_eq_some hr) hmem hdir]
  · exact List.mem_of_find?_eq_some

end Registers

/-- Only an addition changes what is watched, and it leaves the first source of each directory. -/
lemma Registers.act {adds : List (Path × Path)} (h : Registers w.registered adds) (a : Act) :
    Registers (w.act a).registered (adds ++ a.added) := by
  cases a with
  | add d source dir =>
    rw [Watcher.act, registered_add]
    exact h.add (source, dir.clean)
  | notice d now p ns =>
    rw [Watcher.act, registered_handle, Act.added, List.append_nil]
    exact h
  | flush =>
    rw [Watcher.act, registered_flush, Act.added, List.append_nil]
    exact h
  | cancel =>
    rw [Watcher.act, registered_cancel, Act.added, List.append_nil]
    exact h

lemma registers_after (s : Watch.Settings) (acts : List Act) : Registers (after s acts).registered (added acts) := by
  induction acts using List.reverseRecOn with
  | nil => exact ⟨List.nodup_nil, fun _ => rfl⟩
  | append_singleton acts a ih =>
    rw [after, List.foldl_append, added, List.flatMap_append, List.flatMap_singleton]
    exact ih.act a

/-- The directory of the pieces of a file is named after the file. -/
lemma hasName_pieceDirectory {o : Options} (h : Address.pieceDirectory o source = .ok dir)
    (hstem : Path.Plain (Address.trimSuffix (Path.base source))) : dir.HasName := by
  unfold Address.pieceDirectory at h
  simp only at h
  split at h
  · cases h
  split at h
  · cases h
  · next below _ =>
    obtain rfl := Except.ok.inj h
    exact Path.hasName_joinAll [o.piecesRoot, below] hstem

lemma placed_of_perm {s : Watch.Settings} {acts : List Act} (hnamed : ∀ r ∈ added acts, r.2.HasName)
    (hws : w.watches.Perm (after s acts).watches) : Placed w.watches := by
  have hregisters := registers_after s acts
  have hmem (x : Watch) (hx : x ∈ w.watches) : (x.source, x.dir) ∈ added acts :=
    List.mem_of_find?_eq_some (hregisters.mem_iff.mp (List.mem_map.mpr ⟨x, hws.mem_iff.mp hx, rfl⟩))
  refine ⟨fun x hx => clean_of_mem_added (hmem x hx), fun x hx => hnamed _ (hmem x hx), ?_⟩
  have hafter := hregisters.once
  rw [registered, List.map_map] at hafter
  exact (hws.map Watch.dir).nodup_iff.mpr hafter

/-- Watches are of directories of pieces, which have names (`hasName_pieceDirectory`); the top and the current directory
are none, and would get no event (`mem_around_iff`). In whatever order the watches are gone through, an event that is no
creation of a directory is taken by the one watch whose directory is the longest around its path, and no other; by none
if it is on the index there, on a name to be ignored or in no directory that is watched. Around a path are the
directories from which names lead down to it, and never one whose name only starts that of a sibling. Each directory has
one watch, for the source it was first added for. -/
theorem event_taken_by_deepest {s : Watch.Settings} {acts : List Act} (hnamed : ∀ r ∈ added acts, r.2.HasName)
    (hws : w.watches.Perm (after s acts).watches) (hkind : Event.Kind.ofNotices? ns = some e.kind)
    (hpath : p.clean = e.path) (hnew : ¬(e.kind = .create ∧ d.isDir e.path = true)) :
    ((∃ x ∈ w.watches, x.dir.Encloses e.path) → ∃! x, Deepest w.watches e.path x) ∧
      (∀ x, Deepest w.watches e.path x → ¬ w.settings.Ignores x.dir e.path →
        w.handle d e.timestamp p ns = ([], w.received x e)) ∧
      (∀ x, Deepest w.watches e.path x → w.settings.Ignores x.dir e.path → w.handle d e.timestamp p ns = ([], w)) ∧
      ((∀ x ∈ w.watches, ¬ x.dir.Encloses e.path) → w.handle d e.timestamp p ns = ([], w)) ∧
      (∀ x ∈ w.watches, x.dir.Encloses e.path ↔ x.dir.isAbs = e.path.isAbs ∧
        ∃ rest, rest ≠ [] ∧ (∀ c ∈ rest, Path.Plain c) ∧ e.path.components = x.dir.components ++ rest) ∧
      (∀ x ∈ w.watches, ∀ y ∈ w.watches, ∀ c rest, c ≠ Path.slash → y.dir = x.dir ++ c :: rest →
        x.dir.Encloses e.path → ¬ y.dir.Encloses e.path) ∧
      (w.watches.map Watch.dir).Nodup ∧
      ∀ source D, (∃ x ∈ w.watches, x.source = source ∧ x.dir = D) ↔
        (added acts).find? (·.2 = D) = some (source, D) := by
  have hplaced := placed_of_perm hnamed hws
  have hp : e.path.clean = e.path := hpath ▸ Path.clean_clean p
  have hhandle := handle_eq (w := w) hkind hpath hnew
  refine ⟨fun haround => ?_, fun x hx hignores => ?_, fun x hx hignores => ?_, fun hnone => ?_,
    fun x hx => (hplaced.named x hx).encloses_iff, fun x hx y hy c rest hc hdir h => hplaced.apart hp hx hy h hdir hc,
    hplaced.once, fun source D => ?_⟩
  · obtain ⟨x, -, hx⟩ := exists_owner hplaced hp haround
    exact ⟨x, hx, fun y hy => hplaced.deepest_unique hp hy hx⟩
  · rw [hhandle, owner?_of_deepest hplaced hp hx]
    rw [Option.elim_some, if_neg (mt ignores_iff.mp hignores), enqueue_eq hplaced.once hx.mem]
  · rw [hhandle, owner?_of_deepest hplaced hp hx]
    rw [Option.elim_some, if_pos (ignores_iff.mpr hignores)]
  · rw [hhandle, owner?_eq_none hplaced.clean hp fun x hx _ => hnone x hx, Option.elim_none]
  · rw [← (registers_after s acts).mem_iff, registered, List.mem_map]
    simp only [Prod.mk.injEq, hws.mem_iff]

/-- Directories below and beside one another, one of them added twice. -/
def nestedActs : List Act :=
  [.add {} "a.d.ts" "/p/a", .add {} "a/b.d.ts" "/p/a/b/", .add {} "ab.d.ts" "/p/ab", .add {} "other.d.ts" "/p/./a"]

/-- The watches in another order. -/
def nestedWatcher : Watcher := { after {} nestedActs with watches := (after {} nestedActs).watches.reverse }

theorem nested_event_taken :
    (∀ r ∈ added nestedActs, r.2.HasName) ∧ nestedWatcher.watches.Perm (after {} nestedActs).watches ∧
      Event.Kind.ofNotices? [.chmod, .write] = some .modify ∧ Path.clean "/p/a/t/../b/x" = "/p/a/b/x" ∧
      ¬(Event.Kind.modify = .create ∧ Disk.isDir {} "/p/a/b/x" = true) ∧
      nestedWatcher.registered =
        ([("ab.d.ts", "/p/ab"), ("a/b.d.ts", "/p/a/b"), ("a.d.ts", "/p/a")] : List (Path × Path)) ∧
      nestedWatcher.handle {} 5 "/p/a/t/../b/x" [.chmod, .write] =
        ([], nestedWatcher.received { source := "a/b.d.ts", dir := "/p/a/b" } ⟨.modify, "/p/a/b/x", 5⟩) := by
  have hnamed : ∀ r ∈ added nestedActs, r.2.HasName := by decide +kernel
  have hws : nestedWatcher.watches.Perm (after {} nestedActs).watches := List.reverse_perm _
  have hkind : Event.Kind.ofNotices? [.chmod, .write] = some .modify := by decide
  have hpath : Path.clean "/p/a/t/../b/x" = "/p/a/b/x" := by decide +kernel
  have hnew : ¬(Event.Kind.modify = .create ∧ Disk.isDir {} "/p/a/b/x" = true) := by decide
  refine ⟨hnamed, hws, hkind, hpath, hnew, by decide +kernel, ?_⟩
  exact (event_taken_by_deepest (e := ⟨.modify, "/p/a/b/x", 5⟩) hnamed hws hkind hpath hnew).2.1 _
    (by decide +kernel) (by simp only [← ignores_iff]; decide +kernel)

/-- A piece directory in which there is a directory when it is added. -/
def standingDisk : Disk := { nodes := [("/p", .directory), ("/p/a", .directory), ("/p/a/c", .directory)] }

def watching (d : Disk) (dir : Path) : Watcher := after {} [.add d "a.d.ts" dir]

/-- A creation is taken for that of a new directory if there is a directory, though it was there before and is watched.
And the top and the current directory take nothing of what lies below them, while `..` takes what lies above it. -/
theorem enclosing_watches_take_nothing :
    (Deepest (watching standingDisk "/p/a").watches "/p/a/c" { source := "a.d.ts", dir := "/p/a" } ∧
      ignores {} "/p/a" "/p/a/c" = false ∧ ("/p/a/c" : Path) ∈ (watching standingDisk "/p/a").dirs ∧
      ((watching standingDisk "/p/a").handle standingDisk 5 "/p/a/c" [.create]).2 = watching standingDisk "/p/a") ∧
    (Deepest (watching {} "/").watches "/b" { source := "a.d.ts", dir := "/" } ∧ ignores {} "/" "/b" = false ∧
      ((watching {} "/").handle {} 5 "/b" [.write]).2 = watching {} "/") ∧
    (Deepest (watching {} ".").watches "b" { source := "a.d.ts", dir := "." } ∧ ignores {} "." "b" = false ∧
      ((watching {} ".").handle {} 5 "b" [.write]).2 = watching {} ".") ∧
    ((watching {} "..").handle {} 5 "../.." [.write]).2 =
      (watching {} "..").received { source := "a.d.ts", dir := ".." } ⟨.modify, "../..", 5⟩ := by
  decide +kernel

end Watcher

end DeclPieces
