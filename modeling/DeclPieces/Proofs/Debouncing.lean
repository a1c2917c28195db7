import DeclPieces.Proofs.TextOrder
import DeclPieces.Watch.Batch
import Mathlib.Data.Finset.Card

/-! Events that wait are told by those that were added: one for each path, the latest, at the place of the first. The
index of a debouncer names these places, so that taking in an event by the index and by a search is the same. -/
namespace DeclPieces

namespace Batch
variable {b : Batch} {e x : Event} {es : List Event} {i : Nat}

/-- The event on a path that was added last. -/
def latest? (es : List Event) (p : Path) : Option Event := es.reverse.find? fun e => e.path = p

/-- Are these the latest of the events, one for each path, in the order in which the paths first occurred? -/
structure Collapses (b : Batch) (es : List Event) : Prop where
  paths : b.paths = (es.map Event.path).eraseDups
  latest : ∀ e ∈ b, latest? es e.path = some e

lemma latest?_append (es : List Event) (e : Event) (p : Path) :
    latest? (es ++ [e]) p = if e.path = p then some e else latest? es p := by
  unfold latest?
  rw [List.reverse_append, List.reverse_singleton, List.singleton_append, List.find?_cons]
  split <;> simp_all

lemma eraseDups_append_singleton (ps : List Path) (p : Path) :
    (ps ++ [p]).eraseDups = if p ∈ ps then ps.eraseDups else ps.eraseDups ++ [p] := by
  rw [List.eraseDups_append]
  by_cases hp : p ∈ ps <;> simp [List.removeAll, List.eraseDups_cons, hp]

lemma add_of_not_mem (h : e.path ∉ b.paths) : b.add e = b ++ [e] := by
  induction b with
  | nil => rfl
  | cons old rest ih =>
    rw [paths, List.map_cons, List.mem_cons, not_or] at h
    rw [add, if_neg (Ne.symm h.1), ih h.2, List.cons_append]

lemma add_of_getElem? (hb : b.paths.Nodup) (h : b.paths[i]? = some e.path) : b.add e = b.set i e := by
  induction b generalizing i with
  | nil => simp [paths] at h
  | cons old rest ih =>
    rw [paths, List.map_cons, List.nodup_cons] at hb
    cases i with
    | zero =>
      have hold : old.path = e.path := by simpa [paths] using h
      rw [add, if_pos hold, List.set_cons_zero]
    | succ i =>
      have hrest : (paths rest)[i]? = some e.path := by simpa [paths] using h
      have hne : old.path ≠ e.path := fun he => hb.1 (he ▸ List.mem_of_getElem? hrest)
      rw [add, if_neg hne, ih hb.2 hrest, List.set_cons_succ]

/-- An addition leaves no other event on its path. -/
lemma mem_of_mem_add (hb : b.paths.Nodup) (h : x ∈ b.add e) : x = e ∨ x ∈ b ∧ x.path ≠ e.path := by
  induction b with
  | nil => exact .inl (List.mem_singleton.mp h)
  | cons old rest ih =>
    rw [paths, List.map_cons, List.nodup_cons] at hb
    unfold add at h
    split at h
    · next hold =>
      rcases List.mem_cons.mp h with rfl | hx
      · exact .inl rfl
      · exact .inr ⟨List.mem_cons_of_mem _ hx, fun he => hb.1 (hold ▸ he ▸ List.mem_map_of_mem hx)⟩
    · next hold =>
      rcases List.mem_cons.mp h with rfl | hx
      · exact .inr ⟨List.mem_cons_self, hold⟩
      · exact (ih hb.2 hx).imp_right (And.imp_left (List.mem_cons_of_mem old))

namespace Collapses

lemma nodup (h : b.Collapses es) : b.paths.Nodup := h.paths ▸ List.nodup_eraseDups _

lemma nil : Collapses [] [] := ⟨rfl, by simp⟩

lemma add (h : b.Collapses es) (e : Event) : (b.add e).Collapses (es ++ [e]) := by
  constructor
  · rw [paths_add, List.map_append, List.map_singleton, eraseDups_append_singleton, h.paths]
    simp only [List.mem_eraseDups]
  · intro x hx
    rw [latest?_append]
    rcases mem_of_mem_add h.nodup hx with rfl | ⟨hmem, hne⟩
    · exact if_pos rfl
    · rw [if_neg (Ne.symm hne), h.latest x hmem]

lemma length (h : b.Collapses es) : b.length = (es.map Event.path).toFinset.card := by
  have hset : (es.map Event.path).toFinset = b.paths.toFinset := by
    ext p
    simp only [h.paths, List.mem_toFinset, List.mem_eraseDups]
  rw [hset, List.toFinset_card_of_nodup h.nodup, Batch.paths, List.length_map]

lemma eq_nil_iff (h : b.Collapses es) : b = [] ↔ es = [] := by
  rw [← List.length_eq_zero_iff, h.length, Finset.card_eq_zero, List.toFinset_eq_empty_iff, List.map_eq_nil_iff]

end Collapses

end Batch

namespace Debouncer
variable {b : Debouncer} {e : Event} {es : List Event}

/-- Does the index name the place of every path that waits, and nothing else? -/
def Indexed (b : Debouncer) : Prop := ∀ p i, b.index.lookup p = some i ↔ b.events.paths[i]? = some p

lemma Indexed.nodup (h : b.Indexed) : b.events.paths.Nodup := by
  rw [List.nodup_iff_getElem?_ne_getElem?]
  intro i j hlt hj heq
  have hat : b.events.paths[j]? = some b.events.paths[j] := List.getElem?_eq_getElem hj
  have hfirst := (h _ i).mpr (heq.trans hat)
  rw [(h _ j).mpr hat, Option.some.injEq] at hfirst
  omega

lemma Indexed.lookup_eq_none (h : b.Indexed) {p : Path} : b.index.lookup p = none ↔ p ∉ b.events.paths := by
  rw [Option.eq_none_iff_forall_ne_some, List.mem_iff_getElem?, not_exists]
  exact forall_congr' fun i => not_congr (h p i)

lemma getElem?_append_singleton (ps : List Path) (p q : Path) (i : Nat) :
    (ps ++ [q])[i]? = some p ↔ ps[i]? = some p ∨ i = ps.length ∧ q = p := by
  rcases Nat.lt_trichotomy i ps.length with hlt | rfl | hgt
  · rw [List.getElem?_append_left hlt]
    simp [hlt.ne]
  · simp
  · rw [List.getElem?_eq_none (by simpa using Nat.succ_le_of_lt hgt), List.getElem?_eq_none hgt.le]
    simp [hgt.ne']

/-- Taking in an event by the index is taking it in by a search. -/
lemma Indexed.events_add (h : b.Indexed) (e : Event) : (b.add e).events = b.events.add e := by
  unfold add
  cases hlookup : b.index.lookup e.path with
  | some i => exact (Batch.add_of_getElem? h.nodup ((h e.path i).mp hlookup)).symm
  | none => exact (Batch.add_of_not_mem (h.lookup_eq_none.mp hlookup)).symm

lemma Indexed.add (h : b.Indexed) (e : Event) : (b.add e).Indexed := by
  intro p i
  rw [h.events_add, Batch.paths_add]
  cases hlookup : b.index.lookup e.path with
  | some j =>
    have hmem : e.path ∈ b.events.paths := List.mem_of_getElem? ((h e.path j).mp hlookup)
    have hindex : (b.add e).index = b.index := by simp [Debouncer.add, hlookup]
    rw [if_pos hmem, hindex]
    exact h p i
  | none =>
    have hmem := h.lookup_eq_none.mp hlookup
    have hindex : (b.add e).index = (e.path, b.events.length) :: b.index := by simp [Debouncer.add, hlookup]
    have hlength : b.events.length = b.events.paths.length := by rw [Batch.paths, List.length_map]
    rw [if_neg hmem, hindex, hlength, getElem?_append_singleton]
    by_cases hp : p = e.path
    · -- the path had no place before
      subst hp
      have hnone : b.events.paths[i]? ≠ some e.path := fun he => hmem (List.mem_of_getElem? he)
      simp [hnone, eq_comm]
    · have hne : (p == e.path) = false := beq_false_of_ne hp
      simp [List.lookup_cons, hne, Ne.symm hp, h p i]

/-- What is done to events that wait. -/
inductive Step where
  | add (e : Event)
  | flush
  | cancel

/-- A step, with the batches that it emits. -/
def step (b : Debouncer) : Step → List Batch × Debouncer
  | .add e => ([], b.add e)
  | .flush => b.flush
  | .cancel => ([], b.cancel)

/-- The events that wait after some steps. -/
def after (steps : List Step) : Debouncer := steps.foldl (fun b s => (b.step s).2) {}

/-- The events that were added since the last flush or cancel. -/
def added (steps : List Step) : List Event :=
  steps.foldl (fun es s => match s with
    | .add e => es ++ [e]
    | .flush | .cancel => []) []

lemma after_append (steps : List Step) (s : Step) : after (steps ++ [s]) = ((after steps).step s).2 := by
  rw [after, List.foldl_append]
  rfl

lemma added_append (steps : List Step) (s : Step) : added (steps ++ [s]) = match s with
    | .add e => added steps ++ [e]
    | .flush | .cancel => [] := by
  rw [added, List.foldl_append]
  rfl

lemma indexed_empty : Indexed {} := fun p i => by simp [Batch.paths]

/-- Every step leaves the index right, and what waits is what it should be. -/
lemma after_sound (steps : List Step) :
    (after steps).Indexed ∧ (after steps).events.Collapses (added steps) := by
  induction steps using List.reverseRecOn with
  | nil => exact ⟨indexed_empty, .nil⟩
  | append_singleton steps s ih =>
    obtain ⟨hindexed, hcollapses⟩ := ih
    rw [after_append, added_append]
    cases s with
    | add e => exact ⟨hindexed.add e, (hindexed.events_add e).symm ▸ hcollapses.add e⟩
    | flush => exact ⟨indexed_empty, .nil⟩
    | cancel => exact ⟨indexed_empty, .nil⟩

/-- The events that wait are the latest of those added since the last flush or cancel, one for each path in the order
of their first additions. A flush emits them, and nothing if there are none; they are counted by the paths; and the
index names the place of each path that waits, and of no other. -/
theorem pending_after_steps (steps : List Step) :
    (after steps).events.Collapses (added steps) ∧
      (after steps).flush.1 = (if added steps = [] then [] else [(after steps).events]) ∧
      (after steps).length = ((added steps).map Event.path).toFinset.card ∧
      ∀ p i, (after steps).index.lookup p = some i ↔ (after steps).events.paths[i]? = some p := by
  obtain ⟨hindexed, hcollapses⟩ := after_sound steps
  refine ⟨hcollapses, ?_, hcollapses.length, hindexed⟩
  rw [flush, Batch.emitted]
  by_cases hadded : added steps = []
  · rw [if_pos hadded, if_pos (List.isEmpty_iff.mpr (hcollapses.eq_nil_iff.mpr hadded))]
  · rw [if_neg hadded, if_neg (mt List.isEmpty_iff.mp (mt hcollapses.eq_nil_iff.mp hadded))]

/-- A path that comes again keeps its place and gets its latest event. -/
example : (after [.add ⟨.create, "a", 1⟩, .add ⟨.modify, "b", 2⟩, .add ⟨.create, "a", 3⟩]).flush =
    ([[⟨.create, "a", 3⟩, ⟨.modify, "b", 2⟩]], {}) := by decide

end Debouncer

end DeclPieces
