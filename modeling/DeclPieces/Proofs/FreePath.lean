import DeclPieces.Proofs.Allocation
import Mathlib.Data.List.Induction

/-! The search for a free path as it goes, choice by choice, and the paths that an allocator gives out. Whatever was
asked of the allocator before, it gives out the path at which the search ends, and for a name without slashes the search
ends. -/
namespace DeclPieces.Allocator
open Path
variable {a b : Allocator} {dir name ext : Text} {path path' : Path} {n tries tries' fuel : Nat}

/-- A search from the `n`-th choice on, with how many choices it tries. It ends at the first that is free, and has no
bound of its own. -/
inductive Search (a : Allocator) (dir name ext : Text) : Nat → Nat → Path → Prop
  | free {n : Nat} (h : a.taken (candidate dir name ext n) = false) :
      Search a dir name ext n 1 (candidate dir name ext n)
  | next {n tries : Nat} {path : Path} (h : a.taken (candidate dir name ext n) = true)
      (rest : Search a dir name ext (n + 1) tries path) : Search a dir name ext n (tries + 1) path

lemma Search.unique (h : a.Search dir name ext n tries path) (h' : a.Search dir name ext n tries' path') :
    tries' = tries ∧ path' = path := by
  induction h generalizing tries' with
  | free hfree =>
    cases h' with
    | free => exact ⟨rfl, rfl⟩
    | next htaken => exact absurd (hfree.symm.trans htaken) (by decide)
  | next htaken rest ih =>
    cases h' with
    | free hfree => exact absurd (hfree.symm.trans htaken) (by decide)
    | next _ rest' =>
      obtain ⟨rfl, rfl⟩ := ih rest'
      exact ⟨rfl, rfl⟩

/-- A search passes over choices in use. -/
lemma Search.exists_first (h : a.Search dir name ext n tries path) :
    ∃ k, tries = k + 1 ∧ path = candidate dir name ext (n + k) ∧ a.taken path = false ∧
      ∀ m < k, a.taken (candidate dir name ext (n + m)) = true := by
  induction h with
  | free hfree => exact ⟨0, rfl, rfl, hfree, by simp⟩
  | @next n tries path htaken rest ih =>
    obtain ⟨k, rfl, rfl, hfree, hbefore⟩ := ih
    have hshift (m : Nat) : n + 1 + m = n + (m + 1) := by omega
    refine ⟨k + 1, rfl, by rw [hshift], hfree, fun m hm => ?_⟩
    cases m with
    | zero => exact htaken
    | succ m => exact hshift m ▸ hbefore m (by omega)

/-- A bounded search that comes to a free choice is the search. -/
lemma search_firstFree (h : a.taken (a.firstFree dir name ext n fuel) = false) :
    ∃ tries ≤ fuel + 1, a.Search dir name ext n tries (a.firstFree dir name ext n fuel) := by
  induction fuel generalizing n with
  | zero => exact ⟨1, le_rfl, .free h⟩
  | succ fuel ih =>
    unfold firstFree at h ⊢
    split at h
    · next htaken =>
      obtain ⟨tries, hle, hsearch⟩ := ih h
      rw [if_pos htaken]
      exact ⟨tries + 1, Nat.succ_le_succ hle, .next htaken hsearch⟩
    · next hfree =>
      rw [if_neg hfree]
      exact ⟨1, by omega, .free h⟩

lemma taken_iff (a : Allocator) (p : Path) : a.taken p = true ↔ p.lower ∈ a.used := by simp [taken]

lemma mem_used_reserve (a : Allocator) (p : Path) (t : Text) :
    t ∈ (a.reserve p).used ↔ t = p.lower ∨ t ∈ a.used := by
  unfold reserve
  split
  · next h =>
    refine (or_iff_right_of_imp ?_).symm
    rintro rfl
    exact (taken_iff a p).mp h
  · exact List.mem_cons

lemma nodup_reserve (h : a.used.Nodup) (p : Path) : (a.reserve p).used.Nodup := by
  unfold reserve
  split
  · exact h
  · next hfree => exact List.nodup_cons.mpr ⟨mt (taken_iff a p).mpr hfree, h⟩

/-- What an allocation comes to: its search passes over `k` choices in use and ends at a free one. That is the path
that is given out, and it alone is in use from then on. -/
structure Allocates (a : Allocator) (dir name ext : Text) (k : Nat) (path : Path) (b : Allocator) : Prop where
  search : ∀ tries path', a.Search dir name ext 0 tries path' ↔ tries = k + 1 ∧ path' = path
  allocate : a.allocate dir name ext = (path, b)
  allocateFree : a.allocateFree dir name ext = .ok (path, b)
  eq_join : path = join dir (stem name k ++ ext)
  eq_clean : dir ≠ [] → path = clean (dir ++ slash :: (stem name k ++ ext))
  free : path.lower ∉ a.used
  before : ∀ m < k, (join dir (stem name m ++ ext)).lower ∈ a.used
  mem_used : ∀ t, t ∈ b.used ↔ t = path.lower ∨ t ∈ a.used

/-- The path that is given out is the one at which the search ends. -/
lemma allocates_of_allocateFree (h : a.allocateFree dir name ext = .ok (path, b)) :
    ∃ k ≤ a.used.length, a.Allocates dir name ext k path b := by
  obtain ⟨hfree, rfl, -⟩ := allocateFree_eq_ok h
  have hpath : a.firstFree dir name ext 0 a.used.length = path := by
    unfold allocateFree allocate at h
    simp only at h
    split at h
    · cases h
    · exact (Prod.mk.inj (Except.ok.inj h)).1
  subst hpath
  obtain ⟨tries, hle, hsearch⟩ := search_firstFree hfree
  obtain ⟨k, rfl, hlast, -, hbefore⟩ := hsearch.exists_first
  have hjoin : a.firstFree dir name ext 0 a.used.length = join dir (stem name k ++ ext) := by
    rw [hlast, Nat.zero_add, candidate_eq]
  refine ⟨k, by omega, ?search, rfl, h, hjoin, ?clean, ?free, ?before, mem_used_reserve a _⟩
  case search =>
    refine fun tries path' => ⟨hsearch.unique, ?_⟩
    rintro ⟨rfl, rfl⟩
    exact hsearch
  case clean =>
    intro hdir
    rw [hjoin, join_eq hdir]
  case free =>
    rw [← taken_iff, hfree]
    decide
  case before =>
    intro m hm
    have htaken := hbefore m hm
    rwa [Nat.zero_add, candidate_eq, taken_iff] at htaken

/-- A search that ends, for whatever name, tries at most one choice more than there are paths in use. -/
lemma Search.exists_allocates (h : a.Search dir name ext 0 tries path) :
    ∃ k ≤ a.used.length, ∃ b, a.Allocates dir name ext k path b := by
  obtain ⟨k, -, hlast, hfree, -⟩ := h.exists_first
  have hfree : (candidate dir name ext (0 + k)).lower ∉ a.used := by
    rw [← hlast, ← taken_iff, hfree]
    decide
  obtain ⟨path', b, hok⟩ := allocateFree_isOk_of_not_mem hfree
  obtain ⟨k', hk', hallocates⟩ := allocates_of_allocateFree hok
  obtain ⟨-, rfl⟩ := (hallocates.search tries path).mp h
  exact ⟨k', hk', b, hallocates⟩

/-- The search for a name without slashes ends. -/
lemma exists_search (hname : slash ∉ name) (hext : slash ∉ ext) (a : Allocator) (dir : Path) :
    ∃ tries path, a.Search dir name ext 0 tries path := by
  obtain ⟨path, b, hok⟩ := allocateFree_isOk hname hext a dir
  obtain ⟨k, -, hallocates⟩ := allocates_of_allocateFree hok
  exact ⟨k + 1, path, (hallocates.search _ _).mpr ⟨rfl, rfl⟩⟩

/-- What an allocator is asked for. -/
inductive Call where
  | reserve (path : Path)
  | allocate (dir name ext : Text)

namespace Call

/-- The path that is reserved, if one is. -/
def reserved? : Call → Option Path
  | .reserve path => some path
  | .allocate _ _ _ => none

/-- Is what is asked for a file of the directory itself, that is, is its name without slashes? -/
def Named : Call → Prop
  | .reserve _ => True
  | .allocate _ name ext => slash ∉ name ∧ slash ∉ ext

instance : DecidablePred Named
  | .reserve _ => .isTrue trivial
  | .allocate _ name ext => inferInstanceAs (Decidable (slash ∉ name ∧ slash ∉ ext))

end Call

variable {calls : List Call} {given : List Path}

/-- Calls of a new allocator that all give a result, the paths that they give out, and the allocator after them. -/
inductive Reached : List Call → List Path → Allocator → Prop
  | new : Reached [] [] {}
  | reserve {calls : List Call} {given : List Path} {a : Allocator} (h : Reached calls given a) (path : Path) :
      Reached (calls ++ [.reserve path]) given (a.reserve path)
  | allocate {calls : List Call} {given : List Path} {a b : Allocator} {dir name ext : Text} {path : Path}
      (h : Reached calls given a) (ok : a.allocateFree dir name ext = .ok (path, b)) :
      Reached (calls ++ [.allocate dir name ext]) (given ++ [path]) b

/-- Does an allocator hold the paths that were reserved and those that were given out, each once? And do those that
were given out all differ, also without regard to case? -/
structure Holds (a : Allocator) (reserved given : List Path) : Prop where
  nodup : a.used.Nodup
  mem_used : ∀ t, t ∈ a.used ↔ t ∈ (reserved ++ given).map Text.lower
  apart : given.Pairwise fun p q => p.lower ≠ q.lower

lemma Reached.holds (h : Reached calls given a) : a.Holds (calls.filterMap Call.reserved?) given := by
  induction h with
  | new => exact ⟨.nil, by simp, .nil⟩
  | @reserve calls given a h path ih =>
    refine ⟨nodup_reserve ih.nodup path, fun t => ?_, ih.apart⟩
    rw [mem_used_reserve, ih.mem_used]
    simp [Call.reserved?, eq_comm, or_left_comm]
  | @allocate calls given a b dir name ext path h ok ih =>
    obtain ⟨hfree, rfl, -⟩ := allocateFree_eq_ok ok
    refine ⟨nodup_reserve ih.nodup path, fun t => ?_, ?_⟩
    · rw [mem_used_reserve, ih.mem_used]
      simp [Call.reserved?, eq_comm, or_assoc, or_comm]
    · -- a path that was given out before is in use, and the new one is not
      rw [List.pairwise_append]
      refine ⟨ih.apart, List.pairwise_singleton _ _, fun p hp q hq hsame => ?_⟩
      obtain rfl := List.mem_singleton.mp hq
      have hused : q.lower ∈ a.used := (ih.mem_used _).mpr (hsame ▸ List.mem_map_of_mem (List.mem_append_right _ hp))
      rw [← taken_iff, hfree] at hused
      cases hused

/-- Calls for names without slashes all give a result. -/
lemma exists_reached (h : ∀ c ∈ calls, c.Named) : ∃ given a, Reached calls given a := by
  induction calls using List.reverseRecOn with
  | nil => exact ⟨[], {}, .new⟩
  | append_singleton calls c ih =>
    obtain ⟨given, a, hreached⟩ := ih fun c hc => h c (List.mem_append_left _ hc)
    cases c with
    | reserve path => exact ⟨_, _, hreached.reserve path⟩
    | allocate dir name ext =>
      obtain ⟨hname, hext⟩ : slash ∉ name ∧ slash ∉ ext := h (.allocate dir name ext) (by simp)
      obtain ⟨path, b, hok⟩ := allocateFree_isOk hname hext a dir
      exact ⟨_, _, hreached.allocate hok⟩

/-- Whatever was asked of an allocator before, the search for a name without slashes ends. A search that ends tries at
most one choice more than there are paths in use, and its path is given out: the first of the choices that is not in use
whatever the case of its letters. This path alone is in use from then on, so that none is given out twice. -/
theorem allocation_after_calls :
    (∀ {calls : List Call}, (∀ c ∈ calls, c.Named) → ∃ given a, Reached calls given a) ∧
    ∀ {calls : List Call} {given : List Path} {a : Allocator}, Reached calls given a →
      a.Holds (calls.filterMap Call.reserved?) given ∧
      ∀ {dir name ext : Text},
        (slash ∉ name → slash ∉ ext → ∃ tries path, a.Search dir name ext 0 tries path) ∧
        ∀ {tries : Nat} {path : Path}, a.Search dir name ext 0 tries path →
          ∃ k ≤ a.used.length, ∃ b, a.Allocates dir name ext k path b :=
  ⟨exists_reached, fun h => ⟨h.holds, fun {dir _ _} =>
    ⟨fun hname hext => exists_search hname hext _ dir, Search.exists_allocates⟩⟩⟩

/-- The first choice for a name of dots is the directory above, and the second is in use in upper case. -/
def crowdedCalls : List Call := [.allocate "/p/x" ".." "", .reserve "/P/X/..-1"]

/-- As many choices are tried as can be. -/
theorem crowded_name_allocated :
    (∃ given a, Reached crowdedCalls given a) ∧
    ∃ a, Reached crowdedCalls ["/p"] a ∧ a.used = ["/p/x/..-1", "/p"] ∧ a.Holds ["/P/X/..-1"] ["/p"] ∧
      ∃ b, a.Allocates "/p/x" ".." "" 2 "/p/x/..-2" b := by
  obtain ⟨hall, hafter⟩ := allocation_after_calls
  have hreached : Reached crowdedCalls ["/p"] ⟨["/p/x/..-1", "/p"]⟩ := by
    have hfirst : allocateFree {} "/p/x" ".." "" = .ok ("/p", ⟨["/p"]⟩) := by rfl
    exact (Reached.new.allocate hfirst).reserve "/P/X/..-1"
  obtain ⟨hholds, hnext⟩ := hafter hreached
  obtain ⟨hends, hallocates⟩ := @hnext "/p/x" ".." ""
  obtain ⟨tries, path, hsearch⟩ := hends (by decide) (by decide)
  obtain ⟨k, -, b, hallocates⟩ := hallocates hsearch
  have hthird : Search ⟨["/p/x/..-1", "/p"]⟩ "/p/x" ".." "" 0 3 "/p/x/..-2" :=
    .next (by decide +kernel) (.next (by decide +kernel) (.free (by decide +kernel)))
  obtain ⟨htries, rfl⟩ := (hallocates.search _ _).mp hthird
  obtain rfl : k = 2 := by omega
  exact ⟨hall (by decide), _, hreached, rfl, hholds, b, hallocates⟩

end DeclPieces.Allocator
