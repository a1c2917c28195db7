/-! A stable sort by structural recursion, so that what is sorted can be computed in proofs. -/
namespace List
variable {α : Type}

/-- Puts `a` in front of the first member that may follow it. -/
def insertStable (le : α → α → Bool) (a : α) : List α → List α
  | [] => [a]
  | b :: rest => if le a b then a :: b :: rest else b :: insertStable le a rest

/-- Sorts a list; members that may stand either way keep their order. -/
def stableSort : List α → (α → α → Bool) → List α
  | [], _ => []
  | a :: rest, le => insertStable le a (stableSort rest le)

theorem insertStable_perm (le : α → α → Bool) (a : α) (l : List α) : (insertStable le a l).Perm (a :: l) := by
  induction l with
  | nil => exact .refl _
  | cons b rest ih =>
    unfold insertStable
    split
    · exact .refl _
    · exact (ih.cons b).trans (.swap a b rest)

theorem stableSort_perm (l : List α) (le : α → α → Bool) : (l.stableSort le).Perm l := by
  induction l with
  | nil => exact .refl _
  | cons a rest ih => exact (insertStable_perm le a _).trans (ih.cons a)

/-- Inserting passes the members that may not follow. -/
theorem insertStable_append {le : α → α → Bool} {a : α} {before after : List α}
    (hb : ∀ b ∈ before, le a b = false) (ha : ∀ b ∈ after.head?, le a b = true) :
    insertStable le a (before ++ after) = before ++ a :: after := by
  induction before with
  | nil =>
    cases after with
    | nil => rfl
    | cons b rest => simp [insertStable, ha b rfl]
  | cons b rest ih =>
    have hrest := ih fun c hc => hb c (by simp [hc])
    simp [insertStable, hb b (by simp), hrest]

/-- For an order this is the sort of the library. -/
theorem stableSort_eq_mergeSort {le : α → α → Bool} (trans : ∀ a b c, le a b = true → le b c = true → le a c = true)
    (total : ∀ a b, (le a b || le b a) = true) (l : List α) : l.stableSort le = l.mergeSort le := by
  induction l with
  | nil => simp [stableSort]
  | cons a rest ih =>
    obtain ⟨before, after, hcons, hrest, hbefore⟩ := mergeSort_cons trans total a rest
    have hsorted : (a :: rest).mergeSort le |>.Pairwise fun a b => le a b = true := pairwise_mergeSort trans total _
    rw [hcons, pairwise_append, pairwise_cons] at hsorted
    rw [stableSort, ih, hrest, hcons]
    refine insertStable_append (fun b hb => by simpa using hbefore b hb) fun b hb => ?_
    exact hsorted.2.1.1 b (mem_of_head? hb)

theorem pairwise_stableSort {le : α → α → Bool} (trans : ∀ a b c, le a b = true → le b c = true → le a c = true)
    (total : ∀ a b, (le a b || le b a) = true) (l : List α) : (l.stableSort le).Pairwise fun a b => le a b = true := by
  rw [stableSort_eq_mergeSort trans total]
  exact pairwise_mergeSort trans total l

end List
