import DeclPieces.Proofs.Lists
import DeclPieces.Text
import Mathlib.Order.Basic

/-! The byte-wise order of texts, and lists that are sorted by it. -/
namespace DeclPieces.Text
variable {a b : Text}

lemma le_iff : Text.le a b = true ↔ a ≤ b := by
  unfold Text.le Text.lt
  rw [← decide_not, decide_eq_true_iff, Std.not_lt]

lemma lt_iff : Text.lt a b = true ↔ Text.le a b = true ∧ a ≠ b := by
  rw [le_iff]
  unfold Text.lt
  rw [decide_eq_true_iff]
  exact Std.lt_iff_le_and_ne

lemma le_trans (a b c : Text) (h : Text.le a b = true) (h' : Text.le b c = true) : Text.le a c = true := by
  rw [le_iff] at h h' ⊢
  exact Std.le_trans h h'

lemma le_total (a b : Text) : (Text.le a b || Text.le b a) = true := by
  rw [Bool.or_eq_true, le_iff, le_iff]
  exact Std.le_total

lemma le_antisymm (h : Text.le a b = true) (h' : Text.le b a = true) : a = b := by
  rw [le_iff] at h h'
  exact Std.le_antisymm h h'

instance : Std.Irrefl fun a b : Text => Text.lt a b = true := ⟨fun _ h => (lt_iff.mp h).2 rfl⟩

lemma not_lt_of_lt (h : Text.lt a b = true) : ¬ Text.lt b a = true := by
  intro h'
  obtain ⟨hle, hne⟩ := lt_iff.mp h
  exact hne (le_antisymm hle (lt_iff.mp h').1)

/-- Sorting by texts of which no two are equal sorts strictly. -/
lemma pairwise_stableSort_lt {α : Type} (key : α → Text) {l : List α} (hl : l.Pairwise fun x y => key x ≠ key y) :
    (l.stableSort fun x y => Text.le (key x) (key y)).Pairwise fun x y => Text.lt (key x) (key y) = true := by
  have hsorted : (l.stableSort fun x y => Text.le (key x) (key y)).Pairwise fun x y => Text.le (key x) (key y) = true := by
    apply List.pairwise_stableSort
    · exact fun x y z => le_trans (key x) (key y) (key z)
    · exact fun x y => le_total (key x) (key y)
  have hdistinct : (l.stableSort fun x y => Text.le (key x) (key y)).Pairwise fun x y => key x ≠ key y :=
    ((List.stableSort_perm l _).pairwise_iff fun {x y} h => h.symm).mpr hl
  exact (hsorted.and hdistinct).imp fun h => lt_iff.mpr h

/-- Lists that are sorted strictly are told by their members. -/
lemma eq_of_pairwise_lt {α : Type} (key : α → Text) {l l' : List α}
    (hl : l.Pairwise fun x y => Text.lt (key x) (key y) = true)
    (hl' : l'.Pairwise fun x y => Text.lt (key x) (key y) = true) (h : ∀ x, x ∈ l ↔ x ∈ l') : l = l' := by
  have : Std.Irrefl fun x y => Text.lt (key x) (key y) = true := ⟨fun _ hx => (lt_iff.mp hx).2 rfl⟩
  have : Std.Antisymm fun x y => Text.lt (key x) (key y) = true := ⟨fun _ _ hx hy => absurd hy (not_lt_of_lt hx)⟩
  exact hl.eq_of_mem_iff hl' h

end DeclPieces.Text
