import DeclPieces.Backup
import DeclPieces.Proofs.JoinedPath
import DeclPieces.Proofs.TextForms

/-! The names of stored copies: a moment is read back from the name that it gave, and the directories of sources and
the names in them are plain. -/
namespace DeclPieces

namespace Digest

lemma length_blocks {h : List UInt64} (hh : h.length = 8) (before fuel : Nat) (t : Text) :
    (blocks h before t fuel).length = 8 := by
  induction fuel generalizing h before t with
  | zero => exact hh
  | succ fuel ih =>
    unfold blocks
    simp only
    split
    · simp [compress]
    · exact ih (by simp [compress]) _ _

lemma hash_ne_nil (t : Text) : hash t ≠ [] := by
  have hblocks := length_blocks (h := seeded) (by decide) 0 (t.length / 128 + 1) t
  unfold hash sum
  cases hb : blocks seeded 0 t (t.length / 128 + 1) with
  | nil => simp [hb] at hblocks
  | cons w rest => simp [Text.hex, bytesOf, List.range_succ_eq_map]

lemma hexDigit_ne {n : Nat} (hn : n < 16) : Text.hexDigit n ≠ 46 ∧ Text.hexDigit n ≠ 47 := by
  decide +revert

/-- A digest has no dot and no slash. -/
lemma not_mem_hash (t : Text) : 46 ∉ hash t ∧ 47 ∉ hash t := by
  have hall : ∀ b ∈ hash t, b ≠ 46 ∧ b ≠ 47 := by
    intro b hb
    obtain ⟨byte, -, hdigit⟩ := List.mem_flatMap.mp hb
    have hlt : byte.toNat < 256 := byte.toNat_lt
    simp only [List.mem_cons, List.not_mem_nil, or_false] at hdigit
    rcases hdigit with rfl | rfl
    · exact hexDigit_ne (by omega)
    · exact hexDigit_ne (by omega)
  exact ⟨fun h => (hall 46 h).1 rfl, fun h => (hall 47 h).2 rfl⟩

end Digest

namespace Backups
open Path Backup

/-- The name of a copy taken at a moment. -/
def copyName (now : Int) : Text := Text.ofInt now ++ suffix

/-- Where a copy of a source taken at a moment is stored. -/
def copyPath (b : Backups) (source : Text) (now : Int) : Path := Path.join (b.sourceDir source) (copyName now)

lemma plain_key (source : Text) : Plain (key source) := by
  obtain ⟨hdot, hslash⟩ := Digest.not_mem_hash source
  have hmem : ∀ b ∈ key source, b ∈ Digest.hash source := fun b hb => List.mem_of_mem_take hb
  have hne : key source ≠ [] := by simp [key, List.take_eq_nil_iff, Digest.hash_ne_nil]
  refine ⟨hne, ?_, ?_, fun h => hslash (hmem _ h)⟩
  · exact fun h => hdot (hmem 46 (by simp [h]))
  · exact fun h => hdot (hmem 46 (by simp [h]))

lemma plain_copyName (now : Int) : Plain (copyName now) := by
  have hlength : 4 ≤ (copyName now).length := by
    rw [copyName, List.length_append]
    exact Nat.le_add_left 4 _
  have hslash : slash ∉ copyName now := by
    rw [copyName, List.mem_append, not_or]
    refine ⟨?_, by decide⟩
    have hdigits : ∀ n, slash ∉ Text.ofNat n := fun n h => absurd (Text.mem_ofNat h) (by decide)
    unfold Text.ofInt
    split
    · exact List.not_mem_cons_of_ne_of_not_mem (by decide) (hdigits _)
    · exact hdigits _
  have hne : ∀ t : Text, t.length < 4 → copyName now ≠ t := by
    rintro t ht rfl
    omega
  exact ⟨hne [] (by decide), hne dot (by decide), hne dotDot (by decide), hslash⟩

lemma sign_ofNat (n : Nat) : Number.sign (Text.ofNat n) = (false, Text.ofNat n) := by
  unfold Number.sign
  split
  · next rest h => exact absurd (Text.mem_ofNat (h ▸ List.mem_cons_self)) (by decide)
  · next rest h => exact absurd (Text.mem_ofNat (h ▸ List.mem_cons_self)) (by decide)
  · rfl

lemma sign_ofInt (i : Int) : Number.sign (Text.ofInt i) = (decide (i < 0), Text.ofNat i.natAbs) := by
  unfold Text.ofInt
  split
  · next hneg =>
    rw [decide_eq_true hneg]
    rfl
  · next hpos =>
    have habs : i.natAbs = i.toNat := by omega
    rw [decide_eq_false hpos, habs]
    exact sign_ofNat _

lemma copyName_injective : Function.Injective copyName := by
  intro i j h
  have hsign := congrArg Number.sign (List.append_cancel_right h)
  rw [sign_ofInt, sign_ofInt, Prod.mk.injEq, decide_eq_decide] at hsign
  have habs := Text.ofNat_injective hsign.2
  omega

/-- A moment of 64 bits is read back from its name. -/
lemma instant?_ofInt {now : Int} (h : Number.fits64 now = true) : instant? (Text.ofInt now) = some now := by
  have hvalue : Number.signed (decide (now < 0)) now.natAbs = now := by
    unfold Number.signed
    by_cases hneg : now < 0
    · rw [decide_eq_true hneg, if_pos rfl]
      omega
    · rw [decide_eq_false hneg, if_neg Bool.false_ne_true]
      omega
  simp [instant?, sign_ofInt, Text.toNat?_ofNat, hvalue, h]

end Backups

end DeclPieces
