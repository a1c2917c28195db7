import DeclPieces.Text
import Mathlib.Data.List.Basic

/-! Written forms that are taken apart again: endings, and numbers in digits. -/
namespace DeclPieces.Text

lemma dropSuffix_append (t u : Text) : dropSuffix (t ++ u) u = t := by
  have hend : hasSuffix (t ++ u) u = true := List.isSuffixOf_iff_suffix.mpr (List.suffix_append _ _)
  rw [dropSuffix, if_pos hend, List.length_append, Nat.add_sub_cancel, List.take_left]

lemma toNat_byte {c : Char} (hc : c.isDigit = true) : (byte c).toNat = c.toNat := by
  simp only [Char.isDigit, ge_iff_le, Bool.and_eq_true, decide_eq_true_eq, UInt32.le_iff_toNat_le] at hc
  have hle : c.toNat ≤ 57 := hc.2
  rw [byte, UInt8.toNat_ofNat', Nat.mod_eq_of_lt (by omega)]

/-- A number is written in digits. -/
lemma mem_ofNat {n : Nat} {b : UInt8} (h : b ∈ ofNat n) : 48 ≤ b.toNat ∧ b.toNat ≤ 57 := by
  obtain ⟨c, hc, rfl⟩ := List.mem_map.mp h
  have hdigit := Nat.isDigit_of_mem_toDigits (by decide) (by decide) hc
  rw [toNat_byte hdigit]
  simpa [Char.isDigit, UInt32.le_iff_toNat_le] using hdigit

lemma toNat?_ofNat (n : Nat) : toNat? (ofNat n) = some n := by
  have hne : (ofNat n).isEmpty = false := by simp [ofNat, Nat.toDigits_ne_nil]
  have hall : (ofNat n).all isDigit = true := by
    refine List.all_eq_true.mpr fun b hb => ?_
    simpa [isDigit, byte, UInt8.le_iff_toNat_le] using mem_ofNat hb
  have hvalue : (ofNat n).foldl (fun n b => 10 * n + (b.toNat - 48)) 0 = n := by
    calc (ofNat n).foldl (fun n b => 10 * n + (b.toNat - 48)) 0
        = (Nat.toDigits 10 n).foldl (fun n c => 10 * n + (c.toNat - '0'.toNat)) 0 := by
          rw [ofNat, List.foldl_map]
          refine List.foldl_ext _ _ _ fun k c hc => ?_
          rw [toNat_byte (Nat.isDigit_of_mem_toDigits (by decide) (by decide) hc)]
          rfl
      _ = n := by rw [← Nat.ofDigitChars_eq_foldl, Nat.ofDigitChars_ten_toDigits]
  simp [toNat?, hne, hall, hvalue]

lemma ofNat_injective : Function.Injective ofNat := by
  intro m n h
  have hread := congrArg toNat? h
  rw [toNat?_ofNat, toNat?_ofNat] at hread
  exact Option.some.inj hread

end DeclPieces.Text
