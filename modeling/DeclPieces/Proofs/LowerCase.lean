import DeclPieces.Proofs.DiskFiles
import DeclPieces.Proofs.JoinedPath
import DeclPieces.Text.LowerCase

/-! Lower case, part by part: the lower case of a path is made of the lower cases of its components. -/
namespace DeclPieces
open Path

/-- Is it a byte of ASCII before the letters: a digit, say, or a mark? Case makes nothing of it, and nothing else
makes it. -/
def Caseless (b : UInt8) : Prop := 0 < b.toNat ∧ b.toNat < 65

instance (b : UInt8) : Decidable (Caseless b) := inferInstanceAs (Decidable (_ ∧ _))

lemma toNat_ofNat_ne {n k : Nat} (hn : n ≠ k) (hk : k ≠ 0) : (Char.ofNat n).toNat ≠ k := by
  by_cases hvalid : n.isValidChar
  · have heq : (Char.ofNat n).toNat = n := by
      rw [Char.ofNat, dif_pos hvalid]
      rfl
    rwa [heq]
  · rw [Char.ofNat, dif_neg hvalid]
    exact hk.symm

/-- No other character has it for its lower case. -/
lemma toNat_of_lowerChar {b : UInt8} (hb : Caseless b) {c : Char} (h : (lowerChar c).toNat = b.toNat) :
    c.toNat = b.toNat := by
  obtain ⟨hpos, hbelow⟩ := hb
  have hranges : ∀ r ∈ caseRanges, 65 ≤ (r.first : Int) + r.shift := by decide +kernel
  unfold lowerChar at h
  simp only at h
  split at h
  · split at h
    · next hupper =>
      simp only [Bool.and_eq_true, decide_eq_true_eq] at hupper
      exact absurd h (toNat_ofNat_ne (by omega) (by omega))
    · exact h
  · split at h
    · next r hr =>
      have hin := List.find?_some hr
      simp only [Bool.and_eq_true, decide_eq_true_eq] at hin
      have hshift := hranges r (List.mem_of_find?_eq_some hr)
      exact absurd h (toNat_ofNat_ne (by omega) (by omega))
    · exact h

namespace Rune
variable {n : Nat}

lemma two_ne (hn : 0 < n ∧ n < 65) {b b1 : UInt8} {r : Char × Nat} (h : next.two b b1 = some r) : r.1.toNat ≠ n := by
  unfold next.two at h
  split at h
  · next hb =>
    simp only [Bool.and_eq_true, decide_eq_true_eq, UInt8.le_iff_toNat_le] at hb
    obtain rfl := Option.some.inj h
    refine toNat_ofNat_ne ?_ (by omega)
    have hlow : 0xC2 ≤ b.toNat := hb.1.1
    omega
  · cases h

lemma three_ne (hn : 0 < n ∧ n < 65) {b b1 b2 : UInt8} {r : Char × Nat} (h : next.three b b1 b2 = some r) :
    r.1.toNat ≠ n := by
  unfold next.three at h
  simp only at h
  split at h
  · next hb =>
    simp only [Bool.and_eq_true, decide_eq_true_eq] at hb
    obtain rfl := Option.some.inj h
    exact toNat_ofNat_ne (by omega) (by omega)
  · cases h

lemma four_ne (hn : 0 < n ∧ n < 65) {b b1 b2 b3 : UInt8} {r : Char × Nat} (h : next.four b b1 b2 b3 = some r) :
    r.1.toNat ≠ n := by
  unfold next.four at h
  simp only at h
  split at h
  · next hb =>
    simp only [Bool.and_eq_true, decide_eq_true_eq] at hb
    obtain rfl := Option.some.inj h
    exact toNat_ofNat_ne (by omega) (by omega)
  · cases h

/-- A character before the letters is read from its own byte only. -/
lemma eq_of_next {c : UInt8} (hc : Caseless c) {b : UInt8} {rest : Text} (h : (next b rest).1.toNat = c.toNat) :
    b = c := by
  have hreplacement : replacement.toNat ≠ c.toNat := by
    have hlarge : 65 ≤ replacement.toNat := by decide
    have := hc.2
    omega
  have hreads := reads_next b rest
  generalize next b rest = r at h hreads
  cases hreads with
  | ascii =>
    by_contra hb
    refine toNat_ofNat_ne (fun heq => hb ?_) (by have := hc.1; omega) h
    exact UInt8.toNat_inj.mp heq
  | two _ h2 => exact absurd h (two_ne hc h2)
  | three _ h3 => exact absurd h (three_ne hc h3)
  | four _ h4 => exact absurd h (four_ne hc h4)
  | invalid => exact absurd h hreplacement

lemma mem_of_scan {c : UInt8} (hc : Caseless c) {r : Rune} {skip : Nat} {t : Text} (h : r ∈ scan skip t)
    (hr : r.char.toNat = c.toNat) : c ∈ t := by
  induction t generalizing skip with
  | nil => cases skip <;> cases h
  | cons b rest ih =>
    cases skip with
    | succ skip => exact List.mem_cons_of_mem _ (ih h)
    | zero =>
      rcases List.mem_cons.mp h with rfl | h
      · simp [eq_of_next hc hr]
      · exact List.mem_cons_of_mem _ (ih h)

end Rune

namespace Text

/-- Lower case is made rune by rune, also where the text is ASCII. -/
lemma lower_eq_ofChars (t : Text) : t.lower = ofChars (t.runes.map fun r => lowerChar r.char) := by
  have hbytes : ∀ n < 128, String.utf8EncodeChar (lowerChar (Char.ofNat n)) = [lowerByte (UInt8.ofNat n)] := by
    decide +kernel
  unfold lower
  split
  · next h =>
    induction t with
    | nil => rfl
    | cons b rest ih =>
      obtain ⟨hb, hrest⟩ : b < 0x80 ∧ isAscii rest = true := by simpa [isAscii] using h
      have hbyte := hbytes b.toNat (by simpa using UInt8.lt_iff_toNat_lt.mp hb)
      rw [runes_cons hb, List.map_cons, List.map_cons, ih hrest]
      simp only [ofChars, List.flatMap_cons]
      rw [hbyte]
      simp
  · rfl

/-- Lower case is made on either side of a byte with which a character begins. -/
lemma lower_append_cons {b : UInt8} (hb : Rune.isContinuation b = false) (t u : Text) :
    lower (t ++ b :: u) = lower t ++ lower (b :: u) := by
  rw [lower_eq_ofChars, lower_eq_ofChars t, lower_eq_ofChars (b :: u), runes_append_cons hb]
  simp [ofChars]

section
variable {b : UInt8} (hb : Caseless b)
include hb

/-- Lower case is made on either side of a byte that has none. -/
lemma lower_append_caseless (t u : Text) : lower (t ++ b :: u) = lower t ++ b :: lower u := by
  have hbytes : ∀ n < 65, String.utf8EncodeChar (lowerChar (Char.ofNat n)) = [UInt8.ofNat n] := by decide +kernel
  have hbyte := hbytes b.toNat hb.2
  have hascii : b < 0x80 := UInt8.lt_iff_toNat_lt.mpr (Nat.lt_trans hb.2 (by decide))
  have hstart : Rune.isContinuation b = false := by
    simp only [Rune.isContinuation, Bool.and_eq_false_iff, decide_eq_false_iff_not]
    exact .inl (UInt8.not_le.mpr hascii)
  rw [lower_append_cons hstart, lower_eq_ofChars (b :: u), lower_eq_ofChars u, runes_cons hascii]
  simp [ofChars, hbyte]

lemma not_mem_lower {t : Text} (h : b ∉ t) : b ∉ t.lower := by
  intro hmem
  rw [lower_eq_ofChars] at hmem
  obtain ⟨c, hc, hbyte⟩ := List.mem_flatMap.mp hmem
  obtain ⟨r, hr, rfl⟩ := List.mem_map.mp hc
  refine h (Rune.mem_of_scan hb hr (toNat_of_lowerChar hb ?_))
  rcases mem_utf8EncodeChar hbyte with ⟨heq, hle⟩ | hge
  · have hnat : b.toNat = (UInt8.ofNat (lowerChar r.char).toNat).toNat := congrArg UInt8.toNat heq
    rw [UInt8.toNat_ofNat', Nat.mod_eq_of_lt (by omega)] at hnat
    exact hnat.symm
  · have hlow : b.toNat < 65 := hb.2
    omega

/-- Lower case has as many of them. -/
lemma count_lower (t : Text) : t.lower.count b = t.count b := by
  by_cases hmem : b ∈ t
  · -- on from the first of them
    obtain ⟨front, back, rfl, hfront⟩ := List.eq_append_cons_of_mem hmem
    rw [lower_append_caseless hb, List.count_append, List.count_append, List.count_cons_self, List.count_cons_self,
      count_lower back, List.count_eq_zero.mpr hfront, List.count_eq_zero.mpr (not_mem_lower hb hfront)]
  · rw [List.count_eq_zero.mpr hmem, List.count_eq_zero.mpr (not_mem_lower hb hmem)]
termination_by t.length
decreasing_by subst_vars; simp; omega

end

lemma lower_append_slash (t u : Text) : lower (t ++ slash :: u) = lower t ++ slash :: lower u :=
  lower_append_caseless (by decide) t u

lemma slash_not_mem_lower {t : Text} (h : slash ∉ t) : slash ∉ t.lower := not_mem_lower (by decide) h

lemma lower_append_flatMap (t : Text) (parts : List Text) :
    lower (t ++ parts.flatMap (slash :: ·)) = lower t ++ (parts.map lower).flatMap (slash :: ·) := by
  induction parts generalizing t with
  | nil => simp
  | cons part rest ih =>
    simp only [List.flatMap_cons, List.map_cons, List.cons_append]
    rw [lower_append_slash, ih]

end Text

namespace Path
variable {p q : Path}

/-- Are the paths the same but for the case of letters? -/
def SameButCase (p q : Path) : Prop := p.components.map Text.lower = q.components.map Text.lower

instance (p q : Path) : Decidable (SameButCase p q) := inferInstanceAs (Decidable (_ = _))

lemma map_lower_append_singleton {parts parts' : List Text} {c c' : Text} :
    (parts ++ [c]).map Text.lower = (parts' ++ [c']).map Text.lower ↔
      parts.map Text.lower = parts'.map Text.lower ∧ c.lower = c'.lower := by
  rw [List.map_append, List.map_append]
  constructor
  · intro h
    obtain ⟨hparts, hlast⟩ := List.append_inj' h rfl
    exact ⟨hparts, by simpa using hlast⟩
  · rintro ⟨hparts, hlast⟩
    rw [hparts, List.map_singleton, List.map_singleton, hlast]

/-- A rooted clean path but the root is stored under its own name. -/
lemma key_eq_self (hclean : p.clean = p) (habs : p.isAbs = true) (hne : p.components ≠ []) : Disk.key p = p := by
  obtain ⟨c, rest, hc⟩ := List.exists_cons_of_ne_nil hne
  calc Disk.key p = slash :: Text.joinWith [slash] p.components := by
        unfold Disk.key
        rw [hc, Disk.flatMap_slash_eq_joinWith]
    _ = p.clean := by
        rw [clean_eq_ofComponents, habs]
        rfl
    _ = p := hclean

/-- Such paths are compared in lower case component by component. -/
lemma lower_eq_iff (hp : p.clean = p) (hq : q.clean = q) (habs : p.isAbs = true) (habs' : q.isAbs = true)
    (hne : p.components ≠ []) (hne' : q.components ≠ []) : p.lower = q.lower ↔ SameButCase p q := by
  have hlower {p : Path} (hclean : p.clean = p) (habs : p.isAbs = true) (hne : p.components ≠ []) :
      p.lower = (p.components.map Text.lower).flatMap (slash :: ·) := by
    conv_lhs => rw [← key_eq_self hclean habs hne]
    exact Text.lower_append_flatMap [] p.components
  have hslash (p : Path) : ∀ part ∈ p.components.map Text.lower, slash ∉ part := by
    intro part hpart
    obtain ⟨c, hc, rfl⟩ := List.mem_map.mp hpart
    exact Text.slash_not_mem_lower (Disk.slash_not_mem_components p c hc)
  rw [hlower hp habs hne, hlower hq habs' hne']
  refine ⟨fun h => ?_, fun h => by rw [h]⟩
  have hsplit := congrArg (Text.splitBy slash) h
  rw [Disk.splitBy_flatMap_slash (hslash p), Disk.splitBy_flatMap_slash (hslash q)] at hsplit
  exact (List.cons.inj hsplit).2

end Path

end DeclPieces
