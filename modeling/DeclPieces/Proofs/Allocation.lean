import DeclPieces.Proofs.Decomposition
import DeclPieces.Proofs.IndexSpecifier
import DeclPieces.Proofs.LowerCase
import Mathlib.Data.List.Nodup

/-! A search for a free path ends: the choices for a name differ also without regard to case, and there is one more of
them than there are paths in use. Only climbs in what follows the number can make all the choices the same, and then the
first two tell whether any is free. -/
namespace DeclPieces
open Path

lemma Text.lower_append_ofNat (n : Nat) (t : Text) : Text.lower (ofNat n ++ t) = ofNat n ++ t.lower := by
  have hall : ∀ digits : Text, (∀ b ∈ digits, Caseless b) → lower (digits ++ t) = digits ++ t.lower := by
    intro digits h
    induction digits with
    | nil => rfl
    | cons b rest ih =>
      have hfirst := lower_append_caseless (h b (by simp)) [] (rest ++ t)
      have hnil : lower [] = [] := rfl
      rwa [ih fun c hc => h c (by simp [hc]), hnil] at hfirst
  refine hall _ fun b hb => ?_
  have := Text.mem_ofNat hb
  exact ⟨by omega, by omega⟩

/-- What is put between texts may be left out of the count. -/
lemma Text.count_joinWith {b sep : UInt8} (hb : b ≠ sep) (parts : List Text) :
    (joinWith [sep] parts).count b = parts.flatten.count b := by
  induction parts with
  | nil => rfl
  | cons t rest ih =>
    by_cases hrest : rest = []
    · simp [hrest, joinWith]
    · rw [joinWith_cons [sep] t hrest]
      simp [ih, hb.symm]

/-- What stands before a text goes to the parts before it, up to the last slash, and to its own first part. -/
lemma Text.exists_splitBy_append_left (t : Text) : ∃ before x, slash ∉ x ∧ (t = [] → before = []) ∧
    ∀ u, splitBy slash (t ++ u) = before ++ splitBy slash (x ++ u) := by
  by_cases hslash : slash ∈ t
  · obtain ⟨front, x, rfl, hx⟩ := exists_last hslash
    refine ⟨splitBy slash front, x, hx, by simp, fun u => ?_⟩
    rw [List.append_assoc, List.cons_append, splitBy_append_sep]
  · exact ⟨[], t, hslash, fun _ => rfl, fun u => rfl⟩

lemma Text.exists_splitBy_append_right (u : Text) : ∃ y after, slash ∉ y ∧
    ∀ t, slash ∉ t → splitBy slash (t ++ u) = (t ++ y) :: after := by
  by_cases hslash : slash ∈ u
  · obtain ⟨y, back, rfl, hy⟩ := List.eq_append_cons_of_mem hslash
    refine ⟨y, splitBy slash back, hy, fun t ht => ?_⟩
    rw [← List.append_assoc, splitBy_append_sep, splitBy_of_not_mem (by simp [ht, hy])]
    rfl
  · exact ⟨u, [], hslash, fun t ht => splitBy_of_not_mem (by simp [ht, hslash])⟩

namespace Path
variable {D c c' : Path} {b : UInt8}

/-- In one directory, plain names decide. -/
lemma lower_join_inj (hc : Plain c) (hc' : Plain c') (h : (join D c).lower = (join D c').lower) :
    c.lower = c'.lower := by
  obtain ⟨front, hfront, hjoin⟩ := exists_join_eq_append D
  rw [hjoin c hc, hjoin c' hc'] at h
  rcases hfront with rfl | ⟨t, rfl⟩
  · exact h
  · simpa [Text.lower_append_slash] using h

/-- A further step adds no more than is in it. -/
lemma count_push_le (hdot : b ≠ 46) (rooted : Bool) (done : List Text) (part : Text) :
    (push rooted done part).flatten.count b ≤ done.flatten.count b + part.count b := by
  have hup : dotDot.count b = 0 := List.count_eq_zero.mpr (by simpa using hdot)
  unfold push
  split
  · exact Nat.le_add_right _ _
  split
  · cases done with
    | nil => cases rooted <;> simp [hup]
    | cons last before =>
      simp only
      split
      · rw [List.flatten_cons, List.count_append, hup]
        omega
      · rw [List.flatten_cons, List.count_append]
        omega
  · simp [Nat.add_comm]

/-- Steps after a plain name either climb out of it, and then it makes no difference which it was, or stay below it. -/
lemma foldl_push_cases (parts : List Text) {done : List Text} (hdone : dotDot ∉ done) :
    (∃ rest : List Text, ∀ rooted outer c, Plain c →
        parts.foldl (push rooted) (done ++ c :: outer) = rest.foldl (push rooted) outer) ∨
      ∃ inner, ∀ rooted outer, parts.foldl (push rooted) (done ++ outer) = inner ++ outer := by
  induction parts generalizing done with
  | nil => exact .inr ⟨done, fun _ _ => rfl⟩
  | cons part parts ih =>
    simp only [List.foldl_cons]
    by_cases hskip : part = [] ∨ part = dot
    · have hpush (rooted : Bool) (all : List Text) : push rooted all part = all := by
        rcases hskip with rfl | rfl <;> simp [push]
      simpa only [hpush] using ih hdone
    rw [not_or] at hskip
    by_cases hup : part = dotDot
    · subst hup
      cases done with
      | nil =>
        refine .inl ⟨parts, fun rooted outer c hc => ?_⟩
        simp [push, hc.ne_dotDot]
      | cons last before =>
        rw [List.mem_cons, not_or] at hdone
        have hpush (rooted : Bool) (outer : List Text) :
            push rooted (last :: before ++ outer) dotDot = before ++ outer := by
          simp [push, Ne.symm hdone.1]
        simpa only [hpush] using ih hdone.2
    · have hpush (rooted : Bool) (all : List Text) : push rooted all part = part :: all := by
        simp [push, hskip, hup]
      have hmore : dotDot ∉ part :: done := by simp [Ne.symm hup, hdone]
      simpa only [hpush, List.cons_append] using ih hmore

/-- A clean path is made of its components, up to slashes and dots. -/
lemma count_clean (hslash : b ≠ slash) (hdot : b ≠ 46) (p : Path) :
    p.clean.count b = p.components.flatten.count b := by
  unfold clean ofComponents
  split
  · rw [List.count_cons_of_ne hslash.symm, Text.count_joinWith hslash]
  split
  · next hnone =>
    rw [List.isEmpty_iff.mp hnone]
    exact List.count_eq_zero.mpr (by simpa using hdot)
  · exact Text.count_joinWith hslash _

/-- Among the same components, names follow the same text and are followed by the same. -/
lemma exists_ofComponents_insert (rooted : Bool) (above below : List Text) :
    ∃ front back : Text, ∀ c, ofComponents rooted (above ++ c :: below) = front ++ c ++ back := by
  have hall (c : Text) : slash :: Text.joinWith [slash] (above ++ c :: below) =
      (above.flatMap (slash :: ·) ++ [slash]) ++ (c ++ below.flatMap (slash :: ·)) := by
    obtain ⟨part, rest, hcons⟩ := List.exists_cons_of_ne_nil (by simp : above ++ c :: below ≠ [])
    rw [hcons, ← Disk.flatMap_slash_eq_joinWith, ← hcons]
    simp
  cases rooted with
  | true =>
    refine ⟨above.flatMap (slash :: ·) ++ [slash], below.flatMap (slash :: ·), fun c => ?_⟩
    rw [ofComponents, if_pos rfl, hall, List.append_assoc _ c]
  | false =>
    refine ⟨(above.flatMap (slash :: ·) ++ [slash]).tail, below.flatMap (slash :: ·), fun c => ?_⟩
    have htail := congrArg List.tail (hall c)
    rw [List.tail_cons, List.tail_append_of_ne_nil (by simp)] at htail
    simp [ofComponents, htail]

end Path

namespace Allocator
variable {a : Allocator} {dir name ext : Text}

/-- If even the last choice is in use, so are all the choices before it. -/
lemma taken_of_firstFree {n fuel : Nat} (h : a.taken (a.firstFree dir name ext n fuel) = true) :
    ∀ k ≤ fuel, a.taken (candidate dir name ext (n + k)) = true := by
  induction fuel generalizing n with
  | zero =>
    intro k hk
    rwa [Nat.le_zero.mp hk]
  | succ fuel ih =>
    unfold firstFree at h
    split at h
    · next htaken =>
      intro k hk
      cases k with
      | zero => exact htaken
      | succ k =>
        have := ih h k (by omega)
        rwa [Nat.add_right_comm] at this
    · next hfree => exact absurd h hfree

/-- Without a free path among the first choices, these are all in use. -/
lemma allocateFree_isOk_or (a : Allocator) (dir name ext : Text) :
    (∃ path b, a.allocateFree dir name ext = .ok (path, b)) ∨
      ∀ k ≤ a.used.length, (candidate dir name ext k).lower ∈ a.used := by
  unfold allocateFree allocate
  simp only
  split
  · next htaken =>
    refine .inr fun k hk => ?_
    simpa [taken] using taken_of_firstFree htaken k hk
  · exact .inl ⟨_, _, rfl⟩

/-- Choices that differ are not all in use. -/
lemma allocateFree_of_injective (h : Function.Injective fun k => (candidate dir name ext k).lower) (a : Allocator) :
    ∃ path b, a.allocateFree dir name ext = .ok (path, b) := by
  refine (allocateFree_isOk_or a dir name ext).resolve_right fun hall => ?_
  have hsub : (List.range (a.used.length + 1)).map (fun k => (candidate dir name ext k).lower) ⊆ a.used := by
    intro t ht
    obtain ⟨k, hk, rfl⟩ := List.mem_map.mp ht
    exact hall k (by simpa [Nat.lt_succ_iff] using hk)
  have hlength := (List.Nodup.map h List.nodup_range).length_le_of_subset hsub
  rw [List.length_map, List.length_range] at hlength
  omega

lemma stem_append (t name : Text) (n : Nat) : stem (t ++ name) n = t ++ stem name n := by
  cases n <;> simp [stem]

/-- The number tells a later choice from the first. -/
lemma count_stem (name : Text) (n : Nat) : (stem name (n + 1)).count 45 = name.count 45 + 1 := by
  have hdash : Text.ofString "-" = [45] := by decide
  have hdigits : (45 : UInt8) ∉ Text.ofNat (n + 1) := by
    intro hmem
    exact absurd (Text.mem_ofNat hmem) (by decide)
  simp only [stem, hdash, List.count_append, List.count_eq_zero.mpr hdigits]
  simp

/-- Numbers tell choices apart, also without regard to case. -/
lemma lower_stem_succ_inj {m n : Nat} (h : (stem name (m + 1) ++ ext).lower = (stem name (n + 1) ++ ext).lower) :
    m + 1 = n + 1 := by
  have hdash : Text.ofString "-" = [45] := by decide
  have hlower (n : Nat) : (stem name (n + 1) ++ ext).lower = name.lower ++ 45 :: (Text.ofNat (n + 1) ++ ext.lower) := by
    have hall : stem name (n + 1) ++ ext = name ++ 45 :: (Text.ofNat (n + 1) ++ ext) := by simp [stem, hdash]
    rw [hall, Text.lower_append_caseless (by decide), Text.lower_append_ofNat]
  simp only [hlower, List.append_cancel_left_eq, List.cons.injEq, true_and, List.append_cancel_right_eq] at h
  exact Text.ofNat_injective h

/-- A name with a number is plain. -/
lemma plain_stem_succ (hname : slash ∉ name) (hext : slash ∉ ext) (n : Nat) : Plain (stem name (n + 1) ++ ext) := by
  have hdash : (45 : UInt8) ∈ stem name (n + 1) ++ ext := by
    rw [List.mem_append, ← List.count_pos_iff, count_stem]
    exact .inl (by omega)
  have hne {t : Text} (ht : (45 : UInt8) ∉ t) : stem name (n + 1) ++ ext ≠ t := by
    rintro rfl
    exact ht hdash
  refine ⟨hne (by decide), hne (by decide), hne (by decide), ?_⟩
  rw [List.mem_append, not_or]
  exact ⟨slash_not_mem_stem hname _, hext⟩

lemma plain_stem (hname : slash ∉ name) (hext : slash ∉ ext) (hfirst : Plain (name ++ ext)) (n : Nat) :
    Plain (stem name n ++ ext) := by
  cases n with
  | zero => exact hfirst
  | succ n => exact plain_stem_succ hname hext n

/-- The choices for a name are numbered texts, cleaned. Nothing at all is made of no directory and no name. -/
lemma exists_candidate_eq_clean (dir name ext : Text) :
    ∃ t, (∀ n, candidate dir name ext (n + 1) = clean (stem t (n + 1) ++ ext)) ∧
      (candidate dir name ext 0 = [] ∨ candidate dir name ext 0 = clean (t ++ ext)) := by
  by_cases hdir : dir = []
  · subst hdir
    have hne (n : Nat) : stem name (n + 1) ++ ext ≠ [] := by
      intro h
      have hcount := congrArg (List.count 45) h
      rw [List.count_append, count_stem, List.count_nil] at hcount
      omega
    refine ⟨name, fun n => by rw [candidate_eq, join_nil (hne n)], ?_⟩
    by_cases hnil : name ++ ext = []
    · refine .inl ?_
      rw [candidate_eq, stem, hnil]
      rfl
    · exact .inr (join_nil hnil)
  · have hall (n : Nat) : candidate dir name ext n = clean (stem (dir ++ slash :: name) n ++ ext) := by
      rw [candidate_eq, join_eq hdir]
      cases n <;> simp [stem]
    exact ⟨dir ++ slash :: name, fun n => hall (n + 1), .inr (hall 0)⟩

/-- The number of a choice stands in one name, whatever slashes are around. The names before it are resolved first, and
those after it last. -/
lemma exists_components_stem (t ext : Text) : ∃ rooted x y, ∃ outer after : List Text,
    (∀ n, Plain (stem x (n + 1) ++ y) ∧ isAbs (stem t (n + 1) ++ ext) = rooted ∧
      components (stem t (n + 1) ++ ext) = (after.foldl (push rooted) ((stem x (n + 1) ++ y) :: outer)).reverse) ∧
    ∃ rooted', components (t ++ ext) = (after.foldl (push rooted') (push rooted' outer (x ++ y))).reverse := by
  obtain ⟨before, x, hx, hbefore, hleft⟩ := Text.exists_splitBy_append_left t
  obtain ⟨y, after, hy, hright⟩ := Text.exists_splitBy_append_right ext
  have hsplit (n : Nat) : Text.splitBy slash (stem t n ++ ext) = before ++ (stem x n ++ y) :: after := by
    have happend (t : Text) : stem t n = t ++ stem [] n := by simpa using stem_append t [] n
    rw [happend t, List.append_assoc, hleft, ← List.append_assoc, ← happend x, hright _ (slash_not_mem_stem hx n)]
  have habs (n : Nat) : isAbs (stem t (n + 1) ++ ext) = isAbs t := by
    cases t with
    | nil => rfl
    | cons b t => rfl
  have houter : before.foldl (push (isAbs (t ++ ext))) [] = before.foldl (push (isAbs t)) [] := by
    cases t with
    | nil =>
      rw [hbefore rfl]
      rfl
    | cons b t => rfl
  refine ⟨isAbs t, x, y, before.foldl (push (isAbs t)) [], after, fun n => ?_, isAbs (t ++ ext), ?_⟩
  · have hplain := plain_stem_succ hx hy n
    refine ⟨hplain, habs n, ?_⟩
    rw [components, habs, hsplit, List.foldl_append, List.foldl_cons, push_plain hplain]
  · rw [components, ← houter, ← List.foldl_cons, ← List.foldl_append]
    exact congrArg _ (congrArg _ (hsplit 0))

/-- Either climbs make the same of every number, or the number stands in one component and the others are the same. Then
a name without a number adds no more to them than is in it. -/
lemma components_stem_cases (t ext : Text) : ∃ rooted, (∀ n, isAbs (stem t (n + 1) ++ ext) = rooted) ∧
    ((∃ parts, ∀ n, components (stem t (n + 1) ++ ext) = parts) ∨
      ∃ x y, ∃ above below : List Text,
        (∀ n, components (stem t (n + 1) ++ ext) = above ++ (stem x (n + 1) ++ y) :: below) ∧
        ∀ b : UInt8, b ≠ 46 →
          (components (t ++ ext)).flatten.count b ≤ (above.flatten ++ (x ++ y) ++ below.flatten).count b) := by
  obtain ⟨rooted, x, y, outer, after, hnumbered, rooted', hplain⟩ := exists_components_stem t ext
  refine ⟨rooted, fun n => (hnumbered n).2.1, ?_⟩
  rcases foldl_push_cases after (by simp : dotDot ∉ ([] : List Text)) with ⟨rest, hrest⟩ | ⟨inner, hinner⟩
  · refine .inl ⟨(rest.foldl (push rooted) outer).reverse, fun n => ?_⟩
    obtain ⟨hname, -, hcomponents⟩ := hnumbered n
    rw [hcomponents]
    exact congrArg _ (hrest rooted outer _ hname)
  · refine .inr ⟨x, y, outer.reverse, inner.reverse, fun n => ?_, fun b hdot => ?_⟩
    · have hinner := hinner rooted ((stem x (n + 1) ++ y) :: outer)
      rw [List.nil_append] at hinner
      rw [(hnumbered n).2.2, hinner]
      simp
    · have hreverse (parts : List Text) : parts.reverse.flatten.count b = parts.flatten.count b :=
        (List.reverse_perm parts).flatten.count_eq b
      have hinner := hinner rooted' (push rooted' outer (x ++ y))
      have hle := count_push_le hdot rooted' outer (x ++ y)
      rw [List.nil_append] at hinner
      rw [hplain, hinner, hreverse, List.flatten_append, List.count_append, List.count_append, List.count_append,
        hreverse, hreverse]
      omega

/-- The choices for a name are all told apart, also without regard to case, unless climbs make the same of every
number. -/
lemma candidates_apart_or_same (dir name ext : Text) :
    (Function.Injective fun n => (candidate dir name ext n).lower) ∨
      ∀ n, candidate dir name ext (n + 1) = candidate dir name ext 1 := by
  obtain ⟨t, hlater, hfirst⟩ := exists_candidate_eq_clean dir name ext
  obtain ⟨rooted, habs, ⟨parts, hparts⟩ | ⟨x, y, above, below, hnumbered, hplain⟩⟩ := components_stem_cases t ext
  · refine .inr fun n => ?_
    rw [hlater, hlater 0, clean_eq_ofComponents, clean_eq_ofComponents, habs, habs, hparts, hparts]
  · left
    obtain ⟨front, back, hinsert⟩ := exists_ofComponents_insert rooted above below
    have htext (n : Nat) : candidate dir name ext (n + 1) = stem (front ++ x) (n + 1) ++ (y ++ back) := by
      rw [hlater, clean_eq_ofComponents, habs, hnumbered, hinsert, stem_append]
      simp
    -- the first choice has fewer dashes than the others
    have hdashes (n : Nat) : (candidate dir name ext 0).count 45 < (candidate dir name ext (n + 1)).count 45 := by
      have hlast : (candidate dir name ext (n + 1)).count 45 =
          (above.flatten ++ (x ++ y) ++ below.flatten).count 45 + 1 := by
        rw [hlater, count_clean (by decide) (by decide), hnumbered]
        simp only [List.flatten_append, List.flatten_cons, List.count_append, count_stem]
        omega
      rw [hlast, Nat.lt_succ_iff]
      rcases hfirst with h | h
      · rw [h]
        exact Nat.zero_le _
      · rw [h, count_clean (by decide) (by decide)]
        exact hplain 45 (by decide)
    have hdiffers (n : Nat) : (candidate dir name ext 0).lower ≠ (candidate dir name ext (n + 1)).lower := by
      intro h
      have hcaseless : Caseless 45 := by decide
      have hcount := congrArg (List.count 45) h
      rw [Text.count_lower hcaseless, Text.count_lower hcaseless] at hcount
      exact absurd hcount (hdashes n).ne
    intro m n h
    rcases m with _ | m <;> rcases n with _ | n
    · rfl
    · exact absurd h (hdiffers n)
    · exact absurd h.symm (hdiffers m)
    · simp only [htext] at h
      exact lower_stem_succ_inj h

/-- A name without slashes keeps its number. -/
lemma lower_candidate_injective (hname : slash ∉ name) (hext : slash ∉ ext) (dir : Path) :
    Function.Injective fun n => (candidate dir name ext n).lower := by
  refine (candidates_apart_or_same dir name ext).resolve_right fun hsame => ?_
  have hlower := congrArg Text.lower (hsame 1)
  rw [candidate_eq, candidate_eq] at hlower
  have htwo := lower_stem_succ_inj (lower_join_inj (plain_stem_succ hname hext 1) (plain_stem_succ hname hext 0) hlower)
  omega

/-- If any choice is free, so is one of the first. -/
lemma allocateFree_isOk_of_not_mem {k : Nat} (h : (candidate dir name ext k).lower ∉ a.used) :
    ∃ path b, a.allocateFree dir name ext = .ok (path, b) := by
  rcases candidates_apart_or_same dir name ext with hinjective | hsame
  · exact allocateFree_of_injective hinjective a
  · refine (allocateFree_isOk_or a dir name ext).resolve_right fun hall => h ?_
    have hused : 0 < a.used.length := List.length_pos_of_mem (hall 0 (Nat.zero_le _))
    cases k with
    | zero => exact hall 0 (Nat.zero_le _)
    | succ k => exact hsame k ▸ hall 1 hused

/-- There is a free path for every name without slashes. -/
theorem allocateFree_isOk (hname : slash ∉ name) (hext : slash ∉ ext) (a : Allocator) (dir : Path) :
    ∃ path b, a.allocateFree dir name ext = .ok (path, b) :=
  allocateFree_of_injective (lower_candidate_injective hname hext dir) a

end Allocator

end DeclPieces
