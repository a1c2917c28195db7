import DeclPieces.Sort
import Mathlib.Data.List.Forall2
import Mathlib.Data.List.Induction
import Mathlib.Data.List.Infix
import Mathlib.Data.List.Pairwise
import Mathlib.Data.List.Sort
import Mathlib.Data.List.TakeWhile

/-! Lists in general: two lists side by side, the first member of its kind, members that come once, the front of a list
in falling order, and what a stable sort leaves in its order. -/
namespace List
variable {α β : Type} {l l' : List α} {a b : α} {k : Nat}

/-! Two lists side by side. -/

lemma Forall₂.exists_of_mem {Y : α → β → Prop} {xs : List α} {ys : List β}
    (h : Forall₂ Y xs ys) {y : β} (hy : y ∈ ys) : ∃ x ∈ xs, Y x y := by
  induction h with
  | nil => simp at hy
  | cons hxy _ ih =>
    rcases mem_cons.mp hy with rfl | hy
    · exact ⟨_, by simp, hxy⟩
    · obtain ⟨x, hx, hxy⟩ := ih hy
      exact ⟨x, by simp [hx], hxy⟩

lemma Forall₂.pairwise {Y : α → β → Prop} {R : α → α → Prop} {R' : β → β → Prop}
    {xs : List α} {ys : List β} (h : Forall₂ Y xs ys) (hr : xs.Pairwise R)
    (himp : ∀ x x' y y', Y x y → Y x' y' → R x x' → R' y y') : ys.Pairwise R' := by
  induction h with
  | nil => exact .nil
  | @cons x y xs ys hxy hrest ih =>
    rw [pairwise_cons] at hr
    refine pairwise_cons.mpr ⟨fun y' hy' => ?_, ih hr.2⟩
    obtain ⟨x', hx', hxy'⟩ := hrest.exists_of_mem hy'
    exact himp x x' y y' hxy hxy' (hr.1 x' hx')

/-! Members in order. -/

/-- What is taken before a member that ends the taking comes before it. -/
lemma rel_of_mem_takeWhile {R : α → α → Prop} {p : α → Bool} {l : List α} (h : l.Pairwise R)
    {x y : α} (hx : x ∈ l) (hp : p x = false) (hy : y ∈ l.takeWhile p) : R y x := by
  induction l with
  | nil => simp at hx
  | cons a rest ih =>
    rw [pairwise_cons] at h
    by_cases ha : p a = true
    · have hxa : x ≠ a := by
        rintro rfl
        simp [hp] at ha
      have hrest : x ∈ rest := (mem_cons.mp hx).resolve_left hxa
      rw [takeWhile_cons_of_pos ha] at hy
      rcases mem_cons.mp hy with rfl | hy
      · exact h.1 x hrest
      · exact ih h.2 hrest hy
    · rw [takeWhile_cons_of_neg ha] at hy
      simp at hy

lemma pairwise_of_split {R : α → α → Prop} {l : List α}
    (h : ∀ before x after, l = before ++ x :: after → ∀ y ∈ before, R y x) : l.Pairwise R := by
  induction l using reverseRecOn with
  | nil => exact .nil
  | append_singleton l x ih =>
    refine pairwise_append.mpr ⟨ih ?_, pairwise_singleton R x, ?_⟩
    · intro before y after hl
      exact h before y (after ++ [x]) (by simp [hl])
    · intro y hy z hz
      rw [mem_singleton.mp hz]
      exact h l x [] rfl y hy

/-! The first of its kind. -/

section
variable {p q : α → Prop}

/-- Is `a` the first member of which `p` holds? -/
def FirstOf (l : List α) (p : α → Prop) (a : α) : Prop :=
  ∃ before after, l = before ++ a :: after ∧ p a ∧ ∀ b ∈ before, ¬ p b

lemma FirstOf.mem (h : l.FirstOf p a) : a ∈ l := by
  obtain ⟨before, after, rfl, -, -⟩ := h
  simp

lemma FirstOf.holds (h : l.FirstOf p a) : p a := by
  obtain ⟨before, after, -, ha, -⟩ := h
  exact ha

lemma find?_eq_some_iff_firstOf {test : α → Bool} (htest : ∀ a, test a = true ↔ p a) :
    l.find? test = some a ↔ l.FirstOf p a := by
  rw [find?_eq_some_iff_append]
  constructor
  · rintro ⟨ha, before, after, rfl, hbefore⟩
    refine ⟨before, after, rfl, (htest a).mp ha, fun b hb hp => ?_⟩
    have hfalse := hbefore b hb
    rw [(htest b).mpr hp] at hfalse
    cases hfalse
  · rintro ⟨before, after, rfl, ha, hbefore⟩
    refine ⟨(htest a).mpr ha, before, after, rfl, fun b hb => ?_⟩
    have hfalse : test b = false := Bool.eq_false_iff.mpr fun h => hbefore b hb ((htest b).mp h)
    simp [hfalse]

lemma exists_firstOf (h : ∃ a ∈ l, p a) : ∃ a, l.FirstOf p a := by
  classical
  obtain ⟨a, hfind⟩ : ∃ a, l.find? (fun a => decide (p a)) = some a := by
    obtain ⟨b, hb, hp⟩ := h
    exact Option.isSome_iff_exists.mp (find?_isSome.mpr ⟨b, hb, by simpa using hp⟩)
  exact ⟨a, (find?_eq_some_iff_firstOf (by simp)).mp hfind⟩

/-- A member that is the first of its kind is so among fewer members. -/
lemma FirstOf.of_imp (h : l.FirstOf p a) (himp : ∀ b, q b → p b) (ha : q a) : l.FirstOf q a := by
  obtain ⟨before, after, hl, -, hbefore⟩ := h
  exact ⟨before, after, hl, ha, fun b hb hq => hbefore b hb (himp b hq)⟩

end

/-! Members that come once. -/

lemma nodup_eraseDups [BEq α] [LawfulBEq α] (l : List α) : l.eraseDups.Nodup := by
  induction hn : l.length using Nat.strong_induction_on generalizing l with
  | _ n ih =>
    cases l with
    | nil => simp
    | cons a rest =>
      rw [List.eraseDups_cons, List.nodup_cons, List.mem_eraseDups]
      have hshort : (rest.filter fun b => !b == a).length < n := by
        have hle := List.length_filter_le (fun b => !b == a) rest
        rw [List.length_cons] at hn
        omega
      exact ⟨by simp, ih _ hshort _ rfl⟩

lemma mem_drop_iff_not_mem_take (hl : l.Nodup) :
    a ∈ l.drop k ↔ a ∈ l ∧ a ∉ l.take k := by
  have hsplit := hl
  rw [← List.take_append_drop k l, List.nodup_append] at hsplit
  constructor
  · intro ha
    exact ⟨List.mem_of_mem_drop ha, fun ha' => hsplit.2.2 a ha' a ha rfl⟩
  · rintro ⟨ha, hnot⟩
    rw [← List.take_append_drop k l] at ha
    exact (List.mem_append.mp ha).resolve_left hnot

lemma Nodup.not_sublist_swap (hl : l.Nodup) (hab : [a, b].Sublist l) : ¬ [b, a].Sublist l := by
  induction l with
  | nil => cases hab
  | cons c rest ih =>
    obtain ⟨hc, hrest⟩ := List.nodup_cons.mp hl
    intro hba
    cases hab with
    | cons _ hab =>
      cases hba with
      | cons _ hba => exact ih hrest hab hba
      | cons_cons _ hba => exact hc (hab.subset (by simp))
    | cons_cons _ hab =>
      cases hba with
      | cons _ hba => exact hc (hba.subset (by simp))
      | cons_cons _ hba => exact hc (hba.subset (by simp))

/-! The front of a list in falling order. -/

section
variable {f : α → Int}

/-- In a list that does not rise, a member is among the first if few members are as high. -/
lemma not_mem_drop_of_countP_le (hl : l.Pairwise fun x y => f y ≤ f x) (h : (l.countP fun x => f a ≤ f x) ≤ k) :
    a ∉ l.drop k := by
  intro ha
  have hsplit := hl
  rw [← List.take_append_drop k l, List.pairwise_append] at hsplit
  have hfront : (l.take k).countP (fun x => f a ≤ f x) = (l.take k).length :=
    List.countP_eq_length.mpr fun x hx => by simpa using hsplit.2.2 x hx a ha
  have hself : 0 < (l.drop k).countP fun x => f a ≤ f x := List.countP_pos_iff.mpr ⟨a, ha, by simp⟩
  have hlong : k < l.length := by
    by_contra hshort
    rw [List.drop_eq_nil_of_le (by omega)] at ha
    cases ha
  rw [← List.take_append_drop k l, List.countP_append, hfront, List.length_take] at h
  omega

/-- In a list that does not rise, a member is not among the first if many members are higher. -/
lemma mem_drop_of_le_countP (hl : l.Pairwise fun x y => f y ≤ f x) (ha : a ∈ l)
    (h : k ≤ l.countP fun x => f a < f x) : a ∈ l.drop k := by
  have hsplit := hl
  rw [← List.take_append_drop k l] at ha
  refine (List.mem_append.mp ha).resolve_left fun ha => ?_
  rw [← List.take_append_drop k l, List.pairwise_append] at hsplit
  have hback : (l.drop k).countP (fun x => f a < f x) = 0 :=
    List.countP_eq_zero.mpr fun x hx => by simpa using hsplit.2.2 a ha x hx
  have hfront : (l.take k).countP (fun x => f a < f x) < (l.take k).length := by
    refine Nat.lt_of_le_of_ne List.countP_le_length fun heq => ?_
    have hself := List.countP_eq_length.mp heq a ha
    simp at hself
  rw [← List.take_append_drop k l, List.countP_append, hback] at h
  have hshort := List.length_take_le k l
  omega

/-- There is one way to put things in falling order that differ in height. -/
lemma eq_of_perm_of_pairwise (hperm : l.Perm l') (hl : l.Pairwise fun x y => f y ≤ f x)
    (hl' : l'.Pairwise fun x y => f y < f x) : l = l' := by
  refine List.Perm.eq_of_pairwise ?_ hl (hl'.imp Int.le_of_lt) hperm
  intro a b ha hb hle hle'
  have hnodup : (l'.map f).Nodup := List.pairwise_map.mpr (hl'.imp fun h => by omega)
  exact List.inj_on_of_nodup_map hnodup (hperm.mem_iff.mp ha) hb (by omega)

end

/-- In a list that falls strictly, the members after the first `k` are those below at least `k` others. -/
lemma mem_drop_iff_countP {R : α → α → Prop} [DecidableRel R] (hirrefl : ∀ x ∈ l, ¬ R x x)
    (hl : l.Pairwise fun x y => R y x ∧ ¬ R x y) :
    a ∈ l.drop k ↔ a ∈ l ∧ k ≤ l.countP fun x => decide (R a x) := by
  induction l generalizing k with
  | nil => simp
  | cons b rest ih =>
    obtain ⟨hb, hrest⟩ := List.pairwise_cons.mp hl
    cases k with
    | zero => simp
    | succ k =>
      rw [List.drop_succ_cons, ih (fun x hx => hirrefl x (by simp [hx])) hrest, List.countP_cons]
      constructor
      · rintro ⟨ha, hk⟩
        have hab : decide (R a b) = true := by simpa using (hb a ha).1
        rw [if_pos hab]
        exact ⟨List.mem_cons_of_mem b ha, by omega⟩
      · rintro ⟨ha, hk⟩
        rcases List.mem_cons.mp ha with rfl | ha
        · -- nothing is above the first member
          have hnone : rest.countP (fun x => decide (R a x)) = 0 :=
            List.countP_eq_zero.mpr fun x hx => by simpa using (hb x hx).2
          have hself : ¬ decide (R a a) = true := by simpa using hirrefl a (by simp)
          rw [hnone, if_neg hself] at hk
          omega
        · rw [if_pos (by simpa using (hb a ha).1)] at hk
          exact ⟨ha, by omega⟩

/-! Stable sorts. -/

section
variable {le : α → α → Bool} {S : α → α → Prop}

lemma pairwise_insertStable (hl : l.Pairwise fun x y => le y x = true → S x y) (ha : ∀ c ∈ l, S a c) :
    (insertStable le a l).Pairwise fun x y => le y x = true → S x y := by
  induction l with
  | nil => simp [insertStable]
  | cons b rest ih =>
    obtain ⟨hb, hrest⟩ := List.pairwise_cons.mp hl
    unfold insertStable
    split
    · exact List.pairwise_cons.mpr ⟨fun c hc _ => ha c hc, hl⟩
    · next hab =>
      refine List.pairwise_cons.mpr ⟨?_, ih hrest fun c hc => ha c (by simp [hc])⟩
      intro c hc hle
      rcases List.mem_cons.mp ((insertStable_perm le a rest).mem_iff.mp hc) with rfl | hc
      · exact absurd hle hab
      · exact hb c hc hle

/-- Members that may stand either way stand in a sorted list as they stood before. -/
lemma pairwise_stableSort_of_pairwise (hl : l.Pairwise S) :
    (l.stableSort le).Pairwise fun x y => le y x = true → S x y := by
  induction l with
  | nil => simp [stableSort]
  | cons a rest ih =>
    obtain ⟨ha, hrest⟩ := List.pairwise_cons.mp hl
    exact pairwise_insertStable (ih hrest) fun c hc => ha c ((stableSort_perm rest le).mem_iff.mp hc)

end

lemma filter_insertStable {le : α → α → Bool} {p : α → Bool} {a : α} {l : List α}
    (h : p a = true → ∀ b ∈ l, p b = true → le a b = true) :
    (insertStable le a l).filter p = (a :: l).filter p := by
  induction l with
  | nil => rfl
  | cons b rest ih =>
    unfold insertStable
    split
    · rfl
    · next hle =>
      have hrest := ih fun ha c hc => h ha c (mem_cons_of_mem b hc)
      rw [filter_cons, hrest]
      cases hb : p b with
      | false => simp [filter_cons, hb]
      | true =>
        -- `a` passes `b`, so they are not both selected
        have ha : p a = false := by
          by_contra ha
          exact hle (h (by simpa using ha) b mem_cons_self hb)
        simp [hb, ha]

/-- A sort leaves the members of a selection in their order if it may leave them so. -/
lemma filter_stableSort {le : α → α → Bool} {p : α → Bool} {l : List α}
    (h : ∀ a ∈ l, ∀ b ∈ l, p a = true → p b = true → le a b = true) :
    (l.stableSort le).filter p = l.filter p := by
  induction l with
  | nil => rfl
  | cons a rest ih =>
    have hrest := ih fun b hb c hc => h b (mem_cons_of_mem a hb) c (mem_cons_of_mem a hc)
    rw [stableSort, filter_insertStable, filter_cons, hrest, filter_cons]
    intro ha b hb hpb
    have hb : b ∈ rest := (stableSort_perm rest le).mem_iff.mp hb
    exact h a mem_cons_self b (mem_cons_of_mem a hb) ha hpb

end List
