import DeclPieces.Declaration
import DeclPieces.Proofs.Lists

/-! Tags in documentation blocks. A block carries a tag if the tag stands in it somewhere without running on into a
longer one. Only the first place where the tag stands is looked at, and that is enough exactly if it does not run on in
the first block that carries the tag. -/
namespace DeclPieces.Text
variable {part t before before' rest rest' : Text} {b : UInt8}

/-- The first place where `part` stands in `t` is after `before`, and `rest` follows. -/
structure First (part t before rest : Text) : Prop where
  eq : t = before ++ part ++ rest
  le : ∀ before' rest', t = before' ++ part ++ rest' → before.length ≤ before'.length

lemma First.unique (h : First part t before rest) (h' : t = before' ++ part ++ rest')
    (hlength : before'.length = before.length) : rest' = rest := by
  have heq := h.eq
  rw [h', List.append_assoc, List.append_assoc] at heq
  exact List.append_cancel_left (List.append_inj heq hlength).2

lemma after?_cons_of_begins (h : part <+: b :: t) : after? part (b :: t) = some ((b :: t).drop part.length) :=
  if_pos (List.isPrefixOf_iff_prefix.mpr h)

lemma after?_cons_of_not_begins (h : ¬ part <+: b :: t) : after? part (b :: t) = after? part t :=
  if_neg (mt List.isPrefixOf_iff_prefix.mp h)

lemma after?_eq_none_iff : after? part t = none ↔ ¬ part <:+: t := by
  induction t with
  | nil => cases part <;> simp [after?]
  | cons b t ih =>
    by_cases hhead : part <+: b :: t
    · rw [after?_cons_of_begins hhead]
      simp [hhead.isInfix]
    · rw [after?_cons_of_not_begins hhead, ih, List.infix_cons_iff]
      simp [hhead]

/-- What is found is what follows the first place. -/
lemma after?_eq_some_iff : after? part t = some rest ↔ ∃ before, First part t before rest := by
  induction t with
  | nil =>
    cases part with
    | nil =>
      constructor
      · intro h
        obtain rfl : [] = rest := Option.some.inj h
        exact ⟨[], rfl, fun _ _ _ => Nat.zero_le _⟩
      · rintro ⟨before, heq, -⟩
        obtain ⟨-, rfl⟩ := List.append_eq_nil_iff.mp heq.symm
        rfl
    | cons b part => simpa [after?] using fun before h => absurd h.eq (by simp)
  | cons b t ih =>
    by_cases hhead : part <+: b :: t
    · rw [after?_cons_of_begins hhead]
      obtain ⟨tail, htail⟩ := hhead
      have hfirst : First part (b :: t) [] tail := ⟨by simpa using htail.symm, fun _ _ _ => Nat.zero_le _⟩
      have hdrop : (b :: t).drop part.length = tail := by rw [← htail, List.drop_left]
      rw [hdrop, Option.some.injEq]
      constructor
      · rintro rfl
        exact ⟨[], hfirst⟩
      · rintro ⟨before, h⟩
        exact (hfirst.unique h.eq (Nat.le_zero.mp (h.le [] tail hfirst.eq))).symm
    · -- the first place is not at the head, so that it is the first place in what follows
      rw [after?_cons_of_not_begins hhead, ih]
      have hnot : ∀ rest', b :: t ≠ [] ++ part ++ rest' := fun rest' heq => hhead ⟨rest', by simpa using heq.symm⟩
      constructor
      · rintro ⟨before, rfl, hle⟩
        refine ⟨b :: before, rfl, fun before' rest' heq => ?_⟩
        cases before' with
        | nil => exact absurd heq (hnot rest')
        | cons c before' => simpa using hle before' rest' (List.cons.inj heq).2
      · rintro ⟨before, heq, hle⟩
        cases before with
        | nil => exact absurd heq (hnot rest)
        | cons c before =>
          refine ⟨before, (List.cons.inj heq).2, fun before' rest' h => ?_⟩
          simpa using hle (b :: before') rest' (by simp [h])

end DeclPieces.Text

namespace DeclPieces
open Text

/-- Does a tag end before `rest`, rather than run on into a longer one? -/
def EndsTag (rest : Text) : Prop := ∀ b ∈ rest.head?, isTagByte b = false

instance (rest : Text) : Decidable (EndsTag rest) := inferInstanceAs (Decidable (∀ b ∈ rest.head?, _))

namespace Comment
variable {c : Comment} {tag : Text}

/-- Does the tag stand in the block, as a whole? -/
def Carries (c : Comment) (tag : Text) : Prop := ∃ before rest, c.text = before ++ tag ++ rest ∧ EndsTag rest

/-- Is the tag whole at the first place where it stands in the block? -/
def CarriesFirst (c : Comment) (tag : Text) : Prop := ∃ before rest, First tag c.text before rest ∧ EndsTag rest

lemma CarriesFirst.carries (h : c.CarriesFirst tag) : c.Carries tag := by
  obtain ⟨before, rest, hfirst, hends⟩ := h
  exact ⟨before, rest, hfirst.eq, hends⟩

lemma hasTag_iff : c.hasTag tag = true ↔ c.CarriesFirst tag := by
  unfold hasTag
  split
  · next hnone =>
    refine ⟨fun h => (by cases h), ?_⟩
    rintro ⟨before, rest, hfirst, -⟩
    exact absurd ⟨before, rest, hfirst.eq.symm⟩ (after?_eq_none_iff.mp hnone)
  · next hsome =>
    obtain ⟨before, hfirst⟩ := after?_eq_some_iff.mp hsome
    exact iff_of_true rfl ⟨before, [], hfirst, by simp [EndsTag]⟩
  · next b rest hsome =>
    obtain ⟨before, hfirst⟩ := after?_eq_some_iff.mp hsome
    constructor
    · intro hb
      exact ⟨before, b :: rest, hfirst, by simpa [EndsTag] using hb⟩
    · rintro ⟨before', rest', hfirst', hends⟩
      have hlength := Nat.le_antisymm (hfirst'.le _ _ hfirst.eq) (hfirst.le _ _ hfirst'.eq)
      obtain rfl := hfirst.unique hfirst'.eq hlength
      simpa [EndsTag] using hends

/-- The tag is carried at some beginning of the rest of the block. -/
lemma carries_iff_tails : c.Carries tag ↔ ∃ s ∈ c.text.tails, tag <+: s ∧ EndsTag (s.drop tag.length) := by
  simp only [List.mem_tails]
  constructor
  · rintro ⟨before, rest, htext, hends⟩
    refine ⟨tag ++ rest, ⟨before, by rw [htext, List.append_assoc]⟩, List.prefix_append _ _, ?_⟩
    rwa [List.drop_left]
  · rintro ⟨s, ⟨before, htext⟩, ⟨rest, rfl⟩, hends⟩
    rw [List.drop_left] at hends
    exact ⟨before, rest, by rw [← htext, List.append_assoc], hends⟩

instance (c : Comment) (tag : Text) : Decidable (c.Carries tag) := decidable_of_iff _ carries_iff_tails.symm

end Comment

namespace SourceFile
variable {tag : Text}

/-- The documentation of a file is the first block in which the tag is whole where it first stands. It is the first
block that carries the tag, and there is none only if no block does, exactly if the first block that carries the tag
does so where the tag first stands in it. -/
theorem packageDoc_first_carrying_iff (f : SourceFile) (htag : tag ≠ []) :
    (∀ c, f.packageDoc tag = some c ↔ f.docs.FirstOf (·.CarriesFirst tag) c) ∧
      (f.packageDoc tag = none ↔ ∀ c ∈ f.docs, ¬ c.CarriesFirst tag) ∧
      ((∀ c, f.packageDoc tag = some c ↔ f.docs.FirstOf (·.Carries tag) c) ∧
          (f.packageDoc tag = none ↔ ∀ c ∈ f.docs, ¬ c.Carries tag) ↔
        ∀ c, f.docs.FirstOf (·.Carries tag) c → c.CarriesFirst tag) := by
  have hdoc : f.packageDoc tag = f.docs.find? (·.hasTag tag) := by simp [packageDoc, htag]
  have hsome : ∀ c, f.packageDoc tag = some c ↔ f.docs.FirstOf (·.CarriesFirst tag) c := by
    intro c
    rw [hdoc]
    exact List.find?_eq_some_iff_firstOf fun _ => Comment.hasTag_iff
  have hnone : f.packageDoc tag = none ↔ ∀ c ∈ f.docs, ¬ c.CarriesFirst tag := by
    rw [hdoc, List.find?_eq_none]
    refine forall₂_congr fun c _ => ?_
    rw [← Comment.hasTag_iff]
  refine ⟨hsome, hnone, ?_, ?_⟩
  · rintro ⟨hcarries, -⟩ c hc
    exact ((hsome c).mp ((hcarries c).mpr hc)).holds
  · intro h
    have hcarries : ∀ c, f.docs.FirstOf (·.Carries tag) c → f.packageDoc tag = some c := fun c hc =>
      (hsome c).mpr (hc.of_imp (fun _ => Comment.CarriesFirst.carries) (h c hc))
    have hexists : ∀ c ∈ f.docs, c.Carries tag → ∃ c', f.docs.FirstOf (·.Carries tag) c' := fun c hc hcarried =>
      List.exists_firstOf ⟨c, hc, hcarried⟩
    constructor
    · intro c
      refine ⟨fun hc => ?_, hcarries c⟩
      -- some block carries the tag, and the first that does is the one that is found
      have hfound := (hsome c).mp hc
      obtain ⟨c', hc'⟩ := hexists c hfound.mem hfound.holds.carries
      obtain rfl : c' = c := Option.some.inj ((hcarries c' hc').symm.trans hc)
      exact hc'
    · constructor
      · intro hdoc c hc hcarried
        obtain ⟨c', hc'⟩ := hexists c hc hcarried
        rw [hcarries c' hc'] at hdoc
        cases hdoc
      · exact fun hnot => hnone.mpr fun c hc hfirst => hnot c hc hfirst.carries

/-- A block with a longer tag only, one with the tag before a longer one, and one with the tag alone. -/
def taggedFile : SourceFile where
  path := "t/x.d.ts"
  text := ""
  docs := [⟨0, 12, "/** @apis */"⟩, ⟨13, 30, "/** @api @apis */"⟩, ⟨31, 42, "/** @api */"⟩]

theorem packageDoc_first_whole :
    Text.ofString "@api" ≠ [] ∧ taggedFile.docs.FirstOf (·.Carries "@api") ⟨13, 30, "/** @api @apis */"⟩ ∧
      taggedFile.packageDoc "@api" = some ⟨13, 30, "/** @api @apis */"⟩ := by
  have hcarries : taggedFile.docs.FirstOf (·.Carries "@api") ⟨13, 30, "/** @api @apis */"⟩ :=
    ⟨[⟨0, 12, "/** @apis */"⟩], [⟨31, 42, "/** @api */"⟩], rfl, by decide +kernel, by decide +kernel⟩
  refine ⟨by decide, hcarries, ?_⟩
  obtain ⟨hsome, -, -⟩ := packageDoc_first_carrying_iff taggedFile (by decide : Text.ofString "@api" ≠ [])
  have hfirst := Comment.hasTag_iff.mp (by decide : Comment.hasTag ⟨13, 30, "/** @api @apis */"⟩ "@api" = true)
  exact (hsome _).mpr (hcarries.of_imp (fun _ => Comment.CarriesFirst.carries) hfirst)

/-- A block that carries the tag behind a longer one. -/
def maskedFile : SourceFile where
  path := "t/x.d.ts"
  text := ""
  docs := [⟨0, 14, "/** @ab @a */"⟩]

/-- The tag is missed, as it does not stand alone where it stands first. -/
theorem packageDoc_masked_missed :
    maskedFile.docs.FirstOf (·.Carries "@a") ⟨0, 14, "/** @ab @a */"⟩ ∧ maskedFile.packageDoc "@a" = none :=
  ⟨⟨[], [], rfl, by decide +kernel, by decide⟩, by decide⟩

end SourceFile

end DeclPieces
