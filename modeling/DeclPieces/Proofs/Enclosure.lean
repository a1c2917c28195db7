import DeclPieces.Proofs.ModuleReference

/-! What lies below a directory, told by components. For clean paths, and a directory that has a name, this is told by
the text: what lies below is the directory, a slash and something more. -/
namespace DeclPieces.Path
variable {D E p : Path} {c : Text} {rest : List Text}

/-- Is there a name in the path, as in that of a directory named after a file? The top, the current directory and those
above it have none. -/
def HasName (p : Path) : Prop := ∃ c ∈ p.components, c ≠ dotDot

instance (p : Path) : Decidable p.HasName := inferInstanceAs (Decidable (∃ c ∈ p.components, c ≠ dotDot))

lemma HasName.ne_nil (h : p.HasName) : p.components ≠ [] := by
  obtain ⟨c, hc, -⟩ := h
  exact List.ne_nil_of_mem hc

/-- Of the rooted directories only the top has no name. -/
lemma hasName_iff_of_isAbs (habs : p.isAbs = true) : p.HasName ↔ p.clean ≠ [slash] := by
  have hiff : p.HasName ↔ p.components ≠ [] := by
    refine ⟨HasName.ne_nil, fun hne => ?_⟩
    obtain ⟨c, rest, hcomponents⟩ := List.exists_cons_of_ne_nil hne
    exact ⟨c, by simp [hcomponents], ne_dotDot_of_mem_components habs c (by simp [hcomponents])⟩
  rw [hiff, clean_eq_ofComponents, habs, not_iff_not]
  constructor
  · intro hnil
    rw [hnil]
    rfl
  · intro htop
    have hcomponents := congrArg components htop
    rw [← habs, ← clean_eq_ofComponents, components_clean] at hcomponents
    exact hcomponents

lemma hasName_join (hD : D ≠ []) (hc : Plain c) : (join D c).HasName :=
  ⟨c, by simp [components_join_plain hD hc], hc.ne_dotDot⟩

lemma hasName_joinAll (parts : List Text) (hc : Plain c) : (joinAll (parts ++ [c])).HasName := by
  induction parts with
  | nil =>
    cases c with
    | nil => exact absurd rfl hc.ne_nil
    | cons b bs =>
      refine ⟨b :: bs, ?_, hc.ne_dotDot⟩
      change b :: bs ∈ (clean (b :: bs)).components
      rw [components_clean, components, Text.splitBy_of_not_mem hc.not_slash]
      simp [push_plain hc]
  | cons part rest ih =>
    cases part with
    | nil => exact ih
    | cons b bs =>
      change (clean (Text.joinWith [slash] (((b :: bs) :: rest) ++ [c]))).HasName
      have hfront : Text.joinWith [slash] ((b :: bs) :: rest) ≠ [] := by cases rest <;> simp [Text.joinWith]
      rw [Text.joinWith_append [slash] (by simp) (by simp), List.append_assoc, Text.joinWith, List.singleton_append,
        ← join_eq hfront]
      exact hasName_join hfront hc

/-- Does a path lie strictly below a directory? -/
structure Encloses (D p : Path) : Prop where
  isAbs : D.isAbs = p.isAbs
  below : D.components <+: p.components
  strictly : D.components ≠ p.components

instance (D p : Path) : Decidable (Encloses D p) :=
  decidable_of_iff (D.isAbs = p.isAbs ∧ D.components <+: p.components ∧ D.components ≠ p.components)
    ⟨fun ⟨h₁, h₂, h₃⟩ => ⟨h₁, h₂, h₃⟩, fun h => ⟨h.1, h.2, h.3⟩⟩

lemma encloses_iff_exists : D.Encloses p ↔
    D.isAbs = p.isAbs ∧ ∃ rest, rest ≠ [] ∧ p.components = D.components ++ rest := by
  constructor
  · rintro ⟨habs, ⟨rest, hrest⟩, hne⟩
    refine ⟨habs, rest, ?_, hrest.symm⟩
    rintro rfl
    exact hne (by simpa using hrest)
  · rintro ⟨habs, rest, hne, hrest⟩
    refine ⟨habs, ⟨rest, hrest.symm⟩, fun he => hne ?_⟩
    rw [← he] at hrest
    exact List.self_eq_append_right.mp hrest

lemma Encloses.length_lt (h : D.Encloses p) : D.components.length < p.components.length := by
  obtain ⟨-, rest, hne, hrest⟩ := encloses_iff_exists.mp h
  have hpos := List.length_pos_iff.mpr hne
  rw [hrest, List.length_append]
  omega

lemma Encloses.trans (h : D.Encloses E) (h' : E.Encloses p) : D.Encloses p where
  isAbs := h.isAbs.trans h'.isAbs
  below := h.below.trans h'.below
  strictly := fun he => absurd (h.length_lt.trans h'.length_lt) (by rw [he]; exact lt_irrefl _)

/-- Of two directories around one path the one with fewer components is around the other. -/
lemma Encloses.of_length_lt (h : D.Encloses p) (h' : E.Encloses p) (hlt : D.components.length < E.components.length) :
    D.Encloses E where
  isAbs := h.isAbs.trans h'.isAbs.symm
  below := List.prefix_of_prefix_length_le h.below h'.below hlt.le
  strictly := fun he => absurd hlt (by rw [he]; exact lt_irrefl _)

/-- Directories around one path, as far up, are one. -/
lemma Encloses.eq_of_length_eq (h : D.Encloses p) (h' : E.Encloses p) (hD : D.clean = D) (hE : E.clean = E)
    (hlength : D.components.length = E.components.length) : D = E :=
  eq_of_components hD hE (h.isAbs.trans h'.isAbs.symm)
    ((List.prefix_of_prefix_length_le h.below h'.below hlength.le).eq_of_length hlength)

/-- From a directory with a name the way down is by names. -/
lemma Encloses.plain (hD : D.HasName) (h : p.components = D.components ++ rest) : ∀ c ∈ rest, Plain c := by
  intro c hc
  have hmem : c ∈ p.components := h ▸ List.mem_append_right _ hc
  obtain ⟨hdot, hslash⟩ := resolved_of_mem_components hmem
  have hne : c ≠ [] := ((resolved_components p).not_slash c (List.mem_reverse.mpr hmem)).1
  refine ⟨hne, hdot, ?_, hslash⟩
  rintro rfl
  obtain ⟨front, back, rfl⟩ := List.append_of_mem hc
  rw [← List.append_assoc] at h
  obtain ⟨name, hname, hup⟩ := hD
  exact hup ((all_dotDot_of_components h).2 name (List.mem_append_left _ hname))

/-- What lies below a directory with a name is the directory and names. -/
lemma HasName.encloses_iff (hD : D.HasName) : D.Encloses p ↔
    D.isAbs = p.isAbs ∧ ∃ rest, rest ≠ [] ∧ (∀ c ∈ rest, Plain c) ∧ p.components = D.components ++ rest := by
  rw [encloses_iff_exists]
  refine and_congr_right fun _ => exists_congr fun rest => and_congr_right fun _ => ?_
  exact ⟨fun h => ⟨Encloses.plain hD h, h⟩, And.right⟩

lemma encloses_join (hD : D ≠ []) (hc : Plain c) : D.Encloses (join D c) :=
  encloses_iff_exists.mpr ⟨(isAbs_join hD c).symm, [c], List.cons_ne_nil c [], components_join_plain hD hc⟩

/-! By text. -/

lemma ofComponents_append (rooted : Bool) {front back : List Text} (hfront : front ≠ []) (hback : back ≠ []) :
    ofComponents rooted (front ++ back) = ofComponents rooted front ++ slash :: Text.joinWith [slash] back := by
  cases rooted <;> simp [ofComponents, hfront, Text.joinWith_append [slash] hfront hback]

lemma splitBy_clean (hclean : p.clean = p) (hne : p.components ≠ []) :
    Text.splitBy slash p = (if p.isAbs then [[]] else []) ++ p.components := by
  have hparts : ∀ part ∈ p.components, slash ∉ part := fun part hp =>
    ((resolved_components p).not_slash part (List.mem_reverse.mpr hp)).2
  conv_lhs => rw [← hclean, clean_eq_ofComponents]
  cases p.isAbs with
  | true => simp [ofComponents, Text.splitBy_cons_sep, Text.splitBy_joinWith hne hparts]
  | false => simp [ofComponents, hne, Text.splitBy_joinWith hne hparts]

lemma eq_of_components_eq_nil (hclean : p.clean = p) (hnil : p.components = []) : p = [slash] ∨ p = dot := by
  rw [clean_eq_ofComponents, hnil] at hclean
  cases habs : p.isAbs with
  | true => exact .inl (by simpa [ofComponents, habs, Text.joinWith] using hclean.symm)
  | false => exact .inr (by simpa [ofComponents, habs] using hclean.symm)

/-- Cleaning leaves nothing of a slash behind the top, or behind the current directory. -/
lemma components_append_ne_nil {rest : Text} (hD : D ≠ []) (hp : (D ++ slash :: rest).clean = D ++ slash :: rest) :
    (D ++ slash :: rest).components ≠ [] := by
  intro hempty
  rcases eq_of_components_eq_nil hp hempty with htop | hhere
  · have hlength := congrArg List.length htop
    have hpos := List.length_pos_iff.mpr hD
    simp only [List.length_append, List.length_cons, List.length_nil] at hlength
    omega
  · have hmem : slash ∈ D ++ slash :: rest := by simp
    rw [hhere] at hmem
    exact absurd hmem (by decide)

lemma encloses_iff_append (hD : D.clean = D) (hp : p.clean = p) (hne : D.components ≠ []) :
    D.Encloses p ↔ ∃ rest, p = D ++ slash :: rest := by
  have hnil : D ≠ [] := hD ▸ clean_ne_nil D
  constructor
  · intro h
    obtain ⟨habs, rest, hrest, hcomponents⟩ := encloses_iff_exists.mp h
    refine ⟨Text.joinWith [slash] rest, ?_⟩
    calc p = ofComponents D.isAbs (D.components ++ rest) := by rw [habs, ← hcomponents, ← clean_eq_ofComponents, hp]
      _ = ofComponents D.isAbs D.components ++ slash :: Text.joinWith [slash] rest := ofComponents_append _ hne hrest
      _ = D ++ slash :: Text.joinWith [slash] rest := by rw [← clean_eq_ofComponents, hD]
  · rintro ⟨rest, rfl⟩
    have habs : (D ++ slash :: rest).isAbs = D.isAbs := isAbs_append hnil _
    have hbelow := components_append_ne_nil hnil hp
    have hsplit := Text.splitBy_append_sep slash D rest
    rw [splitBy_clean hp hbelow, splitBy_clean hD hne, habs, List.append_assoc, List.append_cancel_left_eq] at hsplit
    exact encloses_iff_exists.mpr ⟨habs.symm, _, Text.splitBy_ne_nil slash rest, hsplit⟩

/-- The text of no clean path goes on behind that of the top, or of the current directory, and a slash. -/
lemma ne_append_of_components_eq_nil (hD : D.clean = D) (hp : p.clean = p) (hnil : D.components = []) (rest : Text) :
    p ≠ D ++ slash :: rest := by
  rintro rfl
  have hbelow := components_append_ne_nil (hD ▸ clean_ne_nil D) hp
  have hsplit := splitBy_clean hp hbelow
  rw [Text.splitBy_append_sep] at hsplit
  rcases eq_of_components_eq_nil hD hnil with rfl | rfl
  · have htop : Text.splitBy slash [slash] = [[], []] := by decide
    have habs : isAbs ([slash] ++ slash :: rest) = true := rfl
    rw [htop, if_pos habs] at hsplit
    have hcomponents : [] :: Text.splitBy slash rest = components ([slash] ++ slash :: rest) := (List.cons.inj hsplit).2
    have hmem : [] ∈ components ([slash] ++ slash :: rest) := hcomponents ▸ List.mem_cons_self
    exact ((resolved_components _).not_slash [] (List.mem_reverse.mpr hmem)).1 rfl
  · have hhere : Text.splitBy slash dot = [dot] := by decide
    have hrel : ¬ isAbs (dot ++ slash :: rest) = true := Bool.false_ne_true
    rw [hhere, if_neg hrel] at hsplit
    have hcomponents : dot :: Text.splitBy slash rest = components (dot ++ slash :: rest) := hsplit
    have hmem : dot ∈ components (dot ++ slash :: rest) := hcomponents ▸ List.mem_cons_self
    exact (resolved_of_mem_components hmem).1 rfl

/-- The text of a path starts with that of a directory and a slash if the path lies below, but never for the top or the
current directory. To lie below `..` is then also said of `../..`. -/
lemma hasPrefix_slash_iff (hD : D.clean = D) (hp : p.clean = p) :
    p.hasPrefix (D ++ [slash]) = true ↔ D.components ≠ [] ∧ D.Encloses p := by
  have happend : p.hasPrefix (D ++ [slash]) = true ↔ ∃ rest, p = D ++ slash :: rest := by
    rw [Text.hasPrefix, List.isPrefixOf_iff_prefix]
    constructor
    · rintro ⟨rest, hrest⟩
      exact ⟨rest, by simpa using hrest.symm⟩
    · rintro ⟨rest, rfl⟩
      exact ⟨rest, by simp⟩
  rw [happend]
  by_cases hnil : D.components = []
  · refine iff_of_false ?_ fun h => h.1 hnil
    rintro ⟨rest, h⟩
    exact ne_append_of_components_eq_nil hD hp hnil rest h
  · rw [← encloses_iff_append hD hp hnil]
    exact ⟨fun h => ⟨hnil, h⟩, And.right⟩

end DeclPieces.Path
