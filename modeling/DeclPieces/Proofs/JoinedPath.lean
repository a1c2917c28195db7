import DeclPieces.Proofs.CleanPath
import DeclPieces.Workspace.Key

/-! Paths put together from a directory and plain names, and taken apart again. -/
namespace DeclPieces.Path
variable {D p q : Path} {c name : Text}

/-- A name that cleaning leaves as it is. -/
structure Plain (c : Text) : Prop where
  ne_nil : c ≠ []
  ne_dot : c ≠ dot
  ne_dotDot : c ≠ dotDot
  not_slash : slash ∉ c

instance (c : Text) : Decidable (Plain c) :=
  decidable_of_iff (c ≠ [] ∧ c ≠ dot ∧ c ≠ dotDot ∧ slash ∉ c) ⟨fun ⟨h₁, h₂, h₃, h₄⟩ => ⟨h₁, h₂, h₃, h₄⟩,
    fun h => ⟨h.1, h.2, h.3, h.4⟩⟩

lemma push_plain {rooted : Bool} {done : List Text} (h : Plain c) : push rooted done c = c :: done := by
  unfold push
  simp [h.ne_nil, h.ne_dot, h.ne_dotDot]

lemma foldl_push_plain {rooted : Bool} {parts done : List Text} (h : ∀ c ∈ parts, Plain c) :
    parts.foldl (push rooted) done = parts.reverse ++ done := by
  induction parts generalizing done with
  | nil => rfl
  | cons c rest ih =>
    rw [List.foldl_cons, push_plain (h c (by simp)), ih fun c hc => h c (by simp [hc])]
    simp

lemma clean_eq_ofComponents (p : Path) : p.clean = ofComponents p.isAbs p.components := rfl

/-- A clean path is told by its components, and by whether it is rooted. -/
lemma eq_of_components (hp : p.clean = p) (hq : q.clean = q) (habs : p.isAbs = q.isAbs)
    (h : p.components = q.components) : p = q := by
  rw [← hp, ← hq, clean_eq_ofComponents, clean_eq_ofComponents, habs, h]

lemma ne_nil_of_isAbs (h : p.isAbs = true) : p ≠ [] := by
  rintro rfl
  cases h

lemma isAbs_append (hD : D ≠ []) (rest : Text) : isAbs (D ++ rest) = isAbs D := by
  cases D with
  | nil => exact absurd rfl hD
  | cons b D => rfl

/-- What follows a directory is resolved from the directory on. -/
lemma components_append (hD : D ≠ []) (name : Text) : components (D ++ slash :: name) =
    ((Text.splitBy slash name).foldl (push D.isAbs) D.components.reverse).reverse := by
  rw [components, Text.splitBy_append_sep, List.foldl_append, isAbs_append hD, components, List.reverse_reverse]

lemma join_eq (hD : D ≠ []) (name : Text) : join D name = clean (D ++ slash :: name) := by
  have hempty : D.isEmpty = false := by simpa using hD
  simp [join, joinAll, List.dropWhile, hempty, Text.joinWith]

lemma join_nil (hname : name ≠ []) : join [] name = clean name := by
  have hempty : name.isEmpty = false := by simpa using hname
  simp [join, joinAll, List.dropWhile, hempty, Text.joinWith]

lemma components_join (hD : D ≠ []) (name : Text) : (join D name).components =
    ((Text.splitBy slash name).foldl (push D.isAbs) D.components.reverse).reverse := by
  rw [join_eq hD, components_clean, components_append hD]

lemma components_join_plain (hD : D ≠ []) (hc : Plain c) : (join D c).components = D.components ++ [c] := by
  rw [components_join hD, Text.splitBy_of_not_mem hc.not_slash]
  simp [push_plain hc]

/-- Below a directory that has components, a plain name is simply appended. -/
lemma join_eq_append (hclean : D.clean = D) (hne : D.components ≠ []) (hc : Plain c) :
    join D c = D ++ slash :: c := by
  have hD : D ≠ [] := hclean ▸ clean_ne_nil D
  have happend : Text.joinWith [slash] (D.components ++ [c]) = Text.joinWith [slash] D.components ++ slash :: c := by
    rw [Text.joinWith_append [slash] hne (by simp)]
    simp [Text.joinWith]
  rw [join_eq hD, clean_eq_ofComponents, isAbs_append hD, components_append hD, Text.splitBy_of_not_mem hc.not_slash]
  conv_rhs => rw [← hclean, clean_eq_ofComponents]
  simp only [List.foldl_cons, List.foldl_nil, push_plain hc, List.reverse_cons, List.reverse_reverse, ofComponents,
    happend]
  cases D.isAbs <;> simp [hne]

/-- Everything up to the last slash. -/
lemma dir_append (hc : slash ∉ c) : dir (p ++ slash :: c) = clean (p ++ [slash]) := by
  have hdrop : (c.reverse ++ slash :: p.reverse).dropWhile (· ≠ slash) = slash :: p.reverse := by
    rw [List.dropWhile_append_of_pos]
    · simp
    · intro b hb
      have hne : b ≠ slash := by
        rintro rfl
        exact hc (List.mem_reverse.mp hb)
      simpa using hne
  have hreverse : (p ++ slash :: c).reverse = c.reverse ++ slash :: p.reverse := by simp
  rw [dir, hreverse, hdrop]
  simp

/-- What follows the last slash. -/
lemma exists_last (h : slash ∈ p) : ∃ front last, p = front ++ slash :: last ∧ slash ∉ last := by
  obtain ⟨last, front, hreverse, hlast⟩ := List.eq_append_cons_of_mem (List.mem_reverse.mpr h)
  refine ⟨front.reverse, last.reverse, ?_, by simpa using hlast⟩
  rw [← List.reverse_inj, hreverse]
  simp

lemma isAbs_dir (h : p.isAbs = true) : (dir p).isAbs = true := by
  have hslash : slash ∈ p := List.mem_of_mem_head? (by simpa [isAbs] using h)
  obtain ⟨front, last, rfl, hlast⟩ := exists_last hslash
  rw [dir_append hlast, isAbs_clean]
  cases front with
  | nil => rfl
  | cons b front => exact h

/-- A single name lies at the root or in the current directory. -/
lemma dir_ofComponents_singleton (rooted : Bool) (hc : slash ∉ c) :
    dir (ofComponents rooted [c]) = ofComponents rooted [] := by
  cases rooted with
  | true =>
    have hroot : clean [slash] = [slash] := by decide
    simpa [ofComponents, Text.joinWith, hroot] using dir_append (p := []) hc
  | false =>
    have hdrop : c.reverse.dropWhile (· ≠ slash) = [] := by
      rw [List.dropWhile_eq_nil_iff]
      intro b hb
      have hb' : b ≠ slash := by
        rintro rfl
        exact hc (List.mem_reverse.mp hb)
      simpa using hb'
    simp only [ofComponents, Text.joinWith, dir, Bool.false_eq_true, if_false, List.isEmpty_cons, hdrop]
    rfl

lemma components_append_slash (hD : D ≠ []) : (D ++ [slash]).components = D.components := by
  rw [components_append hD]
  simp [Text.splitBy, push]

lemma dir_join (hclean : D.clean = D) (hc : Plain c) : dir (join D c) = D := by
  have hD : D ≠ [] := hclean ▸ clean_ne_nil D
  by_cases hne : D.components = []
  · -- the root or the current directory
    have hcomponents := components_join_plain hD hc
    rw [hne, List.nil_append] at hcomponents
    have hjoin : join D c = ofComponents D.isAbs [c] := by
      rw [← clean_join D hc.ne_nil, clean_eq_ofComponents, hcomponents, isAbs_join hD]
    rw [hjoin, dir_ofComponents_singleton _ hc.not_slash]
    conv_rhs => rw [← hclean, clean_eq_ofComponents, hne]
  · rw [join_eq_append hclean hne hc, dir_append hc.not_slash, clean_eq_ofComponents, isAbs_append hD,
      components_append_slash hD, ← clean_eq_ofComponents, hclean]

/-- A clean path is in the directory that it leads to without its last name. -/
lemma components_dir (hclean : p.clean = p) (hne : p.components ≠ []) :
    (dir p).components = p.components.dropLast := by
  obtain ⟨above, c, hcomponents⟩ : ∃ above c, p.components = above ++ [c] :=
    ⟨_, _, (List.dropLast_append_getLast hne).symm⟩
  have hresolved := resolved_components p
  have hc : slash ∉ c := (hresolved.not_slash c (by simp [hcomponents])).2
  rw [hcomponents, List.reverse_append, List.reverse_singleton, List.singleton_append] at hresolved
  have habove : components (ofComponents p.isAbs above) = above := by
    simpa using components_ofComponents hresolved.2.2.2.2
  rw [hcomponents, List.dropLast_concat]
  conv_lhs => rw [← hclean, clean_eq_ofComponents, hcomponents]
  cases above with
  | nil =>
    rw [List.nil_append, dir_ofComponents_singleton _ hc]
    exact habove
  | cons first rest =>
    have hnot : first :: rest ≠ [] := by simp
    have hfront : ofComponents p.isAbs (first :: rest) ≠ [] := by
      rintro hnil
      rw [hnil] at habove
      exact absurd habove (by simp [components, Text.splitBy, push])
    have happend : ofComponents p.isAbs (first :: rest ++ [c]) = ofComponents p.isAbs (first :: rest) ++ slash :: c := by
      have hjoin : Text.joinWith [slash] (first :: rest ++ [c]) = Text.joinWith [slash] (first :: rest) ++ slash :: c := by
        rw [Text.joinWith_append [slash] hnot (by simp)]
        simp [Text.joinWith]
      cases p.isAbs <;> simpa [ofComponents] using hjoin
    rw [happend, dir_append hc, components_clean, components_append_slash hfront, habove]

lemma base_append (hc : Plain c) : base (p ++ slash :: c) = c := by
  obtain ⟨b, rest, hreverse⟩ := List.exists_cons_of_ne_nil (l := c.reverse) (by simpa using hc.ne_nil)
  have hb : b ≠ slash := by
    rintro rfl
    exact hc.not_slash (List.mem_reverse.mp (hreverse ▸ List.mem_cons_self))
  have hall : (p ++ slash :: c).reverse = c.reverse ++ slash :: p.reverse := by simp
  have htrimmed : (p ++ slash :: c).reverse.dropWhile (· = slash) = c.reverse ++ slash :: p.reverse := by
    rw [hall, hreverse, List.cons_append, List.dropWhile_cons_of_neg (by simpa using hb)]
  have hname : (c.reverse ++ slash :: p.reverse).takeWhile (· ≠ slash) = c.reverse := by
    rw [List.takeWhile_append_of_pos]
    · simp
    · intro d hd
      simpa using fun he : d = slash => hc.not_slash (he ▸ List.mem_reverse.mp hd)
  unfold base
  simp only [htrimmed, hname]
  simp

@[simp] lemma stripShared_append (xs ys : List Text) : stripShared xs (xs ++ ys) = ([], ys) := by
  induction xs with
  | nil => cases ys <;> rfl
  | cons x rest ih => simp [stripShared, ih]

/-- The way from a directory to what lies below it. -/
lemma rel?_of_components (habs : D.isAbs = p.isAbs) {rest : List Text} (hrest : rest ≠ [])
    (h : p.components = D.components ++ rest) : rel? D p = some (Text.joinWith [slash] rest) := by
  have hne : D.clean ≠ p.clean := by
    intro he
    have hc := congrArg components he
    rw [components_clean, components_clean, h] at hc
    exact hrest (by simpa using hc)
  unfold rel?
  simp [hne, habs, h]

lemma stripShared_eq {bs ts bs' ts' : List Text} (h : stripShared bs ts = (bs', ts')) :
    ∃ shared, bs = shared ++ bs' ∧ ts = shared ++ ts' := by
  fun_induction stripShared bs ts with
  | case1 bs t ts ih =>
    obtain ⟨shared, rfl, rfl⟩ := ih h
    exact ⟨t :: shared, rfl, rfl⟩
  | case2 b bs t ts hne => cases h; exact ⟨[], rfl, rfl⟩
  | case3 ts => cases h; exact ⟨[], rfl, rfl⟩
  | case4 bs hne => cases h; exact ⟨[], rfl, rfl⟩

lemma normalize_of_not_mem (h : 92 ∉ p) : normalize p = p := by
  have hb : ∀ b ∈ p, (if b = 92 then slash else b) = b := by
    intro b hb
    rw [if_neg]
    rintro rfl
    exact h hb
  rw [normalize, List.map_congr_left hb, List.map_id']

/-- The way to a path without backslashes has none. -/
lemma normalize_rel? {r : Path} (h : rel? D p = some r) (hslashes : 92 ∉ p) : normalize r = r := by
  refine normalize_of_not_mem fun hb => ?_
  rcases bytesFrom_rel h _ hb with hb | hb | hb
  · exact absurd hb (by decide)
  · exact absurd hb (by decide)
  · exact hslashes hb

/-- Below a root there are no climbs. -/
lemma ne_dotDot_of_mem_components (habs : p.isAbs = true) : ∀ c ∈ p.components, c ≠ dotDot := by
  have hresolved := resolved_components p
  rw [habs] at hresolved
  have hall : ∀ done : List Text, Resolved true done → ∀ c ∈ done, c ≠ dotDot := by
    intro done hdone
    induction done with
    | nil => simp
    | cons d outer ih =>
      intro c hc
      rcases List.mem_cons.mp hc with rfl | hc
      · rintro rfl
        exact absurd (hdone.2.2.2.1 rfl).1 (by simp)
      · exact ih hdone.2.2.2.2 c hc
  exact fun c hc => hall _ hresolved c (List.mem_reverse.mpr hc)

lemma climbs_joinWith_dotDot (rest : List Text) : climbs (Text.joinWith [slash] (dotDot :: rest)) = true := by
  simp only [climbs, Text.hasPrefix, Bool.or_eq_true, decide_eq_true_eq, List.isPrefixOf_iff_prefix]
  by_cases hrest : rest = []
  · simp [hrest, Text.joinWith]
  · rw [Text.joinWith_cons [slash] dotDot hrest]
    exact .inr (List.prefix_append _ _)

/-- A way climbs if its first step does. -/
lemma climbs_iff : climbs p = true ↔ (Text.splitBy slash p).head? = some dotDot := by
  have hself : Text.splitBy slash dotDot = [dotDot] := by decide
  constructor
  · simp only [climbs, Text.hasPrefix, Bool.or_eq_true, decide_eq_true_eq, List.isPrefixOf_iff_prefix]
    rintro (rfl | ⟨rest, rfl⟩)
    · simp [hself]
    · rw [List.append_assoc, List.singleton_append, Text.splitBy_append_sep, hself]
      rfl
  · intro h
    rw [← Text.joinWith_splitBy slash p]
    cases hs : Text.splitBy slash p with
    | nil => simp [hs] at h
    | cons part rest =>
      obtain rfl : part = dotDot := by simpa [hs] using h
      exact climbs_joinWith_dotDot rest

/-- Plain names alone make no rooted path. -/
lemma isAbs_joinWith {parts : List Text} (h : ∀ c ∈ parts, Plain c) : isAbs (Text.joinWith [slash] parts) = false := by
  match parts with
  | [] => rfl
  | c :: rest =>
    have hc := h c (by simp)
    obtain ⟨b, more, rfl⟩ := List.exists_cons_of_ne_nil hc.ne_nil
    have hb : b ≠ slash := by
      rintro rfl
      exact hc.not_slash (by simp)
    by_cases hrest : rest = []
    · simp [hrest, Text.joinWith, isAbs, hb]
    · simp [Text.joinWith_cons [slash] _ hrest, isAbs, hb]

/-- In a directory, plain names all follow the same text. -/
lemma exists_join_eq_append (D : Path) :
    ∃ front : Text, (front = [] ∨ ∃ t, front = t ++ [slash]) ∧ ∀ c, Plain c → join D c = front ++ c := by
  by_cases hD : D = []
  · refine ⟨[], .inl rfl, fun c hc => ?_⟩
    subst hD
    have hcomponents : components c = [c] := by
      rw [components, Text.splitBy_of_not_mem hc.not_slash]
      simp [push_plain hc]
    have hrel : isAbs c = false := @isAbs_joinWith [c] (by simpa using hc)
    rw [join_nil hc.ne_nil, clean_eq_ofComponents, hcomponents, hrel]
    simp [ofComponents, Text.joinWith]
  · have hall {c : Text} (hc : Plain c) : join D c = ofComponents D.isAbs (D.components ++ [c]) := by
      rw [← components_join_plain hD hc, ← isAbs_join hD c, ← clean_eq_ofComponents, clean_join D hc.ne_nil]
    by_cases hroot : D.components = []
    · refine ⟨if D.isAbs then [slash] else [], ?_, fun c hc => ?_⟩
      · split
        · exact .inr ⟨[], rfl⟩
        · exact .inl rfl
      · rw [hall hc, hroot]
        split <;> simp_all [ofComponents, Text.joinWith]
    · refine ⟨ofComponents D.isAbs D.components ++ [slash], .inr ⟨_, rfl⟩, fun c hc => ?_⟩
      rw [hall hc]
      unfold ofComponents
      rw [Text.joinWith_append [slash] hroot (by simp)]
      split <;> simp [Text.joinWith, hroot]

lemma base_plain (hc : Plain c) : base c = c := by
  have hne : ∀ b ∈ c.reverse, b ≠ slash := by
    rintro b hb rfl
    exact hc.not_slash (List.mem_reverse.mp hb)
  have htrimmed : c.reverse.dropWhile (· = slash) = c.reverse := by
    cases hreverse : c.reverse with
    | nil => rfl
    | cons b rest => exact List.dropWhile_cons_of_neg (by simpa using hne b (by simp [hreverse]))
  have hname : c.reverse.takeWhile (· ≠ slash) = c.reverse :=
    List.takeWhile_eq_self_iff.mpr fun b hb => by simpa using hne b hb
  unfold base
  simp only [htrimmed, hname]
  simp [hc.ne_nil]

lemma base_join (hc : Plain c) : base (join D c) = c := by
  obtain ⟨front, hfront, hjoin⟩ := exists_join_eq_append D
  rw [hjoin c hc]
  rcases hfront with rfl | ⟨t, rfl⟩
  · exact base_plain hc
  · rw [List.append_assoc, List.singleton_append, base_append hc]

/-- Below a root every component is plain. -/
lemma plain_of_mem_components (habs : p.isAbs = true) : ∀ c ∈ p.components, Plain c := by
  intro c hc
  have hresolved := resolved_components p
  have hplain : ∀ done : List Text, Resolved p.isAbs done → ∀ c ∈ done, c ≠ [] ∧ c ≠ dot ∧ slash ∉ c := by
    intro done hdone
    induction done with
    | nil => simp
    | cons d outer ih =>
      intro c hc
      rcases List.mem_cons.mp hc with rfl | hc
      · exact ⟨hdone.1, hdone.2.1, hdone.2.2.1⟩
      · exact ih hdone.2.2.2.2 c hc
  obtain ⟨hne, hdot, hslash⟩ := hplain _ hresolved c (List.mem_reverse.mpr hc)
  exact ⟨hne, hdot, ne_dotDot_of_mem_components habs c hc, hslash⟩

/-- A way that does not climb leads down, through the same names wherever it starts. -/
lemma exists_parts_of_rel? (habs : p.isAbs = true) {r : Path} (hr : rel? D p = some r) (hclimbs : climbs r = false) :
    ∃ parts, p.components = D.components ++ parts ∧ D.isAbs = true ∧ r.isAbs = false ∧ r ≠ [] ∧
      ∀ E : Path, E ≠ [] → components (E ++ slash :: r) = E.components ++ parts := by
  unfold rel? at hr
  split at hr
  · next he =>
    obtain rfl := Option.some.inj hr
    have hcomponents := congrArg components he
    have hrooted := congrArg isAbs he
    rw [components_clean, components_clean] at hcomponents
    rw [isAbs_clean, isAbs_clean, habs] at hrooted
    have hsplit : Text.splitBy slash dot = [dot] := by decide
    refine ⟨[], by rw [hcomponents, List.append_nil], hrooted, by decide, by decide, fun E hE => ?_⟩
    rw [components_append hE, hsplit]
    simp [push]
  split at hr
  · cases hr
  next hne hsame =>
  have hDabs : D.isAbs = true := by simpa [habs] using hsame
  split at hr
  · next ts hs =>
    obtain rfl := Option.some.inj hr
    obtain ⟨shared, hD', hp'⟩ := stripShared_eq hs
    rw [List.append_nil] at hD'
    subst hD'
    have hplain : ∀ c ∈ ts, Plain c := fun c hc =>
      plain_of_mem_components habs c (hp' ▸ List.mem_append_right _ hc)
    have hts : ts ≠ [] := by
      rintro rfl
      refine hne ?_
      rw [clean_eq_ofComponents, clean_eq_ofComponents, hp', hDabs, habs, List.append_nil]
    have hsplit : Text.splitBy slash (Text.joinWith [slash] ts) = ts :=
      Text.splitBy_joinWith hts fun c hc => (hplain c hc).not_slash
    have hjoin : Text.joinWith [slash] ts ≠ [] := by
      intro hnil
      rw [hnil] at hsplit
      exact (hplain [] (hsplit ▸ List.mem_singleton_self _)).ne_nil rfl
    refine ⟨ts, hp', hDabs, isAbs_joinWith hplain, hjoin, fun E hE => ?_⟩
    rw [components_append hE, hsplit, foldl_push_plain hplain]
    simp
  · next b bs ts hs =>
    split at hr
    · cases hr
    · obtain rfl := Option.some.inj hr
      rw [List.map_cons, List.cons_append, climbs_joinWith_dotDot] at hclimbs
      cases hclimbs

/-- A way that does not climb leads from the directory it starts in to its target. -/
lemma clean_of_rel? (hD : D ≠ []) (habs : p.isAbs = true) {r : Path} (hr : rel? D p = some r)
    (hclimbs : climbs r = false) : r.isAbs = false ∧ clean (D ++ slash :: r) = p.clean := by
  obtain ⟨parts, hp, hDabs, hrel, -, hdown⟩ := exists_parts_of_rel? habs hr hclimbs
  refine ⟨hrel, ?_⟩
  rw [clean_eq_ofComponents, clean_eq_ofComponents, isAbs_append hD, hdown D hD, hp, hDabs, habs]

/-- A path that ends in a plain name is that name in a directory. -/
lemma exists_eq_join_of_components {above : List Text} (hclean : p.clean = p) (hcomponents : p.components = above ++ [c])
    (hc : Plain c) : ∃ D : Path, D.clean = D ∧ D.isAbs = p.isAbs ∧ D.components = above ∧ p = join D c := by
  have hresolved : Resolved p.isAbs above.reverse := by
    have h := resolved_components p
    rw [hcomponents, List.reverse_append, List.reverse_singleton, List.singleton_append] at h
    exact h.2.2.2.2
  have hD : components (ofComponents p.isAbs above) = above := by
    simpa using components_ofComponents hresolved
  have habsD : isAbs (ofComponents p.isAbs above) = p.isAbs := by
    simpa using isAbs_ofComponents hresolved
  have hcleanD : clean (ofComponents p.isAbs above) = ofComponents p.isAbs above := by
    rw [clean_eq_ofComponents, hD, habsD]
  have hne : ofComponents p.isAbs above ≠ [] := hcleanD ▸ clean_ne_nil _
  refine ⟨ofComponents p.isAbs above, hcleanD, habsD, hD, eq_of_components hclean (clean_join _ hc.ne_nil) ?_ ?_⟩
  · rw [isAbs_join hne, habsD]
  · rw [components_join_plain hne hc, hD, hcomponents]

/-- A rooted path but the root is a plain name in a directory. -/
lemma exists_eq_join (hclean : p.clean = p) (habs : p.isAbs = true) (hne : p.components ≠ []) :
    ∃ D c : Path, D.clean = D ∧ D.isAbs = true ∧ Plain c ∧ p = join D c := by
  obtain ⟨above, c, hcomponents⟩ : ∃ above c, p.components = above ++ [c] :=
    ⟨_, _, (List.dropLast_append_getLast hne).symm⟩
  have hc : Plain c := plain_of_mem_components habs c (by simp [hcomponents])
  obtain ⟨D, hD, habsD, -, hp⟩ := exists_eq_join_of_components hclean hcomponents hc
  exact ⟨D, c, hD, habsD.trans habs, hc, hp⟩

end DeclPieces.Path

namespace DeclPieces.Project
open Path

/-- A key leads back to the file it was made for, whatever the root. -/
theorem ofKey_key (root : Path) {path : Path} (habs : path.isAbs = true) (hclean : path.clean = path)
    (hslashes : 92 ∉ path) : ofKey root (key root path) = path := by
  have hself : ofKey root path = path := by simp [ofKey, habs]
  unfold key
  by_cases hroot : root.isEmpty = true
  · simp [hroot, hself]
  have hne : root ≠ [] := by simpa using hroot
  simp only [hroot, Bool.false_eq_true, if_false]
  cases hr : rel? root path with
  | none => exact hself
  | some r =>
    simp only
    split
    · exact hself
    · next hclimbs =>
      have hnormal := normalize_rel? hr hslashes
      have hjoin : joinRoot root r = clean (root ++ slash :: r) := by
        simp [joinRoot, hnormal, joinAll, List.dropWhile, hroot, Text.joinWith_cons [slash] root (Text.splitBy_ne_nil slash r)]
      obtain ⟨hrel, hr⟩ := clean_of_rel? hne habs hr (by simpa using hclimbs)
      rw [hnormal, ofKey]
      simp only [hrel, hroot, Bool.or_false, Bool.false_eq_true, if_false]
      rw [hjoin, hr, hclean]

end DeclPieces.Project
