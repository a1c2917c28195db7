import DeclPieces.Proofs.Enclosure
import DeclPieces.Proofs.ModuleReference

/-! The stem of a file name: what is left without the ending of a declaration file. A module reference leads from a
directory to the stem of its target, wherever in the reference climbs or dots may stand. -/
namespace DeclPieces.Address
open Path
variable {source target : Path} {name stem stem' c : Text}

/-- Is `stem` the name without its ending? Of the endings that leave something of the name the longest counts. -/
inductive StemOf (stem name : Text) : Prop where
  | cut {e : Text} (mem : e ∈ suffixes) (eq : name = stem ++ e) (ne_nil : stem ≠ [])
      (longest : ∀ e' ∈ suffixes, e' <:+ name → e' ≠ name → e'.length ≤ e.length)
  | whole (eq : stem = name) (none : ∀ e ∈ suffixes, e <:+ name → e = name)

/-- An ending that is not the whole name is shorter than the name. -/
lemma removable_iff {e : Text} : (name.hasSuffix e && decide (e.length < name.length)) = true ↔ e <:+ name ∧ e ≠ name := by
  rw [Bool.and_eq_true, decide_eq_true_eq, Text.hasSuffix, List.isSuffixOf_iff_suffix]
  refine and_congr_right fun h => ⟨?_, fun hne => lt_of_le_of_ne h.length_le fun hl => hne (h.eq_of_length hl)⟩
  rintro hlt rfl
  exact lt_irrefl _ hlt

lemma suffixes_pairwise : suffixes.Pairwise fun e e' => e'.length ≤ e.length := by decide

lemma stemOf_trimSuffix (name : Text) : StemOf (trimSuffix name) name := by
  unfold trimSuffix
  cases hfind : suffixes.find? fun e => name.hasSuffix e && decide (e.length < name.length) with
  | none =>
    refine .whole rfl fun e he hsuffix => ?_
    by_contra hne
    exact List.find?_eq_none.mp hfind e he (removable_iff.mpr ⟨hsuffix, hne⟩)
  | some e =>
    obtain ⟨hremovable, before, after, hall, hbefore⟩ := List.find?_eq_some_iff_append.mp hfind
    obtain ⟨⟨front, rfl⟩, hne⟩ := removable_iff.mp hremovable
    have hfront : front ≠ [] := fun h => hne (by simp [h])
    simp only [Text.dropSuffix_append]
    refine .cut (hall ▸ by simp) rfl hfront fun e' he' hsuffix hne' => ?_
    -- the endings stand in the order of their lengths, and none before this one can be removed
    have hpairwise := hall ▸ suffixes_pairwise
    rw [hall] at he'
    rcases List.mem_append.mp he' with hmem | hmem
    · have hnot := hbefore e' hmem
      rw [removable_iff.mpr ⟨hsuffix, hne'⟩] at hnot
      exact absurd hnot (by decide)
    · rcases List.mem_cons.mp hmem with rfl | hmem
      · exact le_rfl
      · exact List.rel_of_pairwise_cons (List.pairwise_append.mp hpairwise).2.1 hmem

lemma StemOf.unique (h : StemOf stem name) (h' : StemOf stem' name) : stem = stem' := by
  have hne {e t : Text} (ht : t ≠ []) : e ≠ t ++ e := fun he => ht (List.self_eq_append_left.mp he)
  cases h with
  | cut mem eq ne_nil longest =>
    cases h' with
    | cut mem' eq' ne_nil' longest' =>
      have hlength := Nat.le_antisymm
        (longest' _ mem ⟨stem, eq.symm⟩ (eq ▸ hne ne_nil)) (longest _ mem' ⟨stem', eq'.symm⟩ (eq' ▸ hne ne_nil'))
      exact (List.append_inj' (eq.symm.trans eq') hlength).1
    | whole _ none => exact absurd (none _ mem ⟨stem, eq.symm⟩) (eq ▸ hne ne_nil)
  | whole eq none =>
    cases h' with
    | cut mem' eq' ne_nil' _ => exact absurd (none _ mem' ⟨stem', eq'.symm⟩) (eq' ▸ hne ne_nil')
    | whole eq' _ => exact eq.trans eq'.symm

lemma StemOf.eq_trimSuffix (h : StemOf stem name) : stem = trimSuffix name := h.unique (stemOf_trimSuffix name)

/-- The ending of a path is that of its last name, unless the name is nothing else. -/
lemma StemOf.append_slash (front : Text) (h : StemOf stem c) (hc : c ∉ suffixes) :
    StemOf (front ++ slash :: stem) (front ++ slash :: c) := by
  have hlast : ∀ e ∈ suffixes, e <:+ front ++ slash :: c → e <:+ c := by
    rintro e he ⟨before, hbefore⟩
    obtain ⟨y, hy, -⟩ := exists_of_append_eq (suffixes_spec e he).1 hbefore.symm
    exact ⟨y, hy.symm⟩
  cases h with
  | cut mem eq ne_nil longest =>
    refine .cut mem (by simp [eq]) (by simp) fun e he hsuffix _ => longest e he (hlast e he hsuffix) ?_
    rintro rfl
    exact hc he
  | whole eq none =>
    refine .whole (by rw [eq]) fun e he hsuffix => absurd he ?_
    rw [none e he (hlast e he hsuffix)]
    exact hc

lemma StemOf.exists_eq_append (h : StemOf stem name) : ∃ e, name = stem ++ e := by
  cases h with
  | cut mem eq ne_nil longest => exact ⟨_, eq⟩
  | whole eq none => exact ⟨[], by rw [eq, List.append_nil]⟩

lemma StemOf.plain (h : StemOf stem name) (hname : name ≠ []) (hslash : slash ∉ name) (hdot : stem ≠ dot)
    (hdotDot : stem ≠ dotDot) : Plain stem := by
  cases h with
  | cut mem eq ne_nil longest => exact ⟨ne_nil, hdot, hdotDot, fun hmem => hslash (eq ▸ List.mem_append_left _ hmem)⟩
  | whole eq none => exact ⟨eq ▸ hname, hdot, hdotDot, eq ▸ hslash⟩

/-- How a way starts does not depend on its last name. -/
lemma Stepwise.hasPrefix {front : Text} (h : Stepwise (front ++ slash :: c)) (hc : slash ∉ c) (stem : Text) :
    Text.hasPrefix (front ++ slash :: stem) "./" = true ∨ Text.hasPrefix (front ++ slash :: stem) "../" = true := by
  have hhere : Text.ofString "./" = dot ++ [slash] := by decide
  have hup : Text.ofString "../" = dotDot ++ [slash] := by decide
  simp only [Text.hasPrefix, List.isPrefixOf_iff_prefix, hhere, hup]
  rcases h with hclimb | ⟨step, more, hstep, heq⟩
  · have hmem : slash ∈ front ++ slash :: c := by simp
    rw [hclimb] at hmem
    exact absurd hmem (by decide)
  · have hfront : step ++ slash :: more = (front ++ [slash]) ++ c := by simp [← heq]
    obtain ⟨y, -, hy⟩ := exists_of_append_eq hc hfront
    have hpre : step ++ [slash] <+: front ++ slash :: stem := by
      refine ⟨y ++ stem, ?_⟩
      calc step ++ [slash] ++ (y ++ stem) = (step ++ slash :: y) ++ stem := by simp
        _ = front ++ slash :: stem := by rw [← hy]; simp
    rcases hstep with rfl | rfl
    · exact .inl hpre
    · exact .inr hpre

/-- Of several parts the last one stands behind the last slash. -/
lemma exists_front_of_splitBy {r : Path} {steps : List Text} (hsteps : steps ≠ []) (h : Text.splitBy slash r = steps ++ [c]) :
    ∃ front, r = front ++ slash :: c ∧ Text.splitBy slash front = steps := by
  have hr : r = Text.joinWith [slash] steps ++ slash :: c := by
    rw [← Text.joinWith_splitBy slash r, h, Text.joinWith_append [slash] hsteps (by simp)]
    simp [Text.joinWith]
  refine ⟨_, hr, Text.splitBy_joinWith hsteps fun part hpart => ?_⟩
  exact Text.not_mem_of_mem_splitBy (h ▸ List.mem_append_left _ hpart)

/-- A way to a plain name has parts before the name, and none of them is empty. -/
lemma exists_steps {names below : List Text} {r : Path} (hstep : Stepwise r) (hc : Plain c) (hnames : ∀ d ∈ names, Plain d)
    (hsplit : Text.splitBy slash r = wayParts below (names ++ [c]) ∨
      Text.splitBy slash r = dot :: wayParts below (names ++ [c])) :
    ∃ steps, steps ≠ [] ∧ [] ∉ steps ∧ Text.splitBy slash r = steps ++ [c] := by
  have hparts : wayParts below (names ++ [c]) = wayParts below names ++ [c] := by simp [wayParts]
  have hfull : [] ∉ wayParts below names := by
    intro hmem
    rcases List.mem_append.mp hmem with hmem | hmem
    · obtain ⟨_, -, he⟩ := List.mem_map.mp hmem
      exact absurd he (by decide)
    · exact (hnames [] hmem).ne_nil rfl
  rw [hparts] at hsplit
  rcases hsplit with hsplit | hsplit
  · refine ⟨_, fun hnone => ?_, hfull, hsplit⟩
    -- the name alone is no step
    rw [hnone, List.nil_append] at hsplit
    obtain rfl : r = c := by rw [← Text.joinWith_splitBy slash r, hsplit]; rfl
    rcases hstep with rfl | ⟨step, more, -, rfl⟩
    · exact hc.ne_dotDot rfl
    · exact hc.not_slash (by simp)
  · refine ⟨dot :: wayParts below names, by simp, ?_, hsplit⟩
    rw [List.mem_cons, not_or]
    exact ⟨by decide, hfull⟩

/-- From a directory there is a reference to every path that is not the directory and not above it. It starts with a
step, has no empty part, and leads to what is left of the path without the ending of its last name. -/
theorem moduleReference_leads_to_stem (hs : source.isAbs = true) (hsource : source.clean = source)
    (ht : target.isAbs = true) (hclean : target.clean = target) (hslashes : 92 ∉ target) (hne : target ≠ source)
    (habove : ¬ target.Encloses source) (hending : base target ∉ suffixes) (hstem : StemOf stem (base target))
    (hdot : stem ≠ dot) (hdotDot : stem ≠ dotDot) :
    ∃ m, moduleReference source target = .ok m ∧ (m.hasPrefix "./" = true ∨ m.hasPrefix "../" = true) ∧
      [] ∉ Text.splitBy slash m ∧ ∃ e, base target = stem ++ e ∧ target = join source m ++ e := by
  obtain ⟨m, hm⟩ := (moduleReference_isOk_iff hs ht).mpr (by rw [hsource, hclean]; exact hne.symm)
  obtain ⟨habs, shared, below, rest, r, hbelow, hrest, hdown, hstep, rfl, hsplit⟩ :=
    moduleReference_eq_ok (.inl ht) hslashes hm
  have hway := foldl_push_of_splitBy habs hbelow hrest hdown hsplit
  -- the target ends in a name that is not shared
  have hnot : rest ≠ [] := by
    rintro rfl
    rw [List.append_nil] at hrest
    refine habove ⟨habs.symm, ⟨below, by rw [hrest, hbelow]⟩, fun he => hne ?_⟩
    exact eq_of_components hclean hsource habs.symm he
  obtain ⟨names, c, rfl⟩ : ∃ names c, rest = names ++ [c] := ⟨_, _, (List.dropLast_append_getLast hnot).symm⟩
  have hplain : ∀ d ∈ names ++ [c], Plain d := fun d hd =>
    plain_of_mem_components ht d (hrest ▸ List.mem_append_right _ hd)
  have hc : Plain c := hplain c (by simp)
  obtain ⟨D, hD, hDabs, hDcomponents, rfl⟩ := exists_eq_join_of_components hclean
    (by rw [hrest, List.append_assoc]) hc
  have hDne : D ≠ [] := hD ▸ clean_ne_nil D
  rw [base_join hc] at hending hstem ⊢
  -- the reference is the way with the stem in place of the name
  obtain ⟨steps, hsteps, hfull, hparts⟩ := exists_steps hstep hc (fun d hd => hplain d (List.mem_append_left _ hd)) hsplit
  obtain ⟨front, rfl, hfront⟩ := exists_front_of_splitBy hsteps hparts
  have hstemPlain := hstem.plain hc.ne_nil hc.not_slash hdot hdotDot
  rw [← (hstem.append_slash front hending).eq_trimSuffix] at hm
  have hleads := join_replace_last (ne_nil_of_isAbs hs) (habs.trans hDabs.symm) hDne hc hstemPlain hway
  refine ⟨_, hm, hstep.hasPrefix hc.not_slash stem, ?_, ?_⟩
  · rw [Text.splitBy_append_sep, hfront, Text.splitBy_of_not_mem hstemPlain.not_slash, List.mem_append, not_or]
    exact ⟨hfull, by simpa using hstemPlain.ne_nil.symm⟩
  · obtain ⟨e, rfl⟩ := hstem.exists_eq_append
    obtain ⟨before, -, hjoin⟩ := exists_join_eq_append D
    exact ⟨e, rfl, by rw [hleads, hjoin _ hc, hjoin _ hstemPlain, List.append_assoc]⟩

/-- The names on the way start with dots, and the last one has an ending within another. -/
def dottedTarget : Path := "/w/..a/..b.ts.d.ts"

theorem dotted_target_reached :
    StemOf "..b.ts" (base dottedTarget) ∧ base dottedTarget ∉ suffixes ∧ ¬ dottedTarget.Encloses "/w/..x/y" ∧
      ∃ m, moduleReference "/w/..x/y" dottedTarget = .ok m ∧ (m.hasPrefix "./" = true ∨ m.hasPrefix "../" = true) ∧
        [] ∉ Text.splitBy slash m ∧ dottedTarget = join "/w/..x/y" m ++ ".d.ts" := by
  have hstem : StemOf "..b.ts" (base dottedTarget) := by
    have htrim : trimSuffix (base dottedTarget) = "..b.ts" := by decide +kernel
    exact htrim ▸ stemOf_trimSuffix _
  have hending : base dottedTarget ∉ suffixes := by decide +kernel
  have habove : ¬ dottedTarget.Encloses "/w/..x/y" := by decide +kernel
  obtain ⟨m, hm, hstep, hfull, hleads⟩ := moduleReference_leads_to_stem (by decide) (by decide) (by decide) (by decide)
    (by decide) (by decide) habove hending hstem (by decide) (by decide)
  obtain ⟨e, hname, hpath⟩ := hleads
  have he : base dottedTarget = "..b.ts" ++ (".d.ts" : Text) := by decide +kernel
  obtain rfl := List.append_cancel_left (hname.symm.trans he)
  exact ⟨hstem, hending, habove, m, hm, hstep, hfull, hpath⟩

end DeclPieces.Address
