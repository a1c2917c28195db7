import DeclPieces.Proofs.IndexSpecifier
import Mathlib.Data.List.Induction

/-! Module references: between rooted paths there is one from every directory to every other path, and a module
reference leads to its target, but for the ending of a declaration file that it leaves out. -/
namespace DeclPieces

namespace Path
variable {p q : Path} {shared below rest : List Text}

lemma Resolved.of_append {rooted : Bool} {inner outer : List Text} (h : Resolved rooted (inner ++ outer)) :
    Resolved rooted outer := by
  induction inner with
  | nil => exact h
  | cons part inner ih => exact ih h.2.2.2.2

/-- What a climb stands behind are climbs, and not from a root. -/
lemma all_dotDot_of_components {front back : List Text} (h : p.components = front ++ dotDot :: back) :
    p.isAbs = false ∧ ∀ c ∈ front, c = dotDot := by
  have hresolved := resolved_components p
  rw [h, List.reverse_append, List.reverse_cons, List.append_assoc] at hresolved
  obtain ⟨-, -, -, hclimbs, -⟩ := hresolved.of_append
  obtain ⟨hrel, hall⟩ := hclimbs rfl
  exact ⟨hrel, fun c hc => hall c (List.mem_reverse.mpr hc)⟩

/-- Up out of all that is below, then down the rest. -/
def wayParts (below rest : List Text) : List Text := below.map (fun _ => dotDot) ++ rest

lemma slash_not_mem_wayParts (hrest : ∀ c ∈ rest, slash ∉ c) : ∀ c ∈ wayParts below rest, slash ∉ c := by
  intro c hc
  rcases List.mem_append.mp hc with hc | hc
  · obtain ⟨_, -, rfl⟩ := List.mem_map.mp hc
    decide
  · exact hrest c hc

lemma splitBy_way (hne : below ++ rest ≠ []) (hrest : ∀ c ∈ rest, slash ∉ c) :
    Text.splitBy slash (Text.joinWith [slash] (wayParts below rest)) = wayParts below rest := by
  refine Text.splitBy_joinWith (fun hnil => hne ?_) (slash_not_mem_wayParts hrest)
  obtain ⟨hbelow, rfl⟩ := List.append_eq_nil_iff.mp hnil
  rw [List.map_eq_nil_iff.mp hbelow, List.append_nil]

/-- Each step up undoes one step of the way down. -/
lemma foldl_push_wayParts {rooted : Bool} (hbelow : ∀ c ∈ below, c ≠ dotDot)
    (hrest : Resolved rooted (shared ++ rest).reverse) :
    (wayParts below rest).foldl (push rooted) (shared ++ below).reverse = (shared ++ rest).reverse := by
  induction below using List.reverseRecOn with
  | nil =>
    have hshared : Resolved rooted shared.reverse := by
      rw [List.reverse_append] at hrest
      exact hrest.of_append
    have hall := hrest.foldl_push_self
    have hfirst := hshared.foldl_push_self
    rw [List.reverse_reverse] at hall hfirst
    rw [List.foldl_append, hfirst] at hall
    simpa [wayParts] using hall
  | append_singleton above c ih =>
    have hc : c ≠ dotDot := hbelow c (by simp)
    have hup : push rooted (c :: (shared ++ above).reverse) dotDot = (shared ++ above).reverse := by
      simp [push, hc]
    have hparts : wayParts (above ++ [c]) rest = dotDot :: wayParts above rest := by
      simp [wayParts, ← List.replicate_succ', List.replicate_succ, List.map_const']
    have hdown : (shared ++ (above ++ [c])).reverse = c :: (shared ++ above).reverse := by simp
    rw [hparts, hdown, List.foldl_cons, hup]
    exact ih fun d hd => hbelow d (by simp [hd])

/-- Is it more than climbs that the path is told by? -/
def Named (p : Path) : Prop := p.isAbs = true ∨ ∃ c ∈ p.components, c ≠ dotDot

/-- Where the way to a named path turns down, nothing above it is a climb. -/
lemma Named.ne_dotDot_of_below (h : q.Named) (habs : p.isAbs = q.isAbs) (hp : p.components = shared ++ below)
    (hq : q.components = shared ++ rest) (hhead : below.head? = some dotDot → rest = []) : ∀ c ∈ below, c ≠ dotDot := by
  rintro c hc rfl
  obtain ⟨front, back, rfl⟩ := List.append_of_mem hc
  rw [← List.append_assoc] at hp
  obtain ⟨hrel, hall⟩ := all_dotDot_of_components hp
  have hfirst : (front ++ dotDot :: back).head? = some dotDot := by
    cases front with
    | nil => rfl
    | cons c front => rw [hall c (by simp)]; rfl
  rw [hhead hfirst, List.append_nil] at hq
  rcases h with hroot | ⟨d, hd, hne⟩
  · rw [← habs, hrel] at hroot
    cases hroot
  · rw [hq] at hd
    exact hne (hall d (List.mem_append_left _ hd))

/-- The way to a named path goes up to what the two share, then down. -/
lemma way_of_rel? {r : Path} (h : rel? p q = some r) (hne : p.clean ≠ q.clean) (hq : q.Named) :
    p.isAbs = q.isAbs ∧ ∃ shared below rest, p.components = shared ++ below ∧ q.components = shared ++ rest ∧
      below ++ rest ≠ [] ∧ (∀ c ∈ below, c ≠ dotDot) ∧ r = Text.joinWith [slash] (wayParts below rest) := by
  unfold rel? at h
  rw [if_neg hne] at h
  by_cases habs : p.isAbs = q.isAbs
  swap
  · rw [if_pos habs] at h
    cases h
  obtain ⟨⟨below, rest⟩, hstrip⟩ : ∃ r, stripShared p.components q.components = r := ⟨_, rfl⟩
  obtain ⟨shared, hbelow, hrest⟩ := stripShared_eq hstrip
  simp only [habs, if_false, hstrip, ne_eq, not_true] at h
  refine ⟨habs, shared, below, rest, hbelow, hrest, ?_, ?_, ?_⟩
  · intro hnil
    obtain ⟨rfl, rfl⟩ := List.append_eq_nil_iff.mp hnil
    refine hne ?_
    rw [clean_eq_ofComponents, clean_eq_ofComponents, habs, hbelow, hrest]
  · refine hq.ne_dotDot_of_below habs hbelow hrest fun hhead => ?_
    cases below with
    | nil => cases hhead
    | cons b bs =>
      obtain rfl := Option.some.inj hhead
      by_contra hrest
      simp [hrest] at h
  · cases below with
    | nil => exact (Option.some.inj h).symm
    | cons b bs =>
      simp only at h
      split at h
      · cases h
      · exact (Option.some.inj h).symm

/-- Between two rooted places there is a way. -/
lemma exists_rel? (hp : p.isAbs = true) (hq : q.isAbs = true) : ∃ r, rel? p q = some r := by
  unfold rel?
  simp only [hp, hq, if_false, ne_eq, not_true]
  split
  · exact ⟨_, rfl⟩
  · split
    · exact ⟨_, rfl⟩
    · next b bs ts hs =>
      obtain ⟨shared, hbelow, -⟩ := stripShared_eq hs
      have hb : b ≠ dotDot := ne_dotDot_of_mem_components hp b (by simp [hbelow])
      simp [hb]

lemma normalize_eq_dot : normalize p = dot ↔ p = dot := by
  constructor
  · intro h
    obtain ⟨b, rfl, hb⟩ := List.map_eq_singleton_iff.mp h
    split at hb
    · exact absurd hb (by decide)
    · rw [hb]
  · rintro rfl
    decide

/-- A component of a path is not empty, and is neither a dot nor a path. -/
lemma resolved_of_mem_components {c : Text} (h : c ∈ p.components) : c ≠ dot ∧ slash ∉ c := by
  have hall : ∀ done : List Text, Resolved p.isAbs done → ∀ c ∈ done, c ≠ dot ∧ slash ∉ c := by
    intro done hdone
    induction done with
    | nil => simp
    | cons d outer ih =>
      intro c hc
      rcases List.mem_cons.mp hc with rfl | hc
      · exact ⟨hdone.2.1, hdone.2.2.1⟩
      · exact ih hdone.2.2.2.2 c hc
  exact hall _ (resolved_components p) c (List.mem_reverse.mpr h)

lemma joinWith_wayParts_ne_dot (hne : below ++ rest ≠ []) (hrest : ∀ c ∈ rest, c ≠ dot ∧ slash ∉ c) :
    Text.joinWith [slash] (wayParts below rest) ≠ dot := by
  intro he
  have hsplit := splitBy_way hne fun c hc => (hrest c hc).2
  have hself : Text.splitBy slash dot = [dot] := by decide
  rw [he, hself] at hsplit
  have hmem : dot ∈ wayParts below rest := by simp [← hsplit]
  rcases List.mem_append.mp hmem with hmem | hmem
  · obtain ⟨_, -, h⟩ := List.mem_map.mp hmem
    exact absurd h (by decide)
  · exact (hrest dot hmem).1 rfl

end Path

namespace Address
open Path
variable {source target : Path} {m : Text}

lemma clean_ne_of_moduleReference (h : moduleReference source target = .ok m) : source.clean ≠ target.clean := by
  intro he
  have hself : normalize dot = dot := by decide
  simp [moduleReference, rel?, he, hself] at h

/-- Only the directory itself has no module reference. -/
theorem moduleReference_isOk_iff (hs : source.isAbs = true) (ht : target.isAbs = true) :
    (∃ m, moduleReference source target = .ok m) ↔ source.clean ≠ target.clean := by
  constructor
  · rintro ⟨m, hm⟩
    exact clean_ne_of_moduleReference hm
  · intro hne
    obtain ⟨r, hr⟩ := exists_rel? hs ht
    obtain ⟨-, shared, below, rest, -, hrest, hsteps, -, rfl⟩ := way_of_rel? hr hne (.inl ht)
    have hparts : ∀ c ∈ rest, c ≠ dot ∧ slash ∉ c := fun c hc =>
      resolved_of_mem_components (hrest ▸ List.mem_append_right _ hc)
    have hdot := mt normalize_eq_dot.mp (joinWith_wayParts_ne_dot hsteps hparts)
    unfold moduleReference
    rw [hr]
    simp only [hdot, if_false]
    split <;> exact ⟨_, rfl⟩

/-- What is removed is one of the endings, and not all of the name. -/
lemma trimSuffix_cases (name : Text) :
    trimSuffix name = name ∨ ∃ e ∈ suffixes, name = trimSuffix name ++ e ∧ trimSuffix name ≠ [] := by
  unfold trimSuffix
  split
  · next e he =>
    have hfound := List.find?_some he
    simp only [Bool.and_eq_true, decide_eq_true_eq, Text.hasSuffix, List.isSuffixOf_iff_suffix] at hfound
    obtain ⟨⟨front, rfl⟩, hlength⟩ := hfound
    rw [Text.dropSuffix_append]
    refine .inr ⟨e, List.mem_of_find?_eq_some he, rfl, ?_⟩
    rintro rfl
    simp at hlength
  · exact .inl rfl

lemma suffixes_spec : ∀ e ∈ suffixes, slash ∉ e ∧ 3 ≤ e.length := by decide

/-- An ending without a slash leaves everything up to the last slash. -/
lemma exists_of_append_eq {front more e : Text} (he : slash ∉ e) (h : front ++ slash :: more = m ++ e) :
    ∃ y, more = y ++ e ∧ m = front ++ slash :: y := by
  rcases List.append_eq_append_iff.mp h with ⟨between, hm, hmore⟩ | ⟨between, -, hend⟩
  · cases between with
    | nil => exact absurd (by rw [← List.nil_append e, ← hmore]; simp) he
    | cons b y =>
      obtain ⟨rfl, rfl⟩ := List.cons.inj hmore
      exact ⟨y, rfl, hm⟩
  · exact absurd (by simp [hend]) he

/-- Does a path start with a step: into the directory itself, or up? -/
def Stepwise (r : Path) : Prop := r = dotDot ∨ ∃ step more, (step = dot ∨ step = dotDot) ∧ r = step ++ slash :: more

lemma Stepwise.isRelative {r : Path} (h : Stepwise r) : isRelativeSpecifier r = true := by
  have hhere : Text.ofString "./" = dot ++ [slash] := by decide
  have hup : Text.ofString "../" = dotDot ++ [slash] := by decide
  rcases h with rfl | ⟨step, more, rfl | rfl, rfl⟩
  · decide
  · simp [isRelativeSpecifier, hhere, Text.hasPrefix]
  · simp [isRelativeSpecifier, hup, Text.hasPrefix]

lemma Stepwise.slash_mem {r : Path} (h : Stepwise r) (hlength : 3 ≤ r.length) : slash ∈ r := by
  rcases h with rfl | ⟨step, more, -, rfl⟩
  · simp at hlength
  · simp

lemma Stepwise.of_append {r e : Path} (h : Stepwise r) (he : slash ∉ e) (hlength : 3 ≤ e.length) (hr : r = m ++ e) :
    Stepwise m := by
  rcases h with rfl | ⟨step, more, hstep, rfl⟩
  · have hlengths := congrArg List.length hr
    simp only [List.length_append, List.length_cons, List.length_nil] at hlengths
    omega
  · obtain ⟨y, -, rfl⟩ := exists_of_append_eq he hr
    exact .inr ⟨step, y, hstep, rfl⟩

/-- A module reference is a way to the target, if need be with a step in front, that has lost an ending. -/
lemma moduleReference_eq_ok (ht : target.Named) (hslashes : 92 ∉ target) (h : moduleReference source target = .ok m) :
    source.isAbs = target.isAbs ∧ ∃ shared below rest r, source.components = shared ++ below ∧
      target.components = shared ++ rest ∧ (∀ c ∈ below, c ≠ dotDot) ∧ Stepwise r ∧ m = trimSuffix r ∧
      (Text.splitBy slash r = wayParts below rest ∨ Text.splitBy slash r = dot :: wayParts below rest) := by
  have hne := clean_ne_of_moduleReference h
  unfold moduleReference at h
  cases hrel : rel? source target with
  | none =>
    rw [hrel] at h
    cases h
  | some way =>
  obtain ⟨habs, shared, below, rest, hbelow, hrest, hsteps, hdown, rfl⟩ := way_of_rel? hrel hne ht
  have hparts : ∀ c ∈ rest, c ≠ dot ∧ slash ∉ c := fun c hc =>
    resolved_of_mem_components (hrest ▸ List.mem_append_right _ hc)
  have hnormal := normalize_rel? hrel hslashes
  have hsplit := splitBy_way hsteps fun c hc => (hparts c hc).2
  have hhere : Text.ofString "./" = dot ++ [slash] := by decide
  rw [hrel] at h
  simp only [hnormal, joinWith_wayParts_ne_dot hsteps hparts, if_false, hhere] at h
  refine ⟨habs, shared, below, rest, ?_⟩
  generalize Text.joinWith [slash] (wayParts below rest) = r at h hsplit
  split at h
  · next hstep =>
    refine ⟨r, hbelow, hrest, hdown, ?_, (Except.ok.inj h).symm, .inl hsplit⟩
    simp only [climbs, Text.hasPrefix, Bool.or_eq_true, decide_eq_true_eq, List.isPrefixOf_iff_prefix] at hstep
    rcases hstep with (rfl | ⟨more, rfl⟩) | ⟨more, rfl⟩
    · exact .inl rfl
    · exact .inr ⟨dotDot, more, .inr rfl, by simp⟩
    · exact .inr ⟨dot, more, .inl rfl, by simp⟩
  · have hall : dot ++ [slash] ++ r = dot ++ slash :: r := by simp
    refine ⟨dot ++ slash :: r, hbelow, hrest, hdown, .inr ⟨dot, r, .inl rfl, rfl⟩, ?_, .inr ?_⟩
    · rw [← hall]
      exact (Except.ok.inj h).symm
    · rw [Text.splitBy_append_sep, hsplit]
      rfl

lemma plain_of_ending {name : Text} (h : ∀ e ∈ suffixes, name.hasSuffix e = true → Plain (name.dropSuffix e)) :
    ∀ y, ∀ e ∈ suffixes, name = y ++ e → Plain y := by
  rintro y e he rfl
  have hplain := h e he
  rw [Text.dropSuffix_append] at hplain
  exact hplain (List.isSuffixOf_iff_suffix.mpr (List.suffix_append y e))

/-- A way that is written with a step in front leads to the same place. -/
lemma foldl_push_of_splitBy {shared below rest : List Text} {r : Path} (habs : source.isAbs = target.isAbs)
    (hbelow : source.components = shared ++ below) (hrest : target.components = shared ++ rest)
    (hdown : ∀ c ∈ below, c ≠ dotDot)
    (hsplit : Text.splitBy slash r = wayParts below rest ∨ Text.splitBy slash r = dot :: wayParts below rest) :
    (Text.splitBy slash r).foldl (push source.isAbs) source.components.reverse = target.components.reverse := by
  have hresolved : Resolved source.isAbs (shared ++ rest).reverse := by
    rw [habs, ← hrest]
    exact resolved_components target
  rw [hbelow, hrest]
  rcases hsplit with hsplit | hsplit <;> rw [hsplit]
  · exact foldl_push_wayParts hdown hresolved
  · exact foldl_push_wayParts hdown hresolved

/-- A way to a name in a directory leads to another name there if it ends in that one. -/
lemma join_replace_last {D front : Path} {c stem : Text} (hs : source ≠ []) (habs : source.isAbs = D.isAbs)
    (hD : D ≠ []) (hc : Plain c) (hstem : Plain stem)
    (hway : (Text.splitBy slash (front ++ slash :: c)).foldl (push source.isAbs) source.components.reverse =
      (join D c).components.reverse) :
    join source (front ++ slash :: stem) = join D stem := by
  rw [Text.splitBy_append_sep, Text.splitBy_of_not_mem hc.not_slash, List.foldl_append, List.foldl_cons, List.foldl_nil,
    push_plain hc, components_join_plain hD hc, List.reverse_append, List.reverse_singleton, List.singleton_append] at hway
  refine eq_of_components (clean_join source (by simp)) (clean_join D hstem.ne_nil) ?_ ?_
  · rw [isAbs_join hs, isAbs_join hD, habs]
  · rw [components_join hs, Text.splitBy_append_sep, Text.splitBy_of_not_mem hstem.not_slash, List.foldl_append,
      List.foldl_cons, List.foldl_nil, push_plain hstem, (List.cons.inj hway).2, components_join_plain hD hstem,
      List.reverse_cons, List.reverse_reverse]

/-- A module reference leads to its target, or to what is left of the target without an ending. -/
theorem join_moduleReference (hs : source ≠ []) (ht : target.Named) (hclean : target.clean = target)
    (hslashes : 92 ∉ target) (hname : ∀ y, ∀ e ∈ suffixes, base target = y ++ e → Plain y)
    (h : moduleReference source target = .ok m) :
    Stepwise m ∧ (join source m = target ∨ ∃ e ∈ suffixes, target = join source m ++ e) := by
  obtain ⟨habs, shared, below, rest, r, hbelow, hrest, hdown, hstep, rfl, hsplit⟩ :=
    moduleReference_eq_ok ht hslashes h
  have hway := foldl_push_of_splitBy habs hbelow hrest hdown hsplit
  rcases trimSuffix_cases r with htrim | ⟨e, he, hr, hne⟩
  · rw [htrim]
    have hr : r ≠ [] := by
      rcases hstep with rfl | ⟨step, more, -, rfl⟩ <;> simp
    refine ⟨hstep, .inl (eq_of_components (clean_join source hr) hclean ?_ ?_)⟩
    · rw [isAbs_join hs, habs]
    · rw [components_join hs, hway, List.reverse_reverse]
  · generalize trimSuffix r = m at hr hne
    obtain ⟨hslash, hlength⟩ := suffixes_spec e he
    refine ⟨hstep.of_append hslash hlength hr, .inr ⟨e, he, ?_⟩⟩
    -- the ending was that of the last name
    obtain ⟨front, last, rfl, hlast⟩ := exists_last (hstep.slash_mem (by rw [hr, List.length_append]; omega))
    obtain ⟨y, rfl, rfl⟩ := exists_of_append_eq hslash hr
    have hye : Plain (y ++ e) := plain_append (fun hy => hlast (by simp [hy])) hslash hlength
    have hcomponents : target.components =
        ((Text.splitBy slash front).foldl (push source.isAbs) source.components.reverse).reverse ++ [y ++ e] := by
      rw [← List.reverse_reverse target.components, ← hway, Text.splitBy_append_sep, List.foldl_append,
        Text.splitBy_of_not_mem hlast, List.foldl_cons, List.foldl_nil, push_plain hye, List.reverse_cons]
    obtain ⟨D, hD, hDabs, -, rfl⟩ := exists_eq_join_of_components hclean hcomponents hye
    have hDne : D ≠ [] := hD ▸ clean_ne_nil D
    have hy : Plain y := hname y e he (base_join hye)
    obtain ⟨before, -, hjoin⟩ := exists_join_eq_append D
    rw [join_replace_last hs (habs.trans hDabs.symm) hDne hye hy hway, hjoin _ hye, hjoin _ hy, List.append_assoc]

end Address

end DeclPieces
