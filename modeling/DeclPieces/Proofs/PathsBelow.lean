import DeclPieces.Proofs.FileStem

/-! What lies at or below a root is told by names: those of the root come first. So a project records the path from
its root for just the files below it, and a source has its pieces as far below their root as it is below its own. -/
namespace DeclPieces

namespace Path
variable {p root r : Path}

/-- The names between the slashes of a path, as they are written. -/
def names (p : Path) : List Text := (Text.splitBy slash p).filter fun c => !c.isEmpty

/-- A clean path is written by its components. -/
lemma names_clean (habs : p.isAbs = true) : names p.clean = p.components := by
  by_cases hnone : p.components = []
  · have htop : p.clean = [slash] := by
      rw [clean_eq_ofComponents, habs, hnone]
      rfl
    rw [htop, hnone]
    decide
  · have hsplit := splitBy_clean (clean_clean p) (by rwa [components_clean])
    rw [isAbs_clean, components_clean, habs, if_pos rfl] at hsplit
    rw [names, hsplit, List.singleton_append, List.filter_cons_of_neg (by simp), List.filter_eq_self]
    intro c hc
    simpa using (plain_of_mem_components habs c hc).ne_nil

/-- The way from a root to a path climbs unless the path is at or below the root. -/
lemma climbs_rel?_iff (hp : p.isAbs = true) (hroot : root.isAbs = true) (hr : rel? root p = some r) :
    climbs r = false ↔ root.components <+: p.components := by
  constructor
  · intro hclimbs
    obtain ⟨parts, hparts, -⟩ := exists_parts_of_rel? hp hr hclimbs
    exact ⟨parts, hparts.symm⟩
  · rintro ⟨rest, hrest⟩
    by_cases hnone : rest = []
    · -- the way from the root to itself
      have hclean : root.clean = p.clean := by
        rw [clean_eq_ofComponents, clean_eq_ofComponents, hroot, hp, ← hrest, hnone, List.append_nil]
      obtain rfl : dot = r := by simpa [rel?, hclean] using hr
      decide
    · obtain rfl := Option.some.inj (hr.symm.trans (rel?_of_components (hroot.trans hp.symm) hnone hrest.symm))
      have hplain : ∀ c ∈ rest, Plain c := fun c hc =>
        plain_of_mem_components hp c (hrest ▸ List.mem_append_right _ hc)
      rw [Bool.eq_false_iff, Ne, climbs_iff, Text.splitBy_joinWith hnone fun c hc => (hplain c hc).not_slash]
      exact fun hfirst => (hplain dotDot (List.mem_of_mem_head? hfirst)).ne_dotDot rfl

lemma within_iff (hp : p.isAbs = true) (hroot : root.isAbs = true) :
    within p root = true ↔ root.components <+: p.components := by
  obtain ⟨r, hr⟩ := exists_rel? hroot hp
  rw [← climbs_rel?_iff hp hroot hr, within, hr]
  simp

/-- The last name of a path has no slash, if the path has a name. -/
lemma base_eq_slash_or (p : Path) : base p = [slash] ∨ slash ∉ base p := by
  unfold base
  split
  · exact .inr (by decide)
  simp only
  split
  · exact .inl rfl
  · refine .inr fun hslash => ?_
    have htaken := List.mem_takeWhile_imp (List.mem_reverse.mp hslash)
    simp at htaken

end Path

namespace Project
open Path
variable {root p q : Path}

/-- Just what is not at or below the root is recorded by its whole path. -/
lemma isAbs_key_iff (hroot : root.isAbs = true) (hp : p.isAbs = true) (hslashes : 92 ∉ p) :
    isAbs (key root p) = true ↔ ¬ root.components <+: p.components := by
  obtain ⟨r, hr⟩ := exists_rel? hroot hp
  have hempty : root.isEmpty = false := by simpa using ne_nil_of_isAbs hroot
  rw [← climbs_rel?_iff hp hroot hr, key, hempty, hr]
  cases hclimbs : climbs r with
  | true => simp [hclimbs, hp]
  | false =>
    obtain ⟨-, -, -, hrelative, -⟩ := exists_parts_of_rel? hp hr hclimbs
    simp [hclimbs, normalize_rel? hr hslashes, hrelative]

/-- The key of a path leads back to the path, so that different paths have different keys. It is rooted just if the path
is not at or below the root. -/
theorem key_identifies (hroot : root.isAbs = true) (hp : p.isAbs = true) (hpclean : p.clean = p) (hpslashes : 92 ∉ p)
    (hq : q.isAbs = true) (hqclean : q.clean = q) (hqslashes : 92 ∉ q) :
    ofKey root (key root p) = p ∧ (key root p = key root q → p = q) ∧
      (isAbs (key root p) = true ↔ ¬ names root.clean <+: names p) := by
  have hback := ofKey_key root hp hpclean hpslashes
  refine ⟨hback, fun hsame => ?_, ?_⟩
  · rw [← hback, hsame, ofKey_key root hq hqclean hqslashes]
  · have hnames : names p = p.components := by rw [← names_clean hp, hpclean]
    rw [names_clean hroot, hnames, isAbs_key_iff hroot hp hpslashes]

/-- One path is below a root that is not clean, the other beside it. Both have a name that starts like a climb. -/
theorem dotted_keys_identify :
    key "/w/x/../x/" "/w/x/..a/b" = "..a/b" ∧ key "/w/x/../x/" "/w/..x" = "/w/..x" ∧
      ofKey "/w/x/../x/" (key "/w/x/../x/" "/w/x/..a/b") = "/w/x/..a/b" ∧
      (key "/w/x/../x/" "/w/x/..a/b" = key "/w/x/../x/" "/w/..x" → ("/w/x/..a/b" : Path) = "/w/..x") ∧
      (isAbs (key "/w/x/../x/" "/w/x/..a/b") = true ↔ ¬ names (clean "/w/x/../x/") <+: names "/w/x/..a/b") := by
  refine ⟨by decide +kernel, by decide +kernel, ?_⟩
  exact key_identifies (by decide) (by decide) (by decide +kernel) (by decide) (by decide) (by decide +kernel) (by decide)

end Project

namespace Address
open Path
variable {o : Options} {source D : Path} {rest : List Text} {stem : Text}

/-- A stem is one more name in a directory, unless the top is all there is to take it from. -/
lemma components_append_stem (hD : D ≠ []) (h : StemOf stem (base source)) (hdot : stem ≠ dot) (hdotDot : stem ≠ dotDot) :
    (D ++ slash :: stem).components = D.components ++ if stem = [slash] then [] else [stem] := by
  rw [components_append hD]
  rcases base_eq_slash_or source with htop | hslash
  · have hstem : stem = [slash] := by
      rw [h.eq_trimSuffix, htop]
      decide
    simp [hstem, Text.splitBy, push]
  · have hplain := h.plain (base_ne_nil source) hslash hdot hdotDot
    have hne : stem ≠ [slash] := fun he => hplain.not_slash (by simp [he])
    rw [Text.splitBy_of_not_mem hplain.not_slash]
    simp [push_plain hplain, hne]

lemma pieceDirectory_eq_ok (ht : o.translatedRoot.isAbs = true) (hpieces : o.piecesRoot.isAbs = true)
    (hs : source.isAbs = true) (hrest : (Path.dir source).components = o.translatedRoot.components ++ rest) :
    ∃ D : Path, D.isAbs = true ∧ D.components = o.piecesRoot.components ++ rest ∧
      pieceDirectory o source = .ok (clean (D ++ slash :: trimSuffix (base source))) := by
  have hdir := isAbs_dir hs
  obtain ⟨below, hbelow⟩ := exists_rel? ht hdir
  have hprefix : o.translatedRoot.components <+: (Path.dir source).components := ⟨rest, hrest.symm⟩
  have hclimbs := (climbs_rel?_iff hdir ht hbelow).mpr hprefix
  obtain ⟨parts, hparts, -, -, -, hdown⟩ := exists_parts_of_rel? hdir hbelow hclimbs
  obtain rfl : parts = rest := List.append_cancel_left (hparts.symm.trans hrest)
  have hne := ne_nil_of_isAbs hpieces
  have hempty : o.piecesRoot.isEmpty = false := by simpa using hne
  refine ⟨o.piecesRoot ++ slash :: below, (isAbs_append hne _).trans hpieces, hdown _ hne, ?_⟩
  have hwithin := (within_iff hdir ht).mpr hprefix
  simp [pieceDirectory, hwithin, hbelow, joinAll, List.dropWhile, hempty, Text.joinWith]

/-- A path is within a root just if the names of the root come first in it. A source whose directory is not within the
root of the sources has no directory of pieces. That of another one is reached from the root of the pieces by the names
that lead to the source's own directory, and then by the stem of the source. Only the top, as a source, has no name. -/
theorem containment_by_names :
    (∀ {p root : Path}, p.isAbs = true → root.isAbs = true →
      (within p root = true ↔ names root.clean <+: names p.clean)) ∧
    ∀ {o : Options} {source : Path}, o.translatedRoot.isAbs = true → o.piecesRoot.isAbs = true → source.isAbs = true →
      (¬ names o.translatedRoot.clean <+: names (Path.dir source) →
        pieceDirectory o source = .error (outsideRoot o.translatedRoot source)) ∧
      ∀ {rest : List Text} {stem : Text}, names (Path.dir source) = names o.translatedRoot.clean ++ rest →
        StemOf stem (base source) → stem ≠ dot → stem ≠ dotDot →
        ∃ D, pieceDirectory o source = .ok D ∧ D.isAbs = true ∧ D.clean = D ∧
          names D = names o.piecesRoot.clean ++ rest ++ if stem = [slash] then [] else [stem] := by
  refine ⟨fun hp hroot => ?_, fun {o source} ht hpieces hs => ?_⟩
  · rw [names_clean hp, names_clean hroot, within_iff hp hroot]
  have hdir := isAbs_dir hs
  have hnames : names (Path.dir source) = (Path.dir source).components := by
    rw [← names_clean hdir, Path.dir, clean_clean]
  rw [hnames, names_clean ht, names_clean hpieces]
  refine ⟨fun houtside => ?_, fun {rest stem} hrest hstem hdot hdotDot => ?_⟩
  · have hwithin : within (Path.dir source) o.translatedRoot = false :=
      Bool.eq_false_iff.mpr (mt (within_iff hdir ht).mp houtside)
    simp [pieceDirectory, hwithin]
  · obtain ⟨D, hD, hcomponents, hok⟩ := pieceDirectory_eq_ok ht hpieces hs hrest
    have hne := ne_nil_of_isAbs hD
    have habs : isAbs (D ++ slash :: stem) = true := (isAbs_append hne _).trans hD
    rw [← hstem.eq_trimSuffix] at hok
    refine ⟨_, hok, (isAbs_clean _).trans habs, clean_clean _, ?_⟩
    rw [names_clean habs, components_append_stem hne hstem hdot hdotDot, hcomponents]

/-- Roots that are not clean. -/
def dottedOptions : Options := { translatedRoot := "/w/./t/", piecesRoot := "/w/p/../q" }

/-- A directory below the root, with a name that starts like a climb, and one whose name starts with that of the root. -/
theorem dotted_source_contained :
    within "/w/t/../t/..x//y" "/w/./t/" = true ∧
      pieceDirectory dottedOptions "/w/t-old/b.ts" = .error (outsideRoot "/w/./t/" "/w/t-old/b.ts") ∧
      ∃ D, pieceDirectory dottedOptions "/w/t/..a/./b.c.d.ts" = .ok D ∧ D.isAbs = true ∧ D.clean = D ∧
        names D = [("w" : Text), "q", "..a", "b.c"] := by
  obtain ⟨hwithin, hsources⟩ := containment_by_names
  have ht : dottedOptions.translatedRoot.isAbs = true := by decide
  have hp : dottedOptions.piecesRoot.isAbs = true := by decide
  have hstem : StemOf "b.c" (base "/w/t/..a/./b.c.d.ts") := by
    have htrim : trimSuffix (base "/w/t/..a/./b.c.d.ts") = "b.c" := by decide +kernel
    exact htrim ▸ stemOf_trimSuffix _
  have hrest : names (Path.dir "/w/t/..a/./b.c.d.ts") = names dottedOptions.translatedRoot.clean ++ [("..a" : Text)] := by
    decide +kernel
  obtain ⟨D, hD, habs, hclean, hnames⟩ := (hsources ht hp (by decide)).2 hrest hstem (by decide) (by decide)
  refine ⟨(hwithin (by decide) (by decide)).mpr (by decide +kernel), ?_, D, hD, habs, hclean, ?_⟩
  · exact (hsources ht hp (by decide)).1 (by decide +kernel)
  · rw [hnames]
    decide +kernel

end Address

end DeclPieces
