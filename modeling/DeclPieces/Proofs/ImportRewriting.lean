import DeclPieces.Proofs.Decomposability

/-! Where the relative imports of a file lead once they stand in its index. The module path is made anew and loses the
ending of a declaration file, so that other files may be tried before the one that was meant, or it may not be tried at
all. -/
namespace DeclPieces
open Path

lemma Text.slice?_append {t a b : Text} {start mid stop : Int} (ha : t.slice? start mid = some a)
    (hb : t.slice? mid stop = some b) : t.slice? start stop = some (a ++ b) := by
  have hfirst := slice?_isSome_iff.mp (Option.isSome_of_mem ha)
  have hsecond := slice?_isSome_iff.mp (Option.isSome_of_mem hb)
  simp only [slice?, hfirst, hsecond, and_self, if_true, Option.some.injEq] at ha hb
  have hall : 0 ≤ start ∧ start ≤ stop ∧ stop ≤ t.length := by omega
  have hle : start.toNat ≤ mid.toNat := by omega
  have hlt : mid.toNat ≤ stop.toNat := by omega
  have htake : t.take mid.toNat = (t.take stop.toNat).take mid.toNat := by rw [List.take_take, min_eq_left hlt]
  have hlength : start.toNat ≤ ((t.take stop.toNat).take mid.toNat).length := by
    rw [← htake, List.length_take]
    omega
  rw [slice?, if_pos hall, ← ha, ← hb, htake, ← List.drop_append_of_le_length hlength, List.take_append_drop]

namespace Specifier
open Address
variable {source other spec spec' : Path} {t e : Text} {isFile : Path → Bool}

/-! The files that are tried for a path with the ending of a declaration file, and for what is left without it. -/

lemma isDeclarationFile_append (he : e ∈ suffixes) (t : Text) : isDeclarationFile (t ++ e) = true := by
  have hending : ∀ e ∈ suffixes, (Text.ofString ".ts" <:+ e ∨ Text.ofString ".mts" <:+ e) ∨ Text.ofString ".cts" <:+ e := by
    decide
  have hall (u : Text) (hu : u <:+ e) : u <:+ t ++ e := hu.trans (List.suffix_append t e)
  simp only [isDeclarationFile, Text.hasSuffix, Bool.or_eq_true, List.isSuffixOf_iff_suffix]
  exact (hending e he).imp (Or.imp (hall _) (hall _)) (hall _)

lemma besideScript_append (he : e ∈ suffixes) (t : Text) : besideScript (t ++ e) = [] := by
  have happart : ∀ e ∈ suffixes, ∀ s ∈ [".js", ".mjs", ".cjs"].map Text.ofString, ¬ s <:+ e ∧ ¬ e <:+ s := by decide
  have hnot (s : Text) (hs : s ∈ [".js", ".mjs", ".cjs"].map Text.ofString) : Path.ext (t ++ e) ≠ s := by
    rintro rfl
    rcases List.suffix_or_suffix_of_suffix (ext_suffix (t ++ e)) (List.suffix_append t e) with h | h
    · exact (happart e he _ hs).1 h
    · exact (happart e he _ hs).2 h
  simp [besideScript, hnot]

lemma possible_of_ending (he : e ∈ suffixes) (hrel : isRelativeSpecifier spec = true)
    (ht : join (Path.dir source) spec = t ++ e) :
    possible source spec = (t ++ e) :: candidates.map (t ++ e ++ ·) := by
  rw [possible_eq source spec hrel, ht, shadows, isDeclarationFile_append he, besideScript_append he]
  rfl

/-- Of all files for the path with its ending, only that path itself is tried for the path without it. -/
lemma not_mem_possible_of_stem (he : e ∈ suffixes) (hrel : isRelativeSpecifier spec = true)
    (ht : join (Path.dir source) spec = t) : ∀ q ∈ candidates.map (t ++ e ++ ·), q ∉ possible source spec := by
  have hlong : ∀ c ∈ candidates, 3 ≤ c.length := by decide
  have hnone : ∀ e ∈ suffixes, ∀ c ∈ candidates, e ++ c ∉ candidates := by decide
  intro q hq hmem
  obtain ⟨c, hc, rfl⟩ := List.mem_map.mp hq
  have hfirst := (suffixes_spec e he).2
  have hsecond := hlong c hc
  rw [possible_eq source spec hrel, ht, shadows, List.mem_append, List.mem_append] at hmem
  rcases hmem with (hmem | hmem) | hmem
  · split at hmem
    · have hlength := congrArg List.length (List.mem_singleton.mp hmem)
      simp only [List.length_append] at hlength
      omega
    · cases hmem
  · have hlength := length_besideScript hmem
    simp only [List.length_append] at hlength
    omega
  · obtain ⟨c', hc', hsame⟩ := List.mem_map.mp hmem
    rw [List.append_assoc] at hsame
    exact hnone e he c hc (List.append_cancel_left hsame ▸ hc')

/-- Two searches that share at most the first thing that one of them looks at. -/
lemma find?_eq_iff {α : Type} {p : α → Bool} {first : α} {rest ys : List α} (h : ∀ x ∈ rest, x ∉ ys) :
    ys.find? p = (first :: rest).find? p ↔ (∀ x ∈ first :: rest ++ ys, p x = false) ∨
      p first = true ∧ ∃ front back, ys = front ++ first :: back ∧ ∀ x ∈ front, p x = false := by
  cases hfirst : p first with
  | true =>
    rw [List.find?_cons_of_pos hfirst, List.find?_eq_some_iff_append]
    simp [hfirst]
  | false =>
    rw [List.find?_cons_of_neg (by simp [hfirst])]
    have hall : (∀ x ∈ first :: rest ++ ys, p x = false) ↔ (∀ x ∈ rest, p x = false) ∧ ∀ x ∈ ys, p x = false := by
      simp only [List.cons_append, List.forall_mem_cons, hfirst, true_and, List.forall_mem_append]
    simp only [hall, Bool.false_eq_true, false_and, or_false]
    constructor
    · intro heq
      cases hrest : rest.find? p with
      | none =>
        rw [hrest] at heq
        exact ⟨by simpa using hrest, by simpa using heq⟩
      | some x =>
        rw [hrest] at heq
        exact absurd (List.mem_of_find?_eq_some heq) (h x (List.mem_of_find?_eq_some hrest))
    · rintro ⟨hrest, hys⟩
      rw [List.find?_eq_none.mpr fun x hx => by simp [hys x hx], List.find?_eq_none.mpr fun x hx => by simp [hrest x hx]]

/-- Without its ending a path leads to the same file just if neither leads anywhere, or if it led to the file of its
own name and nothing is found before that. -/
lemma resolve?_eq_iff (he : e ∈ suffixes) (hrel : isRelativeSpecifier spec = true)
    (hrel' : isRelativeSpecifier spec' = true) (ht : join (Path.dir source) spec = t ++ e)
    (ht' : join (Path.dir other) spec' = t) :
    resolve? isFile other spec' = resolve? isFile source spec ↔
      (∀ q ∈ possible source spec ++ possible other spec', isFile q = false) ∨
        isFile (t ++ e) = true ∧
          ∃ front back, possible other spec' = front ++ (t ++ e) :: back ∧ ∀ q ∈ front, isFile q = false := by
  unfold resolve?
  rw [possible_of_ending he hrel ht]
  exact find?_eq_iff (not_mem_possible_of_stem he hrel' ht')

end Specifier

/-! Imports. -/

namespace Syntax
variable {text : Text} {t : Tree}

/-- The statement stands in the text, and the string that names its module in the statement. -/
structure Located (text : Text) (t : Tree) : Prop where
  start_le_stop : t.start ≤ t.stop
  stop_le_length : t.stop ≤ text.length
  source : ∀ s ∈ sourceOf? t, t.start ≤ s.start ∧ s.stop ≤ t.stop

instance (text : Text) (t : Tree) : Decidable (Located text t) :=
  decidable_of_iff (t.start ≤ t.stop ∧ t.stop ≤ text.length ∧ ∀ s ∈ sourceOf? t, t.start ≤ s.start ∧ s.stop ≤ t.stop)
    ⟨fun ⟨h₁, h₂, h₃⟩ => ⟨h₁, h₂, h₃⟩, fun h => ⟨h.1, h.2, h.3⟩⟩

/-- An import has the range of its statement, and as its module path what stands between the quotes of a string. -/
lemma importOf_ranges (around : Surroundings) (path text : Text) (t : Tree) :
    (importOf around path text t).start = t.start ∧ (importOf around path text t).stop = t.stop ∧
      ((importOf around path text t).specifier = [] ∧ (importOf around path text t).specifierStart = 0 ∧
          (importOf around path text t).specifierStop = 0 ∨
        ∃ s ∈ sourceOf? t, s.start + 2 ≤ s.stop ∧
          (importOf around path text t).specifier = between text (s.start + 1) (s.stop - 1) ∧
          (importOf around path text t).specifierStart = (s.start + 1 : Nat) ∧
          (importOf around path text t).specifierStop = (s.stop - 1 : Nat)) := by
  unfold importOf
  simp only
  cases hs : sourceOf? t with
  | none => exact ⟨rfl, rfl, .inl ⟨rfl, rfl, rfl⟩⟩
  | some s =>
    simp only
    split
    · exact ⟨rfl, rfl, .inl ⟨rfl, rfl, rfl⟩⟩
    · next hlong =>
      have hstop : (s.stop : Int) - 1 = (s.stop - 1 : Nat) := by omega
      exact ⟨rfl, rfl, .inr ⟨s, rfl, by omega, rfl, rfl, hstop⟩⟩

lemma slice?_between {start stop : Nat} (h : start ≤ stop ∧ stop ≤ text.length) :
    text.slice? start stop = some (between text start stop) := by
  have hrange : (0 : Int) ≤ start ∧ (start : Int) ≤ stop ∧ (stop : Int) ≤ text.length := by omega
  rw [Text.slice?, if_pos hrange]
  rfl

/-- Such an import stands in the text, and so does its module path if it has a relative one. -/
lemma Located.importOf (h : Located text t) (around : Surroundings) (path : Text) :
    (importOf around path text t).InText text ∧ ((importOf around path text t).isRelative = true →
      (importOf around path text t).rewritten = true ∧
        text.slice? (importOf around path text t).specifierStart (importOf around path text t).specifierStop =
          some (importOf around path text t).specifier) := by
  have hle := h.start_le_stop
  have hlast := h.stop_le_length
  obtain ⟨hstart, hstop, hspec⟩ := importOf_ranges around path text t
  generalize Syntax.importOf around path text t = im at hstart hstop hspec ⊢
  rcases hspec with ⟨hspec, hfrom, hto⟩ | ⟨s, hs, hlong, hspec, hfrom, hto⟩
  · have hkept : im.rewritten = false := by simp [Import.rewritten, hfrom, hto]
    refine ⟨⟨by omega, by omega, by omega, fun hrewritten => by simp [hkept] at hrewritten⟩, fun hrel => ?_⟩
    exact absurd hspec (SourceFile.isRelativeSpecifier_ne_nil hrel)
  · obtain ⟨hfirst, hend⟩ := h.source s hs
    refine ⟨⟨by omega, by omega, by omega, fun _ => by omega⟩, fun hrel => ?_⟩
    have hne := SourceFile.isRelativeSpecifier_ne_nil hrel
    have hlt : im.specifierStart < im.specifierStop := by
      by_contra hnot
      rw [hspec, between, ne_eq, List.drop_eq_nil_iff, List.length_take] at hne
      omega
    refine ⟨by simp [Import.rewritten, hrel, hlt], ?_⟩
    rw [hspec, hfrom, hto]
    exact slice?_between (by omega)

end Syntax

namespace SourceFile
open Specifier
variable {f : SourceFile} {around : Syntax.Surroundings} {t : Syntax.Tree} {dir index : Path} {im : Import}

/-- An import keeps all but its module path in the index. From there it leads where it led, whatever files there are,
if the path did not have the ending of a declaration file. If it did, it leads to the same file just if neither leads
anywhere, or if the path was that of a file and nothing is found before that. -/
theorem rewriteImport_resolves (ht : Syntax.Located f.text t) (him : Syntax.importOf around f.path f.text t = im)
    (hrel : im.isRelative = true) (hf : isAbs f.path = true) (hclean : dir.clean = dir) (habs : dir.isAbs = true)
    (hindex : Path.dir index = dir) (hne : join (Path.dir f.path) im.specifier ≠ dir)
    (hslashes : 92 ∉ join (Path.dir f.path) im.specifier)
    (hname : ∀ y, ∀ e ∈ Address.suffixes, base (join (Path.dir f.path) im.specifier) = y ++ e → Plain y) :
    ∃ before after new, f.text.slice? im.start im.specifierStart = some before ∧
      f.text.slice? im.specifierStop im.stop = some after ∧
      f.text.slice? im.start im.stop = some (before ++ im.specifier ++ after) ∧
      f.rewriteImport dir im = .ok (before ++ new ++ after) ∧
      ((∀ isFile, resolve? isFile index new = resolve? isFile f.path im.specifier) ∨
        ∃ e ∈ Address.suffixes, e <:+ join (Path.dir f.path) im.specifier ∧ ∀ isFile,
          resolve? isFile index new = resolve? isFile f.path im.specifier ↔
            (∀ q ∈ possible f.path im.specifier ++ possible index new, isFile q = false) ∨
              isFile (join (Path.dir f.path) im.specifier) = true ∧
                ∃ front back, possible index new = front ++ join (Path.dir f.path) im.specifier :: back ∧
                  ∀ q ∈ front, isFile q = false) := by
  subst him
  obtain ⟨hinText, hspecifier⟩ := ht.importOf around f.path
  generalize Syntax.importOf around f.path f.text t = im at *
  obtain ⟨hrewritten, hspec⟩ := hspecifier hrel
  obtain ⟨before, spec, after, hbefore, hspec', hafter, heq⟩ := rewriteImport_eq hinText hrewritten dir
  obtain rfl := Option.some.inj (hspec.symm.trans hspec')
  have hdir : Path.dir f.path ≠ [] := clean_ne_nil _
  have htarget : isAbs (join (Path.dir f.path) im.specifier) = true := (isAbs_join hdir _).trans (isAbs_dir hf)
  have hcleanTarget := clean_join (Path.dir f.path) (isRelativeSpecifier_ne_nil hrel)
  obtain ⟨new, hnew⟩ : ∃ new, Address.moduleReference dir (join (Path.dir f.path) im.specifier) = .ok new := by
    rw [Address.moduleReference_isOk_iff habs htarget, hclean, hcleanTarget]
    exact hne.symm
  obtain ⟨hstep, hleads⟩ := Address.join_moduleReference (ne_nil_of_isAbs habs) (.inl htarget) hcleanTarget hslashes hname hnew
  rw [hnew] at heq
  refine ⟨before, after, new, hbefore, hafter, Text.slice?_append (Text.slice?_append hbefore hspec) hafter, heq, ?_⟩
  rw [← hindex] at hleads
  rcases hleads with hsame | ⟨e, he, hending⟩
  · refine .inl fun isFile => ?_
    rw [resolve?, resolve?, possible_eq _ _ hstep.isRelative, possible_eq _ _ hrel, hsame]
  · refine .inr ⟨e, he, ⟨_, hending.symm⟩, fun isFile => ?_⟩
    have hiff := @resolve?_eq_iff f.path index im.specifier new _ e isFile he hrel hstep.isRelative hending rfl
    rwa [← hending] at hiff

/-- A file that imports from the file `y`, by its whole name. -/
def namingFile (y : Text) : SourceFile := ofText {} "/work/t/x.ts" ("import \x7b A \x7d from './" ++ y ++ "';\n")

def indexOfNaming : Path := "/work/p/x/index.d.ts"

/-- Nothing is tried before a declaration file with the ordinary ending. -/
theorem ordinary_ending_resolves : ∃ im ∈ (namingFile "y.d.ts").imports, im.specifier = "./y.d.ts" ∧
    (namingFile "y.d.ts").rewriteImport "/work/p/x" im = .ok "import \x7b A \x7d from '../../t/y';" ∧
    ∀ isFile : Path → Bool, isFile "/work/t/y.d.ts" = true →
      resolve? isFile indexOfNaming "../../t/y" = resolve? isFile (namingFile "y.d.ts").path im.specifier := by
  generalize hf : namingFile "y.d.ts" = f
  have hpath : f.path = "/work/t/x.ts" := by
    subst hf
    decide +kernel
  have hcomputed : ∀ t ∈ Syntax.parse f.text, Syntax.Located f.text t ∧
      Syntax.importOf {} f.path f.text t ∈ f.imports ∧
      (Syntax.importOf {} f.path f.text t).specifier = "./y.d.ts" ∧
      f.text.slice? (Syntax.importOf {} f.path f.text t).start
        (Syntax.importOf {} f.path f.text t).specifierStart = some "import \x7b A \x7d from '" ∧
      f.text.slice? (Syntax.importOf {} f.path f.text t).specifierStop
        (Syntax.importOf {} f.path f.text t).stop = some "';" ∧
      f.rewriteImport "/work/p/x" (Syntax.importOf {} f.path f.text t) =
        .ok ("import \x7b A \x7d from '" ++ "../../t/y" ++ "';") := by
    subst hf
    decide +kernel
  obtain ⟨t, ht⟩ : ∃ t, t ∈ Syntax.parse f.text := by
    subst hf
    exact List.exists_mem_of_length_pos (by decide +kernel)
  obtain ⟨hlocated, hmem, hspec, hbefore, hafter, hrewrite⟩ := hcomputed t ht
  generalize him : Syntax.importOf {} f.path f.text t = im at hmem hspec hbefore hafter hrewrite
  have htarget : join (Path.dir f.path) im.specifier = "/work/t/y.d.ts" := by
    rw [hspec, hpath]
    decide +kernel
  have hrel : im.isRelative = true := by
    rw [Import.isRelative, hspec]
    decide
  have hname : ∀ y, ∀ e ∈ Address.suffixes, base "/work/t/y.d.ts" = y ++ e → Plain y :=
    Address.plain_of_ending (by decide +kernel)
  obtain ⟨before, after, new, hbefore', hafter', -, hnew, hcases⟩ := rewriteImport_resolves hlocated him hrel
    (by rw [hpath]; decide) (by decide : clean "/work/p/x" = "/work/p/x") (by decide)
    (by decide : Path.dir indexOfNaming = "/work/p/x") (by rw [htarget]; decide) (by rw [htarget]; decide)
    (by rwa [htarget])
  obtain rfl := Option.some.inj (hbefore'.symm.trans hbefore)
  obtain rfl := Option.some.inj (hafter'.symm.trans hafter)
  obtain rfl := List.append_cancel_left (List.append_cancel_right (Except.ok.inj (hnew.symm.trans hrewrite)))
  refine ⟨im, hmem, hspec, hrewrite, fun isFile hfile => ?_⟩
  rcases hcases with hsame | ⟨e, -, -, hiff⟩
  · exact hsame isFile
  · rw [htarget] at hiff
    exact (hiff isFile).mpr (.inr ⟨hfile, [], (possible indexOfNaming "../../t/y").tail, by decide +kernel, by simp⟩)

/-- One with another ending is not tried at all, or another file is tried before it. -/
theorem rewritten_import_misses_file :
    (∃ im ∈ (namingFile "y.mts").imports, im.specifier = "./y.mts" ∧
      (namingFile "y.mts").rewriteImport "/work/p/x" im = .ok "import \x7b A \x7d from '../../t/y';" ∧
      resolve? (· = "/work/t/y.mts") (namingFile "y.mts").path im.specifier = some "/work/t/y.mts" ∧
      resolve? (· = "/work/t/y.mts") indexOfNaming "../../t/y" = none) ∧
    ∃ im ∈ (namingFile "y.ts").imports, im.specifier = "./y.ts" ∧
      (namingFile "y.ts").rewriteImport "/work/p/x" im = .ok "import \x7b A \x7d from '../../t/y';" ∧
      resolve? (· ∈ [("/work/t/y.d.ts" : Text), "/work/t/y.ts"]) (namingFile "y.ts").path im.specifier =
        some "/work/t/y.ts" ∧
      resolve? (· ∈ [("/work/t/y.d.ts" : Text), "/work/t/y.ts"]) indexOfNaming "../../t/y" = some "/work/t/y.d.ts" := by
  decide +kernel

end SourceFile

end DeclPieces
