import DeclPieces.Proofs.DiskFiles
import DeclPieces.Proofs.JoinedPath
import DeclPieces.Proofs.TextForms
import DeclPieces.Syntax.Outline

/-! Where the module paths in an index lead once the pieces are written. -/
namespace DeclPieces
open Path

namespace Address

/-- Is there a slash of neither kind? -/
def Flat (name : Text) : Prop := slash ∉ name ∧ 92 ∉ name

lemma Flat.append {t u : Text} (ht : Flat t) (hu : Flat u) : Flat (t ++ u) := by
  simp [Flat, ht.1, ht.2, hu.1, hu.2]

lemma flat_of_forall {t : Text} (h : ∀ b ∈ t, b ≠ slash ∧ b ≠ 92) : Flat t :=
  ⟨fun hb => (h _ hb).1 rfl, fun hb => (h _ hb).2 rfl⟩

lemma flat_ofNat (n : Nat) : Flat (Text.ofNat n) :=
  flat_of_forall fun b hb => by
    have h := Text.mem_ofNat hb
    constructor <;> rintro rfl <;> exact absurd h (by decide)

/-- A file name is made of portable characters, beyond ASCII or in it. -/
lemma mem_fileName {symbol : Text} {b : UInt8} (hb : b ∈ fileName symbol) :
    128 ≤ b.toNat ∨ isPortable (Char.ofNat b.toNat) = true := by
  unfold fileName at hb
  simp only at hb
  split at hb
  · have hunderscore : Text.ofString "_" = [95] := by decide
    obtain rfl := List.mem_singleton.mp (hunderscore ▸ hb)
    decide
  · obtain ⟨c, hc, hb⟩ := List.mem_flatMap.mp hb
    have hportable : isPortable c = true := by
      obtain ⟨r, -, rfl⟩ := List.mem_map.mp hc
      split
      · assumption
      · decide
    rcases Text.mem_utf8EncodeChar hb with ⟨rfl, hascii⟩ | hb
    · have hcode : (UInt8.ofNat c.toNat).toNat = c.toNat := by
        rw [UInt8.toNat_ofNat']
        omega
      rw [hcode, Char.ofNat_toNat]
      exact .inr hportable
    · exact .inl hb

lemma fileName_flat (symbol : Text) : Flat (fileName symbol) := by
  refine flat_of_forall fun b hb => ?_
  constructor
  · rintro rfl
    exact absurd (mem_fileName hb) (by decide)
  · rintro rfl
    exact absurd (mem_fileName hb) (by decide)

lemma fileName_ne_nil (symbol : Text) : fileName symbol ≠ [] := by
  unfold fileName
  simp only
  split
  · decide
  · next hne =>
    cases hbare : ((symbol.runes.dropWhile (isQuote ·.char)).reverse.dropWhile (isQuote ·.char)).reverse with
    | nil => exact absurd (by simp [hbare]) hne
    | cons r rest =>
      rw [Text.ofChars, List.map_cons, List.flatMap_cons]
      exact fun h => String.utf8EncodeChar_ne_nil (List.append_eq_nil_iff.mp h).1

/-- The ending of declaration files that pieces have unless it is set. -/
def declarations : Text := ".d.ts"

lemma declarations_eq : declarations = [46, 100, 46, 116, 115] := by decide

lemma trimSuffix_append {t : Text} (ht : t ≠ []) : trimSuffix (t ++ declarations) = t := by
  have hsuffixes : suffixes = [[46, 100, 46, 109, 116, 115], [46, 100, 46, 99, 116, 115], declarations,
      [46, 109, 116, 115], [46, 99, 116, 115], [46, 116, 115]] := by decide
  have hpos : 0 < t.length := List.length_pos_iff.mpr ht
  unfold trimSuffix
  rw [hsuffixes]
  simp [Text.hasSuffix, List.isSuffixOf, declarations_eq, List.isPrefixOf, Text.dropSuffix, hpos]

end Address

namespace Allocator

/-- The name of the `n`-th choice, without its ending. -/
def stem (name : Text) : Nat → Text
  | 0 => name
  | n + 1 => name ++ "-" ++ Text.ofNat (n + 1)

lemma candidate_eq (dir name ext : Text) (n : Nat) : candidate dir name ext n = join dir (stem name n ++ ext) := by
  cases n <;> rfl

lemma stem_flat {name : Text} (h : Address.Flat name) (n : Nat) : Address.Flat (stem name n) := by
  cases n with
  | zero => exact h
  | succ n => exact (h.append ⟨by decide, by decide⟩).append (Address.flat_ofNat _)

/-- A name stays in its directory, also with a number. -/
lemma slash_not_mem_stem {name : Text} (h : slash ∉ name) (n : Nat) : slash ∉ stem name n := by
  cases n with
  | zero => exact h
  | succ n => simpa [stem, h, (Address.flat_ofNat _).1] using (by decide : slash ∉ ("-" : Text))

lemma stem_ne_nil {name : Text} (h : name ≠ []) (n : Nat) : stem name n ≠ [] := by
  cases n <;> simp [stem, h]

end Allocator

namespace Address
variable {D : Path} {stem : Text} {category : Category}

lemma flat_declarations : Flat declarations := ⟨by decide, by decide⟩

lemma flat_category (category : Category) : Flat category.name := by
  cases category <;> exact ⟨by decide, by decide⟩

lemma plain_category (category : Category) : Plain category.name := by
  cases category <;> constructor <;> decide

/-- A name with an ending is plain. -/
lemma plain_append {t ending : Text} (ht : slash ∉ t) (hending : slash ∉ ending) (hlength : 3 ≤ ending.length) :
    Plain (t ++ ending) := by
  have hlong (u : Text) (hu : u.length < 3) : t ++ ending ≠ u := by
    rintro rfl
    rw [List.length_append] at hu
    omega
  exact ⟨hlong [] (by decide), hlong dot (by decide), hlong dotDot (by decide), by simp [ht, hending]⟩

lemma plain_append_declarations (h : Flat stem) : Plain (stem ++ declarations) :=
  plain_append h.1 (by decide) (by decide)

/-- Where the declarations of a category are stored. -/
lemma components_category (hD : D ≠ []) : (join D category.name).components = D.components ++ [category.name] :=
  components_join_plain hD (plain_category category)

/-- The module path from the directory of the pieces to a piece. -/
lemma moduleReference_piece (hclean : D.clean = D) (hstem : Flat stem) :
    moduleReference D (join (join D category.name) (stem ++ declarations)) =
      .ok ("./" ++ category.name ++ [slash] ++ stem) := by
  have hD : D ≠ [] := hclean ▸ clean_ne_nil D
  have hfile := plain_append_declarations hstem
  have hdir : join D category.name ≠ [] := join_ne_nil D (plain_category category).ne_nil
  have hcomponents : (join (join D category.name) (stem ++ declarations)).components =
      D.components ++ [category.name, stem ++ declarations] := by
    rw [components_join_plain hdir hfile, components_category hD, List.append_assoc, List.singleton_append]
  have habs : D.isAbs = (join (join D category.name) (stem ++ declarations)).isAbs := by
    rw [isAbs_join hdir, isAbs_join hD]
  have hrel := rel?_of_components habs (by simp) hcomponents
  have hslash : (92 : UInt8) ≠ slash := by decide
  have hway : Text.joinWith [slash] [category.name, stem ++ declarations] =
      category.name ++ slash :: (stem ++ declarations) := by simp [Text.joinWith]
  rw [hway] at hrel
  have hnormal : normalize (category.name ++ slash :: (stem ++ declarations)) =
      category.name ++ slash :: (stem ++ declarations) :=
    normalize_of_not_mem (by simp [(flat_category category).2, hstem.2, flat_declarations.2, hslash])
  have hdot : category.name ++ slash :: (stem ++ declarations) ≠ dot := by
    intro he
    have hlength := congrArg List.length he
    simp [declarations_eq] at hlength
    omega
  have hclimbs : climbs (category.name ++ slash :: (stem ++ declarations)) = false := by
    rw [Bool.eq_false_iff, ne_eq, climbs_iff, Text.splitBy_append_sep, Text.splitBy_of_not_mem (flat_category category).1]
    simpa using (plain_category category).ne_dotDot
  have hnext : Text.hasPrefix (category.name ++ slash :: (stem ++ declarations)) "./" = false := by
    cases category <;> rfl
  unfold moduleReference
  rw [hrel]
  simp only [hnormal, hdot, hclimbs, hnext, Bool.or_self, Bool.false_eq_true, if_false]
  have hall : Text.ofString "./" ++ (category.name ++ slash :: (stem ++ declarations)) =
      ("./" ++ category.name ++ [slash] ++ stem) ++ declarations := by simp
  rw [hall, trimSuffix_append (by simp)]

end Address

namespace Specifier
open Address
variable {D : Path} {stem : Text} {category : Category} {t : Path}

/-- The module path to the piece of a category that has the name `stem`. -/
def toPiece (category : Category) (stem : Text) : Text := "./" ++ category.name ++ [slash] ++ stem

lemma components_join_toPiece (hD : D ≠ []) (hstem : Flat stem) :
    (join D (toPiece category stem)).components =
      (push D.isAbs (category.name :: D.components.reverse) stem).reverse := by
  have hsplit : Text.splitBy slash (toPiece category stem) = [dot, category.name, stem] := by
    have hstart : Text.ofString "./" = dot ++ [slash] := by decide
    have hall : toPiece category stem = dot ++ slash :: (category.name ++ slash :: stem) := by
      simp [toPiece, hstart]
    rw [hall, Text.splitBy_append_sep, Text.splitBy_append_sep, Text.splitBy_of_not_mem (flat_category category).1,
      Text.splitBy_of_not_mem hstem.1]
    rfl
  rw [components_join hD, hsplit]
  simp only [List.foldl_cons, List.foldl_nil, push_plain (plain_category category)]
  rfl

/-- The module path to a piece leads there, its ending apart. -/
lemma join_toPiece (hclean : D.clean = D) (hstem : Flat stem) (hplain : Plain stem) :
    join D (toPiece category stem) = join (join D category.name) stem := by
  have hD : D ≠ [] := hclean ▸ clean_ne_nil D
  have hdir : join D category.name ≠ [] := join_ne_nil D (plain_category category).ne_nil
  refine eq_of_components (clean_join D (by simp [toPiece])) (clean_join _ hplain.ne_nil) ?_ ?_
  · rw [isAbs_join hD, isAbs_join hdir, isAbs_join hD]
  · rw [components_join_toPiece hD hstem, push_plain hplain, components_join_plain hdir hplain, components_category hD]
    simp

/-- The files that are tried before the one that has the ending of declaration files. -/
def shadows (t : Path) : List Path := (if isDeclarationFile t then [t] else []) ++ besideScript t

lemma possible_eq (source spec : Text) (h : isRelativeSpecifier spec = true) :
    possible source spec = shadows (join (Path.dir source) spec) ++ candidates.map (join (Path.dir source) spec ++ ·) := by
  simp [possible, h, shadows]

lemma length_besideScript {q : Path} (h : q ∈ besideScript t) : q.length ≤ t.length + 5 := by
  unfold besideScript at h
  split at h
  · have hdrop : (Text.dropSuffix t t.ext).length ≤ t.length := by
      unfold Text.dropSuffix
      split
      · simp
      · exact Nat.le_refl _
    simp only [List.mem_cons, List.not_mem_nil, or_false] at h
    rcases h with rfl | rfl <;> rw [List.length_append] <;> exact Nat.add_le_add hdrop (by decide)
  · simp at h

/-- The files that are tried are named little longer than what the module path names, and none by seven bytes. -/
lemma length_of_mem_possible {source spec : Text} {q : Path} (h : q ∈ possible source spec) :
    q.length ≤ (join (Path.dir source) spec).length + 11 ∧ q.length ≠ (join (Path.dir source) spec).length + 7 := by
  by_cases hrel : isRelativeSpecifier spec = true
  · rw [possible_eq source spec hrel, shadows, List.mem_append, List.mem_append] at h
    rcases h with (h | h) | h
    · split at h
      · obtain rfl := List.mem_singleton.mp h
        omega
      · simp at h
    · have := length_besideScript h
      omega
    · obtain ⟨suffix, hsuffix, rfl⟩ := List.mem_map.mp h
      have hlength : ∀ u ∈ candidates, u.length ≤ 11 ∧ u.length ≠ 7 := by decide
      have := hlength suffix hsuffix
      rw [List.length_append]
      omega
  · simp [possible, hrel] at h

lemma ext_suffix (p : Path) : p.ext <:+ p := by
  unfold Path.ext
  simp only
  split
  · next hdot =>
    obtain ⟨rest, hrest⟩ : p.reverse.takeWhile (· ≠ slash) <+: p.reverse := List.takeWhile_prefix _
    generalize p.reverse.takeWhile (· ≠ slash) = tail at hdot hrest ⊢
    obtain ⟨front, more, rfl, hfront⟩ := List.eq_append_cons_of_mem (by simpa using hdot : (46 : UInt8) ∈ tail)
    have hlast : (front ++ 46 :: more).takeWhile (· ≠ 46) = front := by
      rw [List.takeWhile_append_of_pos]
      · simp
      · intro b hb
        simpa using fun he : b = 46 => hfront (he ▸ hb)
    refine ⟨(more ++ rest).reverse, ?_⟩
    rw [hlast, ← List.reverse_inj, ← hrest]
    simp
  · exact List.nil_suffix

/-- An ending without a slash is one of the last name. -/
lemma exists_of_suffix {B stem e : Text} (he : slash ∉ e) (h : e <:+ B ++ slash :: stem) : ∃ x, stem = x ++ e := by
  have hname : slash :: stem <:+ B ++ slash :: stem := List.suffix_append _ _
  rcases List.suffix_or_suffix_of_suffix h hname with h | h
  · rcases List.suffix_cons_iff.mp h with rfl | ⟨x, hx⟩
    · simp at he
    · exact ⟨x, hx.symm⟩
  · exact absurd (h.subset (by simp)) he

/-- What is tried before a piece is a file beside it. -/
lemma exists_of_mem_shadows {B q : Path} (hclean : B.clean = B) (hne : B.components ≠ []) (hstem : Plain stem)
    (hq : q ∈ shadows (join B stem)) :
    q.clean = q ∧ q.isAbs = B.isAbs ∧ q.length < (join B stem).length + 5 := by
  have hB : B ≠ [] := hclean ▸ clean_ne_nil B
  rw [shadows, List.mem_append] at hq
  rcases hq with hq | hq
  · split at hq
    · obtain rfl := List.mem_singleton.mp hq
      exact ⟨clean_join B hstem.ne_nil, isAbs_join hB stem, by omega⟩
    · simp at hq
  · have hsuffix := ext_suffix (join B stem)
    unfold besideScript at hq
    split at hq
    · next hscript =>
      generalize (join B stem).ext = e at hsuffix hscript hq
      have he : slash ∉ e ∧ 0 < e.length := by
        simp only [Bool.or_eq_true, decide_eq_true_eq] at hscript
        rcases hscript with (rfl | rfl) | rfl <;> decide
      rw [join_eq_append hclean hne hstem] at hsuffix hq ⊢
      obtain ⟨x, rfl⟩ := exists_of_suffix he.1 hsuffix
      have hx : slash ∉ x := fun h => hstem.not_slash (by simp [h])
      have hall : B ++ slash :: (x ++ e) = (B ++ slash :: x) ++ e := by simp
      have hdrop : Text.dropSuffix (B ++ slash :: (x ++ e)) e = B ++ slash :: x := by
        rw [hall, Text.dropSuffix_append]
      have hgood (ending : Text) (hending : slash ∉ ending) (hlength : 3 ≤ ending.length ∧ ending.length ≤ 5) :
          clean (B ++ slash :: x ++ ending) = B ++ slash :: x ++ ending ∧ isAbs (B ++ slash :: x ++ ending) = B.isAbs ∧
            (B ++ slash :: x ++ ending).length < (B ++ slash :: (x ++ e)).length + 5 := by
        have hbelow : B ++ slash :: x ++ ending = join B (x ++ ending) := by
          rw [join_eq_append hclean hne (plain_append hx hending hlength.1)]
          simp
        refine ⟨?_, ?_, ?_⟩
        · rw [hbelow, clean_join B (plain_append hx hending hlength.1).ne_nil]
        · rw [hbelow, isAbs_join hB]
        · simp only [hall, List.length_append]
          omega
      rw [hdrop] at hq
      simp only [List.mem_cons, List.not_mem_nil, or_false] at hq
      rcases hq with rfl | rfl
      · exact hgood _ (by decide) (by decide)
      · exact hgood _ (by decide) (by decide)
    · simp at hq

end Specifier

section Written
open Address
variable {f : SourceFile} {opts : Options} {d : Decomposition} {disk : Disk} {text : Text} {p : Piece}

lemma Disk.isFile_iff {q : Path} : disk.isFile q = true ↔ ∃ data, disk.read q = .content data := by
  simp only [Disk.read_eq_content_iff, Disk.isFile]
  cases hl : disk.look q with
  | error o => simp
  | ok n => cases n <;> simp

/-- Once the pieces are written, they are the only files. -/
lemma isFile_write_iff (hd : f.decompose opts = .ok d) (hwrite : d.write text ({} : Disk) = (.ok (), disk)) {q : Path} :
    disk.isFile q = true ↔ ∃ r ∈ d.pieces, Disk.key q = Disk.key r.path := by
  have hrun := Decomposition.write_eq_ok hwrite
  rw [Disk.isFile_iff]
  constructor
  · rintro ⟨data, hread⟩
    by_contra hnone
    have hstored : (writePieces text d.pieces ({} : Disk)).2.stored? q = ({} : Disk).stored? q :=
      Disk.stored?_writePieces fun r hr he => hnone ⟨r, hr, he⟩
    rw [hrun, Disk.stored?_of_read hread] at hstored
    cases hstored
  · rintro ⟨r, hr, hkey⟩
    obtain ⟨content, -, hread⟩ := Disk.read_of_writePieces_eq_ok (Decomposition.keys_apart hd) hrun r hr
    exact ⟨content, (Disk.read_congr hkey).mpr hread⟩

/-- Does a line of an index name the module `spec`? -/
def Names (line spec : Text) : Prop :=
  line = "import '" ++ spec ++ "';" ++ [Text.newline] ∨
    ∃ name : Text, line = "export \x7b " ++ name ++ " \x7d from '" ++ spec ++ "';" ++ [Text.newline]

lemma names_of_pieceLine {dir : Path} {line spec : Text} {category : Category} (hcategory : p.category? = some category)
    (hspec : moduleReference dir p.path = .ok spec) (hline : SourceFile.pieceLine dir p = .ok line) : Names line spec := by
  unfold SourceFile.pieceLine at hline
  unfold Piece.category? at hcategory
  cases hrole : p.role with
  | generated content => simp [hrole] at hcategory
  | package => simp [hrole] at hcategory
  | declared symbol kind category' references sideEffect =>
    cases sideEffect with
    | true =>
      simp only [hrole, hspec, if_true, Except.ok.injEq] at hline
      exact .inl hline.symm
    | false =>
      simp only [hrole, hspec, Bool.false_eq_true, if_false, Except.ok.injEq] at hline
      exact .inr ⟨symbol, hline.symm⟩

/-- The index holds the line of each piece. -/
lemma exists_indexLine (hd : f.decompose opts = .ok d) (hp : p ∈ d.content) :
    ∃ index head line tail, d.index? = some index ∧ index.role = .generated (head ++ line ++ tail) ∧
      SourceFile.pieceLine d.dir p = .ok line := by
  obtain ⟨index, order, head, lines, hindex, hrole, horder, hlines⟩ := SourceFile.exists_indexLines hd
  obtain ⟨line, hmem, hline⟩ := hlines.flip.exists_of_mem (horder.mem_iff.mpr hp)
  obtain ⟨before, after, rfl⟩ := List.append_of_mem hmem
  exact ⟨index, head ++ before.flatten, line, after.flatten, hindex, by simpa using hrole, hline⟩

/-- Of the possible files for the path of a piece, those before the piece decide. -/
lemma resolve?_eq_some_iff {isFile : Path → Bool} {source spec t q : Path} (hrel : isRelativeSpecifier spec = true)
    (htarget : join (Path.dir source) spec = t) (hq : q = t ++ declarations) (hfile : isFile q = true)
    (hbefore : ∀ s ∈ Specifier.shadows t, s.length < q.length) :
    Specifier.resolve? isFile source spec = some q ↔ ∀ s ∈ Specifier.shadows t, isFile s = false := by
  have hcandidates : ∃ rest, Specifier.candidates.map (t ++ ·) = q :: rest := ⟨_, by rw [hq]; rfl⟩
  obtain ⟨rest, hrest⟩ := hcandidates
  rw [Specifier.resolve?, Specifier.possible_eq source spec hrel, htarget, hrest, List.find?_append,
    List.find?_cons_of_pos hfile]
  constructor
  · intro h s hs
    cases hfind : (Specifier.shadows t).find? isFile with
    | none => simpa using List.find?_eq_none.mp hfind s hs
    | some s' =>
      have hsame : s' = q := by simpa [hfind] using h
      have hlt := hbefore s' (List.mem_of_find?_eq_some hfind)
      rw [hsame] at hlt
      omega
  · intro h
    rw [List.find?_eq_none.mpr fun s hs => by simp [h s hs]]
    rfl

section Dots
variable {D q source : Path} {category : Category} {stem : Text} {isFile : Path → Bool}

lemma length_join_category (hclean : D.clean = D) (category : Category) :
    D.length + 4 ≤ (join D category.name).length := by
  have hD : D ≠ [] := hclean ▸ clean_ne_nil D
  have hlong : 5 ≤ category.name.length := by cases category <;> decide
  by_cases hne : D.components = []
  · have hjoin : join D category.name = ofComponents D.isAbs [category.name] := by
      rw [← clean_join D (plain_category category).ne_nil, clean_eq_ofComponents, components_category hD, hne,
        isAbs_join hD, List.nil_append]
    have hroot : D.length = (ofComponents D.isAbs []).length := by
      conv_lhs => rw [← hclean, clean_eq_ofComponents, hne]
    rw [hjoin, hroot]
    cases D.isAbs <;> simp [ofComponents, Text.joinWith] <;> omega
  · rw [join_eq_append hclean hne (plain_category category), List.length_append, List.length_cons]
    omega

/-- The module path to a piece named by dots leads to a directory above the piece. -/
lemma resolve?_ne_of_dots (hclean : D.clean = D) (hsource : Path.dir source = D)
    (hq : q = join (join D category.name) (stem ++ declarations)) (hdots : stem = dot ∨ stem = dotDot) :
    Specifier.resolve? isFile source (Specifier.toPiece category stem) ≠ some q := by
  have hD : D ≠ [] := hclean ▸ clean_ne_nil D
  have hflat : Flat stem := by rcases hdots with rfl | rfl <;> exact ⟨by decide, by decide⟩
  have hcategory : join D category.name ≠ [] := join_ne_nil D (plain_category category).ne_nil
  have hlength : q.length = (join D category.name).length + 1 + (stem.length + 5) := by
    have hne : (join D category.name).components ≠ [] := by simp [components_category hD]
    rw [hq, join_eq_append (clean_join D (plain_category category).ne_nil) hne (plain_append_declarations hflat),
      List.length_append, List.length_cons, List.length_append, declarations_eq]
    simp only [List.length_cons, List.length_nil]
    omega
  have htarget : (join D (Specifier.toPiece category stem)).components =
      (push D.isAbs (category.name :: D.components.reverse) stem).reverse :=
    Specifier.components_join_toPiece hD hflat
  have hspec : Specifier.toPiece category stem ≠ [] := by simp [Specifier.toPiece]
  intro hresolve
  have hbounds := Specifier.length_of_mem_possible (List.mem_of_find?_eq_some hresolve)
  rw [hsource] at hbounds
  rcases hdots with rfl | rfl
  · have hup : join D (Specifier.toPiece category dot) = join D category.name := by
      refine eq_of_components (clean_join D hspec) (clean_join D (plain_category category).ne_nil) ?_ ?_
      · rw [isAbs_join hD, isAbs_join hD]
      · rw [htarget, components_category hD]
        simp [push]
    rw [hup] at hbounds
    simp only [List.length_cons, List.length_nil] at hlength
    omega
  · have hup : join D (Specifier.toPiece category dotDot) = D := by
      refine eq_of_components (clean_join D hspec) hclean (isAbs_join hD _) ?_
      rw [htarget]
      simp [push, (plain_category category).ne_dotDot]
    have := length_join_category hclean category
    rw [hup] at hbounds
    simp only [List.length_cons, List.length_nil] at hlength
    omega

end Dots

/-- A piece that declares something is stored at a name in the directory of its category. -/
lemma exists_stem (hext : opts.withDefaults.extension = declarations) (hd : f.decompose opts = .ok d)
    (hp : p ∈ d.content) (hrole : p.isPackage = false) :
    ∃ category stem, p.category? = some category ∧ Flat stem ∧ stem ≠ [] ∧
      p.path = join (join d.dir category.name) (stem ++ declarations) := by
  obtain ⟨dir, opening, pieces, hmade⟩ := Decomposition.exists_made hd
  rcases List.mem_append.mp (hmade.content_perm.mem_iff.mp hp) with hopening | hpiece
  · rcases hmade.opening_eq with ⟨-, rfl⟩ | ⟨doc, path, -, rfl⟩
    · simp at hopening
    · obtain rfl := List.mem_singleton.mp hopening
      simp [Piece.isPackage] at hrole
  · obtain ⟨category, k, hcategory, hpath⟩ := hmade.placed p hpiece
    rw [Allocator.candidate_eq, hext, ← hmade.dir_eq] at hpath
    exact ⟨category, _, hcategory, Allocator.stem_flat (fileName_flat p.symbol) k,
      Allocator.stem_ne_nil (fileName_ne_nil p.symbol) k, hpath⟩

/-- A module path to a plain name leads to the piece of that name if no other piece is tried before. -/
lemma resolve?_written_iff {B source spec stem : Path} (hd : f.decompose opts = .ok d)
    (hwrite : d.write text ({} : Disk) = (.ok (), disk)) (hp : p ∈ d.content) (hclean : B.clean = B)
    (hne : B.components ≠ []) (hplain : Plain stem) (hpath : p.path = join B stem ++ declarations)
    (htarget : join (Path.dir source) spec = join B stem) (hrel : isRelativeSpecifier spec = true) :
    Specifier.resolve? disk.isFile source spec = some p.path ↔
      ∀ q ∈ d.pieces, q.path ∉ Specifier.shadows (join B stem) := by
  obtain ⟨⟨rooted, hpieces⟩, -⟩ := Decomposition.paths_apart hd
  have hmem : p ∈ d.pieces := List.mem_of_mem_drop hp
  have hfile : disk.isFile p.path = true := (isFile_write_iff hd hwrite).mpr ⟨p, hmem, rfl⟩
  have hbeside := fun s hs => Specifier.exists_of_mem_shadows (q := s) hclean hne hplain hs
  have hlength : ∀ s ∈ Specifier.shadows (join B stem), s.length < p.path.length := by
    intro s hs
    have := (hbeside s hs).2.2
    rw [hpath, List.length_append, declarations_eq]
    exact this
  rw [resolve?_eq_some_iff hrel htarget hpath hfile hlength]
  constructor
  · intro hfree q hq hshadow
    have hstands := (isFile_write_iff hd hwrite).mpr ⟨q, hq, rfl⟩
    rw [hfree _ hshadow] at hstands
    cases hstands
  · intro hfree s hs
    rw [Bool.eq_false_iff]
    intro hstands
    obtain ⟨r, hr, hkey⟩ := (isFile_write_iff hd hwrite).mp hstands
    obtain ⟨hsclean, hsabs, -⟩ := hbeside s hs
    have hpabs : isAbs p.path = B.isAbs := by
      rw [hpath, isAbs_append (join_ne_nil B hplain.ne_nil), isAbs_join (hclean ▸ clean_ne_nil B)]
    have habs : isAbs s = isAbs r.path := by
      rw [hsabs, (hpieces r hr).2, ← (hpieces p hmem).2, hpabs]
    exact hfree r hr (eq_of_components hsclean (hpieces r hr).1 habs (Disk.components_eq_of_key_eq hkey) ▸ hs)

/-- The index names every piece by a module path. Once the pieces are written the path leads to the piece,
unless the piece is named by dots or another piece stands where an earlier try looks. -/
theorem index_specifier_reaches_iff (hext : opts.withDefaults.extension = ".d.ts")
    (hindex : slash ∉ opts.withDefaults.indexName) (hd : f.decompose opts = .ok d)
    (hwrite : d.write text ({} : Disk) = (.ok (), disk)) (hp : p ∈ d.content) (hrole : p.isPackage = false) :
    ∃ index head line tail spec, d.index? = some index ∧ index.role = .generated (head ++ line ++ tail) ∧
      SourceFile.pieceLine d.dir p = .ok line ∧ Names line spec ∧
      (Specifier.resolve? disk.isFile index.path spec = some p.path ↔
        base p.path ≠ dot ++ ".d.ts" ∧ base p.path ≠ dotDot ++ ".d.ts" ∧
          ∀ q ∈ d.pieces, q.path ∉ Specifier.shadows (Text.dropSuffix p.path ".d.ts")) := by
  obtain ⟨category, stem, hcategory, hflat, hne, hpath⟩ := exists_stem hext hd hp hrole
  obtain ⟨dir, opening, pieces, hmade⟩ := Decomposition.exists_made hd
  have hdir : d.dir.clean = d.dir := hmade.dir_eq ▸ hmade.dir_clean
  have hspec : moduleReference d.dir p.path = .ok (Specifier.toPiece category stem) :=
    hpath ▸ moduleReference_piece hdir hflat
  obtain ⟨index, head, line, tail, hindex', hrole', hline⟩ := exists_indexLine hd hp
  have hsource : Path.dir index.path = d.dir := by
    rw [hmade.index_path index hindex', Options.indexFile, hext, hmade.dir_eq]
    exact dir_join hmade.dir_clean (plain_append hindex (by decide) (by decide))
  have hcatClean := clean_join d.dir (plain_category category).ne_nil
  have hcatNe : (join d.dir category.name).components ≠ [] := by
    simp [components_category (hdir ▸ clean_ne_nil d.dir)]
  have hfull : p.path = join d.dir category.name ++ slash :: (stem ++ declarations) := by
    rw [hpath, join_eq_append hcatClean hcatNe (plain_append_declarations hflat)]
  have hbase (u : Text) : base p.path ≠ u ++ ".d.ts" ↔ stem ≠ u := by
    rw [hfull, base_append (plain_append_declarations hflat), declarations]
    exact not_congr (List.append_left_inj _)
  refine ⟨index, head, line, tail, _, hindex', hrole', hline, names_of_pieceLine hcategory hspec hline, ?_⟩
  rw [hbase, hbase]
  by_cases hdots : stem = dot ∨ stem = dotDot
  · refine iff_of_false (resolve?_ne_of_dots hdir hsource hpath hdots) ?_
    rcases hdots with h | h <;> simp [h]
  · rw [not_or] at hdots
    have hplain : Plain stem := ⟨hne, hdots.1, hdots.2, hflat.1⟩
    have hending : p.path = join (join d.dir category.name) stem ++ declarations := by
      rw [hfull, join_eq_append hcatClean hcatNe hplain]
      simp
    have hstripped : Text.dropSuffix p.path ".d.ts" = join (join d.dir category.name) stem := by
      rw [hending, declarations]
      exact Text.dropSuffix_append _ _
    have htarget : join (Path.dir index.path) (Specifier.toPiece category stem) = join (join d.dir category.name) stem := by
      rw [hsource, Specifier.join_toPiece hdir hflat hplain]
    rw [hstripped, resolve?_written_iff hd hwrite hp hcatClean hcatNe hplain hending htarget (by cases category <;> rfl)]
    simp [hdots]

/-- Each piece with the file that the module path to it leads to from `index`, once all are written. -/
def Decomposition.reached (d : Decomposition) (text : Text) (index : Path) : List (Path × Option Path) :=
  d.content.map fun p => (p.path, ((moduleReference d.dir p.path).toOption.bind
    (Specifier.resolve? (d.write text ({} : Disk)).2.isFile index)))

/-- Modules with names that end like a script, or that are a dot. -/
def modulesText : Text := "declare module 'x' {}\ndeclare module 'x.js' {}\ndeclare module '.' {}\n"

def modulesFile : SourceFile := SourceFile.ofText {} "/t/x.ts" modulesText

/-- One module path leads to the piece of another module, and one leads nowhere. -/
theorem specifier_misses_piece :
    (modulesFile.decompose { translatedRoot := "/t", piecesRoot := "/p" }).map
      (fun d => d.reached modulesText "/p/x/index.d.ts") =
      .ok [("/p/x/modules/..d.ts", none), ("/p/x/modules/x.js.d.ts", some "/p/x/modules/x.d.ts"),
        ("/p/x/modules/x.d.ts", some "/p/x/modules/x.d.ts")] := by
  decide +kernel

theorem specifier_reaches_plain_module :
    ∃ d disk, modulesFile.decompose { translatedRoot := "/t", piecesRoot := "/p" } = .ok d ∧
      d.write modulesText ({} : Disk) = (.ok (), disk) ∧
      ∃ p ∈ d.content, p.path = Text.ofString "/p/x/modules/x.d.ts" ∧
        ∃ index spec, d.index? = some index ∧ Specifier.resolve? disk.isFile index.path spec = some p.path := by
  have hcomputed : (modulesFile.decompose { translatedRoot := "/t", piecesRoot := "/p" }).map (fun d =>
      decide ((d.write modulesText ({} : Disk)).1.isOk = true ∧
        ∃ p ∈ d.content, p.path = Text.ofString "/p/x/modules/x.d.ts" ∧ p.isPackage = false ∧
          base p.path ≠ dot ++ ".d.ts" ∧ base p.path ≠ dotDot ++ ".d.ts" ∧
          ∀ q ∈ d.pieces, q.path ∉ Specifier.shadows (Text.dropSuffix p.path ".d.ts"))) = .ok true := by
    decide +kernel
  obtain ⟨d, hd, hfound⟩ := exists_of_map_eq_ok hcomputed
  obtain ⟨hok, p, hp, hpath, hrole, hfree⟩ := of_decide_eq_true hfound
  cases hwrite : d.write modulesText ({} : Disk) with
  | mk result disk =>
    cases result with
    | error failure => simp [hwrite, Except.isOk, Except.toBool] at hok
    | ok u =>
      obtain ⟨index, -, -, -, spec, hindex, -, -, -, hresolve⟩ :=
        index_specifier_reaches_iff (by decide) (by decide) hd hwrite hp hrole
      exact ⟨d, disk, hd, hwrite, p, hp, hpath, index, spec, hindex, hresolve.mpr hfree⟩

end Written

end DeclPieces
