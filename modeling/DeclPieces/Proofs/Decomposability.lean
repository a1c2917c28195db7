import DeclPieces.Proofs.Allocation
import DeclPieces.Proofs.ModuleReference

/-! Which files below the translated root can be split. Two things stand in the way: an import that leads to the
directory of the pieces, and a reference to a declaration whose index has no place or has that of a category. -/
namespace DeclPieces
open Path

/-- Is the module path of an import replaced in the index? -/
def Import.rewritten (im : Import) : Bool := im.isRelative && decide (im.specifierStart < im.specifierStop)

/-- The import stands in the text, and a module path that is replaced stands in the import. -/
structure Import.InText (im : Import) (text : Text) : Prop where
  start_nonneg : 0 ≤ im.start
  start_le_stop : im.start ≤ im.stop
  stop_le_length : im.stop ≤ text.length
  specifier : im.rewritten = true → im.start ≤ im.specifierStart ∧ im.specifierStop ≤ im.stop

instance (im : Import) (text : Text) : Decidable (im.InText text) :=
  decidable_of_iff (0 ≤ im.start ∧ im.start ≤ im.stop ∧ im.stop ≤ text.length ∧
      (im.rewritten = true → im.start ≤ im.specifierStart ∧ im.specifierStop ≤ im.stop))
    ⟨fun ⟨h₁, h₂, h₃, h₄⟩ => ⟨h₁, h₂, h₃, h₄⟩, fun h => ⟨h.1, h.2, h.3, h.4⟩⟩

/-- Names with which the pieces stay in their directories. -/
structure Options.Confined (o : Options) : Prop where
  root : o.piecesRoot.isAbs = true
  extension_ne_nil : o.extension ≠ []
  extension_ne_dot : o.extension ≠ dot
  extension : slash ∉ o.extension
  packageName_ne_nil : o.packageName ≠ []
  packageName : slash ∉ o.packageName

/-- Is the declaration in a file with an index, and is that another file than `folder`? -/
def CrossReference.Importable (o : Options) (folder : Path) (r : CrossReference) : Prop :=
  within (Path.dir r.file) o.translatedRoot = true ∧ Address.indexPath o r.file ≠ .ok folder

instance (o : Options) (folder : Path) (r : CrossReference) : Decidable (r.Importable o folder) :=
  inferInstanceAs (Decidable (_ ∧ _))

namespace Address
variable {o : Options} {source folder path : Path}

/-- A source below the root has a directory for its pieces. -/
lemma pieceDirectory_isOk_iff :
    (∃ dir, pieceDirectory o source = .ok dir) ↔ within (Path.dir source) o.translatedRoot = true := by
  unfold pieceDirectory
  cases hwithin : within (Path.dir source) o.translatedRoot with
  | false => simp [hwithin]
  | true =>
    cases hrel : rel? o.translatedRoot (Path.dir source) with
    | none => simp [within, hrel] at hwithin
    | some below => simp [hwithin, hrel]

lemma indexPath_isOk_iff :
    (∃ index, indexPath o source = .ok index) ↔ within (Path.dir source) o.translatedRoot = true := by
  have hroot : o.withDefaults.translatedRoot = o.translatedRoot := rfl
  rw [← hroot, ← pieceDirectory_isOk_iff, indexPath]
  cases pieceDirectory o.withDefaults source <;> simp [Except.map]

lemma indexPath_clean {index : Path} (hroot : o.piecesRoot.isAbs = true) (h : indexPath o source = .ok index) :
    index.clean = index ∧ index.isAbs = true := by
  obtain ⟨dir, hdir, rfl⟩ := exists_of_map_eq_ok h
  have hfile : o.withDefaults.indexFile ≠ [] := by simp [Options.indexFile, o.extension_withDefaults_ne_nil]
  have habs := isAbs_pieceDirectory hdir hroot
  exact ⟨clean_join dir hfile, (isAbs_join (ne_nil_of_isAbs habs) _).trans habs⟩

end Address

variable {o : Options} {refs : List CrossReference} {folder path : Path}

/-- What a piece needs can be imported if all of it is importable. -/
lemma importText_isOk_iff (hroot : o.piecesRoot.isAbs = true) (hfolder : folder.clean = folder)
    (habs : folder.isAbs = true) (hpath : Path.dir path = folder) :
    (∃ t, importText o refs path = .ok t) ↔ ∀ r ∈ refs, r.Importable o folder := by
  have hentry (r : CrossReference) : (∃ index, Address.indexPath o r.file = .ok index ∧
      ∃ m, Address.moduleReference folder index = .ok m) ↔ r.Importable o folder := by
    unfold CrossReference.Importable
    rw [← Address.indexPath_isOk_iff]
    constructor
    · rintro ⟨index, hindex, hm⟩
      obtain ⟨hclean, hrooted⟩ := Address.indexPath_clean hroot hindex
      have hne := (Address.moduleReference_isOk_iff habs hrooted).mp hm
      refine ⟨⟨index, hindex⟩, fun he => hne ?_⟩
      rw [Except.ok.inj (hindex.symm.trans he)]
    · rintro ⟨⟨index, hindex⟩, hne⟩
      obtain ⟨hclean, hrooted⟩ := Address.indexPath_clean hroot hindex
      refine ⟨index, hindex, (Address.moduleReference_isOk_iff habs hrooted).mpr fun he => hne ?_⟩
      rw [hindex, ← hclean, ← he, hfolder]
  unfold importText
  simp only [exists_bind_eq_ok_iff, pure_eq_ok_iff, exists_eq', and_true, exists_mapM_eq_ok_iff, hpath, hentry]

namespace SourceFile
variable {f : SourceFile} {o : Options} {dir : Path}

/-- Does no import that is rewritten lead to the directory of the pieces? -/
def Rewritable (f : SourceFile) (dir : Path) : Prop :=
  ∀ im ∈ f.imports, im.rewritten = true → join (Path.dir f.path) im.specifier ≠ dir

/-- The category of the piece that a statement yields. -/
def category? (s : Statement) : Option Category :=
  match verdict s with
  | .accepted category _ => some category
  | _ => none

/-- Can all that the statement refers to be imported into its piece? -/
def Importable (f : SourceFile) (o : Options) (dir : Path) (s : Statement) : Prop :=
  ∀ category ∈ category? s, ∀ r ∈ f.crossReferences o s (s.leadingStart (f.packageDoc o.docTag)) s.stop,
    r.Importable o (join dir category.name)

instance (f : SourceFile) (dir : Path) : Decidable (f.Rewritable dir) :=
  inferInstanceAs (Decidable (∀ im ∈ f.imports, _ → _))

instance (f : SourceFile) (o : Options) (dir : Path) (s : Statement) : Decidable (f.Importable o dir s) :=
  inferInstanceAs (Decidable (∀ category ∈ category? s, ∀ r ∈ f.crossReferences o s _ s.stop, _))

lemma exists_slice? (t : Text) {start stop : Int} (h : 0 ≤ start ∧ start ≤ stop ∧ stop ≤ t.length) :
    ∃ u, t.slice? start stop = some u := Option.isSome_iff_exists.mp (Text.slice?_isSome_iff.mpr h)

lemma isRelativeSpecifier_ne_nil {spec : Text} (h : isRelativeSpecifier spec = true) : spec ≠ [] := by
  rintro rfl
  exact absurd h (by decide)

/-- Only the module path of an import is replaced. -/
lemma rewriteImport_eq {im : Import} (him : im.InText f.text) (hrewritten : im.rewritten = true) (dir : Path) :
    ∃ before spec after, f.text.slice? im.start im.specifierStart = some before ∧
      f.text.slice? im.specifierStart im.specifierStop = some spec ∧
      f.text.slice? im.specifierStop im.stop = some after ∧
      f.rewriteImport dir im = (lift (Address.moduleReference dir (join (Path.dir f.path) im.specifier))).map
        fun new => before ++ new ++ after := by
  obtain ⟨text, htext⟩ := exists_slice? f.text ⟨him.start_nonneg, him.start_le_stop, him.stop_le_length⟩
  obtain ⟨hrel, hlt⟩ : im.isRelative = true ∧ im.specifierStart < im.specifierStop := by
    simpa [Import.rewritten] using hrewritten
  have hnot : ¬ im.specifierStop ≤ im.specifierStart := by omega
  obtain ⟨hfirst, hlast⟩ := him.specifier hrewritten
  have hstart := him.start_nonneg
  have hstop := him.stop_le_length
  obtain ⟨before, hbefore⟩ : ∃ t, f.text.slice? im.start im.specifierStart = some t := exists_slice? f.text (by omega)
  obtain ⟨spec, hspec⟩ : ∃ t, f.text.slice? im.specifierStart im.specifierStop = some t :=
    exists_slice? f.text (by omega)
  obtain ⟨after, hafter⟩ : ∃ t, f.text.slice? im.specifierStop im.stop = some t := exists_slice? f.text (by omega)
  refine ⟨before, spec, after, hbefore, hspec, hafter, ?_⟩
  unfold rewriteImport slice?
  simp only [htext, hrel, hnot, hbefore, hafter, Bool.not_true, decide_false, Bool.or_self, Bool.false_eq_true, if_false]
  cases Address.moduleReference dir (join (Path.dir f.path) im.specifier) <;> rfl

/-- An import is rewritten unless it leads to the directory of the pieces. -/
lemma rewriteImport_isOk_iff {im : Import} (hf : isAbs f.path = true) (hclean : dir.clean = dir)
    (habs : dir.isAbs = true) (him : im.InText f.text) :
    (∃ t, f.rewriteImport dir im = .ok t) ↔
      (im.rewritten = true → join (Path.dir f.path) im.specifier ≠ dir) := by
  cases hrewritten : im.rewritten with
  | false =>
    obtain ⟨text, htext⟩ := exists_slice? f.text ⟨him.start_nonneg, him.start_le_stop, him.stop_le_length⟩
    have hkept : (!im.isRelative || decide (im.specifierStop ≤ im.specifierStart)) = true := by
      simpa [Import.rewritten, or_iff_not_imp_left] using hrewritten
    simp [rewriteImport, slice?, htext, hkept]
  | true =>
    obtain ⟨before, -, after, -, -, -, heq⟩ := rewriteImport_eq him hrewritten dir
    have hrel : im.isRelative = true := (Bool.and_eq_true_iff.mp hrewritten).1
    have hdir : Path.dir f.path ≠ [] := clean_ne_nil _
    have hspec := isRelativeSpecifier_ne_nil hrel
    have htarget := Address.moduleReference_isOk_iff habs ((isAbs_join hdir im.specifier).trans (isAbs_dir hf))
    rw [hclean, clean_join _ hspec, ne_comm] at htarget
    simp only [heq, forall_const, ← htarget]
    cases Address.moduleReference dir (join (Path.dir f.path) im.specifier) <;> simp [lift, Except.map]

lemma importLines_isOk_iff {im : Import} :
    (∃ t, f.importLines dir im = .ok t) ↔ ∃ t, f.rewriteImport dir im = .ok t := by
  unfold importLines
  simp only [exists_bind_eq_ok_iff, pure_eq_ok_iff, exists_eq', and_true]

/-- A piece in the directory of a category can be named in the index. -/
lemma pieceLine_isOk {p : Piece} {category : Category} {file : Path} (habs : dir.isAbs = true)
    (hfile : Plain file) (hpath : p.path = join (join dir category.name) file) :
    ∃ line, pieceLine dir p = .ok line := by
  have hdir := ne_nil_of_isAbs habs
  have hfolder : join dir category.name ≠ [] := join_ne_nil dir (Address.plain_category category).ne_nil
  have hrooted : p.path.isAbs = true := by rw [hpath, isAbs_join hfolder, isAbs_join hdir, habs]
  have hbelow : dir.clean ≠ p.path.clean := by
    intro he
    have hcomponents := congrArg components he
    rw [components_clean, components_clean, hpath, components_join_plain hfolder hfile,
      Address.components_category hdir, List.append_assoc] at hcomponents
    exact absurd hcomponents (by simp)
  obtain ⟨module, hmodule⟩ := (Address.moduleReference_isOk_iff habs hrooted).mpr hbelow
  unfold pieceLine
  cases p.role with
  | generated content => exact ⟨_, rfl⟩
  | package => exact ⟨_, rfl⟩
  | declared symbol kind category references sideEffect =>
    simp only [hmodule]
    split <;> exact ⟨_, rfl⟩

/-- There is an index unless an import leads to the directory of the pieces. -/
lemma indexContent_isOk_iff {content : List Piece} (hf : isAbs f.path = true) (hclean : dir.clean = dir)
    (habs : dir.isAbs = true) (hims : ∀ im ∈ f.imports, im.InText f.text)
    (hcontent : ∀ p ∈ content, ∃ line, pieceLine dir p = .ok line) :
    (∃ index, f.indexContent dir content = .ok index) ↔ f.Rewritable dir := by
  have hlines := exists_mapM_eq_ok_iff.mpr hcontent
  unfold indexContent Rewritable
  simp only [exists_bind_eq_ok_iff, pure_eq_ok_iff, exists_eq', and_true, hlines, exists_mapM_eq_ok_iff,
    importLines_isOk_iff]
  exact forall₂_congr fun im him => rewriteImport_isOk_iff hf hclean habs (hims im him)

end SourceFile

lemma Options.Confined.plain (ho : o.Confined) {name : Text} (hne : name ≠ []) (hname : slash ∉ name) :
    Plain (name ++ o.extension) := by
  have hlength := List.length_pos_iff.mpr hne
  have hlength' := List.length_pos_iff.mpr ho.extension_ne_nil
  have hlong (t : Text) (ht : t.length < 2) : name ++ o.extension ≠ t := by
    rintro rfl
    rw [List.length_append] at ht
    omega
  refine ⟨hlong [] (by decide), hlong dot (by decide), fun he => ho.extension_ne_dot ?_, by simp [hname, ho.extension]⟩
  -- of two dots the extension is one
  have hlengths := congrArg List.length he
  simp only [List.length_append, List.length_cons, List.length_nil] at hlengths
  have hone : (dot : Text).length = o.extension.length := by
    simp only [List.length_cons, List.length_nil]
    omega
  exact (List.append_inj' (he.trans (by rfl : dotDot = dot ++ dot)) hone.symm).2

namespace SourceFile
variable {f : SourceFile} {o : Options} {dir : Path}

/-- A statement can be split off if all it refers to can be imported. -/
lemma share_isOk_iff (ho : o.Confined) (habs : dir.isAbs = true) (a : Allocator) (s : Statement) :
    (∃ r, f.share o dir a s = .ok r) ↔ f.Importable o dir s := by
  unfold share Importable category?
  cases hv : verdict s with
  | silent => simp
  | refused reason => simp
  | accepted category id =>
    have hdir := ne_nil_of_isAbs habs
    have hfolder := clean_join dir (Address.plain_category category).ne_nil
    have hrooted := (isAbs_join hdir category.name).trans habs
    obtain ⟨symbol, hsymbol⟩ : ∃ symbol, (f.symbol? id).getD ⟨[], []⟩ = symbol := ⟨_, rfl⟩
    have hname := (Address.fileName_flat symbol.name).1
    have hplain := ho.plain (Address.fileName_ne_nil symbol.name) hname
    obtain ⟨path, b, hallocate⟩ := Allocator.allocateFree_isOk hname ho.extension a (join dir category.name)
    obtain ⟨-, -, k, hpath⟩ := Allocator.allocateFree_eq_ok hallocate
    have hpathDir : Path.dir path = join dir category.name := by
      rw [hpath, Allocator.candidate_eq]
      exact dir_join hfolder (Allocator.plain_stem hname ho.extension hplain k)
    simp only [exists_bind_eq_ok_iff, hsymbol, hallocate, Except.ok.injEq, exists_eq_left', declarationPiece,
      pure_eq_ok_iff, exists_eq', and_true, importText_isOk_iff ho.root hfolder hrooted hpathDir, Option.mem_some_iff,
      forall_eq']

lemma shares_isOk_iff (ho : o.Confined) (habs : dir.isAbs = true) (a : Allocator) (statements : List Statement) :
    (∃ parts, f.shares o dir a statements = .ok parts) ↔ ∀ s ∈ statements, f.Importable o dir s := by
  induction statements generalizing a with
  | nil => simp [shares]
  | cons s rest ih =>
    unfold shares
    simp only [exists_bind_eq_ok_iff, pure_eq_ok_iff, exists_eq', and_true, ih, List.forall_mem_cons,
      ← share_isOk_iff ho habs a s]
    exact exists_and_right

lemma openingPieces_isOk (f : SourceFile) (ho : o.Confined) (dir : Path) :
    ∃ opening a, f.openingPieces o dir = .ok (opening, a) := by
  unfold openingPieces
  simp only
  cases f.packageDoc o.docTag with
  | none => exact ⟨_, _, rfl⟩
  | some doc =>
    obtain ⟨path, b, hallocate⟩ := Allocator.allocateFree_isOk ho.packageName ho.extension
      (Allocator.reserve {} (join dir o.indexFile)) dir
    exact ⟨_, b, by rw [hallocate]; rfl⟩

lemma exists_lift_eq_ok_iff {α : Type} {x : Except Fault α} {r : α} : lift x = .ok r ↔ x = .ok r := by
  cases x <;> simp [lift]

/-- Each piece stands for itself or in the directory of its category. -/
lemma pieceLine_isOk_of_shares {opening : List Piece} {parts : List Share} {a : Allocator}
    (ho : o.Confined) (habs : dir.isAbs = true) (hopening : f.openingPieces o dir = .ok (opening, a))
    (hparts : f.shares o dir a f.statements = .ok parts) :
    ∀ p ∈ opening ++ parts.filterMap Share.piece?, ∃ line, pieceLine dir p = .ok line := by
  intro p hp
  rcases List.mem_append.mp hp with hp | hp
  · rcases openingPieces_eq_ok hopening with ⟨-, rfl, -⟩ | ⟨doc, path, k, -, rfl, -⟩
    · cases hp
    · obtain rfl := List.mem_singleton.mp hp
      exact ⟨_, rfl⟩
  · obtain ⟨-, hplaced, -⟩ := shares_eq_ok hparts
    obtain ⟨-, category, k, -, hpath⟩ := hplaced p hp
    have hname := (Address.fileName_flat p.symbol).1
    have hplain := ho.plain (Address.fileName_ne_nil p.symbol) hname
    rw [Allocator.candidate_eq] at hpath
    exact pieceLine_isOk habs (Allocator.plain_stem hname ho.extension hplain k) hpath

/-- A file below the root can be split just if no import leads to the directory of its pieces, and whatever its
declarations refer to can be imported. -/
theorem decompose_isOk_iff {opts : Options} (ho : opts.withDefaults.Confined) (hf : isAbs f.path = true)
    (hwithin : within (Path.dir f.path) opts.translatedRoot = true) (hims : ∀ im ∈ f.imports, im.InText f.text) :
    ∃ dir, Address.pieceDirectory opts.withDefaults f.path = .ok dir ∧
      ((∃ d, f.decompose opts = .ok d) ↔
        f.Rewritable dir ∧ ∀ s ∈ f.statements, f.Importable opts.withDefaults dir s) := by
  have hroot : opts.withDefaults.translatedRoot = opts.translatedRoot := rfl
  rw [← hroot] at hwithin
  obtain ⟨dir, hdir⟩ := Address.pieceDirectory_isOk_iff.mpr hwithin
  have hclean := Address.clean_pieceDirectory hdir
  have habs := Address.isAbs_pieceDirectory hdir ho.root
  obtain ⟨opening, a, hopening⟩ := f.openingPieces_isOk ho dir
  refine ⟨dir, hdir, ?_⟩
  unfold decompose
  simp only [exists_bind_eq_ok_iff, exists_lift_eq_ok_iff, hdir, hopening, Except.ok.injEq, exists_eq_left',
    pure_eq_ok_iff, exists_eq', and_true]
  constructor
  · rintro ⟨parts, hparts, hindex⟩
    have hlines := pieceLine_isOk_of_shares ho habs hopening hparts
    exact ⟨(indexContent_isOk_iff hf hclean habs hims hlines).mp hindex,
      (shares_isOk_iff ho habs a f.statements).mp ⟨parts, hparts⟩⟩
  · rintro ⟨himports, hreferences⟩
    obtain ⟨parts, hparts⟩ := (shares_isOk_iff ho habs a f.statements).mpr hreferences
    have hlines := pieceLine_isOk_of_shares ho habs hopening hparts
    exact ⟨parts, hparts, (indexContent_isOk_iff hf hclean habs hims hlines).mpr himports⟩

def besideOptions : Options := Options.ofRoots "/work/t" "/work/p"

/-- A file with an import, and with a declaration that refers to another one. -/
def importingFile : SourceFile :=
  ofText {} "/work/t/x.ts" "import { A } from './y';
type B = 1;
type C = B;
"

theorem importing_file_decomposes : ∃ d, importingFile.decompose besideOptions = .ok d := by
  have hfacts : (∀ im ∈ importingFile.imports, im.InText importingFile.text) ∧ importingFile.Rewritable "/work/p/x" ∧
      ∀ s ∈ importingFile.statements, importingFile.Importable besideOptions.withDefaults "/work/p/x" s := by
    decide +kernel
  obtain ⟨hims, hrewritable, himportable⟩ := hfacts
  obtain ⟨dir, hdir, hiff⟩ := @decompose_isOk_iff importingFile besideOptions
    ⟨by decide, by decide, by decide, by decide, by decide, by decide⟩ (by decide) (by decide) hims
  have hpieces : Address.pieceDirectory besideOptions.withDefaults importingFile.path = .ok "/work/p/x" := by decide
  obtain rfl := Except.ok.inj (hdir.symm.trans hpieces)
  exact hiff.mpr ⟨hrewritable, himportable⟩

/-- What a computation that fails reports. -/
def report? {α : Type} : Except Failure α → Option Text
  | .ok _ => none
  | .error failure => some failure.toFault.message

/-- A file that imports from its own pieces, and one whose index has the name of a category. -/
theorem self_reference_fails_decomposition :
    let importing := ofText {} "/work/t/x.ts" "import { A } from '../p/x';\n"
    let declaring := ofText {} "/work/t/x.ts" "type A = 1;\ntype B = A;\n"
    let named : Options := { besideOptions with indexName := "ty", extension := "pes" }
    within (Path.dir importing.path) besideOptions.translatedRoot = true ∧
      (∀ im ∈ importing.imports ++ declaring.imports, im.InText importing.text) ∧
      report? (importing.decompose besideOptions) =
        some "[INTERNAL_ERROR] /work/p/x: module reference from /work/p/x to itself" ∧
      report? (declaring.decompose named) =
        some "[INTERNAL_ERROR] /work/p/x/types: module reference from /work/p/x/types to itself" :=
  by decide +kernel

end SourceFile

end DeclPieces
