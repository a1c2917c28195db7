import DeclPieces.Proofs.IndexSpecifier
import DeclPieces.Proofs.LowerCase
import DeclPieces.Proofs.Trouble
import DeclPieces.Settings
import DeclPieces.Workspace.Discover

/-! The pieces of two sources, compared without regard to case. They meet if the piece directories are the same, or
if the directory of one source is that of a category of the other; nothing else brings them together. -/
namespace DeclPieces
open Path

namespace Path
variable {B B' c c' : Path}

lemma isAbs_resolve (hB : B.isAbs = true) (p : Path) : (resolve B p).isAbs = true := by
  unfold resolve
  split
  · next hp => rw [isAbs_clean, hp]
  · exact (isAbs_join (ne_nil_of_isAbs hB) p).trans hB

lemma sameButCase_join (hB : B ≠ []) (hB' : B' ≠ []) (hc : Plain c) (hc' : Plain c') :
    SameButCase (join B c) (join B' c') ↔ SameButCase B B' ∧ c.lower = c'.lower := by
  unfold SameButCase
  rw [components_join_plain hB hc, components_join_plain hB' hc', map_lower_append_singleton]

end Path

lemma Options.slash_not_mem_orElse {t fallback : Text} (ht : slash ∉ t) (hf : slash ∉ fallback) :
    slash ∉ orElse t fallback := by
  unfold orElse
  split <;> assumption

namespace Address
variable {o : Options} {source source' D D' : Path}

/-- The clean rooted path of a declaration file with an ordinary name. -/
structure Ordinary (source : Path) : Prop where
  clean : source.clean = source
  rooted : source.isAbs = true
  named : ∃ stem, Plain stem ∧ base source = stem ++ declarations

/-- The directory of the pieces lies below its root as the source lies below the other. -/
lemma components_pieceDirectory (hroot : o.piecesRoot.isAbs = true) (hs : Ordinary source)
    (h : pieceDirectory o source = .ok D) :
    ∃ parts stem, D.components = o.piecesRoot.components ++ parts ++ [stem] ∧
      source.components = o.translatedRoot.components ++ parts ++ [stem ++ declarations] := by
  obtain ⟨stem, hstem, hbase⟩ := hs.named
  have hne : source.components ≠ [] := by
    intro hnil
    have hrooted : source = [slash] := by
      rw [← hs.clean, clean_eq_ofComponents, hs.rooted, hnil]
      rfl
    rw [hrooted, declarations_eq] at hbase
    have hlength := congrArg List.length hbase
    simp [base] at hlength
  obtain ⟨E, c, hE, habs, hc, rfl⟩ := exists_eq_join hs.clean hs.rooted hne
  have hEne : E ≠ [] := hE ▸ clean_ne_nil E
  rw [base_join hc] at hbase
  subst hbase
  unfold pieceDirectory at h
  simp only [dir_join hE hc, base_join hc, trimSuffix_append hstem.ne_nil] at h
  split at h
  · cases h
  next hwithin =>
  cases hrel : rel? o.translatedRoot E with
  | none => simp [hrel] at h
  | some below =>
    simp only [hrel] at h
    obtain rfl := Except.ok.inj h
    have hclimbs : climbs below = false := by simpa [within, hrel] using hwithin
    obtain ⟨parts, hparts, -, -, hbelow, hdown⟩ := exists_parts_of_rel? habs hrel hclimbs
    have hrootNe := ne_nil_of_isAbs hroot
    refine ⟨parts, stem, ?_, ?_⟩
    · have hjoin : joinAll [o.piecesRoot, below, stem] = clean ((o.piecesRoot ++ slash :: below) ++ slash :: stem) := by
        have hempty : o.piecesRoot.isEmpty = false := by simpa using hrootNe
        simp [joinAll, List.dropWhile, hempty, Text.joinWith]
      rw [hjoin, components_clean, components_append (by simp), hdown _ hrootNe,
        Text.splitBy_of_not_mem hstem.not_slash]
      simp [push_plain hstem]
    · rw [components_join_plain hEne hc, hparts]

/-- Sources with ordinary names have the same directory only if they are the same but for case. -/
lemma sameButCase_pieceDirectory (hroot : o.piecesRoot.isAbs = true) (hs : Ordinary source) (hs' : Ordinary source')
    (h : pieceDirectory o source = .ok D) (h' : pieceDirectory o source' = .ok D') :
    SameButCase D D' ↔ SameButCase source source' := by
  obtain ⟨parts, stem, hD, hsource⟩ := components_pieceDirectory hroot hs h
  obtain ⟨parts', stem', hD', hsource'⟩ := components_pieceDirectory hroot hs' h'
  have hlower (t : Text) : Text.lower (t ++ declarations) = t.lower ++ Text.lower declarations := by
    rw [declarations_eq]
    exact Text.lower_append_cons (by decide) t _
  have hsame (root : List Text) (t t' : Text) :
      (root ++ parts ++ [t]).map Text.lower = (root ++ parts' ++ [t']).map Text.lower ↔
        parts.map Text.lower = parts'.map Text.lower ∧ t.lower = t'.lower := by
    rw [map_lower_append_singleton, List.map_append, List.map_append, List.append_right_inj]
  unfold SameButCase
  rw [hD, hD', hsource, hsource', hsame, hsame, hlower, hlower, List.append_left_inj]

end Address

namespace Piece
variable {o : Options}

/-- The name that the file of a piece is given. -/
def title (o : Options) (p : Piece) : Text :=
  match p.role with
  | .generated _ => o.indexName
  | .package => o.packageName
  | .declared symbol .. => Address.fileName symbol

lemma title_of_category {p : Piece} {category : Category} (h : p.category? = some category) :
    p.title o = Address.fileName p.symbol := by
  unfold category? at h
  unfold title symbol
  cases hrole : p.role with
  | declared => rfl
  | _ => simp [hrole] at h

lemma slash_not_mem_title (hindex : slash ∉ o.indexName) (hpackage : slash ∉ o.packageName) (p : Piece) :
    slash ∉ p.title o := by
  unfold title
  cases p.role with
  | generated content => exact hindex
  | package => exact hpackage
  | declared symbol => exact (Address.fileName_flat symbol).1

end Piece

namespace Decomposition
variable {opts : Options} {f f' : SourceFile} {d d' : Decomposition} {p q : Piece}

/-- The directory in which a piece stands: that of its category, or of all pieces if it has none. -/
def folder (d : Decomposition) (p : Piece) : Path :=
  match p.category? with
  | none => d.dir
  | some category => join d.dir category.name

/-- Names that are not led out of their directory, with an ending that makes them plain. -/
structure Addressing (o : Options) : Prop where
  root : o.piecesRoot.isAbs = true
  extension : slash ∉ o.extension ∧ 3 ≤ o.extension.length
  indexName : slash ∉ o.indexName
  packageName : slash ∉ o.packageName

lemma dir_clean (hd : f.decompose opts = .ok d) (hroot : opts.piecesRoot.isAbs = true) :
    d.dir.clean = d.dir ∧ d.dir.isAbs = true := by
  obtain ⟨dir, opening, a, parts, index, hdir, -, -, -, rfl⟩ := SourceFile.decompose_eq_ok hd
  exact ⟨Address.clean_pieceDirectory hdir, Address.isAbs_pieceDirectory hdir hroot⟩

lemma folder_isAbs (hd : f.decompose opts = .ok d) (hroot : opts.piecesRoot.isAbs = true) (p : Piece) :
    (d.folder p).isAbs = true := by
  obtain ⟨hclean, habs⟩ := dir_clean hd hroot
  unfold folder
  split
  · exact habs
  · exact (isAbs_join (hclean ▸ clean_ne_nil d.dir) _).trans habs

/-- A piece is stored in its directory, under the name it is given or that name with a number. -/
lemma path_eq_join (hd : f.decompose opts = .ok d) (hp : p ∈ d.pieces) : ∃ k,
    p.path = join (d.folder p) (Allocator.stem (p.title opts.withDefaults) k ++ opts.withDefaults.extension) := by
  obtain ⟨dir, opening, a, parts, index, -, hop, hs, -, rfl⟩ := SourceFile.decompose_eq_ok hd
  rcases List.mem_cons.mp hp with rfl | hp
  · exact ⟨0, rfl⟩
  · rcases List.mem_append.mp ((List.stableSort_perm _ _).mem_iff.mp hp) with hp | hp
    · rcases SourceFile.openingPieces_eq_ok hop with ⟨-, rfl, -⟩ | ⟨doc, path, k, -, rfl, -, hk, -⟩
      · cases hp
      · obtain rfl := List.mem_singleton.mp hp
        rw [Allocator.candidate_eq] at hk
        exact ⟨k, hk⟩
    · obtain ⟨-, hplaced, -⟩ := SourceFile.shares_eq_ok hs
      obtain ⟨-, category, k, hcategory, hk⟩ := hplaced p hp
      rw [Allocator.candidate_eq] at hk
      refine ⟨k, ?_⟩
      unfold folder
      rw [hcategory, Piece.title_of_category hcategory]
      exact hk

/-- Each piece has a plain name in its directory. -/
lemma exists_file (ho : Addressing opts.withDefaults) (hd : f.decompose opts = .ok d) (hp : p ∈ d.pieces) :
    ∃ file, Plain file ∧ p.path = join (d.folder p) file := by
  obtain ⟨k, hpath⟩ := path_eq_join hd hp
  have htitle := Piece.slash_not_mem_title ho.indexName ho.packageName p
  exact ⟨_, Address.plain_append (Allocator.slash_not_mem_stem htitle k) ho.extension.1 ho.extension.2, hpath⟩

/-- Two pieces have the same path but for case if they have the same directory and the same name but for case. -/
lemma lower_path_eq_iff (ho : Addressing opts.withDefaults) (hd : f.decompose opts = .ok d)
    (hd' : f'.decompose opts = .ok d') (hp : p ∈ d.pieces) (hq : q ∈ d'.pieces) :
    p.path.lower = q.path.lower ↔
      SameButCase (d.folder p) (d'.folder q) ∧ (base p.path).lower = (base q.path).lower := by
  obtain ⟨file, hfile, hpath⟩ := exists_file ho hd hp
  obtain ⟨file', hfile', hpath'⟩ := exists_file ho hd' hq
  have habs := folder_isAbs hd ho.root p
  have habs' := folder_isAbs hd' ho.root q
  have hne := ne_nil_of_isAbs habs
  have hne' := ne_nil_of_isAbs habs'
  have hcomponents {D c : Path} (h : D ≠ []) (hc : Plain c) : (join D c).components ≠ [] := by
    simp [components_join_plain h hc]
  rw [hpath, hpath', base_join hfile, base_join hfile',
    lower_eq_iff (clean_join _ hfile.ne_nil) (clean_join _ hfile'.ne_nil) ((isAbs_join hne _).trans habs)
      ((isAbs_join hne' _).trans habs') (hcomponents hne hfile) (hcomponents hne' hfile'),
    sameButCase_join hne hne' hfile hfile']

/-- No piece of one has the path of a piece of the other, also without regard to case. -/
def Apart (d d' : Decomposition) : Prop := ∀ p ∈ d.pieces, ∀ q ∈ d'.pieces, p.path.lower ≠ q.path.lower

/-- Is the directory of the other that of a category of these pieces, and has one of them the name of a piece that
the other keeps there: of its index, or of its package? -/
def Meets (d d' : Decomposition) : Prop :=
  ∃ p ∈ d.pieces, ∃ q ∈ d'.pieces, ∃ category ∈ p.category?, q.category? = none ∧
    SameButCase (join d.dir category.name) d'.dir ∧ (base p.path).lower = (base q.path).lower

instance (d d' : Decomposition) : Decidable (d.Meets d') :=
  inferInstanceAs (Decidable (∃ p ∈ d.pieces, ∃ q ∈ d'.pieces, ∃ category ∈ p.category?, q.category? = none ∧
    SameButCase (join d.dir category.name) d'.dir ∧ (base p.path).lower = (base q.path).lower))

lemma exists_index (hd : f.decompose opts = .ok d) :
    ∃ index ∈ d.pieces, index.category? = none ∧ index.path = join d.dir opts.withDefaults.indexFile := by
  obtain ⟨dir, opening, a, parts, index, -, -, -, -, rfl⟩ := SourceFile.decompose_eq_ok hd
  exact ⟨_, List.mem_cons_self, rfl, rfl⟩

lemma folder_eq_of_none (h : p.category? = none) : d.folder p = d.dir := by
  unfold folder
  rw [h]

lemma folder_eq_of_some {category : Category} (h : p.category? = some category) :
    d.folder p = join d.dir category.name := by
  unfold folder
  rw [h]

lemma dir_sameButCase_of_categories (hd : f.decompose opts = .ok d) (hd' : f'.decompose opts = .ok d')
    (hroot : opts.piecesRoot.isAbs = true) {category category' : Category}
    (h : SameButCase (join d.dir category.name) (join d'.dir category'.name)) : SameButCase d.dir d'.dir := by
  obtain ⟨hclean, -⟩ := dir_clean hd hroot
  obtain ⟨hclean', -⟩ := dir_clean hd' hroot
  exact ((sameButCase_join (hclean ▸ clean_ne_nil _) (hclean' ▸ clean_ne_nil _) (Address.plain_category _)
    (Address.plain_category _)).mp h).1

/-- Only a common directory, or that of a category, brings pieces of two sources together. -/
lemma apart_iff (ho : Addressing opts.withDefaults) (hd : f.decompose opts = .ok d)
    (hd' : f'.decompose opts = .ok d') :
    d.Apart d' ↔ ¬ SameButCase d.dir d'.dir ∧ ¬ d.Meets d' ∧ ¬ d'.Meets d := by
  constructor
  · intro h
    refine ⟨fun hdir => ?_, ?_, ?_⟩
    · -- the two indices
      obtain ⟨p, hp, hnone, hpath⟩ := exists_index hd
      obtain ⟨q, hq, hnone', hpath'⟩ := exists_index hd'
      refine h p hp q hq ((lower_path_eq_iff ho hd hd' hp hq).mpr ⟨?_, ?_⟩)
      · rwa [folder_eq_of_none hnone, folder_eq_of_none hnone']
      · have hfile := Address.plain_append ho.indexName ho.extension.1 ho.extension.2
        rw [hpath, hpath', Options.indexFile, base_join hfile, base_join hfile]
    · rintro ⟨p, hp, q, hq, category, hcategory, hnone, hdir, hbase⟩
      refine h p hp q hq ((lower_path_eq_iff ho hd hd' hp hq).mpr ⟨?_, hbase⟩)
      rwa [folder_eq_of_some hcategory, folder_eq_of_none hnone]
    · rintro ⟨p, hp, q, hq, category, hcategory, hnone, hdir, hbase⟩
      refine h q hq p hp ((lower_path_eq_iff ho hd hd' hq hp).mpr ⟨?_, hbase.symm⟩)
      rw [folder_eq_of_some hcategory, folder_eq_of_none hnone]
      exact hdir.symm
  · rintro ⟨hdirs, hmeets, hmeets'⟩ p hp q hq hlower
    obtain ⟨hfolder, hbase⟩ := (lower_path_eq_iff ho hd hd' hp hq).mp hlower
    cases hc : p.category? with
    | none =>
      rw [folder_eq_of_none hc] at hfolder
      cases hc' : q.category? with
      | none => exact hdirs (folder_eq_of_none (d := d') hc' ▸ hfolder)
      | some category =>
        exact hmeets' ⟨q, hq, p, hp, category, hc', hc, (folder_eq_of_some hc' ▸ hfolder).symm, hbase.symm⟩
    | some category =>
      rw [folder_eq_of_some hc] at hfolder
      cases hc' : q.category? with
      | none => exact hmeets ⟨p, hp, q, hq, category, hc, hc', folder_eq_of_none (d := d') hc' ▸ hfolder, hbase⟩
      | some category' =>
        rw [folder_eq_of_some hc'] at hfolder
        exact hdirs (dir_sameButCase_of_categories hd hd' ho.root hfolder)

end Decomposition

namespace Settings
variable {s : Settings} {root : Path}

lemma objections_of_validate (h : s.validate = .ok ()) : s.objections = [] := by
  unfold validate at h
  split at h
  · next hnone => exact hnone
  · cases h

lemma extension_mem_of_validate (h : s.validate = .ok ()) : s.extension ∈ extensions := by
  have hnone := objections_of_validate h
  unfold objections at hnone
  simp only [List.append_eq_nil_iff] at hnone
  have hextension := hnone.1.1.1.1.1.1.1.1.1.2
  simpa using hextension

/-- Whatever the settings say, the pieces of a project with an absolute root are kept below an absolute path. -/
lemma isAbs_piecesRoot (hroot : root.isAbs = true) : (s.options root).piecesRoot.isAbs = true :=
  isAbs_resolve hroot s.piecesRoot

/-- Allowed settings keep the pieces in their directories, unless they have a slash in a name. -/
lemma addressing (h : s.validate = .ok ()) (hroot : root.isAbs = true) (hindex : slash ∉ s.indexName)
    (hpackage : slash ∉ s.packageName) : Decomposition.Addressing (s.options root).withDefaults where
  root := isAbs_piecesRoot hroot
  extension := by
    have hendings : ∀ e ∈ extensions, slash ∉ Options.orElse e ".d.ts" ∧ 3 ≤ (Options.orElse e ".d.ts").length := by
      decide
    exact hendings _ (extension_mem_of_validate h)
  indexName := Options.slash_not_mem_orElse hindex (by decide)
  packageName := Options.slash_not_mem_orElse hpackage (by decide)

end Settings

namespace Decomposition
variable {opts : Options} {f f' : SourceFile} {d d' : Decomposition} {read read' : Path → Reading Text}

/-- Pieces that are apart are different files. -/
lemma Apart.key_ne (h : d.Apart d') (hd : f.decompose opts = .ok d) (hd' : f'.decompose opts = .ok d')
    (hroot : opts.piecesRoot.isAbs = true) {p q : Piece} (hp : p ∈ d.pieces) (hq : q ∈ d'.pieces) :
    Disk.key p.path ≠ Disk.key q.path := by
  intro hkey
  obtain ⟨⟨_, hclean⟩, -⟩ := paths_apart hd
  obtain ⟨⟨_, hclean'⟩, -⟩ := paths_apart hd'
  have hsame := eq_of_components (hclean p hp).1 (hclean' q hq).1
    ((isAbs_of_mem_pieces hd hroot hp).trans (isAbs_of_mem_pieces hd' hroot hq).symm)
    (Disk.components_eq_of_key_eq hkey)
  exact h p hp q hq (congrArg Text.lower hsame)

/-- A merge reads the files of its pieces, and no others. -/
lemma merge_congr (h : ∀ p ∈ d.pieces, read p.path = read' p.path) (o : Options) (text : Text) :
    d.merge o read text = d.merge o read' text := by
  have hfold (ps : List Piece) (hps : ∀ p ∈ ps, read p.path = read' p.path) (s : Merged.Progress) :
      ps.foldlM (Merged.step o read) s = ps.foldlM (Merged.step o read') s := by
    induction ps generalizing s with
    | nil => rfl
    | cons p rest ih =>
      have hstep : Merged.step o read s p = Merged.step o read' s p := by
        unfold Merged.step
        rw [hps p List.mem_cons_self]
      rw [List.foldlM_cons, List.foldlM_cons, hstep]
      exact congrArg _ (funext (ih fun q hq => hps q (List.mem_cons_of_mem _ hq)))
  unfold merge
  rw [hfold d.pieces h]

end Decomposition

namespace Workspace
open Activity
variable {w : Workspace} {s : Settings} {f f' : SourceFile} {d d' : Decomposition} {plan : Plan}

/-- Is all that the last run of the source recorded a piece of the source, for some text of it, and apart from the
pieces of the other? -/
def RecallsApart (w : Workspace) (plan : Plan) (database : Database) (d' : Decomposition) : Prop :=
  ∀ recorded, w.lastPieces plan.source database = .ok recorded → ∀ r ∈ recorded,
    ∃ (f₀ : SourceFile) (d₀ : Decomposition), f₀.path = plan.source ∧ f₀.decompose w.options = .ok d₀ ∧ d₀.Apart d' ∧
      ∃ p ∈ d₀.pieces, Disk.key p.path = Disk.key (w.ofKey r.path)

/-- What is done with the pieces of a source has nothing to do with the pieces of the other. -/
structure LeavesAlone (w : Workspace) (plan : Plan) (d' : Decomposition) : Prop where
  /-- A split writes none of them and removes none. -/
  split : ∀ force p, w.RecallsApart plan p.database d' → ∀ q ∈ d'.pieces,
    ((w.splitPlan plan force).run p).2.disk.stored? q.path = p.disk.stored? q.path
  /-- A split looks for edits in none of them. -/
  edits : ∀ recorded (disk disk' : Disk), (∀ x, (∀ q ∈ d'.pieces, q.path ≠ x) → disk.read x = disk'.read x) →
    w.editedPaths recorded disk plan = w.editedPaths recorded disk' plan
  /-- A merge folds none of them. -/
  merge : ∀ read read', (∀ x, (∀ q ∈ d'.pieces, q.path ≠ x) → read x = read' x) →
    plan.decomposition.merge w.options read plan.text = plan.decomposition.merge w.options read' plan.text

lemma editedPaths_congr {disk disk' : Disk} (h : ∀ p ∈ plan.decomposition.pieces, disk.read p.path = disk'.read p.path)
    (recorded : List RecordedPiece) : w.editedPaths recorded disk plan = w.editedPaths recorded disk' plan := by
  unfold editedPaths
  refine congrArg _ (List.filter_congr fun p hp => ?_)
  unfold isEdited
  rw [h p (List.mem_of_mem_drop hp)]

lemma leavesAlone_of_apart (hroot : w.options.piecesRoot.isAbs = true) (hd : f.decompose w.options = .ok plan.decomposition)
    (hd' : f'.decompose w.options = .ok d') (h : plan.decomposition.Apart d') : w.LeavesAlone plan d' := by
  have helsewhere : ∀ p ∈ plan.decomposition.pieces, ∀ q ∈ d'.pieces, q.path ≠ p.path :=
    fun p hp q hq he => h p hp q hq (congrArg Text.lower he.symm)
  refine ⟨fun force p hrecalls q hq => ?_, fun recorded disk disk' hagree => ?_, fun read read' hagree => ?_⟩
  · refine (w.leads_splitPlan_keeps plan force p).1.stored?_eq q.path ?_
    rintro (⟨r, hr, hkey⟩ | ⟨recorded, hlast, r, hr, hkey⟩)
    · exact h.key_ne hd hd' hroot hr hq hkey
    · obtain ⟨f₀, d₀, -, hd₀, hapart, p₀, hp₀, hkey₀⟩ := hrecalls recorded hlast r hr
      exact hapart.key_ne hd₀ hd' hroot hp₀ hq (hkey₀.trans hkey)
  · exact editedPaths_congr (fun p hp => hagree p.path (helsewhere p hp)) recorded
  · exact Decomposition.merge_congr (fun p hp => hagree p.path (helsewhere p hp)) w.options plan.text

/-- Under allowed settings, the pieces of two sources are apart just if their directories are, and neither directory
is that of a category of the other where a piece has the name of the index or of the package. For sources with
ordinary names the directories are the same only if the sources are. Pieces that are apart are left alone. -/
theorem pieces_apart_iff (hs : s.validate = .ok ()) (hroot : w.root.isAbs = true) (hw : w.options = s.options w.root)
    (hindex : slash ∉ s.indexName) (hpackage : slash ∉ s.packageName)
    (hd : f.decompose w.options = .ok d) (hd' : f'.decompose w.options = .ok d') :
    (d.Apart d' ↔ ¬ SameButCase d.dir d'.dir ∧ ¬ d.Meets d' ∧ ¬ d'.Meets d) ∧
      (Address.Ordinary f.path → Address.Ordinary f'.path →
        (SameButCase d.dir d'.dir ↔ SameButCase f.path f'.path)) ∧
      (d.Apart d' → ∀ plan, plan.decomposition = d → w.LeavesAlone plan d') := by
  have ho : Decomposition.Addressing w.options.withDefaults := hw ▸ Settings.addressing hs hroot hindex hpackage
  refine ⟨Decomposition.apart_iff ho hd hd', fun hf hf' => ?_, ?_⟩
  · obtain ⟨dir, opening, a, parts, index, hdir, -, -, -, rfl⟩ := SourceFile.decompose_eq_ok hd
    obtain ⟨dir', opening', a', parts', index', hdir', -, -, -, rfl⟩ := SourceFile.decompose_eq_ok hd'
    exact Address.sameButCase_pieceDirectory ho.root hf hf' hdir hdir'
  · rintro hapart plan rfl
    exact leavesAlone_of_apart ho.root hd hd' hapart

def nestedSettings : Settings := { translatedRoot := "t", piecesRoot := "p" }

def nestedWorkspace : Workspace := { sampleWorkspace with options := nestedSettings.options "/work", digest := id }

def outerPath : Path := "/work/t/x.d.ts"

/-- A source named like a category, in a directory named like the other source. -/
def innerPath : Path := "/work/t/x/types.d.ts"

theorem nested_pieces_apart :
    ∃ d d', (SourceFile.ofText {} outerPath "type A=1\n").decompose nestedWorkspace.options = .ok d ∧
      (SourceFile.ofText {} innerPath "type B=1\n").decompose nestedWorkspace.options = .ok d' ∧
      d.Apart d' ∧ ∀ plan, plan.decomposition = d → nestedWorkspace.LeavesAlone plan d' := by
  have hcomputed : ((SourceFile.ofText {} outerPath "type A=1\n").decompose nestedWorkspace.options >>= fun d =>
      ((SourceFile.ofText {} innerPath "type B=1\n").decompose nestedWorkspace.options).map fun d' =>
        decide (¬ SameButCase d.dir d'.dir ∧ ¬ d.Meets d' ∧ ¬ d'.Meets d)) = .ok true := by decide +kernel
  obtain ⟨d, hd, hrest⟩ := bind_eq_ok_iff.mp hcomputed
  obtain ⟨d', hd', hcases⟩ := exists_of_map_eq_ok hrest
  obtain ⟨hiff, -, halone⟩ := pieces_apart_iff (s := nestedSettings) (w := nestedWorkspace) (by decide +kernel)
    (by decide) rfl (by decide) (by decide) hd hd'
  have hapart := hiff.mpr (of_decide_eq_true hcases)
  exact ⟨d, d', hd, hd', hapart, halone hapart⟩

/-- A project in which the outer source declares `index`. -/
def nestedProject : Project :=
  { disk := { nodes := [
      ("/work", .directory), ("/work/t", .directory), (outerPath, .file "type index=1\n"),
      ("/work/t/x", .directory), (innerPath, .file "type A=1\n")] } }

def sharedPath : Path := "/work/p/x/types/index.d.ts"

/-- Its piece is the index of the inner source, and is overwritten when that is split. -/
theorem nested_sources_share_piece :
    nestedSettings.validate = .ok () ∧
      (nestedWorkspace.discover.run nestedProject).1 = .ok [innerPath, outerPath] ∧
      (∃ d d', (SourceFile.ofText {} outerPath "type index=1\n").decompose nestedWorkspace.options = .ok d ∧
        (SourceFile.ofText {} innerPath "type A=1\n").decompose nestedWorkspace.options = .ok d' ∧
        ∃ p ∈ d.pieces, ∃ q ∈ d'.pieces, p.path = sharedPath ∧ q.path = sharedPath) ∧
      ((nestedWorkspace.split outerPath false).run nestedProject).2.disk.read sharedPath =
        .content "type index=1\n\n/*@piece-export*/ export \x7b index \x7d;\n" ∧
      ((do let _ ← nestedWorkspace.split outerPath false; nestedWorkspace.split innerPath false : Activity
        SplitResult).run nestedProject).2.disk.read sharedPath =
          .content "export \x7b A \x7d from './types/A';\n" := by
  have hfacts : nestedSettings.validate = .ok () ∧
      (nestedWorkspace.discover.run nestedProject).1 = .ok [innerPath, outerPath] ∧
      ((SourceFile.ofText {} outerPath "type index=1\n").decompose nestedWorkspace.options).map (fun d =>
        decide (∃ p ∈ d.pieces, p.path = sharedPath)) = .ok true ∧
      ((SourceFile.ofText {} innerPath "type A=1\n").decompose nestedWorkspace.options).map (fun d =>
        decide (∃ q ∈ d.pieces, q.path = sharedPath)) = .ok true ∧
      ((nestedWorkspace.split outerPath false).run nestedProject).2.disk.read sharedPath =
        .content "type index=1\n\n/*@piece-export*/ export \x7b index \x7d;\n" ∧
      ((do let _ ← nestedWorkspace.split outerPath false; nestedWorkspace.split innerPath false : Activity
        SplitResult).run nestedProject).2.disk.read sharedPath =
          .content "export \x7b A \x7d from './types/A';\n" := by
    decide +kernel
  obtain ⟨hallowed, hfound, houter, hinner, hwritten, hoverwritten⟩ := hfacts
  refine ⟨hallowed, hfound, ?_, hwritten, hoverwritten⟩
  obtain ⟨d, hd, hp⟩ := exists_of_map_eq_ok houter
  obtain ⟨d', hd', hq⟩ := exists_of_map_eq_ok hinner
  obtain ⟨p, hmem, hpath⟩ := of_decide_eq_true hp
  obtain ⟨q, hmem', hpath'⟩ := of_decide_eq_true hq
  exact ⟨d, d', hd, hd', p, hmem, q, hmem', hpath, hpath'⟩

end Workspace

end DeclPieces
