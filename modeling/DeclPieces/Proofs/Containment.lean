import DeclPieces.Proofs.FileName
import DeclPieces.Proofs.Namespaces

/-! The paths of the pieces of a file. Whatever its symbols are called, each piece has a name of its own in the
directory meant for it, and none stands in the way of another. -/
namespace DeclPieces
open Path

namespace Settings

/-- The endings that are allowed start with a dot and can stand in every file name. -/
lemma extension_spec {e : Text} (h : e ∈ extensions) : Options.orElse e ".d.ts" = e ∧ slash ∉ e ∧ 3 ≤ e.length ∧
    46 ∈ e ∧ ∀ b ∈ e, Address.Harmless b := by
  have hall : ∀ e ∈ extensions, Options.orElse e ".d.ts" = e ∧ slash ∉ e ∧ 3 ≤ e.length ∧ 46 ∈ e ∧
      e.all (Address.Harmless ·) = true := by decide
  obtain ⟨hdefault, hslash, hlength, hdot, hharmless⟩ := hall e h
  exact ⟨hdefault, hslash, hlength, hdot, by simpa using hharmless⟩

end Settings

namespace Path
variable {D p q c c' : Path}

/-- Is `q` the path `p`, or below it, where case is ignored? -/
def Holds (p q : Path) : Prop := p.components.map Text.lower <+: q.components.map Text.lower

/-- In one directory, the lower case of a plain name is that of its path. -/
lemma lower_join_congr (hc : Plain c) (hc' : Plain c') (h : c.lower = c'.lower) : (join D c).lower = (join D c').lower := by
  obtain ⟨front, hfront, hjoin⟩ := exists_join_eq_append D
  rw [hjoin c hc, hjoin c' hc']
  rcases hfront with rfl | ⟨t, rfl⟩
  · exact h
  · simpa [Text.lower_append_slash] using h

end Path

namespace Decomposition
variable {opts : Options} {f : SourceFile} {d : Decomposition} {p q : Piece} {file file' : Text}

/-- The piece is stored as `file` in its directory. -/
structure Stored (d : Decomposition) (p : Piece) (file : Text) : Prop where
  path_eq : p.path = join (d.folder p) file
  plain : Plain file
  dir_eq : Path.dir p.path = d.folder p
  components_eq : p.path.components = d.dir.components ++ (p.category?.map Category.name).toList ++ [file]

/-- A name for a declaration: nothing in it is special, and an identifier stands at its start as it is. -/
structure Telling (p : Piece) (file : Text) : Prop where
  harmless : ∀ b ∈ file, Address.Harmless b
  identifier : isIdentifier p.symbol = true → (∃ s : String, p.symbol = Text.ofString s) → p.symbol <+: file

lemma components_folder (hdir : d.dir ≠ []) (p : Piece) :
    (d.folder p).components = d.dir.components ++ (p.category?.map Category.name).toList := by
  unfold folder
  cases p.category? with
  | none => simp
  | some category => exact Address.components_category hdir

lemma clean_folder (hclean : d.dir.clean = d.dir) (p : Piece) : (d.folder p).clean = d.folder p := by
  unfold folder
  cases p.category? with
  | none => exact hclean
  | some category => exact clean_join _ (Address.plain_category category).ne_nil

lemma stored_of_path_eq (hclean : d.dir.clean = d.dir) (hfile : Plain file) (h : p.path = join (d.folder p) file) :
    d.Stored p file where
  path_eq := h
  plain := hfile
  dir_eq := by rw [h, dir_join (clean_folder hclean p) hfile]
  components_eq := by
    have hne : d.folder p ≠ [] := clean_folder hclean p ▸ clean_ne_nil _
    rw [h, components_join_plain hne hfile, components_folder (hclean ▸ clean_ne_nil _)]

lemma telling_stem {ext : Text} (hext : ∀ b ∈ ext, Address.Harmless b) (p : Piece) (k : Nat) :
    Telling p (Allocator.stem (Address.fileName p.symbol) k ++ ext) where
  harmless := by
    intro b hb
    rcases List.mem_append.mp hb with hb | hb
    · exact Address.harmless_of_mem_stem Address.harmless_of_mem_fileName k b hb
    · exact hext b hb
  identifier := by
    rintro hid ⟨s, hs⟩
    have hname : Address.fileName p.symbol = p.symbol := by
      rw [hs] at hid ⊢
      exact Address.fileName_of_isIdentifier hid
    rw [hname]
    cases k with
    | zero => exact List.prefix_append _ _
    | succ k =>
      rw [Allocator.stem, List.append_assoc, List.append_assoc]
      exact List.prefix_append _ _

/-- A piece stored in a directory is no directory of another one, if the paths of the two differ. -/
lemma Stored.not_holds (hp : d.Stored p file) (hq : d.Stored q file') (hdot : (46 : UInt8) ∈ file)
    (hne : p.path.lower ≠ q.path.lower) : ¬ p.path.Holds q.path := by
  intro h
  have hsame (hfolder : d.folder p = d.folder q) (hlower : file.lower = file'.lower) : False := by
    apply hne
    rw [hp.path_eq, hq.path_eq, hfolder]
    exact lower_join_congr hp.plain hq.plain hlower
  unfold Holds at h
  rw [hp.components_eq, hq.components_eq] at h
  simp only [List.append_assoc, List.map_append, List.prefix_append_right_inj] at h
  cases hpc : p.category? with
  | none =>
    cases hqc : q.category? with
    | none =>
      have hfolder : d.folder p = d.folder q := by rw [folder_eq_of_none hpc, folder_eq_of_none hqc]
      exact hsame hfolder (by simpa [hpc, hqc] using h)
    | some category =>
      -- the name of a category has no dot
      have hlower : file.lower = category.name.lower := by
        rw [hpc, hqc] at h
        exact (List.cons_prefix_cons.mp h).1
      have hcount := congrArg (List.count 46) hlower
      rw [Text.count_lower (by decide), Text.count_lower (by decide)] at hcount
      have hnone : category.name.count 46 = 0 := by cases category <;> decide
      have hsome := List.count_pos_iff.mpr hdot
      omega
  | some category =>
    cases hqc : q.category? with
    | none =>
      have hlength := h.length_le
      simp [hpc, hqc] at hlength
    | some category' =>
      rw [hpc, hqc] at h
      obtain ⟨hcategory, hrest⟩ := List.cons_prefix_cons.mp h
      have heq : category = category' := by
        revert hcategory
        cases category <;> cases category' <;> decide
      have hfolder : d.folder p = d.folder q := by rw [folder_eq_of_some hpc, folder_eq_of_some hqc, heq]
      exact hsame hfolder (List.cons_prefix_cons.mp hrest).1

/-- Whatever the symbols of a file are called, its pieces have paths that differ also without regard to case. The
index and the package piece are in the directory of the pieces, each declaration in that of its category, under a name
that is fit for files, and no path leads through another piece. -/
theorem pieces_contained (hext : opts.extension ∈ Settings.extensions) (hindex : slash ∉ opts.indexName)
    (hpackage : slash ∉ opts.packageName) (hd : f.decompose opts = .ok d) :
    Address.pieceDirectory opts.withDefaults f.path = .ok d.dir ∧
      (∀ p ∈ d.pieces, ∃ file, d.Stored p file ∧ (p.category?.isSome → Telling p file)) ∧
      (d.pieces.Pairwise fun p q => p.path.lower ≠ q.path.lower) ∧
      d.pieces.Pairwise fun p q => ¬ p.path.Holds q.path ∧ ¬ q.path.Holds p.path := by
  obtain ⟨hdefault, hslash, hlength, hdot, hharmless⟩ := Settings.extension_spec hext
  have hextension : opts.withDefaults.extension = opts.extension := hdefault
  have hdir : Address.pieceDirectory opts.withDefaults f.path = .ok d.dir := by
    obtain ⟨dir, opening, a, parts, index, hdir, -, -, -, rfl⟩ := SourceFile.decompose_eq_ok hd
    exact hdir
  have hclean := Address.clean_pieceDirectory hdir
  have hstored : ∀ p ∈ d.pieces, ∃ file, d.Stored p file ∧ (46 : UInt8) ∈ file ∧ (p.category?.isSome → Telling p file) := by
    intro p hp
    obtain ⟨k, hpath⟩ := path_eq_join hd hp
    rw [hextension] at hpath
    have htitle : slash ∉ p.title opts.withDefaults :=
      Piece.slash_not_mem_title (Options.slash_not_mem_orElse hindex (by decide))
        (Options.slash_not_mem_orElse hpackage (by decide)) p
    have hplain := Address.plain_append (Allocator.slash_not_mem_stem htitle k) hslash hlength
    refine ⟨_, stored_of_path_eq hclean hplain hpath, List.mem_append_right _ hdot, fun hsome => ?_⟩
    obtain ⟨category, hcategory⟩ := Option.isSome_iff_exists.mp hsome
    rw [Piece.title_of_category hcategory]
    exact telling_stem hharmless p k
  have hdistinct := lower_paths_distinct hd
  refine ⟨hdir, fun p hp => ?_, hdistinct, ?_⟩
  · obtain ⟨file, hfile, -, htelling⟩ := hstored p hp
    exact ⟨file, hfile, htelling⟩
  · refine hdistinct.imp_of_mem fun {p q} hp hq hne => ?_
    obtain ⟨file, hfile, hdot, -⟩ := hstored p hp
    obtain ⟨file', hfile', hdot', -⟩ := hstored q hq
    exact ⟨hfile.not_holds hfile' hdot hne, hfile'.not_holds hfile hdot' hne.symm⟩

/-- Classes that differ in case only, and modules with names that are a path, no UTF-8 and nothing. -/
def hostileFile : SourceFile :=
  { path := "t/x.ts", text := []
    symbols := [⟨"A", []⟩, ⟨"a", []⟩, ⟨"'../..'", []⟩, ⟨[0xFF, 47, 34, 0x80], []⟩, ⟨[], []⟩]
    statements := [
      { kind := .cls, start := 0, stop := 0, symbol := some 0 },
      { kind := .cls, start := 1, stop := 1, symbol := some 1 },
      { kind := .moduleDecl, start := 2, stop := 2, symbol := some 2 },
      { kind := .moduleDecl, start := 3, stop := 3, symbol := some 3 },
      { kind := .moduleDecl, start := 4, stop := 4, symbol := some 4 }]
    docs := [⟨0, 0, "@packageDocumentation"⟩] }

/-- The index and the package piece are named like a directory of classes. -/
def hostileOptions : Options :=
  { translatedRoot := "t", piecesRoot := "p", extension := ".ts", indexName := "Classes", packageName := "classes" }

theorem hostile_pieces_contained :
    hostileOptions.extension ∈ Settings.extensions ∧ slash ∉ hostileOptions.indexName ∧
      slash ∉ hostileOptions.packageName ∧
      ∃ d, hostileFile.decompose hostileOptions = .ok d ∧
        d.paths = ["p/x/Classes.ts", "p/x/modules/_.ts", "p/x/modules/\ufffd__\ufffd.ts", "p/x/modules/.._...ts",
          "p/x/classes/a-1.ts", "p/x/classes-1.ts", "p/x/classes/A.ts"] ∧
        (∀ p ∈ d.pieces, ∃ file, d.Stored p file ∧ (p.category?.isSome → Telling p file)) ∧
        (d.pieces.Pairwise fun p q => p.path.lower ≠ q.path.lower) ∧
        d.pieces.Pairwise fun p q => ¬ p.path.Holds q.path ∧ ¬ q.path.Holds p.path := by
  have hext : hostileOptions.extension ∈ Settings.extensions := by decide
  have hindex : slash ∉ hostileOptions.indexName := by decide
  have hpackage : slash ∉ hostileOptions.packageName := by decide
  have hcomputed : (hostileFile.decompose hostileOptions).map Decomposition.paths =
      .ok ["p/x/Classes.ts", "p/x/modules/_.ts", "p/x/modules/\ufffd__\ufffd.ts", "p/x/modules/.._...ts",
        "p/x/classes/a-1.ts", "p/x/classes-1.ts", "p/x/classes/A.ts"] := by decide +kernel
  obtain ⟨d, hd, hpaths⟩ := exists_of_map_eq_ok hcomputed
  exact ⟨hext, hindex, hpackage, d, hd, hpaths, (pieces_contained hext hindex hpackage hd).2⟩

end Decomposition

end DeclPieces
