import DeclPieces.Proofs.Enclosure
import DeclPieces.Proofs.Planning
import DeclPieces.Proofs.ProperDisk
import DeclPieces.Proofs.TextOrder
import DeclPieces.Workspace.Discover

/-! The walk that finds the sources of a project. What it goes into is asked of each directory on the way to a file and
of nothing else, so that the files it finds can be told without a walk; and it comes upon them in the order of their
components. -/
namespace DeclPieces

namespace Disk
open Path
variable {d : Disk} {enters : Path → Bool} {levels : Nat} {D E f g : Path} {c : Text} {n : Node}

/-- A file below a directory, with nothing but admitted directories between them. -/
structure Open (d : Disk) (enters : Path → Bool) (D f : Path) : Prop where
  file : ∃ data, d.get? f = some (.file data)
  below : D.Encloses f
  entered : ∀ E, E.clean = E → D.Encloses E → E.Encloses f → enters E = true

/-- What a walk finds at or below one member of a directory. -/
def branch (d : Disk) (enters : Path → Bool) (levels : Nat) (D : Path) (m : Listed) : List Path :=
  if !m.isDir then [join D m.name]
  else if enters (join D m.name) then d.visit enters levels (join D m.name) else []

lemma visit_succ : d.visit enters (levels + 1) D = (d.members D).flatMap (d.branch enters levels D) := rfl

lemma mem_branch_iff : f ∈ d.branch enters levels D (n.listed c) ↔
    (∃ data, n = .file data ∧ f = join D c) ∨
      n = .directory ∧ enters (join D c) = true ∧ f ∈ d.visit enters levels (join D c) := by
  cases n with
  | file data => simp [branch, Node.listed]
  | directory => by_cases henters : enters (join D c) = true <;> simp [branch, Node.listed, henters]

lemma mem_visit_succ (hd : d.Proper) (hD : D.isAbs = true) : f ∈ d.visit enters (levels + 1) D ↔
    ∃ c, Plain c ∧ ((∃ data, d.get? (join D c) = some (.file data) ∧ f = join D c) ∨
      d.get? (join D c) = some .directory ∧ enters (join D c) = true ∧ f ∈ d.visit enters levels (join D c)) := by
  rw [visit_succ, List.mem_flatMap]
  constructor
  · rintro ⟨m, hm, hf⟩
    obtain ⟨c, n, hc, hget, rfl⟩ := (hd.mem_members_iff hD).mp hm
    refine ⟨c, hc, ?_⟩
    rcases mem_branch_iff.mp hf with ⟨data, rfl, hfile⟩ | ⟨rfl, hin⟩
    · exact .inl ⟨data, hget, hfile⟩
    · exact .inr ⟨hget, hin⟩
  · rintro ⟨c, hc, ⟨data, hget, hfile⟩ | ⟨hget, hin⟩⟩
    · exact ⟨_, (hd.mem_members_iff hD).mpr ⟨c, _, hc, hget, rfl⟩, mem_branch_iff.mpr (.inl ⟨data, rfl, hfile⟩)⟩
    · exact ⟨_, (hd.mem_members_iff hD).mpr ⟨c, _, hc, hget, rfl⟩, mem_branch_iff.mpr (.inr ⟨rfl, hin⟩)⟩

/-- The member of a directory through which the way to a path leads. -/
lemma exists_member (hD : D ≠ []) (habs : D.isAbs = true) (h : D.Encloses f) :
    ∃ c rest, Plain c ∧ f.components = (join D c).components ++ rest := by
  obtain ⟨hf, rest, hne, hcomponents⟩ := encloses_iff_exists.mp h
  obtain ⟨c, rest, rfl⟩ := List.exists_cons_of_ne_nil hne
  have hc : Plain c := plain_of_mem_components (hf ▸ habs) c (by simp [hcomponents])
  exact ⟨c, rest, hc, by rw [components_join_plain hD hc, hcomponents]; simp⟩

/-- What is around something is a directory. -/
lemma Proper.get?_of_encloses (hd : d.Proper) (hE : E.clean = E) (habs : E.isAbs = true) (hne : E.components ≠ [])
    (h : E.Encloses f) (hget : d.get? f = some n) : d.get? E = some .directory := by
  obtain ⟨-, rest, hrest, hcomponents⟩ := encloses_iff_exists.mp h
  have hlook := hd.look f n hget
  unfold Disk.look at hlook
  rw [hcomponents] at hlook
  have hdir : d.look E = .ok .directory := follow_front hrest hlook
  rw [← key_eq_self hE habs hne]
  exact get?_of_look hne hdir

/-- A directory is entered through its members, and one of them is on the way to each file below. -/
lemma open_iff_member (hd : d.Proper) (habs : D.isAbs = true) : d.Open enters D f ↔
    ∃ c, Plain c ∧ ((∃ data, d.get? (join D c) = some (.file data) ∧ f = join D c) ∨
      d.get? (join D c) = some .directory ∧ enters (join D c) = true ∧ d.Open enters (join D c) f) := by
  have hnil := ne_nil_of_isAbs habs
  constructor
  · rintro ⟨⟨data, hget⟩, hbelow, hentered⟩
    obtain ⟨c, rest, hc, hcomponents⟩ := exists_member hnil habs hbelow
    have hjoin : (join D c).isAbs = true := (isAbs_join hnil c).trans habs
    have hclean : (join D c).clean = join D c := clean_join D hc.ne_nil
    have hne : (join D c).components ≠ [] := by simp [components_join_plain hnil hc]
    have hf : f ≠ [] := ne_nil_of_isAbs (hbelow.isAbs ▸ habs)
    obtain ⟨hfclean, hfabs, -⟩ := hd.path hget hf
    refine ⟨c, hc, ?_⟩
    by_cases hrest : rest = []
    · -- the member is the file
      rw [hrest, List.append_nil] at hcomponents
      obtain rfl : f = join D c := eq_of_components hfclean hclean (hfabs.trans hjoin.symm) hcomponents
      exact .inl ⟨data, hget, rfl⟩
    · have haround : (join D c).Encloses f :=
        encloses_iff_exists.mpr ⟨hjoin.trans hfabs.symm, rest, hrest, hcomponents⟩
      have hin := encloses_join hnil hc
      refine .inr ⟨hd.get?_of_encloses hclean hjoin hne haround hget, hentered _ hclean hin haround, ?_⟩
      exact ⟨⟨data, hget⟩, haround, fun E hE hbetween => hentered E hE (hin.trans hbetween)⟩
  · rintro ⟨c, hc, ⟨data, hget, rfl⟩ | ⟨hget, henters, hfile, haround, hentered⟩⟩
    · refine ⟨⟨data, hget⟩, encloses_join hnil hc, fun E _ hE hE' => ?_⟩
      -- nothing lies between a directory and its member
      have hlt := hE.length_lt
      have hlt' := hE'.length_lt
      rw [components_join_plain hnil hc, List.length_append, List.length_singleton] at hlt'
      omega
    · refine ⟨hfile, (encloses_join hnil hc).trans haround, fun E hE hbelow habove => ?_⟩
      have hclean : (join D c).clean = join D c := clean_join D hc.ne_nil
      have hlength : (join D c).components.length = D.components.length + 1 := by
        simp [components_join_plain hnil hc]
      have hlt := hbelow.length_lt
      rcases Nat.lt_or_eq_of_le (Nat.succ_le_of_lt hlt) with hfurther | hhere
      · exact hentered E hE (haround.of_length_lt habove (hlength ▸ hfurther)) habove
      · rwa [← haround.eq_of_length_eq habove hclean hE (hlength.trans hhere)]

/-- A walk comes to the open files that are not too far down. -/
lemma mem_visit_iff (hd : d.Proper) (hD : D.clean = D) (habs : D.isAbs = true) : f ∈ d.visit enters levels D ↔
    d.Open enters D f ∧ f.components.length ≤ D.components.length + levels := by
  induction levels generalizing D with
  | zero =>
    refine ⟨fun h => absurd h List.not_mem_nil, fun ⟨hopen, hle⟩ => ?_⟩
    have hlt := hopen.below.length_lt
    omega
  | succ levels ih =>
    rw [mem_visit_succ hd habs, open_iff_member hd habs]
    have hstep {c : Text} (hc : Plain c) : f ∈ d.visit enters levels (join D c) ↔
        d.Open enters (join D c) f ∧ f.components.length ≤ D.components.length + 1 + levels := by
      have hnil := ne_nil_of_isAbs habs
      rw [ih (clean_join D hc.ne_nil) ((isAbs_join hnil c).trans habs), components_join_plain hnil hc,
        List.length_append, List.length_singleton]
    constructor
    · rintro ⟨c, hc, ⟨data, hget, rfl⟩ | ⟨hget, henters, hin⟩⟩
      · refine ⟨⟨c, hc, .inl ⟨data, hget, rfl⟩⟩, ?_⟩
        rw [components_join_plain (ne_nil_of_isAbs habs) hc, List.length_append, List.length_singleton]
        omega
      · obtain ⟨hopen, hle⟩ := (hstep hc).mp hin
        exact ⟨⟨c, hc, .inr ⟨hget, henters, hopen⟩⟩, by omega⟩
    · rintro ⟨⟨c, hc, ⟨data, hget, rfl⟩ | ⟨hget, henters, hopen⟩⟩, hle⟩
      · exact ⟨c, hc, .inl ⟨data, hget, rfl⟩⟩
      · exact ⟨c, hc, .inr ⟨hget, henters, (hstep hc).mpr ⟨hopen, by omega⟩⟩⟩

lemma length_components_le_depth (h : d.get? f = some n) : f.components.length ≤ d.depth := by
  obtain ⟨before, after, hnodes, -⟩ := List.lookup_eq_some_iff.mp h
  refine List.le_max?_getD_of_mem (List.mem_map.mpr ⟨(f, n), ?_, rfl⟩)
  simp [hnodes]

/-- All that a walk finds at or below a member lies at or below it. -/
lemma components_of_mem_branch (hd : d.Proper) (hD : D.isAbs = true) (hc : Plain c)
    (h : f ∈ d.branch enters levels D (n.listed c)) : ∃ rest, f.components = D.components ++ c :: rest := by
  have hnil := ne_nil_of_isAbs hD
  rcases mem_branch_iff.mp h with ⟨data, -, rfl⟩ | ⟨-, -, hin⟩
  · exact ⟨[], components_join_plain hnil hc⟩
  · have hopen := (mem_visit_iff hd (clean_join D hc.ne_nil) ((isAbs_join hnil c).trans hD)).mp hin
    obtain ⟨-, rest, -, hrest⟩ := encloses_iff_exists.mp hopen.1.below
    exact ⟨rest, by rw [hrest, components_join_plain hnil hc]; simp⟩

lemma pairwise_members (hd : d.Proper) (hD : D.isAbs = true) :
    (d.members D).Pairwise fun a b => a.name < b.name := by
  have hne : (d.members D).Pairwise fun a b => a.name ≠ b.name :=
    List.pairwise_map.mp (List.nodup_iff_pairwise_ne.mp (hd.nodup_members hD))
  have hsorted : (d.members D).Pairwise fun a b => Text.le a.name b.name = true := by
    refine List.pairwise_stableSort ?_ ?_ _
    · exact fun a b c => Text.le_trans a.name b.name c.name
    · exact fun a b => Text.le_total a.name b.name
  exact (hsorted.and hne).imp fun h => of_decide_eq_true (Text.lt_iff.mpr h)

/-- A walk comes upon files in the order of their components. -/
lemma pairwise_visit (hd : d.Proper) (hD : D.isAbs = true) :
    (d.visit enters levels D).Pairwise fun f g => f.components < g.components := by
  induction levels generalizing D with
  | zero => exact List.Pairwise.nil
  | succ levels ih =>
    rw [visit_succ, List.pairwise_flatMap]
    constructor
    · intro m hm
      obtain ⟨c, n, hc, -, rfl⟩ := (hd.mem_members_iff hD).mp hm
      have hjoin : (join D c).isAbs = true := (isAbs_join (ne_nil_of_isAbs hD) c).trans hD
      cases n with
      | file data => exact List.pairwise_singleton _ _
      | directory =>
        by_cases henters : enters (join D c) = true
        · simpa [branch, Node.listed, henters] using ih hjoin
        · simp [branch, Node.listed, henters]
    · refine (pairwise_members hd hD).imp_of_mem fun {a b} ha hb hlt x hx y hy => ?_
      obtain ⟨c, n, hc, -, rfl⟩ := (hd.mem_members_iff hD).mp ha
      obtain ⟨c', n', hc', -, rfl⟩ := (hd.mem_members_iff hD).mp hb
      obtain ⟨rest, hrest⟩ := components_of_mem_branch hd hD hc hx
      obtain ⟨rest', hrest'⟩ := components_of_mem_branch hd hD hc' hy
      have hname : c < c' := by cases n <;> cases n' <;> exact hlt
      rw [hrest, hrest']
      exact List.append_left_lt (List.cons_lt_cons_iff.mpr (.inl hname))

end Disk

namespace Workspace
open Path
variable {w : Workspace} {p : Project} {f : Path}

/-- The files that the walk for sources comes to, however they are named. -/
def reached (w : Workspace) (p : Project) : List Path :=
  p.disk.visit (fun dir => !leavesOut w.options dir) p.disk.depth w.options.translatedRoot

lemma discover_run (h : p.disk.look w.options.translatedRoot = .ok .directory) :
    w.discover.run p = (.ok ((w.reached p).filter (isNamedSource w.options)), p) := by
  simp only [discover, Activity.run_get_bind, h]
  rfl

lemma head?_eq_dot_iff (t : Text) : t.head? = some 46 ↔ t.hasPrefix dot = true := by
  cases t with
  | nil => simp [Text.hasPrefix]
  | cons b rest => simp [Text.hasPrefix, eq_comm (a := b)]

lemma enters_iff {o : Options} (hpieces : o.piecesRoot.clean = o.piecesRoot) (dir : Path) :
    (!leavesOut o dir) = true ↔ (base dir).hasPrefix dot = false ∧ dir ≠ o.piecesRoot := by
  rw [Bool.not_eq_true', ← Bool.not_eq_true, leavesOut, Bool.or_eq_true, decide_eq_true_eq, decide_eq_true_eq,
    head?_eq_dot_iff, hpieces, not_or, Bool.not_eq_true]

lemma mem_reached_iff (hd : p.disk.Proper) (hroot : w.options.translatedRoot.isAbs = true)
    (hclean : w.options.translatedRoot.clean = w.options.translatedRoot)
    (hpieces : w.options.piecesRoot.clean = w.options.piecesRoot) :
    f ∈ w.reached p ↔ (∃ data, p.disk.get? f = some (.file data)) ∧ w.options.translatedRoot.Encloses f ∧
      ∀ dir, dir.clean = dir → w.options.translatedRoot.Encloses dir → dir.Encloses f →
        (base dir).hasPrefix dot = false ∧ dir ≠ w.options.piecesRoot := by
  simp only [← enters_iff hpieces]
  rw [reached, Disk.mem_visit_iff hd hclean hroot]
  constructor
  · rintro ⟨hopen, -⟩
    exact ⟨hopen.file, hopen.below, hopen.entered⟩
  · rintro ⟨⟨data, hget⟩, hbelow, hentered⟩
    have hle := Disk.length_components_le_depth hget
    exact ⟨⟨⟨data, hget⟩, hbelow, hentered⟩, by omega⟩

/-- The sources of a project are the files below the translated root whose names have the ending, but for those with a
directory between that is hidden or the root of the pieces. Each is found once, in the order of the components, and
none below a root of the pieces that lies below the translated root. -/
theorem discover_exactly_sources (hd : p.disk.Proper) (hroot : w.options.translatedRoot.isAbs = true)
    (hclean : w.options.translatedRoot.clean = w.options.translatedRoot)
    (hpieces : w.options.piecesRoot.clean = w.options.piecesRoot)
    (hlook : p.disk.look w.options.translatedRoot = .ok .directory) :
    ∃ files, w.discover.run p = (.ok files, p) ∧
      (files.Pairwise fun f g => f.components < g.components) ∧ files.Nodup ∧
      (∀ f, f ∈ files ↔ (∃ data, p.disk.get? f = some (.file data)) ∧ w.options.translatedRoot.Encloses f ∧
        (base f).hasSuffix (Options.orElse w.options.extension ".d.ts") = true ∧
        ∀ dir, dir.clean = dir → w.options.translatedRoot.Encloses dir → dir.Encloses f →
          (base dir).hasPrefix dot = false ∧ dir ≠ w.options.piecesRoot) ∧
      (w.options.translatedRoot.Encloses w.options.piecesRoot → ∀ f ∈ files, ¬ w.options.piecesRoot.Encloses f) := by
  have hsorted : ((w.reached p).filter (isNamedSource w.options)).Pairwise fun f g => f.components < g.components :=
    (Disk.pairwise_visit hd hroot).filter _
  have hmem (f : Path) := mem_reached_iff (f := f) hd hroot hclean hpieces
  refine ⟨_, discover_run hlook, hsorted, ?_, ?_, ?_⟩
  · have : Std.Irrefl fun f g : Path => f.components < g.components := ⟨fun f => List.lt_irrefl f.components⟩
    exact hsorted.nodup
  · intro f
    rw [List.mem_filter, hmem f]
    exact ⟨fun ⟨⟨hfile, hbelow, hbetween⟩, hnamed⟩ => ⟨hfile, hbelow, hnamed, hbetween⟩,
      fun ⟨hfile, hbelow, hnamed, hbetween⟩ => ⟨⟨hfile, hbelow, hbetween⟩, hnamed⟩⟩
  · intro hnested f hf habove
    obtain ⟨-, -, hbetween⟩ := (hmem f).mp (List.mem_of_mem_filter hf)
    exact (hbetween _ hpieces hnested habove).2 rfl

/-- The root of the pieces and a hidden directory lie below the translated root. -/
def mixedWorkspace : Workspace :=
  { sampleWorkspace with options := { translatedRoot := "/work/t", piecesRoot := "/work/t/b/p" }, digest := id }

/-- Directories are named like sources, and a file like a hidden directory. -/
def mixedProject : Project :=
  { disk := { nodes := [
      ("/work", .directory), ("/work/t", .directory), ("/work/t/b.d.ts", .file "type B=1\n"),
      ("/work/t/b", .directory), ("/work/t/b/p", .directory), ("/work/t/b/p/index.d.ts", .file ""),
      ("/work/t/b/.d.ts", .directory), ("/work/t/b/.d.ts/h.d.ts", .file ""), ("/work/t/b/notes.md", .file ""),
      ("/work/t/b/a.d.ts", .directory), ("/work/t/b/a.d.ts/p", .directory), ("/work/t/b/a.d.ts/p/c.d.ts", .file ""),
      ("/work/t/.d.ts", .file "type D=1\n"), ("/work/o.d.ts", .file "")] } }

theorem mixed_sources_discovered :
    mixedProject.disk.Proper ∧ isAbs mixedWorkspace.options.translatedRoot = true ∧
      clean mixedWorkspace.options.translatedRoot = mixedWorkspace.options.translatedRoot ∧
      clean mixedWorkspace.options.piecesRoot = mixedWorkspace.options.piecesRoot ∧
      mixedProject.disk.look mixedWorkspace.options.translatedRoot = .ok .directory ∧
      ∃ files, mixedWorkspace.discover.run mixedProject = (.ok files, mixedProject) ∧ files.Nodup ∧
        files = ["/work/t/.d.ts", "/work/t/b/a.d.ts/p/c.d.ts", "/work/t/b.d.ts"] ∧
        ∀ f ∈ files, ¬ Encloses mixedWorkspace.options.piecesRoot f := by
  have hd : mixedProject.disk.Proper := Disk.proper_of_nodes (by decide +kernel) (by decide +kernel)
  have hroot : isAbs mixedWorkspace.options.translatedRoot = true := by decide
  have hclean : clean mixedWorkspace.options.translatedRoot = mixedWorkspace.options.translatedRoot := by decide
  have hpieces : clean mixedWorkspace.options.piecesRoot = mixedWorkspace.options.piecesRoot := by decide
  have hlook : mixedProject.disk.look mixedWorkspace.options.translatedRoot = .ok .directory := by decide +kernel
  obtain ⟨files, hrun, -, hnodup, -, hapart⟩ := discover_exactly_sources hd hroot hclean hpieces hlook
  have hcomputed : (mixedWorkspace.discover.run mixedProject).1 =
      .ok ["/work/t/.d.ts", "/work/t/b/a.d.ts/p/c.d.ts", "/work/t/b.d.ts"] := by decide +kernel
  rw [hrun] at hcomputed
  exact ⟨hd, hroot, hclean, hpieces, hlook, files, hrun, hnodup, Except.ok.inj hcomputed, hapart (by decide)⟩

end Workspace

end DeclPieces
