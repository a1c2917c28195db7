import DeclPieces.Proofs.Namespaces

/-! Where the two roots of a project lead. Allowed settings write them differently, but from the directory of the
project a relative path can lead to a directory that the other path names in another way; what it takes for that is
told without resolving either. -/
namespace DeclPieces.Path
variable {root p q : Path} {done names parts : List Text} {part : Text} {n : Nat}

/-- How many directories a path climbs before it descends. -/
def height (p : Path) : Nat := (p.components.takeWhile (· = dotDot)).length

/-- The names through which a path descends. -/
def descent (p : Path) : List Text := p.components.dropWhile (· = dotDot)

/-- The components of the directory `n` levels above, which is the topmost one if there are fewer. -/
def above (root : Path) (n : Nat) : List Text := root.components.take (root.components.length - n)

/-- Do two different ways to write a path lead from `root` to one directory? -/
inductive Meets (root p q : Path) : Prop where
  /-- `q` names the directory to which `p` leads. -/
  | named (hp : p.isAbs = false) (hq : q.isAbs = true) (h : q.components = root.above p.height ++ p.descent)
  /-- `q` climbs further and comes back through the directories that it has left. -/
  | returning (hp : p.isAbs = false) (hq : q.isAbs = false) (hlt : p.height < q.height)
      (h : q.descent = (root.above p.height).drop (root.above q.height).length ++ p.descent)

/-- A part has the same effect on the names passed last wherever the climbs before them lead. -/
lemma push_beside (hdone : dotDot ∉ done) (hnames : dotDot ∉ names) (n : Nat) (part : Text) :
    ∃ names' n', dotDot ∉ names' ∧
      push false (names ++ List.replicate n dotDot) part = names' ++ List.replicate n' dotDot ∧
      push true (names ++ done.drop n) part = names' ++ done.drop n' := by
  unfold push
  by_cases hskip : part.isEmpty || part = dot
  · exact ⟨names, n, hnames, if_pos hskip, if_pos hskip⟩
  simp only [if_neg hskip]
  by_cases hclimb : part = dotDot
  · simp only [if_pos hclimb]
    cases names with
    | nil =>
      refine ⟨[], n + 1, List.not_mem_nil, ?_, ?_⟩
      · cases n with
        | zero => rfl
        | succ n => simp [List.replicate_succ]
      · rw [List.nil_append, List.nil_append, ← List.drop_drop]
        cases hlast : done.drop n with
        | nil => rfl
        | cons last before =>
          have hne : last ≠ dotDot := by
            rintro rfl
            exact hdone (List.mem_of_mem_drop (hlast ▸ List.mem_cons_self))
          simp [hne]
    | cons last before =>
      rw [List.mem_cons, not_or] at hnames
      exact ⟨before, n, hnames.2, by simp [Ne.symm hnames.1], by simp [Ne.symm hnames.1]⟩
  · simp only [if_neg hclimb]
    exact ⟨part :: names, n, by simp [hnames, Ne.symm hclimb], rfl, rfl⟩

lemma foldl_push_beside (hdone : dotDot ∉ done) (hnames : dotDot ∉ names) (n : Nat) (parts : List Text) :
    ∃ names' n', dotDot ∉ names' ∧
      parts.foldl (push false) (names ++ List.replicate n dotDot) = names' ++ List.replicate n' dotDot ∧
      parts.foldl (push true) (names ++ done.drop n) = names' ++ done.drop n' := by
  induction parts generalizing names n with
  | nil => exact ⟨names, n, hnames, rfl, rfl⟩
  | cons part rest ih =>
    obtain ⟨names', n', hnames', hfree, hrooted⟩ := push_beside hdone hnames n part
    rw [List.foldl_cons, List.foldl_cons, hfree, hrooted]
    exact ih hnames' n'

/-- Climbs, and then names that are none, are told apart. -/
lemma height_descent_of_components (h : p.components = List.replicate n dotDot ++ names) (hnames : dotDot ∉ names) :
    p.height = n ∧ p.descent = names := by
  have hfront : ∀ c ∈ List.replicate n dotDot, decide (c = dotDot) = true := fun c hc => by
    simpa using List.eq_of_mem_replicate hc
  have hback : names.takeWhile (· = dotDot) = [] ∧ names.dropWhile (· = dotDot) = names := by
    cases names with
    | nil => exact ⟨rfl, rfl⟩
    | cons c rest =>
      have hc : c ≠ dotDot := fun he => hnames (he ▸ List.mem_cons_self)
      exact ⟨List.takeWhile_cons_of_neg (by simpa using hc), List.dropWhile_cons_of_neg (by simpa using hc)⟩
  constructor
  · rw [height, h, List.takeWhile_append_of_pos hfront, hback.1, List.append_nil, List.length_replicate]
  · rw [descent, h, List.dropWhile_append_of_pos hfront, hback.2]

/-- From a directory a relative path leads down from a directory above it. -/
lemma components_join_relative (hroot : root.isAbs = true) (hp : p.isAbs = false) :
    (join root p).components = root.above p.height ++ p.descent := by
  have hdone : dotDot ∉ root.components.reverse := fun h =>
    ne_dotDot_of_mem_components hroot dotDot (List.mem_reverse.mp h) rfl
  obtain ⟨names, n, hnames, hfree, hrooted⟩ := foldl_push_beside hdone List.not_mem_nil 0 (Text.splitBy slash p)
  have hcomponents : p.components = List.replicate n dotDot ++ names.reverse := by
    rw [components, hp]
    simpa using congrArg List.reverse hfree
  obtain ⟨hheight, hdescent⟩ := height_descent_of_components hcomponents (by simpa using hnames)
  rw [List.drop_zero, List.nil_append] at hrooted
  rw [components_join (ne_nil_of_isAbs hroot), hroot, hrooted, hheight, hdescent, List.reverse_append,
    List.reverse_drop, List.reverse_reverse, List.length_reverse, above]

lemma components_resolve (hroot : root.isAbs = true) :
    (resolve root p).components = if p.isAbs then p.components else root.above p.height ++ p.descent := by
  unfold resolve
  split
  · exact components_clean p
  · next hp => exact components_join_relative hroot (by simpa using hp)

lemma clean_resolve (hroot : root.isAbs = true) : (resolve root p).clean = resolve root p := by
  unfold resolve
  split
  · exact clean_clean p
  · rw [join_eq (ne_nil_of_isAbs hroot), clean_clean]

/-- A path that is not rooted is told by how far it climbs and how it descends. -/
lemma clean_eq_of_height_descent (habs : p.isAbs = q.isAbs) (hheight : p.height = q.height)
    (hdescent : p.descent = q.descent) : p.clean = q.clean := by
  have hsplit (r : Path) : r.components = List.replicate r.height dotDot ++ r.descent := by
    have hclimbs : r.components.takeWhile (· = dotDot) = List.replicate r.height dotDot := by
      refine List.eq_replicate_iff.mpr ⟨rfl, fun c hc => ?_⟩
      simpa using List.mem_takeWhile_imp hc
    rw [← hclimbs, descent, List.takeWhile_append_dropWhile]
  rw [clean_eq_ofComponents, clean_eq_ofComponents, habs, hsplit p, hsplit q, hheight, hdescent]

/-- The directories above one directory lie on one way. -/
lemma above_prefix (root : Path) {n m : Nat} (h : n ≤ m) : root.above m <+: root.above n :=
  List.take_prefix_take_left (by omega)

lemma returning_iff (h : p.height ≤ q.height) :
    root.above p.height ++ p.descent = root.above q.height ++ q.descent ↔
      q.descent = (root.above p.height).drop (root.above q.height).length ++ p.descent := by
  obtain ⟨left, hleft⟩ := above_prefix root h
  rw [← hleft, List.drop_left, List.append_assoc, List.append_cancel_left_eq, eq_comm]

lemma Meets.resolve_eq (hroot : root.isAbs = true) (h : root.Meets p q) : resolve root p = resolve root q := by
  have habs := (isAbs_resolve hroot p).trans (isAbs_resolve hroot q).symm
  refine eq_of_components (clean_resolve hroot) (clean_resolve hroot) habs ?_
  rw [components_resolve hroot, components_resolve hroot]
  cases h with
  | named hp hq h => simp [hp, hq, h]
  | returning hp hq hlt h => simpa [hp, hq] using (returning_iff hlt.le).mpr h

/-- Paths that are written alike, and climb equally far, do not meet. -/
lemma Meets.not_alike (h : root.Meets p q) (habs : p.isAbs = q.isAbs) : p.height ≠ q.height := by
  cases h with
  | named hp hq _ => exact absurd (hp.symm.trans (habs.trans hq)) (by decide)
  | returning _ _ hlt _ => exact hlt.ne

lemma meets_of_resolve_eq (hroot : root.isAbs = true) (hne : p.clean ≠ q.clean)
    (h : resolve root p = resolve root q) : root.Meets p q ∨ root.Meets q p := by
  have hcomponents := congrArg components h
  rw [components_resolve hroot, components_resolve hroot] at hcomponents
  cases hp : p.isAbs with
  | true =>
    cases hq : q.isAbs with
    | true =>
      simp only [hp, hq, if_true] at hcomponents
      refine absurd ?_ hne
      rw [clean_eq_ofComponents, clean_eq_ofComponents, hp, hq, hcomponents]
    | false =>
      simp only [hp, hq, if_true, Bool.false_eq_true, if_false] at hcomponents
      exact .inr (.named hq hp hcomponents)
  | false =>
    cases hq : q.isAbs with
    | true =>
      simp only [hp, hq, if_true, Bool.false_eq_true, if_false] at hcomponents
      exact .inl (.named hp hq hcomponents.symm)
    | false =>
      simp only [hp, hq, Bool.false_eq_true, if_false] at hcomponents
      rcases Nat.lt_trichotomy p.height q.height with hlt | heq | hlt
      · exact .inl (.returning hp hq hlt ((returning_iff hlt.le).mp hcomponents))
      · -- climbing equally far they would descend alike
        rw [heq, List.append_cancel_left_eq] at hcomponents
        exact absurd (clean_eq_of_height_descent (hp.trans hq.symm) heq hcomponents) hne
      · exact .inr (.returning hq hp hlt ((returning_iff hlt.le).mp hcomponents.symm))

end DeclPieces.Path

namespace DeclPieces.Settings
open Path
variable {s : Settings} {root : Path}

lemma roots_ne_of_validate (h : s.validate = .ok ()) : clean s.translatedRoot ≠ clean s.piecesRoot := by
  have hnone := objections_of_validate h
  unfold objections at hnone
  simp only [List.append_eq_nil_iff] at hnone
  have hroots := hnone.1.1.1.1.1.1.1.1.1.1.2
  simpa using hroots

/-- Allowed settings give two rooted, clean directories. They are one directory exactly if one root, written from the
project, leads to where the other is: named in full, or reached by climbing further and coming back. So they are two
if both are rooted, and if neither is and both climb equally far. -/
theorem roots_meet_iff (h : s.validate = .ok ()) (hroot : root.isAbs = true) :
    let translated := (s.options root).translatedRoot
    let pieces := (s.options root).piecesRoot
    (translated.isAbs = true ∧ translated.clean = translated) ∧ (pieces.isAbs = true ∧ pieces.clean = pieces) ∧
      (translated = pieces ↔ root.Meets s.translatedRoot s.piecesRoot ∨ root.Meets s.piecesRoot s.translatedRoot) ∧
      (isAbs s.translatedRoot = isAbs s.piecesRoot → height s.translatedRoot = height s.piecesRoot →
        translated ≠ pieces) := by
  intro translated pieces
  have hmeet : translated = pieces ↔
      root.Meets s.translatedRoot s.piecesRoot ∨ root.Meets s.piecesRoot s.translatedRoot := by
    refine ⟨meets_of_resolve_eq hroot (roots_ne_of_validate h), ?_⟩
    rintro (hmeets | hmeets)
    · exact hmeets.resolve_eq hroot
    · exact (hmeets.resolve_eq hroot).symm
  refine ⟨⟨isAbs_resolve hroot _, clean_resolve hroot⟩, ⟨isAbs_resolve hroot _, clean_resolve hroot⟩, hmeet, ?_⟩
  intro habs hheight heq
  rcases hmeet.mp heq with hmeets | hmeets
  · exact hmeets.not_alike habs hheight
  · exact hmeets.not_alike habs.symm hheight.symm

/-- Roots in two spellings that climb, one of which leads below the other. -/
def climbingSettings : Settings := { translatedRoot := "../lib/../src/types", piecesRoot := "./../src/types/pieces/" }

theorem climbing_roots_differ :
    climbingSettings.validate = .ok () ∧ isAbs "/work/project" = true ∧
      (climbingSettings.options "/work/project").translatedRoot = "/work/src/types" ∧
      (climbingSettings.options "/work/project").piecesRoot = "/work/src/types/pieces" ∧
      (climbingSettings.options "/work/project").translatedRoot ≠
        (climbingSettings.options "/work/project").piecesRoot := by
  have hvalid : climbingSettings.validate = .ok () := by decide +kernel
  have hroot : isAbs "/work/project" = true := by decide +kernel
  obtain ⟨-, -, -, hdiffer⟩ := roots_meet_iff hvalid hroot
  exact ⟨hvalid, hroot, by decide +kernel, by decide +kernel, hdiffer (by decide +kernel) (by decide +kernel)⟩

/-- One root is given from the project, the other in full. -/
def namedSettings : Settings := { translatedRoot := "t", piecesRoot := "/work/t" }

/-- One root leaves the directory of the project and comes back. -/
def returningSettings : Settings := { translatedRoot := "t", piecesRoot := "../work/t" }

/-- Both roots climb to the top, which takes no more than one step. -/
def topmostSettings : Settings :=
  { translatedRoot := "../../../../../../../../t", piecesRoot := "../../../../../../../../../t" }

/-- All are allowed, and with each of them the pieces are kept where the sources are. -/
theorem allowed_roots_meet :
    (namedSettings.validate = .ok () ∧ (namedSettings.options "/work").translatedRoot = "/work/t" ∧
      (namedSettings.options "/work").piecesRoot = "/work/t") ∧
    (returningSettings.validate = .ok () ∧ (returningSettings.options "/work").translatedRoot = "/work/t" ∧
      (returningSettings.options "/work").piecesRoot = "/work/t") ∧
    topmostSettings.validate = .ok () ∧ (topmostSettings.options "/work").translatedRoot = "/t" ∧
      (topmostSettings.options "/work").piecesRoot = "/t" := by
  decide +kernel

end DeclPieces.Settings
