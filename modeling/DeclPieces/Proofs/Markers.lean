import DeclPieces.Piece.Merge
import DeclPieces.Proofs.CleanPath
import DeclPieces.Proofs.Success
import DeclPieces.Proofs.Trimming

/-! Marked lines: what splitting puts around the text of a piece is what merging takes off again. -/
namespace DeclPieces
open Text

/-- Is every line of the text marked? -/
def Marked (o : Options) (t : Text) : Prop := ∀ line ∈ splitBy newline t, isMarked o line = true

/-- Is no line of the text marked? -/
def Unmarked (o : Options) (t : Text) : Prop := ∀ line ∈ splitBy newline t, isMarked o line = false

instance (o : Options) (t : Text) : Decidable (Unmarked o t) := inferInstanceAs (Decidable (∀ line ∈ _, _ = false))

/-- The lines that stay when marked ones are dropped. -/
def unmarkedLines (o : Options) (t : Text) : List Text := (splitBy newline t).filter fun line => !isMarked o line

section Strip
variable {o : Options} {t : Text}

lemma unmarkedLines_append (o : Options) (t u : Text) :
    unmarkedLines o (t ++ newline :: u) = unmarkedLines o t ++ unmarkedLines o u := by
  simp [unmarkedLines, splitBy_append_sep]

lemma Marked.unmarkedLines_eq (h : Marked o t) : unmarkedLines o t = [] := by
  refine List.filter_eq_nil_iff.mpr fun line hl => ?_
  simp [h line hl]

lemma Unmarked.unmarkedLines_eq (h : Unmarked o t) : unmarkedLines o t = splitBy newline t := by
  refine List.filter_eq_self.mpr fun line hl => ?_
  simp [h line hl]

lemma orElse_ne_nil (t : Text) {fallback : Text} (h : fallback ≠ []) : Options.orElse t fallback ≠ [] := by
  unfold Options.orElse
  split
  · exact h
  · next ht => simpa using ht

/-- Neither marker is empty, so an empty line is not marked. -/
lemma unmarkedLines_nil (opts : Options) : unmarkedLines opts.withDefaults [] = [[]] := by
  have hi : opts.withDefaults.importMarker ≠ [] := orElse_ne_nil _ (by decide)
  have he : opts.withDefaults.exportMarker ≠ [] := orElse_ne_nil _ (by decide)
  have hprefix {m : Text} (hm : m ≠ []) : hasPrefix [] m = false := by
    cases m with
    | nil => exact absurd rfl hm
    | cons b rest => rfl
  have h : isMarked opts.withDefaults [] = false := by simp [isMarked, hprefix hi, hprefix he]
  simp [unmarkedLines, splitBy, h]

/-- Dropping the marked lines of a piece leaves the unmarked ones of its text, between empty lines. -/
lemma unmarkedLines_wrap (opts : Options) (p : Piece) (body : Text)
    (hi : p.importText = [] ∨ Marked opts.withDefaults p.importText)
    (he : p.exportText = [] ∨ Marked opts.withDefaults p.exportText) :
    unmarkedLines opts.withDefaults (p.wrap body) =
      (if p.importText.isEmpty then [] else [[]]) ++ unmarkedLines opts.withDefaults body ++
        (if p.exportText.isEmpty then [[]] else [[], []]) := by
  have hempty := unmarkedLines_nil opts
  have htail : unmarkedLines opts.withDefaults (body ++ newline ::
      (if p.exportText.isEmpty then [] else newline :: p.exportText ++ [newline])) =
      unmarkedLines opts.withDefaults body ++ (if p.exportText.isEmpty then [[]] else [[], []]) := by
    rw [unmarkedLines_append]
    by_cases hx : p.exportText.isEmpty = true
    · simp [hx, hempty]
    · have hm := he.resolve_left (by simpa using hx)
      have hline : unmarkedLines opts.withDefaults (newline :: p.exportText ++ [newline]) = [[], []] := by
        have h1 := unmarkedLines_append opts.withDefaults [] (p.exportText ++ [newline])
        have h2 := unmarkedLines_append opts.withDefaults p.exportText []
        rw [List.nil_append] at h1
        rw [List.cons_append, h1, h2, hm.unmarkedLines_eq, hempty]
        rfl
      rw [if_neg hx, if_neg hx, hline]
  by_cases hx : p.importText.isEmpty = true
  · simpa [Piece.wrap, hx] using htail
  · have hm := hi.resolve_left (by simpa using hx)
    have hwrap : p.wrap body = p.importText ++ newline :: ([] ++ newline :: (body ++ newline ::
        (if p.exportText.isEmpty then [] else newline :: p.exportText ++ [newline]))) := by
      simp [Piece.wrap, hx]
    rw [hwrap, unmarkedLines_append, unmarkedLines_append, hm.unmarkedLines_eq, hempty, htail, if_neg hx]
    simp

lemma stripMarkers_eq (opts : Options) (t : Text) :
    stripMarkers opts t = trim (joinWith [newline] (unmarkedLines opts.withDefaults t)) := rfl

lemma exists_joinWith_before (n : Nat) (lines : List Text) :
    ∃ i, joinWith [newline] (List.replicate n [] ++ lines) = List.replicate i newline ++ joinWith [newline] lines := by
  induction n with
  | zero => exact ⟨0, rfl⟩
  | succ n ih =>
    obtain ⟨i, hi⟩ := ih
    rw [List.replicate_succ, List.cons_append]
    by_cases hempty : List.replicate n [] ++ lines = []
    · have hlines : lines = [] := (List.append_eq_nil_iff.mp hempty).2
      exact ⟨0, by rw [hempty, hlines]; rfl⟩
    · exact ⟨i + 1, by rw [joinWith_cons _ _ hempty, hi]; rfl⟩

lemma exists_joinWith_after (n : Nat) (lines : List Text) :
    ∃ j, joinWith [newline] (lines ++ List.replicate n []) = joinWith [newline] lines ++ List.replicate j newline := by
  obtain ⟨i, hi⟩ := exists_joinWith_before n []
  rw [List.append_nil, show joinWith [newline] [] = [] from rfl, List.append_nil] at hi
  by_cases hlines : lines = []
  · exact ⟨i, by rw [hlines, List.nil_append, hi]; rfl⟩
  · cases n with
    | zero => exact ⟨0, by simp⟩
    | succ n =>
      refine ⟨i + 1, ?_⟩
      rw [joinWith_append _ hlines (by simp), hi, List.replicate_succ, List.append_assoc, List.singleton_append]

/-- Empty lines around some lines are line breaks around their text. -/
lemma exists_joinWith_around (m n : Nat) (lines : List Text) :
    ∃ i j, joinWith [newline] (List.replicate m [] ++ lines ++ List.replicate n []) =
      List.replicate i newline ++ joinWith [newline] lines ++ List.replicate j newline := by
  obtain ⟨j, hj⟩ := exists_joinWith_after n (List.replicate m [] ++ lines)
  obtain ⟨i, hi⟩ := exists_joinWith_before m lines
  exact ⟨i, j, by rw [hj, hi]⟩

/-- Merging takes the same from a text, whether splitting has put its lines around it or not. -/
theorem stripMarkers_wrap_eq (opts : Options) (p : Piece) (body : Text)
    (hi : p.importText = [] ∨ Marked opts.withDefaults p.importText)
    (he : p.exportText = [] ∨ Marked opts.withDefaults p.exportText) :
    stripMarkers opts (p.wrap body) = stripMarkers opts body := by
  have hlines : unmarkedLines opts.withDefaults (p.wrap body) =
      List.replicate (if p.importText.isEmpty then 0 else 1) [] ++ unmarkedLines opts.withDefaults body ++
        List.replicate (if p.exportText.isEmpty then 1 else 2) [] := by
    rw [unmarkedLines_wrap opts p body hi he]
    split <;> split <;> rfl
  obtain ⟨i, j, hjoin⟩ := exists_joinWith_around (if p.importText.isEmpty then 0 else 1)
    (if p.exportText.isEmpty then 1 else 2) (unmarkedLines opts.withDefaults body)
  rw [stripMarkers_eq, hlines, hjoin, trim_around_newlines, ← stripMarkers_eq]

/-- A text that has no marked lines and neither starts nor ends with white space is left as it is. -/
lemma stripMarkers_eq_self {opts : Options} (hu : Unmarked opts.withDefaults t) (ht : Trimmed t) :
    stripMarkers opts t = t := by
  rw [stripMarkers_eq, hu.unmarkedLines_eq, joinWith_splitBy, ht.trim_eq]

/-- Merging takes off what splitting put around a text that has no marked lines of its own and neither
starts nor ends with white space. -/
theorem stripMarkers_wrap (opts : Options) (p : Piece) (body : Text)
    (hi : p.importText = [] ∨ Marked opts.withDefaults p.importText)
    (he : p.exportText = [] ∨ Marked opts.withDefaults p.exportText) (hu : Unmarked opts.withDefaults body)
    (ht : Trimmed body) : stripMarkers opts (p.wrap body) = body :=
  (stripMarkers_wrap_eq opts p body hi he).trans (stripMarkers_eq_self hu ht)

end Strip

section Lines
variable {o : Options}

lemma marked_of_hasPrefix {line : Text} (h : newline ∉ line) (hp : isMarked o line = true) : Marked o line := by
  intro l hl
  rw [splitBy_of_not_mem h] at hl
  obtain rfl : l = line := by simpa using hl
  exact hp

lemma hasPrefix_append (m t : Text) : hasPrefix (m ++ t) m = true :=
  List.isPrefixOf_iff_prefix.mpr (List.prefix_append m t)

lemma newline_not_mem_of_bytesFrom {t u : Text} (h : Path.BytesFrom t u) (hu : newline ∉ u) : newline ∉ t := by
  intro ht
  rcases h newline ht with h | h | h
  · exact absurd h (by decide)
  · exact absurd h (by decide)
  · exact hu h

/-- Each key of an entry has one group, of all values that go with it. -/
lemma mem_groupByKey_iff {entries : List (Text × Text)} {key : Text} {values : List Text} :
    (key, values) ∈ groupByKey entries ↔
      key ∈ entries.map (·.1) ∧ values = (entries.filter (·.1 = key)).map (·.2) := by
  have hkeys (k : Text) : k ∈ Text.sort (entries.map (·.1)).eraseDups ↔ k ∈ entries.map (·.1) :=
    (List.stableSort_perm _ _).mem_iff.trans List.mem_eraseDups
  simp only [groupByKey, List.mem_map (f := fun key => (key, _)), Prod.mk.injEq, hkeys]
  constructor
  · rintro ⟨_, hk, rfl, rfl⟩
    exact ⟨hk, rfl⟩
  · rintro ⟨hk, rfl⟩
    exact ⟨key, hk, rfl, rfl⟩

lemma mem_group_iff {entries : List (Text × Text)} {key value : Text} {values : List Text}
    (h : (key, values) ∈ groupByKey entries) : value ∈ values ↔ (key, value) ∈ entries := by
  obtain ⟨-, rfl⟩ := mem_groupByKey_iff.mp h
  simp

lemma newline_not_mem_joinWith {sep : Text} {parts : List Text} (hs : newline ∉ sep)
    (hp : ∀ part ∈ parts, newline ∉ part) : newline ∉ joinWith sep parts := by
  intro h
  rcases mem_joinWith h with h | ⟨part, hpart, h⟩
  · exact hs h
  · exact hp part hpart h

lemma newline_not_mem_clause {r : CrossReference} (hs : newline ∉ r.source) (ht : newline ∉ r.target) :
    newline ∉ r.clause := by
  unfold CrossReference.clause
  split
  · exact ht
  · simp only [List.mem_append, not_or]
    exact ⟨⟨hs, by decide⟩, ht⟩

/-- The reference adds its clause to the line for a module: the index of its file, as the piece at `path` refers to it. -/
def Adds (o : Options) (path : Path) (r : CrossReference) (e : Text × Text) : Prop :=
  ∃ index, Address.indexPath o r.file = .ok index ∧ Address.moduleReference (Path.dir path) index = .ok e.1 ∧
    e.2 = r.clause

/-- Import lines are made of what each reference adds. -/
lemma importText_eq_ok {refs : List CrossReference} {path : Path} {t : Text} (h : importText o refs path = .ok t) :
    ∃ entries, List.Forall₂ (Adds o path) refs entries ∧
      t = joinWith [newline] ((groupByKey entries).map fun g => importLine o g.1 g.2) := by
  unfold importText at h
  obtain ⟨entries, hentries, h⟩ := bind_eq_ok_iff.mp h
  refine ⟨entries, (mapM_eq_ok_iff.mp hentries).imp fun r e he => ?_, (pure_eq_ok_iff.mp h).symm⟩
  obtain ⟨index, hindex, he⟩ := bind_eq_ok_iff.mp he
  obtain ⟨module, hmodule, he⟩ := bind_eq_ok_iff.mp he
  obtain rfl := pure_eq_ok_iff.mp he
  exact ⟨index, hindex, hmodule, rfl⟩

/-- The module and the clause of an import line are on one line. -/
lemma newline_not_mem_of_adds {r : CrossReference} {path : Path} {e : Text × Text} (h : Adds o path r e)
    (hroot : newline ∉ o.piecesRoot) (hindex : newline ∉ o.withDefaults.indexFile)
    (hr : newline ∉ r.source ∧ newline ∉ r.target ∧ newline ∉ r.file) : newline ∉ e.1 ∧ newline ∉ e.2 := by
  obtain ⟨hsource, htarget, hfile⟩ := hr
  obtain ⟨index, hi, hmodule, hclause⟩ := h
  have hi := newline_not_mem_of_bytesFrom (Address.bytesFrom_indexPath hi) (by
    simp only [List.mem_append, not_or]
    exact ⟨⟨hroot, hfile⟩, hindex⟩)
  rw [hclause]
  exact ⟨newline_not_mem_of_bytesFrom (Address.bytesFrom_moduleReference hmodule) hi,
    newline_not_mem_clause hsource htarget⟩

lemma importLine_marked {module : Text} {members : List Text} (hm : newline ∉ o.importMarker)
    (hmodule : newline ∉ module) (hmembers : ∀ v ∈ members, newline ∉ v) :
    newline ∉ importLine o module members ∧ isMarked o (importLine o module members) = true := by
  have hjoin : newline ∉ joinWith ", " members := newline_not_mem_joinWith (by decide) hmembers
  constructor
  · simp only [importLine, List.mem_append, not_or]
    exact ⟨⟨⟨⟨⟨hm, by decide⟩, hjoin⟩, by decide⟩, hmodule⟩, by decide⟩
  · simp only [importLine, List.append_assoc, isMarked, hasPrefix_append, Bool.true_or]

/-- Every line that imports names is marked, if neither the marker nor a name or a path has a line break. -/
theorem importText_marked {refs : List CrossReference} {path : Path} {t : Text}
    (h : importText o refs path = .ok t) (hm : newline ∉ o.importMarker) (hroot : newline ∉ o.piecesRoot)
    (hindex : newline ∉ o.withDefaults.indexFile)
    (hrefs : ∀ r ∈ refs, newline ∉ r.source ∧ newline ∉ r.target ∧ newline ∉ r.file) :
    t = [] ∨ Marked o t := by
  obtain ⟨entries, hentries, rfl⟩ := importText_eq_ok h
  have hclean : ∀ e ∈ entries, newline ∉ e.1 ∧ newline ∉ e.2 := by
    intro e he
    obtain ⟨r, hr, hadds⟩ := hentries.exists_of_mem he
    exact newline_not_mem_of_adds hadds hroot hindex (hrefs r hr)
  have hlines : ∀ g ∈ groupByKey entries,
      newline ∉ importLine o g.1 g.2 ∧ isMarked o (importLine o g.1 g.2) = true := by
    intro g hg
    obtain ⟨e, he, hmod⟩ := List.mem_map.mp (mem_groupByKey_iff.mp hg).1
    exact importLine_marked hm (hmod ▸ (hclean e he).1) fun v hv => (hclean _ ((mem_group_iff hg).mp hv)).2
  by_cases hne : groupByKey entries = []
  · left
    simp only [hne]
    rfl
  · right
    intro line hl
    rw [splitBy_joinWith (by simpa using hne) (List.forall_mem_map.mpr fun g hg => (hlines g hg).1)] at hl
    obtain ⟨g, hg, rfl⟩ := List.mem_map.mp hl
    exact (hlines g hg).2

/-- The line that exports a name is marked. -/
theorem exportText_marked (o : Options) (name : Text) (hm : newline ∉ o.exportMarker) (hn : newline ∉ name) :
    Marked o (exportText o name) := by
  refine marked_of_hasPrefix ?_ ?_
  · simp only [exportText, List.mem_append, not_or]
    exact ⟨⟨⟨hm, by decide⟩, hn⟩, by decide⟩
  · simp only [exportText, List.append_assoc, isMarked, hasPrefix_append, Bool.or_true]

end Lines

end DeclPieces
