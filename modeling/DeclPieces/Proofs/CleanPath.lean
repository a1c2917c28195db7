import DeclPieces.Piece.Address
import DeclPieces.Proofs.Lines
import Mathlib.Data.List.TakeWhile

/-! Clean paths: cleaning gives one path for each place, joining gives clean paths, and no step from a path
to a module reference brings in a byte other than a dot or a slash. -/
namespace DeclPieces.Path

/-- Resolved components, innermost first, as cleaning keeps them: no empty ones, no `.`, and climbs only
at the outer end of a path that is not rooted. -/
def Resolved (rooted : Bool) : List Text → Prop
  | [] => True
  | part :: outer => part ≠ [] ∧ part ≠ dot ∧ slash ∉ part ∧
      (part = dotDot → rooted = false ∧ ∀ q ∈ outer, q = dotDot) ∧ Resolved rooted outer

lemma Resolved.of_all_dotDot {done : List Text} (h : ∀ q ∈ done, q = dotDot) : Resolved false done := by
  induction done with
  | nil => trivial
  | cons q rest ih =>
    obtain rfl := h q (by simp)
    refine ⟨by decide, by decide, by decide, fun _ => ⟨rfl, fun r hr => h r (by simp [hr])⟩, ?_⟩
    exact ih fun r hr => h r (by simp [hr])

lemma Resolved.push {rooted : Bool} {done : List Text} {part : Text} (h : Resolved rooted done)
    (hp : slash ∉ part) : Resolved rooted (push rooted done part) := by
  unfold Path.push
  split
  · exact h
  next hskip =>
  split
  · cases done with
    | nil =>
      cases rooted
      · exact Resolved.of_all_dotDot (by simp)
      · trivial
    | cons last before =>
      by_cases hlast : last = dotDot
      · obtain ⟨rfl, hall⟩ := h.2.2.2.1 hlast
        subst hlast
        exact Resolved.of_all_dotDot (by simpa using hall)
      · simp only [if_neg hlast]
        exact h.2.2.2.2
  · next hdots =>
    simp only [Bool.or_eq_true, List.isEmpty_iff, decide_eq_true_eq, not_or] at hskip
    exact ⟨hskip.1, hskip.2, hp, fun he => absurd he hdots, h⟩

lemma Resolved.foldl_push {rooted : Bool} {parts done : List Text} (h : Resolved rooted done)
    (hp : ∀ part ∈ parts, slash ∉ part) : Resolved rooted (parts.foldl (Path.push rooted) done) := by
  induction parts generalizing done with
  | nil => exact h
  | cons part rest ih =>
    exact ih (h.push (hp part (by simp))) fun q hq => hp q (by simp [hq])

lemma resolved_components (p : Path) : Resolved p.isAbs p.components.reverse := by
  rw [components, List.reverse_reverse]
  exact Resolved.foldl_push trivial fun part hp => Text.not_mem_of_mem_splitBy hp

lemma Resolved.not_slash {rooted : Bool} {done : List Text} (h : Resolved rooted done) :
    ∀ part ∈ done, part ≠ [] ∧ slash ∉ part := by
  induction done with
  | nil => simp
  | cons q rest ih =>
    intro part hp
    rcases List.mem_cons.mp hp with rfl | hp
    · exact ⟨h.1, h.2.2.1⟩
    · exact ih h.2.2.2.2 part hp

/-- Resolving what is resolved changes nothing. -/
lemma Resolved.foldl_push_self {rooted : Bool} {done : List Text} (h : Resolved rooted done) :
    done.reverse.foldl (Path.push rooted) [] = done := by
  induction done with
  | nil => rfl
  | cons part outer ih =>
    rw [List.reverse_cons, List.foldl_append, ih h.2.2.2.2]
    obtain ⟨hne, hdot, -, hdd, -⟩ := h
    simp only [List.foldl_cons, List.foldl_nil, Path.push]
    rw [if_neg (by simp [hne, hdot])]
    by_cases hpart : part = dotDot
    · obtain ⟨rfl, hall⟩ := hdd hpart
      subst hpart
      cases outer with
      | nil => simp
      | cons last before => simp [hall last (by simp)]
    · simp [hpart]

lemma isAbs_ofComponents {rooted : Bool} {done : List Text} (h : Resolved rooted done) :
    isAbs (ofComponents rooted done.reverse) = rooted := by
  cases rooted with
  | true => rfl
  | false =>
    cases hd : done.reverse with
    | nil => rfl
    | cons part rest =>
      obtain ⟨hne, hslash⟩ := h.not_slash part (by rw [← List.mem_reverse, hd]; simp)
      cases part with
      | nil => exact absurd rfl hne
      | cons b more =>
        have hb : b ≠ slash := fun hb => hslash (by simp [hb])
        by_cases hrest : rest = []
        · simp [ofComponents, isAbs, hrest, Text.joinWith, hb]
        · simp [ofComponents, isAbs, Text.joinWith_cons [slash] (b :: more) hrest, hb]

/-- The components of a path that is written from resolved components are those components. -/
lemma components_ofComponents {rooted : Bool} {done : List Text} (h : Resolved rooted done) :
    components (ofComponents rooted done.reverse) = done.reverse := by
  have hparts : ∀ part ∈ done.reverse, slash ∉ part :=
    fun part hp => (h.not_slash part (by simpa using hp)).2
  rw [components, isAbs_ofComponents h]
  by_cases hd : done.reverse = []
  · have hnil : done = [] := by simpa using hd
    subst hnil
    cases rooted <;> rfl
  · have hfold := h.foldl_push_self
    cases rooted with
    | true =>
      have hsplit : Text.splitBy slash (ofComponents true done.reverse) = [] :: done.reverse := by
        rw [ofComponents, if_pos rfl, Text.splitBy_cons_sep, Text.splitBy_joinWith hd hparts]
      rw [hsplit, List.foldl_cons, push, if_pos (by rfl), hfold]
    | false =>
      have hsplit : Text.splitBy slash (ofComponents false done.reverse) = done.reverse := by
        rw [ofComponents, if_neg (by decide), if_neg (by simpa using hd), Text.splitBy_joinWith hd hparts]
      rw [hsplit, hfold]

lemma clean_eq (p : Path) : p.clean = ofComponents p.isAbs p.components.reverse.reverse := by
  rw [List.reverse_reverse, clean]

@[simp] lemma isAbs_clean (p : Path) : p.clean.isAbs = p.isAbs := by
  rw [clean_eq, isAbs_ofComponents (resolved_components p)]

@[simp] lemma components_clean (p : Path) : p.clean.components = p.components := by
  rw [clean_eq, components_ofComponents (resolved_components p), List.reverse_reverse]

/-- Cleaning a second time changes nothing. -/
@[simp] theorem clean_clean (p : Path) : p.clean.clean = p.clean := by
  rw [clean, isAbs_clean, components_clean, ← clean]

lemma clean_ne_nil (p : Path) : p.clean ≠ [] := by
  unfold clean ofComponents
  split
  · simp
  split
  · simp
  · next hc =>
    cases hd : p.components with
    | nil => simp [hd] at hc
    | cons part rest =>
      have hne := ((resolved_components p).not_slash part (by simp [hd])).1
      by_cases hrest : rest = []
      · simpa [hrest, Text.joinWith] using hne
      · simp [Text.joinWith_cons [slash] part hrest]

lemma join_eq_clean (dir : Text) {name : Text} (hname : name ≠ []) : ∃ p : Path, join dir name = p.clean := by
  have hn : name.isEmpty = false := by simpa using hname
  unfold join joinAll
  cases hd : dir.isEmpty
  · exact ⟨Text.joinWith [slash] [dir, name], by simp [List.dropWhile, hd]⟩
  · exact ⟨Text.joinWith [slash] [name], by simp [List.dropWhile, hd, hn]⟩

@[simp] lemma clean_join (dir : Text) {name : Text} (hname : name ≠ []) : (join dir name).clean = join dir name := by
  obtain ⟨p, hp⟩ := join_eq_clean dir hname
  rw [hp, clean_clean]

lemma join_ne_nil (dir : Text) {name : Text} (hname : name ≠ []) : join dir name ≠ [] := by
  obtain ⟨p, hp⟩ := join_eq_clean dir hname
  rw [hp]
  exact clean_ne_nil p

lemma joinAll_ne_nil {parts : List Text} (h : ∃ part ∈ parts, part ≠ []) : joinAll parts ≠ [] := by
  unfold joinAll
  split
  · next hd =>
    obtain ⟨part, hp, hne⟩ := h
    rw [List.dropWhile_eq_nil_iff] at hd
    exact absurd (by simpa using hd part hp) hne
  · exact clean_ne_nil _

lemma base_ne_nil (p : Path) : base p ≠ [] := by
  unfold base
  split
  · simp
  simp only
  split
  · simp
  · next ht =>
    cases hd : p.reverse.dropWhile (· = slash) with
    | nil => simp [hd] at ht
    | cons b rest =>
      have hb := List.head_dropWhile_not (l := p.reverse) (fun b => decide (b = slash)) (by simp [hd])
      simp only [hd, List.head_cons, decide_eq_false_iff_not] at hb
      simp [hb]

lemma isAbs_joinAll_cons {first : Text} (h : isAbs first = true) (rest : List Text) :
    (joinAll (first :: rest)).isAbs = true := by
  cases first with
  | nil => cases h
  | cons b bs =>
    have hjoin : joinAll ((b :: bs) :: rest) = clean (Text.joinWith [slash] ((b :: bs) :: rest)) := rfl
    rw [hjoin, isAbs_clean]
    cases rest <;> exact h

lemma isAbs_join {dir : Text} (hdir : dir ≠ []) (name : Text) : (join dir name).isAbs = isAbs dir := by
  cases dir with
  | nil => exact absurd rfl hdir
  | cons b rest =>
    have hj : join (b :: rest) name = clean (b :: rest ++ [slash] ++ name) := by
      simp [join, joinAll, List.dropWhile, Text.joinWith]
    rw [hj, isAbs_clean]
    rfl

/-! Where the bytes of a path come from. -/

lemma mem_push {rooted : Bool} {done : List Text} {part q : Text} (h : q ∈ push rooted done part) :
    q ∈ done ∨ q = part ∨ q = dotDot := by
  unfold push at h
  split at h
  · exact .inl h
  split at h
  · cases done with
    | nil => cases rooted <;> simp_all
    | cons last before =>
      simp only at h
      split at h
      · rcases List.mem_cons.mp h with rfl | h
        · exact .inr (.inr rfl)
        · exact .inl h
      · exact .inl (List.mem_cons_of_mem _ h)
  · rcases List.mem_cons.mp h with rfl | h
    · exact .inr (.inl rfl)
    · exact .inl h

lemma mem_components {p : Path} {part : Text} (h : part ∈ p.components) :
    part = dotDot ∨ part ∈ Text.splitBy slash p := by
  have hfold : ∀ (parts done : List Text), part ∈ parts.foldl (push p.isAbs) done →
      part ∈ done ∨ part ∈ parts ∨ part = dotDot := by
    intro parts
    induction parts with
    | nil => intro done hd; exact .inl hd
    | cons q rest ih =>
      intro done hd
      rcases ih _ hd with hd | hd | hd
      · rcases mem_push hd with hd | hd | hd
        · exact .inl hd
        · exact .inr (.inl (by simp [hd]))
        · exact .inr (.inr hd)
      · exact .inr (.inl (by simp [hd]))
      · exact .inr (.inr hd)
  rw [components, List.mem_reverse] at h
  rcases hfold _ _ h with h | h | h
  · simp at h
  · exact .inr h
  · exact .inl h

/-- Is every byte of `t` a dot, a slash, or a byte of `u`? -/
def BytesFrom (t u : Text) : Prop := ∀ b ∈ t, b = 46 ∨ b = slash ∨ b ∈ u

lemma BytesFrom.trans {t u v : Text} (h : BytesFrom t u) (h' : BytesFrom u v) : BytesFrom t v := by
  intro b hb
  rcases h b hb with hb | hb | hb
  · exact .inl hb
  · exact .inr (.inl hb)
  · exact h' b hb

lemma bytesFrom_component {p : Path} {part : Text} (h : part ∈ p.components) : BytesFrom part p := by
  intro b hb
  rcases mem_components h with rfl | h
  · simp only [List.mem_cons, List.not_mem_nil, or_false, or_self] at hb
    exact .inl hb
  · exact .inr (.inr (Text.mem_of_mem_splitBy h hb))

lemma bytesFrom_joinWith {parts : List Text} {u : Text} (h : ∀ part ∈ parts, BytesFrom part u) :
    BytesFrom (Text.joinWith [slash] parts) u := by
  intro b hb
  rcases Text.mem_joinWith hb with hb | ⟨part, hp, hb⟩
  · exact .inr (.inl (by simpa using hb))
  · exact h part hp b hb

lemma bytesFrom_clean (p : Path) : BytesFrom p.clean p := by
  have hj := bytesFrom_joinWith (u := p) fun part hp => bytesFrom_component hp
  intro b hb
  unfold clean ofComponents at hb
  split at hb
  · rcases List.mem_cons.mp hb with hb | hb
    · exact .inr (.inl hb)
    · exact hj b hb
  split at hb
  · exact .inl (by simpa using hb)
  · exact hj b hb

lemma bytesFrom_joinAll (parts : List Text) : BytesFrom (joinAll parts) parts.flatten := by
  unfold joinAll
  split
  · intro b hb
    simp at hb
  · refine (bytesFrom_clean _).trans (bytesFrom_joinWith ?_)
    intro part hp b hb
    exact .inr (.inr (List.mem_flatten.mpr ⟨part, List.dropWhile_subset _ hp, hb⟩))

lemma BytesFrom.of_subset {t u : Text} (h : ∀ b ∈ t, b ∈ u) : BytesFrom t u := fun b hb => .inr (.inr (h b hb))

lemma BytesFrom.append {t u v : Text} (ht : BytesFrom t v) (hu : BytesFrom u v) : BytesFrom (t ++ u) v := by
  intro b hb
  rcases List.mem_append.mp hb with hb | hb
  · exact ht b hb
  · exact hu b hb

lemma bytesFrom_dir (p : Path) : BytesFrom (dir p) p := by
  refine (bytesFrom_clean _).trans (.of_subset ?_)
  intro b hb
  have hb := List.dropWhile_subset _ (List.mem_reverse.mp hb)
  exact List.mem_reverse.mp hb

lemma bytesFrom_base (p : Path) : BytesFrom (base p) p := by
  unfold base
  split
  · intro b hb
    exact .inl (by simpa using hb)
  simp only
  split
  · intro b hb
    exact .inr (.inl (by simpa using hb))
  · refine .of_subset fun b hb => ?_
    have hb := List.takeWhile_subset _ (List.mem_reverse.mp hb)
    exact List.mem_reverse.mp (List.dropWhile_subset _ hb)

lemma stripShared_snd_subset (bs ts : List Text) : ∀ t ∈ (stripShared bs ts).2, t ∈ ts := by
  fun_induction stripShared bs ts with
  | case1 bs t ts ih => exact fun u hu => List.mem_cons_of_mem _ (ih u hu)
  | case2 b bs t ts h => exact fun u hu => hu
  | case3 ts => exact fun u hu => hu
  | case4 bs h => exact fun u hu => hu

lemma bytesFrom_rel {source target r : Path} (h : rel? source target = some r) : BytesFrom r target := by
  have hdot (u : Text) : BytesFrom dot u := fun b hb => .inl (by simpa using hb)
  have hdots (u : Text) : BytesFrom dotDot u := fun b hb => .inl (by simpa using hb)
  unfold rel? at h
  split at h
  · obtain rfl := Option.some.inj h
    exact hdot target
  split at h
  · cases h
  -- what is left of the target once the shared components are dropped
  have hleft : ∀ t ∈ (stripShared source.components target.components).2, BytesFrom t target := fun t ht =>
    bytesFrom_component (stripShared_snd_subset _ _ t ht)
  split at h
  · next ts hs =>
    rw [hs] at hleft
    obtain rfl := Option.some.inj h
    exact bytesFrom_joinWith hleft
  · next b bs ts hs =>
    rw [hs] at hleft
    split at h
    · cases h
    · obtain rfl := Option.some.inj h
      refine bytesFrom_joinWith fun part hp => ?_
      rcases List.mem_append.mp hp with hp | hp
      · obtain ⟨_, -, rfl⟩ := List.mem_map.mp hp
        exact hdots target
      · exact hleft part hp

lemma bytesFrom_normalize (p : Path) : BytesFrom (normalize p) p := by
  intro b hb
  obtain ⟨c, hc, rfl⟩ := List.mem_map.mp hb
  split
  · exact .inr (.inl rfl)
  · exact .inr (.inr hc)

end DeclPieces.Path

namespace DeclPieces.Address
open DeclPieces.Path

lemma trimSuffix_subset (name : Text) : ∀ b ∈ trimSuffix name, b ∈ name := by
  intro b hb
  unfold trimSuffix at hb
  split at hb
  · unfold Text.dropSuffix at hb
    split at hb
    · exact List.take_subset _ _ hb
    · exact hb
  · exact hb

lemma bytesFrom_moduleReference {source target : Path} {m : Text} (h : moduleReference source target = .ok m) :
    BytesFrom m target := by
  unfold moduleReference at h
  split at h
  · cases h
  next r hr =>
  have hn : BytesFrom (normalize r) target := (bytesFrom_normalize r).trans (bytesFrom_rel hr)
  simp only at h
  split at h
  · cases h
  split at h
  · obtain rfl := Except.ok.inj h
    exact (BytesFrom.of_subset (trimSuffix_subset _)).trans hn
  · obtain rfl := Except.ok.inj h
    refine (BytesFrom.of_subset (trimSuffix_subset _)).trans (BytesFrom.append ?_ hn)
    intro b hb
    have hb : b ∈ ([46, 47] : Text) := hb
    simp only [List.mem_cons, List.not_mem_nil, or_false] at hb
    rcases hb with hb | hb
    · exact .inl hb
    · exact .inr (.inl hb)

lemma bytesFrom_pieceDirectory {o : Options} {source dir : Path} (h : pieceDirectory o source = .ok dir) :
    BytesFrom dir (o.piecesRoot ++ source) := by
  unfold pieceDirectory at h
  simp only at h
  split at h
  · cases h
  split at h
  · cases h
  next below hb =>
  obtain rfl := Except.ok.inj h
  have hsource (t : Text) (ht : BytesFrom t source) : BytesFrom t (o.piecesRoot ++ source) :=
    ht.trans (.of_subset fun b hb => by simp [hb])
  refine (bytesFrom_joinAll _).trans ?_
  simp only [List.flatten_cons, List.flatten_nil, List.append_nil]
  refine .append (.of_subset fun b hb => by simp [hb]) (.append ?_ ?_)
  · exact hsource below ((bytesFrom_rel hb).trans (bytesFrom_dir source))
  · exact hsource _ ((BytesFrom.of_subset (trimSuffix_subset _)).trans (bytesFrom_base source))

lemma bytesFrom_indexPath {o : Options} {source p : Path} (h : indexPath o source = .ok p) :
    BytesFrom p (o.piecesRoot ++ source ++ o.withDefaults.indexFile) := by
  unfold indexPath at h
  cases hd : pieceDirectory o.withDefaults source with
  | error e => simp [hd, Except.map] at h
  | ok dir =>
    simp only [hd, Except.map, Except.ok.injEq] at h
    subst h
    refine (bytesFrom_joinAll _).trans ?_
    simp only [List.flatten_cons, List.flatten_nil, List.append_nil]
    refine .append ((bytesFrom_pieceDirectory hd).trans (.of_subset fun b hb => ?_)) (.of_subset fun b hb => ?_)
    · exact List.mem_append_left _ hb
    · exact List.mem_append_right _ hb

lemma trimSuffix_ne_nil {name : Text} (h : name ≠ []) : trimSuffix name ≠ [] := by
  unfold trimSuffix
  split
  · next s hs =>
    have hlt := List.find?_some hs
    simp only [Bool.and_eq_true, decide_eq_true_eq] at hlt
    unfold Text.dropSuffix
    rw [if_pos hlt.1]
    intro hnil
    have := congrArg List.length hnil
    simp only [List.length_take, List.length_nil] at this
    omega
  · exact h

/-- The directory of the pieces of a file has a name. -/
lemma pieceDirectory_ne_nil {o : Options} {source dir : Path} (h : pieceDirectory o source = .ok dir) : dir ≠ [] := by
  unfold pieceDirectory at h
  simp only at h
  split at h
  · cases h
  split at h
  · cases h
  · obtain rfl := Except.ok.inj h
    exact joinAll_ne_nil ⟨_, by simp, trimSuffix_ne_nil (base_ne_nil source)⟩

/-- The directory lies where the root of the pieces does. -/
lemma isAbs_pieceDirectory {o : Options} {source dir : Path} (h : pieceDirectory o source = .ok dir)
    (hroot : o.piecesRoot.isAbs = true) : dir.isAbs = true := by
  unfold pieceDirectory at h
  simp only at h
  split at h
  · cases h
  split at h
  · cases h
  · obtain rfl := Except.ok.inj h
    exact isAbs_joinAll_cons hroot _

lemma clean_pieceDirectory {o : Options} {source dir : Path} (h : pieceDirectory o source = .ok dir) :
    dir.clean = dir := by
  have hne := pieceDirectory_ne_nil h
  unfold pieceDirectory at h
  simp only at h
  split at h
  · cases h
  split at h
  · cases h
  next below _ =>
  obtain rfl := Except.ok.inj h
  unfold joinAll at hne ⊢
  split at hne
  · exact absurd rfl hne
  · exact clean_clean _

end DeclPieces.Address
