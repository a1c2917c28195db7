import DeclPieces.Piece.Merge
import Mathlib.Data.List.Basic

/-! Folding pieces back one after the other, from the end of the text to its start, amounts to one
simultaneous replacement of their ranges. -/
namespace DeclPieces

/-- A range of a text and what to put there. -/
structure Edit where
  start : Nat
  stop : Nat
  body : Text
  deriving DecidableEq, Repr

namespace Edit

/-- The text from `pos` on with all edits made at once. The edits come in source order, and what lies
before, between and after them is taken from the text as it was. -/
def applyAll (text : Text) : Nat → List Edit → Text
  | pos, [] => text.drop pos
  | pos, e :: rest => (text.take e.start).drop pos ++ e.body ++ applyAll text e.stop rest

/-- Where the first edit starts, the end of the text if there is none. -/
def frontier (text : Text) : List Edit → Nat
  | [] => text.length
  | e :: _ => e.start

/-- Up to the first edit nothing is changed. -/
lemma applyAll_split (text : Text) (es : List Edit) {pos mid : Nat} (hpos : pos ≤ mid)
    (hmid : mid ≤ frontier text es) :
    applyAll text pos es = (text.take mid).drop pos ++ applyAll text mid es := by
  have cutAt (stop : Nat) (h : mid ≤ stop) :
      (text.take stop).drop pos = (text.take mid).drop pos ++ (text.take stop).drop mid := by
    conv_lhs => rw [← List.take_append_drop mid (text.take stop)]
    rw [List.take_take, Nat.min_eq_left h, List.drop_append]
    simp only [List.length_take]
    by_cases hm : mid ≤ text.length
    · simp [Nat.min_eq_left hm, Nat.sub_eq_zero_of_le hpos]
    · have hd : List.drop mid (List.take stop text) = [] :=
        List.drop_eq_nil_of_le (by simp only [List.length_take]; omega)
      simp [hd]
  cases es with
  | nil =>
    have h := cutAt text.length hmid
    simpa [applyAll] using h
  | cons e rest =>
    simp only [applyAll, cutAt e.start hmid, List.append_assoc]

lemma frontier_le_length_applyAll (text : Text) (es : List Edit) (h : frontier text es ≤ text.length) :
    frontier text es ≤ (applyAll text 0 es).length := by
  rw [applyAll_split text es (Nat.zero_le _) (Nat.le_refl _)]
  simp only [List.drop_zero, List.length_append, List.length_take]
  omega

/-- A splice in front of all edits made so far is one more edit of the same text. -/
lemma splice_applyAll (text : Text) (es : List Edit) {start stop : Nat} (body : Text)
    (hle : start ≤ stop) (hstop : stop ≤ frontier text es) (hlen : frontier text es ≤ text.length) :
    Merged.splice (applyAll text 0 es) start stop body = applyAll text 0 (⟨start, stop, body⟩ :: es) := by
  have hs : stop ≤ text.length := by omega
  rw [applyAll_split text es (Nat.zero_le _) hstop]
  simp only [Merged.splice, applyAll, List.drop_zero]
  have htake : List.take start (List.take stop text ++ applyAll text stop es) = List.take start text := by
    rw [List.take_append_of_le_length (by simp only [List.length_take]; omega), List.take_take,
      Nat.min_eq_left hle]
  have hdrop : List.drop stop (List.take stop text ++ applyAll text stop es) = applyAll text stop es := by
    rw [List.drop_append_of_le_length (by simp only [List.length_take]; omega)]
    simp
  rw [htake, hdrop]

/-- Putting back what already stands in its place changes nothing. -/
lemma applyAll_keep (text : Text) (es : List Edit) {start stop : Nat}
    (hle : start ≤ stop) (hstop : stop ≤ frontier text es) :
    applyAll text 0 (⟨start, stop, (text.take stop).drop start⟩ :: es) = applyAll text 0 es := by
  rw [applyAll_split text es (Nat.zero_le _) (Nat.le_trans hle hstop), applyAll_split text es hle hstop]
  simp [applyAll]

end Edit

namespace Decomposition

/-- The pieces that are cut from the source, in the order in which they are folded back. -/
def cut (d : Decomposition) : List Piece := d.pieces.filter fun p => !p.isGenerated

end Decomposition

namespace Merged

/-- Does the range of a piece lie in the text before `limit`? -/
def InRange (limit : Int) (p : Piece) : Prop := 0 ≤ p.start ∧ p.start ≤ p.stop ∧ p.stop ≤ limit

instance (limit : Int) (p : Piece) : Decidable (InRange limit p) :=
  inferInstanceAs (Decidable (0 ≤ p.start ∧ p.start ≤ p.stop ∧ p.stop ≤ limit))

/-- Each range lies in the text before the one that precedes it in the list, the first before `limit`. -/
def Descending : Int → List Piece → Prop
  | _, [] => True
  | limit, p :: rest => InRange limit p ∧ Descending p.start rest

/-- Is there a file of the piece? -/
def isPresent (read : Path → Reading Text) (p : Piece) : Bool :=
  match read p.path with
  | .content _ => true
  | _ => false

/-- Does a file of the piece refuse to be read? -/
def isUnreadable (read : Path → Reading Text) (p : Piece) : Bool :=
  match read p.path with
  | .failed _ => true
  | _ => false

/-- The text that takes the range of a piece: that of its file, or the one that was there. -/
def bodyOf (o : Options) (read : Path → Reading Text) (text : Text) (p : Piece) : Text :=
  match read p.path with
  | .content data => stripMarkers o data
  | _ => (text.take p.stop.toNat).drop p.start.toNat

def editOf (o : Options) (read : Path → Reading Text) (text : Text) (p : Piece) : Edit :=
  ⟨p.start.toNat, p.stop.toNat, bodyOf o read text p⟩

/-- The edits of the pieces `ps`, which come from the end of the text to its start, in source order. -/
def editsOf (o : Options) (read : Path → Reading Text) (text : Text) (ps : List Piece) : List Edit :=
  (ps.map (editOf o read text)).reverse

/-- The fault of the first piece that cannot be folded back. -/
def offence? (read : Path → Reading Text) : Int → List Piece → Option Fault
  | _, [] => none
  | limit, p :: rest =>
    if InRange limit p then
      match read p.path with
      | .failed fault => some (readFault p fault)
      | _ => offence? read p.start rest
    else some (rangeFault p)

theorem offence?_eq_none_iff (read : Path → Reading Text) (limit : Int) (ps : List Piece) :
    offence? read limit ps = none ↔ Descending limit ps ∧ ∀ p ∈ ps, isUnreadable read p = false := by
  induction ps generalizing limit with
  | nil => simp [offence?, Descending]
  | cons p rest ih =>
    by_cases hr : InRange limit p
    · cases hread : read p.path with
      | failed fault => simp [offence?, hr, hread, isUnreadable]
      | content data => simp [offence?, hr, hread, ih, Descending, isUnreadable]
      | missing fault => simp [offence?, hr, hread, ih, Descending, isUnreadable]
    · simp [offence?, hr, Descending]

/-- Where the range after those of `ps` has to end. -/
def limitAfter (limit : Int) (ps : List Piece) : Int := ps.foldl (fun _ p => p.start) limit

/-- The first piece that cannot be folded back, `before` being those that can: its range is out of order,
or its file refuses to be read. -/
def Offends (read : Path → Reading Text) (limit : Int) (before : List Piece) (p : Piece) (fault : Fault) : Prop :=
  Descending limit before ∧ (∀ q ∈ before, isUnreadable read q = false) ∧
    ((¬ InRange (limitAfter limit before) p ∧ fault = rangeFault p) ∨
      (InRange (limitAfter limit before) p ∧ ∃ cause, read p.path = .failed cause ∧ fault = readFault p cause))

theorem offence?_eq_some_iff (read : Path → Reading Text) (limit : Int) (ps : List Piece) (fault : Fault) :
    offence? read limit ps = some fault ↔
      ∃ before p after, ps = before ++ p :: after ∧ Offends read limit before p fault := by
  constructor
  · intro h
    induction ps generalizing limit with
    | nil => simp [offence?] at h
    | cons p rest ih =>
      unfold offence? at h
      split at h
      · next hr =>
        split at h
        · next cause hread =>
          refine ⟨[], p, rest, rfl, trivial, by simp, .inr ⟨hr, cause, hread, ?_⟩⟩
          exact (Option.some.inj h).symm
        · next hread =>
          obtain ⟨before, q, after, rfl, hd, hu, hq⟩ := ih p.start h
          refine ⟨p :: before, q, after, rfl, ⟨hr, hd⟩, ?_, hq⟩
          intro x hx
          rcases List.mem_cons.mp hx with rfl | hx
          · cases hx' : read x.path <;> simp_all [isUnreadable]
          · exact hu x hx
      · next hr => exact ⟨[], p, rest, rfl, trivial, by simp, .inl ⟨hr, (Option.some.inj h).symm⟩⟩
  · rintro ⟨before, p, after, rfl, hd, hu, hp⟩
    induction before generalizing limit with
    | nil =>
      rcases hp with ⟨hr, rfl⟩ | ⟨hr, cause, hread, rfl⟩
      · simp only [limitAfter, List.foldl_nil] at hr
        simp [offence?, hr]
      · simp only [limitAfter, List.foldl_nil] at hr
        simp [offence?, hr, hread]
    | cons q before ih =>
      have hrest := ih q.start hd.2 (fun x hx => hu x (by simp [hx])) hp
      have hq := hu q (by simp)
      cases hread : read q.path with
      | failed cause => simp [isUnreadable, hread] at hq
      | content data => simpa [offence?, hd.1, hread] using hrest
      | missing cause => simpa [offence?, hd.1, hread] using hrest

lemma Descending.inRange {limit : Int} {before after : List Piece} {p : Piece}
    (h : Descending limit (before ++ p :: after)) : InRange (limitAfter limit before) p := by
  induction before generalizing limit with
  | nil => exact h.1
  | cons q rest ih => exact ih h.2

/-- The state of folding once the edits `es` are made. -/
structure Reaches (text : Text) (es : List Edit) (s : Progress) : Prop where
  text_eq : s.text = Edit.applyAll text 0 es
  limit_eq : s.limit = Edit.frontier text es
  frontier_le : Edit.frontier text es ≤ text.length

section Run
variable {o : Options} {read : Path → Reading Text} {text : Text} {es : List Edit} {s : Progress} {p : Piece}

lemma step_generated (hg : p.isGenerated = true) : step o read s p = .ok s := by simp [step, hg]

lemma step_outOfRange (hg : p.isGenerated = false) (hr : ¬ InRange s.limit p) :
    step o read s p = .error (rangeFault p) := by
  have h : p.start < 0 ∨ p.stop < p.start ∨ s.limit < p.stop := by
    unfold InRange at hr
    omega
  simp [step, hg, h]

lemma step_inRange (hg : p.isGenerated = false) (hr : InRange s.limit p) :
    step o read s p = match read p.path with
      | .missing _ => .ok { s with limit := p.start, missing := s.missing ++ [p.path] }
      | .failed fault => .error (readFault p fault)
      | .content data => .ok { s with
          text := splice s.text p.start.toNat p.stop.toNat (stripMarkers o data)
          limit := p.start
          applied := s.applied + 1 } := by
  have h : ¬ (p.start < 0 ∨ p.stop < p.start ∨ s.limit < p.stop) := by
    unfold InRange at hr
    omega
  unfold step
  refine ((if_neg (by simp [hg])).trans (if_neg h)).trans ?_
  cases read p.path <;> rfl

/-- No index of a splice lies outside the text it is made in. -/
lemma Reaches.stop_le (h : Reaches text es s) (hr : InRange s.limit p) : p.stop.toNat ≤ s.text.length := by
  have hf := Edit.frontier_le_length_applyAll text es h.frontier_le
  have hl := h.limit_eq
  rw [h.text_eq]
  unfold InRange at hr
  omega

/-- One piece folded back is one edit more, whether its file is there or not. -/
lemma Reaches.step (h : Reaches text es s) (hg : p.isGenerated = false) (hr : InRange s.limit p)
    (hu : isUnreadable read p = false) :
    ∃ s', Merged.step o read s p = .ok s' ∧ Reaches text (editOf o read text p :: es) s' ∧
      s'.applied = s.applied + (if isPresent read p then 1 else 0) ∧
      s'.missing = s.missing ++ (if isPresent read p then [] else [p.path]) := by
  have hl := h.limit_eq
  have hf := h.frontier_le
  obtain ⟨h0, hle, hstop⟩ := id hr
  have hle' : p.start.toNat ≤ p.stop.toNat := by omega
  have hstop' : p.stop.toNat ≤ Edit.frontier text es := by omega
  rw [step_inRange hg hr]
  cases hread : read p.path with
  | failed cause => simp [isUnreadable, hread] at hu
  | missing cause =>
    refine ⟨_, rfl, ⟨?_, ?_, ?_⟩, by simp [isPresent, hread], by simp [isPresent, hread]⟩
    · simp only [editOf, bodyOf, hread, h.text_eq]
      exact (Edit.applyAll_keep text es hle' hstop').symm
    · simp only [Edit.frontier, editOf]
      omega
    · simp only [Edit.frontier, editOf]
      omega
  | content data =>
    refine ⟨_, rfl, ⟨?_, ?_, ?_⟩, by simp [isPresent, hread], by simp [isPresent, hread]⟩
    · simp only [editOf, bodyOf, hread, h.text_eq]
      exact Edit.splice_applyAll text es _ hle' hstop' hf
    · simp only [Edit.frontier, editOf]
      omega
    · simp only [Edit.frontier, editOf]
      omega

/-- The run ends with the fault of the first piece that cannot be folded back. -/
lemma foldlM_step_error (ps : List Piece) (s : Progress) (fault : Fault)
    (h : offence? read s.limit (ps.filter fun p => !p.isGenerated) = some fault) :
    ps.foldlM (step o read) s = .error fault := by
  induction ps generalizing s with
  | nil => simp [offence?] at h
  | cons p rest ih =>
    rw [List.foldlM_cons]
    by_cases hg : p.isGenerated = true
    · simp only [step_generated hg]
      exact ih s (by simpa [hg] using h)
    have hg' : p.isGenerated = false := by simpa using hg
    simp only [List.filter_cons, hg', Bool.not_false, if_true] at h
    by_cases hr : InRange s.limit p
    · rw [offence?, if_pos hr] at h
      rw [step_inRange hg' hr]
      cases hread : read p.path with
      | failed cause =>
        simp only [hread, Option.some.injEq] at h
        subst h
        rfl
      | missing cause => exact ih _ (by simpa only [hread] using h)
      | content data => exact ih _ (by simpa only [hread] using h)
    · rw [offence?, if_neg hr, Option.some.injEq] at h
      rw [step_outOfRange hg' hr, h]
      rfl

/-- A run without offence makes the edits of all its pieces, the later ones in front. -/
lemma foldlM_step_ok (ps : List Piece) (h : Reaches text es s)
    (hn : offence? read s.limit (ps.filter fun p => !p.isGenerated) = none) :
    ∃ s', ps.foldlM (step o read) s = .ok s' ∧
      Reaches text (editsOf o read text (ps.filter fun p => !p.isGenerated) ++ es) s' ∧
      s'.applied = s.applied + ((ps.filter fun p => !p.isGenerated).filter (isPresent read)).length ∧
      s'.missing = s.missing ++
        ((ps.filter fun p => !p.isGenerated).filter fun p => !isPresent read p).map (·.path) := by
  induction ps generalizing s es with
  | nil => exact ⟨s, rfl, by simpa [editsOf] using h, by simp, by simp⟩
  | cons p rest ih =>
    rw [List.foldlM_cons]
    by_cases hg : p.isGenerated = true
    · simp only [step_generated hg, List.filter_cons, hg]
      exact ih h (by simpa [hg] using hn)
    have hg' : p.isGenerated = false := by simpa using hg
    simp only [List.filter_cons, hg', Bool.not_false, if_true] at hn ⊢
    obtain ⟨⟨hr, hd⟩, hu⟩ := (offence?_eq_none_iff _ _ _).mp hn
    obtain ⟨s₁, hs₁, hreach, happ, hmiss⟩ := h.step (o := o) hg' hr (hu p (by simp))
    have hlimit : s₁.limit = p.start := by
      rw [hreach.limit_eq]
      simp only [Edit.frontier, editOf]
      exact Int.toNat_of_nonneg hr.1
    obtain ⟨s', hs', hreach', happ', hmiss'⟩ := ih hreach (by
      rw [hlimit]
      exact (offence?_eq_none_iff _ _ _).mpr ⟨hd, fun q hq => hu q (by simp [hq])⟩)
    refine ⟨s', ?_, ?_, ?_, ?_⟩
    · rw [hs₁]
      exact hs'
    · simpa [editsOf] using hreach'
    · rw [happ', happ]
      by_cases hp : isPresent read p = true
      · simp [hp]
        omega
      · simp [hp]
    · rw [hmiss', hmiss]
      by_cases hp : isPresent read p = true
      · simp [hp]
      · simp [hp]

end Run

/-- Does a piece put back what it was cut from? -/
def Returns (o : Options) (read : Path → Reading Text) (text : Text) (p : Piece) : Prop :=
  ∀ data, read p.path = .content data → stripMarkers o data = (text.take p.stop.toNat).drop p.start.toNat

/-- Pieces that put back what they were cut from leave the text as it is. -/
lemma applyAll_editsOf_of_returns {o : Options} {read : Path → Reading Text} {text : Text} {ps : List Piece}
    (es : List Edit) (hd : Descending (Edit.frontier text es) ps) (hr : ∀ p ∈ ps, Returns o read text p) :
    Edit.applyAll text 0 (editsOf o read text ps ++ es) = Edit.applyAll text 0 es := by
  induction ps generalizing es with
  | nil => simp [editsOf]
  | cons p rest ih =>
    obtain ⟨⟨h0, hle, hstop⟩, hrest⟩ := hd
    have hbody : bodyOf o read text p = (text.take p.stop.toNat).drop p.start.toNat := by
      unfold bodyOf
      split
      · next data hread => exact hr p (by simp) data hread
      · rfl
    have hfrontier : (Edit.frontier text (editOf o read text p :: es) : Int) = p.start := Int.toNat_of_nonneg h0
    have hedits : editsOf o read text (p :: rest) ++ es = editsOf o read text rest ++ editOf o read text p :: es := by
      simp [editsOf]
    calc Edit.applyAll text 0 (editsOf o read text (p :: rest) ++ es)
        = Edit.applyAll text 0 (editsOf o read text rest ++ editOf o read text p :: es) := by rw [hedits]
      _ = Edit.applyAll text 0 (editOf o read text p :: es) :=
          ih _ (by rwa [hfrontier]) fun q hq => hr q (by simp [hq])
      _ = Edit.applyAll text 0 es := by
          rw [editOf, hbody]
          exact Edit.applyAll_keep text es (by omega) (by omega)

end Merged

namespace Decomposition
open Merged

/-- Folding pieces back as a whole: the fault of the first piece that is out of order or unreadable, or
else the simultaneous replacement of all ranges. -/
theorem merge_eq (d : Decomposition) (o : Options) (read : Path → Reading Text) (text : Text) :
    d.merge o read text = match offence? read text.length d.cut with
      | some fault => .error fault
      | none => .ok
        { text := Edit.applyAll text 0 (editsOf o read text d.cut)
          applied := (d.cut.filter (isPresent read)).length
          missing := (d.cut.filter fun p => !isPresent read p).map (·.path)
          changed := decide (Edit.applyAll text 0 (editsOf o read text d.cut) ≠ text) } := by
  unfold merge
  cases h : offence? read text.length d.cut with
  | some fault =>
    rw [foldlM_step_error d.pieces { text := text, limit := text.length } fault h]
    rfl
  | none =>
    have hstart : Reaches text [] { text := text, limit := text.length } :=
      ⟨by simp [Edit.applyAll], rfl, Nat.le_refl _⟩
    obtain ⟨s', hs', hreach, happ, hmiss⟩ := foldlM_step_ok (o := o) d.pieces hstart h
    simp only [List.append_nil] at hreach
    rw [hs']
    simp only [Nat.zero_add, List.nil_append] at happ hmiss
    show Except.ok _ = _
    simp only [hreach.text_eq, happ, hmiss, cut]
    congr

/-- What a merge makes of the text and whether that is a change. -/
lemma text_of_merge {d : Decomposition} {o : Options} {read : Path → Reading Text} {text : Text} {m : Merged}
    (h : d.merge o read text = .ok m) :
    m.text = Edit.applyAll text 0 (editsOf o read text d.cut) ∧ m.changed = decide (m.text ≠ text) ∧
      Descending text.length d.cut := by
  rw [merge_eq] at h
  split at h
  · cases h
  · next hn =>
    obtain rfl := Except.ok.inj h
    exact ⟨rfl, rfl, ((offence?_eq_none_iff _ _ _).mp hn).1⟩

lemma applyAll_editsOf_eq_self {d : Decomposition} {o : Options} {read : Path → Reading Text} {text : Text}
    (hd : Descending text.length d.cut) (hr : ∀ p ∈ d.cut, Returns o read text p) :
    Edit.applyAll text 0 (editsOf o read text d.cut) = text := by
  simpa [Edit.applyAll] using applyAll_editsOf_of_returns [] hd hr

/-- Pieces that put back what they were cut from are folded back without a change. -/
theorem merge_eq_self {d : Decomposition} {o : Options} {read : Path → Reading Text} {text : Text}
    (hd : Descending text.length d.cut) (hu : ∀ p ∈ d.cut, isUnreadable read p = false)
    (hr : ∀ p ∈ d.cut, Returns o read text p) :
    d.merge o read text = .ok
      { text := text
        applied := (d.cut.filter (isPresent read)).length
        missing := (d.cut.filter fun p => !isPresent read p).map (·.path)
        changed := false } := by
  have hn := (offence?_eq_none_iff read text.length d.cut).mpr ⟨hd, hu⟩
  rw [merge_eq, hn]
  simp [applyAll_editsOf_eq_self hd hr]

/-- Pieces in order are folded back unless a file refuses to be read. -/
theorem merge_error_of_descending {d : Decomposition} {o : Options} {read : Path → Reading Text} {text : Text}
    {fault : Fault} (hd : Descending text.length d.cut) (h : d.merge o read text = .error fault) :
    ∃ p ∈ d.cut, ∃ cause, read p.path = .failed cause ∧ fault = readFault p cause := by
  have hoffence : offence? read text.length d.cut = some fault := by
    rw [merge_eq] at h
    cases ho : offence? read text.length d.cut <;> simp_all
  obtain ⟨before, p, after, hcut, -, -, hp⟩ := (offence?_eq_some_iff _ _ _ _).mp hoffence
  rw [hcut] at hd
  rcases hp with ⟨hr, -⟩ | ⟨-, cause, hread, hfault⟩
  · exact absurd hd.inRange hr
  · exact ⟨p, by simp [hcut], cause, hread, hfault⟩

/-- What the loop has reached after the pieces `before`. -/
lemma reaches_of_foldlM (before : List Piece) (o : Options) (read : Path → Reading Text) (text : Text) (s : Progress)
    (h : before.foldlM (step o read) { text := text, limit := text.length } = .ok s) :
    Reaches text (editsOf o read text (before.filter fun p => !p.isGenerated)) s := by
  have hstart : Reaches text [] { text := text, limit := text.length } :=
    ⟨by simp [Edit.applyAll], rfl, Nat.le_refl _⟩
  cases hn : offence? read text.length (before.filter fun p => !p.isGenerated) with
  | some fault =>
    rw [foldlM_step_error before { text := text, limit := text.length } fault hn] at h
    cases h
  | none =>
    obtain ⟨s', hs', hreach, -⟩ := foldlM_step_ok (o := o) before hstart hn
    obtain rfl : s = s' := Except.ok.inj (h.symm.trans hs')
    simpa using hreach

/-- Folding back succeeds just when the ranges descend from the end of the text and no file refuses to be
read. The result is then the text with all ranges replaced at once, and no splice on the way there
reaches outside the text it is made in; otherwise the first piece that offends is reported. -/
theorem merge_eq_simultaneous_replacement (d : Decomposition) (o : Options) (read : Path → Reading Text)
    (text : Text) :
    ((∃ m, d.merge o read text = .ok m) ↔
      Descending text.length d.cut ∧ ∀ p ∈ d.cut, isUnreadable read p = false) ∧
    (∀ m, d.merge o read text = .ok m →
      m.text = Edit.applyAll text 0 (editsOf o read text d.cut) ∧
      m.applied = (d.cut.filter (isPresent read)).length ∧
      m.missing = (d.cut.filter fun p => !isPresent read p).map (·.path) ∧
      m.applied + m.missing.length = d.cut.length ∧
      (m.changed = true ↔ m.text ≠ text)) ∧
    (∀ before p after s, d.pieces = before ++ p :: after →
      before.foldlM (step o read) { text := text, limit := text.length } = .ok s →
      p.isGenerated = false → InRange s.limit p →
      0 ≤ p.start ∧ p.start ≤ p.stop ∧ p.stop ≤ s.text.length) ∧
    (∀ fault, d.merge o read text = .error fault ↔
      ∃ before p after, d.cut = before ++ p :: after ∧ Offends read text.length before p fault) ∧
    (∀ p, (rangeFault p).code = Code.internalError) ∧
    (∀ p cause, (readFault p cause).code = Code.pieceReadFailed) := by
  have hm := d.merge_eq o read text
  refine ⟨?_, ?_, ?_, ?_, fun _ => rfl, fun _ _ => rfl⟩
  · rw [← offence?_eq_none_iff]
    cases h : offence? read text.length d.cut <;> simp [hm, h]
  · intro m hok
    cases h : offence? read text.length d.cut with
    | some fault => simp [hm, h] at hok
    | none =>
      simp only [hm, h, Except.ok.injEq] at hok
      subst hok
      refine ⟨rfl, rfl, rfl, ?_, by simp⟩
      simpa using (List.length_eq_length_filter_add (l := d.cut) (isPresent read)).symm
  · intro before p after s _ hrun _ hr
    have hreach := reaches_of_foldlM before o read text s hrun
    have hstop := hreach.stop_le hr
    exact ⟨hr.1, hr.2.1, by omega⟩
  · intro fault
    rw [← offence?_eq_some_iff]
    cases h : offence? read text.length d.cut <;> simp [hm, h]

end Decomposition

end DeclPieces
