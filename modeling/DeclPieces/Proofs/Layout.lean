import DeclPieces.Proofs.Decomposition
import DeclPieces.Proofs.Splice

/-! How the statements and the documentation blocks of a file lie in its text, and how its pieces lie
there in consequence: apart from each other, none empty, listed from the end of the text to its start. -/
namespace DeclPieces

namespace SourceFile

/-- The statements other than comments. -/
def nodes (f : SourceFile) : List Statement := f.statements.filter fun s => s.kind ≠ .comment

/-- Where the last of the statements ends; the start of the text if there is none. -/
def lastStop (before : List Statement) : Int := (before.getLast?.map (·.stop)).getD 0

/-- Is `run`, in source order, a final run of the blocks between `low` and `high`: all those from some
place on? -/
def FinalRun (docs : List Comment) (low high : Int) (run : List Comment) : Prop :=
  run.Pairwise (fun c d => c.start < d.start) ∧
    ∃ cut, ∀ c, c ∈ run ↔ c ∈ docs ∧ low ≤ c.start ∧ c.stop ≤ high ∧ cut ≤ c.start

/-- The statements other than comments and the documentation blocks have ranges in the text that are not
empty and do not overlap, the statements are in source order, and the documentation of a statement is a
final run of the blocks between the statement before it and itself. -/
structure Laid (f : SourceFile) : Prop where
  node_range : ∀ s ∈ f.nodes, 0 ≤ s.start ∧ s.start < s.stop ∧ s.stop ≤ f.text.length
  doc_range : ∀ c ∈ f.docs, 0 ≤ c.start ∧ c.start < c.stop ∧ c.stop ≤ f.text.length
  nodes_apart : f.nodes.Pairwise fun s t => s.stop ≤ t.start
  docs_apart : f.docs.Pairwise fun c d => c.stop ≤ d.start ∨ d.stop ≤ c.start
  docs_nodes_apart : ∀ c ∈ f.docs, ∀ s ∈ f.nodes, c.stop ≤ s.start ∨ s.stop ≤ c.start
  docs_run : ∀ before s after, f.nodes = before ++ s :: after →
    FinalRun f.docs (lastStop before) s.start s.docs

end SourceFile

namespace Statement

/-- The documentation that goes into the piece of a statement, nearest first: the blocks after the package
block. -/
def ownDocs (s : Statement) (packageDoc : Option Comment) : List Comment :=
  s.docs.reverse.takeWhile fun doc =>
    match packageDoc with
    | some p => !(doc.start = p.start && doc.stop = p.stop)
    | none => true

lemma ownDocs_subset (s : Statement) (packageDoc : Option Comment) :
    ∀ c ∈ s.ownDocs packageDoc, c ∈ s.docs :=
  fun _ hc => List.mem_reverse.mp (List.takeWhile_subset _ hc)

lemma foldl_min_spec (docs : List Comment) (start : Int) :
    docs.foldl (fun start doc => min start doc.start) start ≤ start ∧
      (∀ c ∈ docs, docs.foldl (fun start doc => min start doc.start) start ≤ c.start) ∧
      (docs.foldl (fun start doc => min start doc.start) start = start ∨
        ∃ c ∈ docs, docs.foldl (fun start doc => min start doc.start) start = c.start) := by
  induction docs generalizing start with
  | nil => simp
  | cons c rest ih =>
    obtain ⟨hle, hall, hex⟩ := ih (min start c.start)
    simp only [List.foldl_cons]
    refine ⟨by omega, ?_, ?_⟩
    · intro d hd
      rcases List.mem_cons.mp hd with rfl | hd
      · omega
      · exact hall d hd
    · rcases hex with hex | ⟨d, hd, hex⟩
      · by_cases hmin : start ≤ c.start
        · left
          omega
        · exact .inr ⟨c, by simp, by omega⟩
      · exact .inr ⟨d, by simp [hd], hex⟩

lemma leadingStart_le (s : Statement) (packageDoc : Option Comment) : s.leadingStart packageDoc ≤ s.start :=
  (foldl_min_spec (s.ownDocs packageDoc) s.start).1

/-- A piece starts with its statement or with one of the blocks that go into it. -/
lemma leadingStart_eq (s : Statement) (packageDoc : Option Comment) :
    s.leadingStart packageDoc = s.start ∨ ∃ c ∈ s.ownDocs packageDoc, s.leadingStart packageDoc = c.start :=
  (foldl_min_spec (s.ownDocs packageDoc) s.start).2.2

/-- The blocks that go into a piece come after the package block, if that is among the documentation. -/
lemma packageDoc_lt_ownDocs {s : Statement} {p c : Comment} (h : s.docs.Pairwise fun c d => c.start < d.start)
    (hp : p ∈ s.docs) (hc : c ∈ s.ownDocs (some p)) : p.start < c.start := by
  have hr : s.docs.reverse.Pairwise fun c d => d.start < c.start := List.pairwise_reverse.mpr h
  exact List.rel_of_mem_takeWhile (R := fun c d => d.start < c.start) hr (List.mem_reverse.mpr hp) (by simp) hc

end Statement

namespace SourceFile.Laid
variable {f : SourceFile} {before after : List Statement} {s : Statement}

lemma packageDoc_mem {tag : Text} {p : Comment} (hp : p ∈ f.packageDoc tag) : p ∈ f.docs := by
  unfold packageDoc at hp
  split at hp
  · simp at hp
  · exact List.mem_of_find?_eq_some hp

lemma mem_nodes (hs : f.nodes = before ++ s :: after) : s ∈ f.nodes := by simp [hs]

lemma lastStop_le_start (h : f.Laid) (hs : f.nodes = before ++ s :: after) : lastStop before ≤ s.start := by
  unfold lastStop
  cases hl : before.getLast? with
  | none => exact (h.node_range s (mem_nodes hs)).1
  | some t =>
    have hp := h.nodes_apart
    rw [hs, List.pairwise_append] at hp
    exact hp.2.2 t (List.mem_of_getLast? hl) s (by simp)

lemma lastStop_nonneg (h : f.Laid) (hs : f.nodes = before ++ s :: after) : 0 ≤ lastStop before := by
  unfold lastStop
  cases hl : before.getLast? with
  | none => exact Int.le_refl _
  | some t =>
    have ht := h.node_range t (by simp [hs, List.mem_of_getLast? hl])
    simp only [Option.map_some, Option.getD_some]
    omega

/-- A piece starts after the statement before its own. -/
lemma lastStop_le_leadingStart (h : f.Laid) (hs : f.nodes = before ++ s :: after) (tag : Text) :
    lastStop before ≤ s.leadingStart (f.packageDoc tag) := by
  rcases s.leadingStart_eq (f.packageDoc tag) with he | ⟨c, hc, he⟩
  · rw [he]
    exact h.lastStop_le_start hs
  · obtain ⟨cut, hcut⟩ := (h.docs_run before s after hs).2
    rw [he]
    exact ((hcut c).mp (s.ownDocs_subset _ c hc)).2.1

lemma docs_eq_or_apart (h : f.Laid) {c d : Comment} (hc : c ∈ f.docs) (hd : d ∈ f.docs) :
    c = d ∨ c.stop ≤ d.start ∨ d.stop ≤ c.start := by
  have hsymm : Std.Symm fun c d : Comment => c.stop ≤ d.start ∨ d.stop ≤ c.start := ⟨fun _ _ h => h.symm⟩
  by_cases he : c = d
  · exact .inl he
  · exact .inr (h.docs_apart.forall hc hd he)

/-- A documentation block lies in the piece of a statement as a whole, or outside of it as a whole. -/
lemma doc_inside_or_apart (h : f.Laid) (hs : f.nodes = before ++ s :: after) (tag : Text) {c : Comment}
    (hc : c ∈ f.docs) :
    (s.leadingStart (f.packageDoc tag) ≤ c.start ∧ c.stop ≤ s.start) ∨
      c.stop ≤ s.leadingStart (f.packageDoc tag) ∨ s.stop ≤ c.start := by
  have hle := s.leadingStart_le (f.packageDoc tag)
  have hnode := h.docs_nodes_apart c hc s (mem_nodes hs)
  rcases s.leadingStart_eq (f.packageDoc tag) with he | ⟨d, hd, he⟩
  · omega
  · obtain ⟨cut, hcut⟩ := (h.docs_run before s after hs).2
    have hd := ((hcut d).mp (s.ownDocs_subset _ d hd)).1
    have hr := h.doc_range d hd
    rcases h.docs_eq_or_apart hc hd with rfl | hapart
    · omega
    · omega

/-- The package block lies outside of the piece of every statement. -/
lemma packageDoc_apart (h : f.Laid) (hs : f.nodes = before ++ s :: after) {tag : Text} {p : Comment}
    (hp : f.packageDoc tag = some p) :
    p.stop ≤ s.leadingStart (f.packageDoc tag) ∨ s.stop ≤ p.start := by
  have hdoc : p ∈ f.docs := packageDoc_mem hp
  have hr := h.doc_range p hdoc
  have hlow := h.lastStop_le_leadingStart hs tag
  obtain ⟨hsorted, cut, hcut⟩ := h.docs_run before s after hs
  rcases h.doc_inside_or_apart hs tag hdoc with ⟨hle, hstop⟩ | hapart
  · exfalso
    rcases s.leadingStart_eq (f.packageDoc tag) with he | ⟨c, hc, he⟩
    · omega
    · -- the block from which the piece starts belongs to the run, so the package block does too
      have hcrun := (hcut c).mp (s.ownDocs_subset _ c hc)
      have hprun : p ∈ s.docs := (hcut p).mpr ⟨hdoc, by omega, by omega, by omega⟩
      rw [hp] at hc
      have hlt := Statement.packageDoc_lt_ownDocs hsorted hprun hc
      omega
  · exact hapart

lemma stop_le_lastStop (h : f.Laid) (hs : f.nodes = before ++ s :: after) {t : Statement} (ht : t ∈ before) :
    t.stop ≤ lastStop before := by
  cases hl : before.getLast? with
  | none => simp [List.getLast?_eq_none_iff.mp hl] at ht
  | some last =>
    obtain ⟨init, rfl⟩ := List.getLast?_eq_some_iff.mp hl
    simp only [lastStop, hl, Option.map_some, Option.getD_some]
    rcases List.mem_append.mp ht with ht | ht
    · have hp := h.nodes_apart
      rw [hs, List.append_assoc, List.pairwise_append] at hp
      have hlast := hp.2.2 t ht last (by simp)
      have hrange := h.node_range last (by simp [hs])
      omega
    · obtain rfl := List.mem_singleton.mp ht
      exact Int.le_refl _

/-- Each statement ends before the piece of the next one starts. -/
lemma nodes_pieces_apart (h : f.Laid) (tag : Text) :
    f.nodes.Pairwise fun s t => s.stop ≤ t.leadingStart (f.packageDoc tag) :=
  List.pairwise_of_split fun _ _ _ hs _ ht => Int.le_trans (h.stop_le_lastStop hs ht) (h.lastStop_le_leadingStart hs tag)

lemma filter_isAccepted (f : SourceFile) : f.statements.filter isAccepted = f.nodes.filter isAccepted := by
  rw [nodes, List.filter_filter]
  refine List.filter_congr fun s _ => ?_
  cases hacc : isAccepted s with
  | false => simp
  | true =>
    have hk := kind_of_isAccepted hacc
    have hc : s.kind ≠ .comment := by
      intro hc
      simp [hc, Kind.skipped] at hk
    simp [hc]

/-- The statement that a piece is made of, between those before and after it. -/
lemma exists_split {p : Piece} {o : Options} {pieces : List Piece}
    (hy : List.Forall₂ (f.Yields o) (f.statements.filter isAccepted) pieces) (hp : p ∈ pieces) :
    ∃ before s after, f.nodes = before ++ s :: after ∧ f.Yields o s p := by
  obtain ⟨s, hs, hsp⟩ := hy.exists_of_mem hp
  rw [filter_isAccepted] at hs
  obtain ⟨before, after, hsplit⟩ := List.append_of_mem (List.mem_filter.mp hs).1
  exact ⟨before, s, after, hsplit, hsp⟩

end SourceFile.Laid

namespace Decomposition

/-- The pieces cut from a text of the given size are not empty, lie in the text, and come from its end to
its start without overlap. -/
structure Mergeable (d : Decomposition) (size : Int) : Prop where
  range : ∀ p ∈ d.content, 0 ≤ p.start ∧ p.start < p.stop ∧ p.stop ≤ size
  apart : d.content.Pairwise fun p q => q.stop ≤ p.start
  cut_eq : d.cut = d.content

lemma Mergeable.descending {d : Decomposition} {size : Int} (h : d.Mergeable size) : Merged.Descending size d.cut := by
  rw [h.cut_eq]
  have descend (limit : Int) (ps : List Piece) (hr : ∀ p ∈ ps, 0 ≤ p.start ∧ p.start < p.stop ∧ p.stop ≤ limit)
      (ha : ps.Pairwise fun p q => q.stop ≤ p.start) : Merged.Descending limit ps := by
    induction ps generalizing limit with
    | nil => trivial
    | cons p rest ih =>
      rw [List.pairwise_cons] at ha
      have hp := hr p (by simp)
      refine ⟨⟨hp.1, by omega, hp.2.2⟩, ih p.start (fun q hq => ?_) ha.2⟩
      have hq' := hr q (by simp [hq])
      exact ⟨hq'.1, hq'.2.1, ha.1 q hq⟩
  exact descend size d.content h.range h.apart

section
variable {f : SourceFile} {o : Options} {d : Decomposition} {dir : Path} {opening pieces : List Piece}

/-- A piece is the package block, or runs from the documentation of a statement to its end. -/
lemma Made.origin (hm : Made f o d dir opening pieces) {p : Piece} (hp : p ∈ d.content) :
    p.isGenerated = false ∧
      ((p ∈ opening ∧ ∃ doc, f.packageDoc o.docTag = some doc ∧ p.start = doc.start ∧ p.stop = doc.stop) ∨
        ∃ before s after, f.nodes = before ++ s :: after ∧
          p.start = s.leadingStart (f.packageDoc o.docTag) ∧ p.stop = s.stop) := by
  rcases List.mem_append.mp (hm.content_perm.mem_iff.mp hp) with hp | hp
  · rcases hm.opening_eq with ⟨-, ho⟩ | ⟨doc, path, hd, ho⟩
    · simp [ho] at hp
    · have hpe := hp
      rw [ho, List.mem_singleton] at hpe
      subst hpe
      exact ⟨rfl, .inl ⟨hp, doc, hd, rfl, rfl⟩⟩
  · obtain ⟨before, s, after, hs, hsp⟩ := SourceFile.Laid.exists_split hm.yields hp
    exact ⟨hsp.isGenerated, .inr ⟨before, s, after, hs, hsp.range⟩⟩

lemma Made.range (hm : Made f o d dir opening pieces) (h : f.Laid) {p : Piece} (hp : p ∈ d.content) :
    0 ≤ p.start ∧ p.start < p.stop ∧ p.stop ≤ f.text.length := by
  obtain ⟨-, ⟨-, doc, hd, hstart, hstop⟩ | ⟨before, s, after, hs, hstart, hstop⟩⟩ := hm.origin hp
  · rw [hstart, hstop]
    exact h.doc_range doc (SourceFile.Laid.packageDoc_mem hd)
  · have hnonneg := h.lastStop_nonneg hs
    have hlead := h.lastStop_le_leadingStart hs o.docTag
    have hle := s.leadingStart_le (f.packageDoc o.docTag)
    have hs' := h.node_range s (SourceFile.Laid.mem_nodes hs)
    rw [hstart, hstop]
    omega

/-- The pieces of a laid out file do not overlap. -/
lemma Made.apart (hm : Made f o d dir opening pieces) (h : f.Laid) :
    d.content.Pairwise fun p q => p.stop ≤ q.start ∨ q.stop ≤ p.start := by
  refine (hm.content_perm.pairwise_iff fun hpq => hpq.symm).mpr ?_
  refine List.pairwise_append.mpr ⟨?_, ?_, ?_⟩
  · rcases hm.opening_eq with ⟨-, rfl⟩ | ⟨doc, path, -, rfl⟩ <;> simp
  · have hnodes : (f.statements.filter SourceFile.isAccepted).Pairwise
        fun s t => s.stop ≤ t.leadingStart (f.packageDoc o.docTag) := by
      rw [SourceFile.Laid.filter_isAccepted]
      exact (h.nodes_pieces_apart o.docTag).filter _
    refine hm.yields.pairwise hnodes fun s t p q hp hq hst => .inl ?_
    rw [hp.range.2, hq.range.1]
    exact hst
  · intro p hp q hq
    rcases hm.opening_eq with ⟨-, rfl⟩ | ⟨doc, path, hd, rfl⟩
    · simp at hp
    · obtain ⟨before, s, after, hs, hsq⟩ := SourceFile.Laid.exists_split hm.yields hq
      have hapart := h.packageDoc_apart hs hd
      rw [List.mem_singleton.mp hp, hsq.range.1, hsq.range.2]
      exact hapart

/-- A laid out file comes apart into pieces that can be folded back. -/
theorem mergeable_of_laid (h : f.Laid) {opts : Options} (hd : f.decompose opts = .ok d) :
    d.Mergeable f.text.length := by
  obtain ⟨dir, opening, pieces, hm⟩ := exists_made hd
  refine ⟨fun p hp => hm.range h hp, ?_, ?_⟩
  · have hboth := (hm.content_sorted.and (hm.apart h)).imp_of_mem (S := fun p q => q.stop ≤ p.start)
    refine hboth fun {p q} hp hq ⟨hle, hapart⟩ => ?_
    have hp := hm.range h hp
    have hq := hm.range h hq
    omega
  · have hcontent : d.content.filter (fun p => !p.isGenerated) = d.content :=
      List.filter_eq_self.mpr fun p hp => by simp [(hm.origin hp).1]
    unfold cut content at *
    cases hp : d.pieces with
    | nil => rfl
    | cons p rest =>
      have hindex : p.isGenerated = true := hm.index_generated p (by simp [index?, hp])
      rw [hp] at hcontent
      simpa [hindex] using hcontent

/-- A documentation block lies in each piece as a whole or outside of it as a whole. -/
theorem doc_inside_or_apart (h : f.Laid) {opts : Options} (hd : f.decompose opts = .ok d) {p : Piece}
    (hp : p ∈ d.content) {c : Comment} (hc : c ∈ f.docs) :
    (p.start ≤ c.start ∧ c.stop ≤ p.stop) ∨ c.stop ≤ p.start ∨ p.stop ≤ c.start := by
  obtain ⟨dir, opening, pieces, hm⟩ := exists_made hd
  obtain ⟨-, ⟨-, doc, hdoc, hstart, hstop⟩ | ⟨before, s, after, hs, hstart, hstop⟩⟩ := hm.origin hp
  · rcases h.docs_eq_or_apart hc (SourceFile.Laid.packageDoc_mem hdoc) with rfl | hapart
    · omega
    · omega
  · have hnode := h.node_range s (SourceFile.Laid.mem_nodes hs)
    rcases h.doc_inside_or_apart hs opts.withDefaults.docTag hc with hin | hapart
    · omega
    · omega

end

end Decomposition

end DeclPieces
