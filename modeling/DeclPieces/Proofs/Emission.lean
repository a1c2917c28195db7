import DeclPieces.Piece.Emit
import DeclPieces.Proofs.CleanPath
import DeclPieces.Storage.Memory

/-! What writing pieces leaves behind: each file holds what was last written there, and other files are
not touched. -/
namespace DeclPieces

section Run
variable {σ : Type} [Storage σ] {source : Text} {P : σ → Prop}

/-- One piece is written. -/
lemma Piece.write_preserves (hdirs : ∀ s s' path, Storage.makeDirs s path = .ok s' → P s → P s') (p : Piece)
    (hwrite : ∀ content s s', p.render? source = some content → Storage.write s p.path content = .ok s' → P s → P s')
    (store : σ) (h : P store) : P (p.write source store).2 := by
  unfold Piece.write
  split
  · exact h
  · next s hs =>
    have hP := hdirs store s _ hs h
    split
    · exact hP
    · next content hc =>
      split
      · exact hP
      · next s' hs' => exact hwrite content s s' hc hs' hP

/-- What holds of the files, whatever directories are made and whichever of the pieces is written, holds
after all of them are. -/
lemma writePieces_preserves (hdirs : ∀ s s' path, Storage.makeDirs s path = .ok s' → P s → P s') (ps : List Piece)
    (hwrite : ∀ p ∈ ps, ∀ content s s', p.render? source = some content →
      Storage.write s p.path content = .ok s' → P s → P s')
    (store : σ) (h : P store) : P (writePieces source ps store).2 := by
  induction ps generalizing store with
  | nil => exact h
  | cons p rest ih =>
    have hstep := p.write_preserves hdirs (hwrite p (by simp)) store h
    have hrest (s : σ) (hs : P s) : P (writePieces source rest s).2 :=
      ih (fun q hq => hwrite q (by simp [hq])) s hs
    unfold writePieces
    split
    · next s hw => simpa [hw] using hstep
    · next fault s hw => exact hrest s (by simpa [hw] using hstep)
    · next s hw => exact hrest s (by simpa [hw] using hstep)

/-- A piece that is written without fault has its content stored. -/
lemma Piece.write_eq_ok {p : Piece} {store store' : σ} (h : p.write source store = (.ok (), store')) :
    ∃ s content, Storage.makeDirs store (Path.dir p.path) = .ok s ∧ p.render? source = some content ∧
      Storage.write s p.path content = .ok store' := by
  unfold Piece.write at h
  split at h
  · cases h
  · next s hs =>
    split at h
    · cases h
    · next content hc =>
      split at h
      · cases h
      · next s' hs' =>
        cases h
        exact ⟨s, content, hs, hc, hs'⟩

lemma writePieces_cons_eq_ok {p : Piece} {rest : List Piece} {store store' : σ}
    (h : writePieces source (p :: rest) store = (.ok [], store')) :
    ∃ s, p.write source store = (.ok (), s) ∧ writePieces source rest s = (.ok [], store') := by
  unfold writePieces at h
  split at h
  · cases h
  · next fault s hw =>
    obtain ⟨hr, -⟩ := Prod.mk.inj h
    cases hrest : (writePieces source rest s).1 with
    | error e => simp [hrest, Except.map] at hr
    | ok faults => simp [hrest, Except.map] at hr
  · next s hw => exact ⟨s, hw, h⟩

lemma Decomposition.write_snd (d : Decomposition) (source : Text) (store : σ) :
    (d.write source store).2 = (writePieces source d.pieces store).2 := by
  unfold Decomposition.write
  split <;> simp_all

lemma Decomposition.write_eq_ok {d : Decomposition} {store store' : σ}
    (h : d.write source store = (.ok (), store')) : writePieces source d.pieces store = (.ok [], store') := by
  unfold Decomposition.write at h
  split at h
  · cases h
  · next s hw =>
    obtain ⟨-, rfl⟩ := Prod.mk.inj h
    exact hw
  · cases h

end Run

/-- Looking up a name after the value of one key is replaced. -/
lemma lookup_map_replace {α : Type} (entries : List (Path × α)) (key name : Path) (e : α) :
    (entries.map fun (q, old) => if q = key then (q, e) else (q, old)).lookup name =
      if name = key then (entries.lookup name).map fun _ => e else entries.lookup name := by
  induction entries with
  | nil => simp
  | cons entry rest ih =>
    obtain ⟨r, old⟩ := entry
    by_cases hr : r = key
    · subst hr
      by_cases hn : name = r
      · simp [hn]
      · have hb : (name == r) = false := by simpa using hn
        simpa [hn, List.lookup_cons, hb] using ih
    · by_cases hn : name = r
      · subst hn
        simp [hr]
      · have hb : (name == r) = false := by simpa using hn
        simpa [hr, List.lookup_cons, hb] using ih

namespace Memory
variable {m m' : Memory} {p q : Path} {data : Text}

lemma get?_set (m : Memory) (p q : Path) (e : Entry) :
    (m.set p e).get? q = if canonical q = canonical p then some e else m.get? q := by
  unfold get? set
  simp only
  split
  · next hs =>
    obtain ⟨old, ho⟩ := Option.isSome_iff_exists.mp hs
    rw [lookup_map_replace]
    split
    · next he => simp [he, ho]
    · rfl
  · next hs =>
    have hn : m.entries.lookup (canonical p) = none := Option.not_isSome_iff_eq_none.mp hs
    rw [List.lookup_append]
    split
    · next he => simp [he, hn]
    · next he =>
      have hb : (canonical q == canonical p) = false := by simpa using he
      simp [List.lookup_cons, hb]

@[simp] lemma broken_set (m : Memory) (p : Path) (e : Entry) : (m.set p e).broken = m.broken := by
  unfold set
  simp only
  split <;> rfl

/-- Is this the data stored at a path? -/
def Holds (m : Memory) (q : Path) (data : Text) : Prop := ∃ e, m.get? q = some e ∧ e.data = data

/-- Making an entry a directory does not touch its data. -/
lemma Holds.set_dir (h : m.Holds q data) (dir : Path) :
    (match m.get? dir with
      | some e => m.set dir { e with isDir := true }
      | none => m.set dir { isDir := true }).Holds q data := by
  obtain ⟨e, he, rfl⟩ := h
  by_cases hc : canonical q = canonical dir
  · have hd : m.get? dir = some e := by
      rw [← he]
      unfold get?
      rw [hc]
    simp only [hd]
    exact ⟨{ e with isDir := true }, by rw [get?_set, if_pos hc], rfl⟩
  · split
    · exact ⟨e, by rw [get?_set, if_neg hc, he], rfl⟩
    · exact ⟨e, by rw [get?_set, if_neg hc, he], rfl⟩

lemma broken_set_dir (m : Memory) (dir : Path) :
    (match m.get? dir with
      | some e => m.set dir { e with isDir := true }
      | none => m.set dir { isDir := true }).broken = m.broken := by
  split <;> simp

lemma register_preserves (h : m.Holds q data) (p : Path) : (m.register p).Holds q data := by
  unfold register
  simp only
  generalize parents (canonical p) (canonical p).length = dirs
  induction dirs generalizing m with
  | nil => exact h
  | cons dir rest ih => exact ih (h.set_dir dir)

@[simp] lemma broken_register (m : Memory) (p : Path) : (m.register p).broken = m.broken := by
  unfold register
  simp only
  generalize parents (canonical p) (canonical p).length = dirs
  induction dirs generalizing m with
  | nil => rfl
  | cons dir rest ih => exact (ih _).trans (broken_set_dir m dir)

lemma mkdir_preserves (h : m.Holds q data) (p : Path) : (m.mkdir p).Holds q data := by
  unfold mkdir
  split
  · exact h
  · next hp =>
    refine register_preserves ?_ p
    obtain ⟨e, he, rfl⟩ := h
    refine ⟨e, ?_, rfl⟩
    rw [get?_set, if_neg, he]
    intro hc
    unfold get? at he hp
    rw [hc, hp] at he
    cases he

@[simp] lemma broken_mkdir (m : Memory) (p : Path) : (m.mkdir p).broken = m.broken := by
  unfold mkdir
  split <;> simp

lemma put_holds (m : Memory) (p : Path) (data : Text) : (m.put p data).Holds p data := by
  unfold put
  split
  · next e he => exact ⟨{ e with data := data }, by rw [get?_set, if_pos rfl], rfl⟩
  · exact register_preserves ⟨{ isDir := false, data := data }, by rw [get?_set, if_pos rfl], rfl⟩ p

lemma put_preserves (h : m.Holds q data) (hq : canonical q ≠ canonical p) (other : Text) :
    (m.put p other).Holds q data := by
  obtain ⟨e, he, rfl⟩ := h
  unfold put
  split
  · exact ⟨e, by rw [get?_set, if_neg hq, he], rfl⟩
  · exact register_preserves ⟨e, by rw [get?_set, if_neg hq, he], rfl⟩ p

@[simp] lemma broken_put (m : Memory) (p : Path) (data : Text) : (m.put p data).broken = m.broken := by
  unfold put
  split <;> simp

lemma makeDirs_eq_ok (h : Storage.makeDirs m p = .ok m') : m' = m.mkdir p := by
  simp only [Storage.makeDirs] at h
  split at h
  · cases h
  · exact (Except.ok.inj h).symm

lemma write_eq_ok (h : Storage.write m p data = .ok m') : m' = m.put p data := by
  simp only [Storage.write] at h
  split at h
  · cases h
  · exact (Except.ok.inj h).symm

lemma broken_writePieces (source : Text) (ps : List Piece) (m : Memory) :
    (writePieces source ps m).2.broken = m.broken := by
  refine writePieces_preserves (P := fun s => s.broken = m.broken) ?_ ps ?_ m rfl
  · intro s s' path hs h
    rw [makeDirs_eq_ok hs, broken_mkdir, h]
  · intro p _ content s s' _ hs h
    rw [write_eq_ok hs, broken_put, h]

/-- Pieces at places of their own are all stored. -/
lemma writePieces_holds {source : Text} {ps : List Piece}
    (hp : ps.Pairwise fun p q => canonical p.path ≠ canonical q.path)
    (h : writePieces source ps m = (.ok [], m')) :
    ∀ p ∈ ps, ∃ content, p.render? source = some content ∧ m'.Holds p.path content := by
  induction ps generalizing m with
  | nil => simp
  | cons p rest ih =>
    rw [List.pairwise_cons] at hp
    obtain ⟨s, hw, hrest⟩ := writePieces_cons_eq_ok h
    obtain ⟨s₀, content, -, hc, hs⟩ := Piece.write_eq_ok hw
    intro q hq
    rcases List.mem_cons.mp hq with rfl | hq
    · refine ⟨content, hc, ?_⟩
      have hstored : s.Holds q.path content := by
        rw [write_eq_ok hs]
        exact put_holds s₀ q.path content
      have hkeep : (writePieces source rest s).2.Holds q.path content := by
        refine writePieces_preserves (P := fun s => s.Holds q.path content) ?_ rest ?_ s hstored
        · intro s s' path hs h
          rw [makeDirs_eq_ok hs]
          exact mkdir_preserves h path
        · intro r hr other s s' _ hs h
          rw [write_eq_ok hs]
          exact put_preserves h (hp.1 r hr) other
      rwa [hrest] at hkeep
    · exact ih hp.2 hrest q hq

/-- What is stored can be read, unless opening is made to fail. -/
lemma Holds.read_eq (h : m.Holds q data) (hb : m.isBroken .opening q = false) :
    Storage.read m q = .content data := by
  obtain ⟨e, he, rfl⟩ := h
  simp [Storage.read, hb, he]

end Memory

end DeclPieces
