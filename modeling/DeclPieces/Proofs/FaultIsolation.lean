import DeclPieces.Proofs.DiskFiles
import Mathlib.Data.Option.Basic

/-! Pieces are written one by one, and one that cannot be written neither stops the others nor changes what they leave.
A piece whose directory cannot be made, or whose file cannot be written, is told of in the result. -/
namespace DeclPieces

/-- A way to see the files of a store. Making directories changes nothing that is seen. A file that is written is seen
at all the paths that name its place, and nowhere else. -/
structure FileView (σ : Type) [Storage σ] (α : Type) where
  seen : σ → Path → α
  holding : Text → α
  place : Path → Path
  holding_injective : Function.Injective holding
  seen_makeDirs : ∀ {s s' dir}, Storage.makeDirs s dir = .ok s' → ∀ q, seen s' q = seen s q
  seen_write : ∀ {s s' p data}, Storage.write s p data = .ok s' →
    ∀ q, seen s' q = if place q = place p then holding data else seen s q

/-- The files of a disk, seen by their content. -/
def Disk.view : FileView Disk (Option Text) where
  seen := Disk.stored?
  holding := some
  place := Disk.key
  holding_injective := Option.some_injective _
  seen_makeDirs := Disk.stored?_makeDirs_eq
  seen_write := Disk.stored?_write

namespace Memory
variable {m m' : Memory} {p q : Path}

/-- The data at a path. It is empty where there is nothing, as it is in a new directory. -/
def data (m : Memory) (q : Path) : Text := ((m.get? q).map Entry.data).getD []

lemma data_congr (h : canonical p = canonical q) : m.data p = m.data q := by
  unfold data get?
  rw [h]

lemma data_set (m : Memory) (p q : Path) (e : Entry) :
    (m.set p e).data q = if canonical q = canonical p then e.data else m.data q := by
  unfold data
  rw [get?_set]
  split <;> rfl

lemma data_of_get? {e : Entry} (h : m.get? p = some e) : m.data p = e.data := by
  unfold data
  rw [h]
  rfl

lemma data_of_get?_none (h : m.get? p = none) : m.data p = [] := by
  unfold data
  rw [h]
  rfl

/-- An entry that takes the data over is no change. -/
lemma data_set_same {e : Entry} (h : m.data p = e.data) (q : Path) : (m.set p e).data q = m.data q := by
  rw [data_set]
  split
  · next hq => rw [← h, data_congr hq]
  · rfl

lemma data_register (m : Memory) (p q : Path) : (m.register p).data q = m.data q := by
  unfold register
  simp only
  generalize parents (canonical p) (canonical p).length = dirs
  induction dirs generalizing m with
  | nil => rfl
  | cons dir rest ih =>
    refine (ih _).trans ?_
    simp only
    split
    · next e he =>
      have hdata := data_of_get? he
      exact data_set_same (e := ⟨true, e.data⟩) hdata q
    · next hnone => exact data_set_same (data_of_get?_none hnone) q

lemma data_mkdir (m : Memory) (p q : Path) : (m.mkdir p).data q = m.data q := by
  unfold mkdir
  split
  · rfl
  · next hnone => rw [data_register, data_set_same (data_of_get?_none hnone)]

lemma data_put (m : Memory) (p q : Path) (text : Text) :
    (m.put p text).data q = if canonical q = canonical p then text else m.data q := by
  unfold put
  split
  · rw [data_set]
  · rw [data_register, data_set]

/-- The files in memory, seen by their data. -/
def view : FileView Memory Text where
  seen := data
  holding := id
  place := canonical
  holding_injective := Function.injective_id
  seen_makeDirs h q := by rw [makeDirs_eq_ok h, data_mkdir]
  seen_write h q := by rw [write_eq_ok h, data_put, id]

end Memory

section Fates
variable {σ α : Type} [Storage σ] {source content : Text} {p : Piece} {ps : List Piece} {store : σ}

namespace Piece

/-- The fault that keeps a piece from being written to a store, if there is one. -/
def refusal? (p : Piece) (source : Text) (store : σ) : Option Fault :=
  match Storage.makeDirs store (Path.dir p.path) with
  | .error cause => some (p.writeFault "creating piece directory" cause)
  | .ok made => (p.render? source).bind fun content =>
    match Storage.write made p.path content with
    | .error cause => some (p.writeFault "writing piece" cause)
    | .ok _ => none

/-- What comes of writing a piece: the fault, if there is one, the result, and the store that is left. -/
inductive Attempt (p : Piece) (content : Text) (store : σ) : Option Fault → Except Failure Unit × σ → Prop
  | noDirectory {cause : Fault} (h : Storage.makeDirs store (Path.dir p.path) = .error cause) :
      Attempt p content store (some (p.writeFault "creating piece directory" cause))
        (.error (.fault (p.writeFault "creating piece directory" cause)), store)
  | notWritten {made : σ} {cause : Fault} (hmade : Storage.makeDirs store (Path.dir p.path) = .ok made)
      (h : Storage.write made p.path content = .error cause) :
      Attempt p content store (some (p.writeFault "writing piece" cause))
        (.error (.fault (p.writeFault "writing piece" cause)), made)
  | written {made store' : σ} (hmade : Storage.makeDirs store (Path.dir p.path) = .ok made)
      (h : Storage.write made p.path content = .ok store') : Attempt p content store none (.ok (), store')

lemma attempt (hcontent : p.render? source = some content) (store : σ) :
    p.Attempt content store (p.refusal? source store) (p.write source store) := by
  unfold refusal? write
  cases hmade : Storage.makeDirs store (Path.dir p.path) with
  | error cause => exact .noDirectory hmade
  | ok made =>
    simp only [hcontent, Option.bind_some]
    cases hwrite : Storage.write made p.path content with
    | error cause => exact .notWritten hmade hwrite
    | ok store' => exact .written hmade hwrite

/-- A piece that is refused changes no file. One that is written is seen at its place, and nowhere else. -/
lemma seen_write (view : FileView σ α) (hcontent : p.render? source = some content) (store : σ) (q : Path) :
    view.seen (p.write source store).2 q =
      if p.refusal? source store = none ∧ view.place q = view.place p.path then view.holding content
      else view.seen store q := by
  have hattempt := attempt hcontent store
  generalize p.refusal? source store = fault, p.write source store = outcome at hattempt ⊢
  cases hattempt with
  | noDirectory h => simp
  | notWritten hmade h => simpa using view.seen_makeDirs hmade q
  | written hmade h => simpa [view.seen_makeDirs hmade q] using view.seen_write h q

end Piece

/-- The fault of a piece comes before those of the pieces after it. -/
lemma writePieces_cons (hcontent : p.render? source = some content) (ps : List Piece) (store : σ) :
    writePieces source (p :: ps) store =
      ((writePieces source ps (p.write source store).2).1.map ((p.refusal? source store).toList ++ ·),
        (writePieces source ps (p.write source store).2).2) := by
  have hattempt := p.attempt hcontent store
  rw [writePieces]
  generalize p.refusal? source store = fault, p.write source store = outcome at hattempt ⊢
  cases hattempt with
  | noDirectory h => rfl
  | notWritten hmade h => rfl
  | @written made store' hmade h =>
    simp only [Option.toList_none, List.nil_append]
    cases hrest : writePieces source ps store' with
    | mk result after => cases result <;> rfl

/-- What becomes of each piece at its turn: the fault that keeps it from being written, if there is one. -/
def fates (source : Text) : List Piece → σ → List (Piece × Option Fault)
  | [], _ => []
  | p :: rest, store => (p, p.refusal? source store) :: fates source rest (p.write source store).2

lemma map_fst_fates (source : Text) (ps : List Piece) (store : σ) : (fates source ps store).map Prod.fst = ps := by
  induction ps generalizing store with
  | nil => rfl
  | cons p rest ih => simp [fates, ih]

lemma writePieces_fst (hrange : ∀ p ∈ ps, (p.render? source).isSome) (store : σ) :
    (writePieces source ps store).1 = .ok ((fates source ps store).filterMap Prod.snd) := by
  induction ps generalizing store with
  | nil => rfl
  | cons p rest ih =>
    obtain ⟨content, hcontent⟩ := Option.isSome_iff_exists.mp (hrange p (by simp))
    rw [writePieces_cons hcontent, ih fun q hq => hrange q (by simp [hq]), fates]
    cases hrefusal : p.refusal? source store with
    | none => simp [Except.map]
    | some fault => simp [Except.map]

section Seen
variable (view : FileView σ α) (hrange : ∀ p ∈ ps, (p.render? source).isSome)
include hrange

/-- No file changes where no piece is written. -/
lemma seen_writePieces_of_ne {q : Path}
    (hne : ∀ p, (p, none) ∈ fates source ps store → view.place p.path ≠ view.place q) :
    view.seen (writePieces source ps store).2 q = view.seen store q := by
  induction ps generalizing store with
  | nil => rfl
  | cons p rest ih =>
    obtain ⟨content, hcontent⟩ := Option.isSome_iff_exists.mp (hrange p (by simp))
    rw [fates] at hne
    have hrest := ih (fun r hr => hrange r (by simp [hr])) fun r hr => hne r (List.mem_cons_of_mem _ hr)
    have hp : ¬ (p.refusal? source store = none ∧ view.place q = view.place p.path) := by
      rintro ⟨hwritten, hplace⟩
      exact hne p (by simp [hwritten]) hplace.symm
    rw [writePieces_cons hcontent, hrest, Piece.seen_write view hcontent, if_neg hp]

/-- What is written last at a place stays there. -/
lemma seen_writePieces_of_last {before later : List (Piece × Option Fault)} {q : Path}
    (hfates : fates source ps store = before ++ (p, none) :: later) (hcontent : p.render? source = some content)
    (hlast : ∀ r, (r, none) ∈ later → view.place r.path ≠ view.place p.path) (hq : view.place q = view.place p.path) :
    view.seen (writePieces source ps store).2 q = view.holding content := by
  induction ps generalizing store before with
  | nil => simp [fates] at hfates
  | cons r rest ih =>
    obtain ⟨content', hcontent'⟩ := Option.isSome_iff_exists.mp (hrange r (by simp))
    have hrange' : ∀ p ∈ rest, (p.render? source).isSome := fun p hp => hrange p (by simp [hp])
    rw [writePieces_cons hcontent']
    rw [fates] at hfates
    cases before with
    | nil =>
      obtain ⟨hhead, rfl⟩ := List.cons.inj hfates
      obtain ⟨rfl, hwritten⟩ := Prod.mk.inj hhead
      obtain rfl : content' = content := Option.some.inj (hcontent'.symm.trans hcontent)
      rw [← hq] at hlast
      rw [seen_writePieces_of_ne view hrange' hlast, Piece.seen_write view hcontent', if_pos ⟨hwritten, hq⟩]
    | cons fate before => exact ih hrange' (List.cons.inj hfates).2

end Seen

/-- A fault is about the piece it is told of. -/
lemma eq_writeFault_of_mem_fates (hrange : ∀ p ∈ ps, (p.render? source).isSome) {fault : Fault}
    (h : (p, some fault) ∈ fates source ps store) :
    ∃ what cause, fault = .caused .pieceWriteFailed what p.path cause := by
  induction ps generalizing store with
  | nil => cases h
  | cons r rest ih =>
    obtain ⟨content, hcontent⟩ := Option.isSome_iff_exists.mp (hrange r (by simp))
    rw [fates] at h
    rcases List.mem_cons.mp h with heq | h
    · obtain ⟨rfl, hfault⟩ := Prod.mk.inj heq
      have hattempt := p.attempt hcontent store
      rw [← hfault] at hattempt
      generalize p.write source store = outcome at hattempt
      cases hattempt with
      | noDirectory h => exact ⟨_, _, rfl⟩
      | notWritten hmade h => exact ⟨_, _, rfl⟩
    · exact ih (fun p hp => hrange p (by simp [hp])) h

namespace Decomposition

/-- Writing pieces isolates faults. The result tells of exactly the pieces that are refused, in their order. What is
written last at a place stays there, and the files at which nothing is written are as before. -/
theorem write_isolates_faults (view : FileView σ α) (d : Decomposition) (source : Text) (store : σ)
    (hrange : ∀ p ∈ d.pieces, (p.render? source).isSome) :
    let fates := fates source d.pieces store
    let outcome := d.write source store
    fates.map Prod.fst = d.pieces ∧
      (outcome.1 = match fates.filterMap Prod.snd with
        | [] => .ok ()
        | faults => .error (.fault (.joined faults))) ∧
      (∀ p fault, (p, some fault) ∈ fates → ∃ what cause, fault = .caused .pieceWriteFailed what p.path cause) ∧
      (∀ before p later content, fates = before ++ (p, none) :: later → p.render? source = some content →
        (∀ r, (r, none) ∈ later → view.place r.path ≠ view.place p.path) →
        ∀ q, view.place q = view.place p.path → view.seen outcome.2 q = view.holding content) ∧
      ∀ q, (∀ p, (p, none) ∈ fates → view.place p.path ≠ view.place q) →
        view.seen outcome.2 q = view.seen store q := by
  simp only [d.write_snd]
  refine ⟨map_fst_fates source d.pieces store, ?_, fun p fault h => eq_writeFault_of_mem_fates hrange h, ?_, ?_⟩
  · have hfst := writePieces_fst hrange store
    unfold write
    generalize writePieces source d.pieces store = outcome, (fates source d.pieces store).filterMap Prod.snd = faults
      at hfst ⊢
    obtain ⟨result, after⟩ := outcome
    obtain rfl : result = .ok faults := hfst
    cases faults with
    | nil => rfl
    | cons fault rest => rfl
  · intro before p later content hfates hcontent hlast q hq
    exact seen_writePieces_of_last view hrange hfates hcontent hlast hq
  · exact fun q hne => seen_writePieces_of_ne view hrange hne

end Decomposition

end Fates

namespace Decomposition

/-- Two statements. -/
def twoTypes : Text := "type A=1\ntype B=2\n"

/-- An index, and pieces of both statements, two of them in a directory of their own. -/
def hinderedPieces : Decomposition where
  source := "t.d.ts"
  dir := "p"
  pieces := [
    { path := "p/index.d.ts", role := .generated "// index" },
    { start := 9, stop := 17, path := "p/x/b", role := .package },
    { start := 0, stop := 8, path := "p/c", role := .package },
    { start := 0, stop := 8, path := "p/x/a", role := .package },
    { start := 9, stop := 17, path := "p/d", role := .package }]

/-- Here the directory that two pieces share cannot be made, and one file keeps its content. -/
def hinderingMemory : Memory :=
  (({} : Memory).put "p/c" "old").breakAccess .makingDirs "p/x" |>.breakAccess .writing "p/c"

/-- The faults of the pieces that cannot be written. -/
def hinderedFaults : List Fault := [
  .caused .pieceWriteFailed "creating piece directory" "p/x/b" (.access "mkdir" "p/x" .inputOutput),
  .caused .pieceWriteFailed "writing piece" "p/c" (.access "open" "p/c" .inputOutput),
  .caused .pieceWriteFailed "creating piece directory" "p/x/a" (.access "mkdir" "p/x" .inputOutput)]

theorem write_isolates_hindered :
    (∀ p ∈ hinderedPieces.pieces, (p.render? twoTypes).isSome) ∧
      (hinderedPieces.write twoTypes hinderingMemory).1 = .error (.fault (.joined hinderedFaults)) ∧
      (hinderedPieces.write twoTypes hinderingMemory).2.data "p/index.d.ts" = Text.ofString "// index" ∧
      (hinderedPieces.write twoTypes hinderingMemory).2.data "p/c" = Text.ofString "old" ∧
      (hinderedPieces.write twoTypes hinderingMemory).2.data "p/d" = Text.ofString "type B=2\n" := by
  have hrange : ∀ p ∈ hinderedPieces.pieces, (p.render? twoTypes).isSome := by decide
  obtain ⟨-, hresult, -, hlast, hother⟩ :=
    write_isolates_faults Memory.view hinderedPieces twoTypes hinderingMemory hrange
  have hfates : fates twoTypes hinderedPieces.pieces hinderingMemory =
      [(hinderedPieces.pieces[0], none), (hinderedPieces.pieces[1], some hinderedFaults[0]),
        (hinderedPieces.pieces[2], some hinderedFaults[1]), (hinderedPieces.pieces[3], some hinderedFaults[2]),
        (hinderedPieces.pieces[4], none)] := rfl
  rw [hfates] at hresult hlast hother
  refine ⟨hrange, hresult, ?_, ?_, ?_⟩
  · refine hlast [] _ _ _ rfl rfl ?_ "p/index.d.ts" rfl
    intro r hr
    obtain rfl : r = hinderedPieces.pieces[4] := by simpa using hr
    decide
  · refine (hother "p/c" ?_).trans (by decide)
    intro r hr
    obtain rfl | rfl : r = hinderedPieces.pieces[0] ∨ r = hinderedPieces.pieces[4] := by simpa using hr
    all_goals decide
  · exact hlast (_ :: _ :: _ :: _ :: []) _ [] _ rfl rfl (by simp) "p/d" rfl

/-- Two pieces whose paths name one file. -/
def respelledPieces : Decomposition where
  source := "t.d.ts"
  dir := "p"
  pieces := [
    { start := 9, stop := 17, path := "/p/a", role := .package },
    { start := 0, stop := 8, path := "/p/./a", role := .package }]

/-- The paths are different and nothing goes wrong, and yet the first piece is not where it was written. -/
theorem respelled_piece_lost :
    respelledPieces.paths.Nodup ∧ (∀ p ∈ respelledPieces.pieces, (p.render? twoTypes).isSome) ∧
      fates twoTypes respelledPieces.pieces ({} : Memory) = respelledPieces.pieces.map (·, none) ∧
      (respelledPieces.write twoTypes ({} : Memory)).1 = .ok () ∧
      ∃ p ∈ respelledPieces.pieces, ∃ content, p.render? twoTypes = some content ∧
        (respelledPieces.write twoTypes ({} : Memory)).2.data p.path ≠ content :=
  ⟨by decide, by decide, rfl, rfl, _, List.mem_cons_self, _, rfl, by decide⟩

end Decomposition

end DeclPieces
