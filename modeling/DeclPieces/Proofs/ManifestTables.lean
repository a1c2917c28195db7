import DeclPieces.Proofs.RunOrder

/-! The tables in which a manifest is kept. Every query of them says anew, by the moment and by the number of a line,
which runs are the latest, and numbers of lines that are gone are given again; still they answer what the manifest
answers, whatever was recorded and dropped before. -/
namespace DeclPieces

/-- The run with the moment that 64 bits keep of its own. -/
def Run.stored (r : Run) : Run := { r with createdAt := (Int64.ofInt r.createdAt).toInt }

/-- Do 64 bits keep the moment of a run as it is? -/
def Run.Representable (r : Run) : Prop := Int64.minValue.toInt ≤ r.createdAt ∧ r.createdAt ≤ Int64.maxValue.toInt

instance (r : Run) : Decidable r.Representable := inferInstanceAs (Decidable (_ ∧ _))

lemma Run.stored_eq {r : Run} (h : r.Representable) : r.stored = r := by
  obtain ⟨hmin, hmax⟩ := h
  rw [Int64.toInt_minValue] at hmin
  rw [Int64.toInt_maxValue] at hmax
  unfold stored
  rw [Int64.toInt_ofInt_of_le hmin (by omega)]

lemma Run.representable_stored (r : Run) : r.stored.Representable :=
  ⟨Int64.minValue_le_toInt _, Int64.toInt_le _⟩

namespace Manifest
variable {m m' : Manifest} {run : Run} {pieces : List RecordedPiece} {source : Text} {keep : Int}

/-- A line of the table of runs. -/
structure Row where
  number : Nat
  run : Run
  deriving DecidableEq, Repr

structure Tables where
  rows : List Row := []
  pieces : List RecordedPiece := []
  deriving DecidableEq, Repr

namespace Tables
variable {t t' : Tables} {a b : Row}

/-- The number of a new line is the one after the largest. -/
def nextNumber (t : Tables) : Nat := (t.rows.map (·.number)).max?.getD 0 + 1

/-- Adds a line, unless one has the name of the run. The column of the moment has 64 bits. -/
def insertRun (t : Tables) (run : Run) : Except Fault Tables :=
  if t.rows.any (·.run.id = run.id) then .error (.plain "failed to record split run")
  else .ok { t with rows := t.rows ++ [⟨t.nextNumber, run.stored⟩] }

/-- Adds pieces of a run, unless one of the run has the same path. -/
def insertPieces (t : Tables) (run : Text) : List RecordedPiece → Except Fault Tables
  | [] => .ok t
  | q :: rest =>
    if t.pieces.any fun p => p.run = run ∧ p.path = q.path then
      .error (.plain ("failed to record piece " ++ q.path))
    else insertPieces { t with pieces := t.pieces ++ [{ q with run := run }] } run rest

def record (t : Tables) (run : Run) (pieces : List RecordedPiece) : Except Fault Tables := do
  (← t.insertRun run).insertPieces run.id pieces

/-- The first line is that of the later run, or both are one line. -/
def notAfter (a b : Row) : Bool :=
  decide (b.run.createdAt < a.run.createdAt ∨ b.run.createdAt = a.run.createdAt ∧ b.number ≤ a.number)

/-- The lines of a source, the latest first. -/
def newest (t : Tables) (source : Text) : List Row := (t.rows.filter (·.run.source = source)).mergeSort notAfter

def latest? (t : Tables) (source : Text) : Option Run := ((t.newest source).take 1).head?.map (·.run)

/-- The lines whose number is that of the latest line of their source, by source. -/
def latestRuns (t : Tables) : List Run :=
  let latest := t.rows.filter fun r => ((t.newest r.run.source).take 1).head?.map (·.number) = some r.number
  (latest.mergeSort fun a b => Text.le a.run.source b.run.source).map (·.run)

def piecesOf (t : Tables) (run : Text) : List RecordedPiece :=
  (t.pieces.filter (·.run = run)).mergeSort fun a b => Text.le a.path b.path

/-- The names of the runs of a source that are not among its `keep` latest, at least one of which stays. -/
def stale (t : Tables) (source : Text) (keep : Int) : List Text :=
  let kept := ((t.newest source).take (max keep 1).toNat).map (·.run.id)
  (t.rows.filter fun r => r.run.source = source ∧ r.run.id ∉ kept).map (·.run.id)

def prunePieces (t : Tables) (source : Text) (keep : Int) : Tables :=
  { t with pieces := t.pieces.filter fun q => q.run ∉ t.stale source keep }

/-- Also tells how many lines were dropped. -/
def pruneRuns (t : Tables) (source : Text) (keep : Int) : Tables × Nat :=
  ({ t with rows := t.rows.filter fun a => a.run.id ∉ t.stale source keep },
    t.rows.countP fun a => a.run.id ∈ t.stale source keep)

/-- Drops the pieces of old runs and then, asking again which these are, the runs. -/
def prune (t : Tables) (source : Text) (keep : Int) : Tables × Nat :=
  (t.prunePieces source keep).pruneRuns source keep

/-- What the tables hold, without the numbers. -/
def manifest (t : Tables) : Manifest := { runs := t.rows.map (·.run), pieces := t.pieces }

/-- Are the lines numbered in the order in which they were added? -/
structure Sound (t : Tables) : Prop where
  manifest : t.manifest.Sound
  numbers : t.rows.Pairwise fun a b => a.number < b.number

lemma number_lt_nextNumber (ha : a ∈ t.rows) : a.number < t.nextNumber := by
  unfold nextNumber
  have hmem : a.number ∈ t.rows.map (·.number) := List.mem_map_of_mem ha
  have hle := List.le_max?_getD_of_mem (k := 0) hmem
  omega

/-! Recording. -/

lemma insertPieces_eq {id : Text} {seen : List Text}
    (hseen : ∀ path, path ∈ seen ↔ ∃ p ∈ t.pieces, p.run = id ∧ p.path = path) :
    t.insertPieces id pieces = match repeated? seen pieces with
      | some path => .error (.plain ("failed to record piece " ++ path))
      | none => .ok { t with pieces := t.pieces ++ pieces.map fun p => { p with run := id } } := by
  induction pieces generalizing t seen with
  | nil => simp [insertPieces, repeated?]
  | cons q rest ih =>
    have htaken : (t.pieces.any fun p => p.run = id ∧ p.path = q.path) = true ↔ q.path ∈ seen := by
      rw [hseen, List.any_eq_true]
      simp
    unfold insertPieces repeated?
    by_cases hq : q.path ∈ seen
    · rw [if_pos (htaken.mpr hq), if_pos hq]
    · have hseen' : ∀ path, path ∈ q.path :: seen ↔
          ∃ p ∈ t.pieces ++ [{ q with run := id }], p.run = id ∧ p.path = path := by
        intro path
        rw [List.mem_cons, hseen]
        constructor
        · rintro (rfl | ⟨p, hp, h⟩)
          · exact ⟨{ q with run := id }, by simp, rfl, rfl⟩
          · exact ⟨p, by simp [hp], h⟩
        · rintro ⟨p, hp, hrun, hpath⟩
          rcases List.mem_append.mp hp with hp | hp
          · exact .inr ⟨p, hp, hrun, hpath⟩
          · obtain rfl := List.mem_singleton.mp hp
            exact .inl hpath.symm
      have hrest := @ih { t with pieces := t.pieces ++ [{ q with run := id }] } (q.path :: seen) hseen'
      rw [if_neg (mt htaken.mp hq), if_neg hq, hrest]
      simp

lemma rows_insertPieces {id : Text} (h : t.insertPieces id pieces = .ok t') : t'.rows = t.rows := by
  induction pieces generalizing t with
  | nil => exact (congrArg Tables.rows (Except.ok.inj h)).symm
  | cons q rest ih =>
    unfold insertPieces at h
    split at h
    · cases h
    · rw [ih h]

/-- The tables take a run and its pieces exactly if the manifest does. That no piece is without its run is why a new
run meets no pieces of its name. -/
lemma Sound.record (hs : t.Sound) :
    (t.record run pieces).map Tables.manifest = t.manifest.record run.stored pieces := by
  unfold Tables.record insertRun Manifest.record
  change _ = if t.manifest.runs.any (·.id = run.id) then _ else _
  have hany : t.manifest.runs.any (·.id = run.id) = t.rows.any (·.run.id = run.id) := List.any_map
  rw [hany]
  split
  · rfl
  · next hid =>
    have hfresh : ∀ path, path ∈ ([] : List Text) ↔
        ∃ p ∈ (Tables.mk (t.rows ++ [⟨t.nextNumber, run.stored⟩]) t.pieces).pieces, p.run = run.id ∧ p.path = path := by
      refine fun path => ⟨fun h => absurd h List.not_mem_nil, ?_⟩
      rintro ⟨p, hp, hrun, -⟩
      obtain ⟨r, hr, he⟩ := hs.manifest.pieces p hp
      obtain ⟨row, hrow, rfl⟩ := List.mem_map.mp hr
      exact absurd (List.any_eq_true.mpr ⟨row, hrow, by simpa using he.trans hrun⟩) hid
    change ((Tables.mk (t.rows ++ [⟨t.nextNumber, run.stored⟩]) t.pieces).insertPieces run.id pieces).map
      Tables.manifest = _
    rw [insertPieces_eq hfresh]
    cases repeated? [] pieces with
    | some path => rfl
    | none => simp [Except.map, Tables.manifest, Run.stored]

lemma rows_record (h : t.record run pieces = .ok t') : t'.rows = t.rows ++ [⟨t.nextNumber, run.stored⟩] := by
  obtain ⟨t₁, hrun, hpieces⟩ := bind_eq_ok_iff.mp h
  unfold insertRun at hrun
  split at hrun
  · cases hrun
  · rw [rows_insertPieces hpieces, ← Except.ok.inj hrun]

lemma Sound.of_record (hs : t.Sound) (h : t.record run pieces = .ok t') : t'.Sound := by
  constructor
  · have hrecord : t.manifest.record run.stored pieces = .ok t'.manifest := by
      rw [← hs.record, h]
      rfl
    exact hs.manifest.record hrecord
  · rw [rows_record h, List.pairwise_append]
    refine ⟨hs.numbers, List.pairwise_singleton _ _, ?_⟩
    intro a ha b hb
    obtain rfl := List.mem_singleton.mp hb
    exact number_lt_nextNumber ha

/-! The queries. -/

lemma Sound.number_ne (hs : t.Sound) (ha : a ∈ t.rows) (hb : b ∈ t.rows) (hne : a ≠ b) : a.number ≠ b.number := by
  have hnodup : (t.rows.map (·.number)).Nodup := List.pairwise_map.mpr (hs.numbers.imp fun h => by omega)
  exact fun h => hne (List.inj_on_of_nodup_map hnodup ha hb h)

/-- Of two lines the one with the smaller number was added before the other. -/
lemma Sound.sublist_of_number_lt (hs : t.Sound) (ha : a ∈ t.rows) (hb : b ∈ t.rows) (h : a.number < b.number) :
    [a, b].Sublist t.rows := by
  obtain ⟨before, after, heq⟩ := List.append_of_mem ha
  have hnumbers := hs.numbers
  rw [heq, List.pairwise_append] at hnumbers
  rw [heq] at hb ⊢
  rcases List.mem_append.mp hb with hb | hb
  · have hlt := hnumbers.2.2 b hb a (by simp)
    omega
  · rcases List.mem_cons.mp hb with rfl | hb
    · omega
    · exact List.sublist_append_of_sublist_right ((List.singleton_sublist.mpr hb).cons_cons a)

lemma mem_newest : a ∈ t.newest source ↔ a ∈ t.rows ∧ a.run.source = source := by
  unfold newest
  rw [List.mem_mergeSort, List.mem_filter, decide_eq_true_iff]

/-- What stands first in a query is what is later in the manifest. -/
lemma Sound.pairwise_newest (hs : t.Sound) :
    ((t.newest source).map (·.run)).Pairwise fun r r' => t.manifest.Before r' r := by
  have hsorted : (t.newest source).Pairwise fun a b => notAfter a b = true := by
    refine List.pairwise_mergeSort ?_ ?_ _
    · simp only [notAfter, decide_eq_true_eq]
      intros
      omega
    · simp only [notAfter, Bool.or_eq_true, decide_eq_true_eq]
      intros
      omega
  have hnodup : (t.newest source).Nodup :=
    (List.mergeSort_perm _ _).nodup_iff.mpr (hs.manifest.nodup_runs.of_map.filter _)
  rw [List.pairwise_map]
  refine (hsorted.and hnodup).imp_of_mem ?_
  rintro a b ha hb ⟨hle, hne⟩
  obtain ⟨ha, -⟩ := mem_newest.mp ha
  obtain ⟨hb, -⟩ := mem_newest.mp hb
  simp only [notAfter, decide_eq_true_eq] at hle
  rcases hle with hlt | ⟨heq, hle⟩
  · exact .inl hlt
  · have hlt : b.number < a.number := Nat.lt_of_le_of_ne hle (hs.number_ne hb ha (Ne.symm hne))
    exact .inr ⟨heq, (hs.sublist_of_number_lt hb ha hlt).map Row.run⟩

lemma Sound.newest_eq (hs : t.Sound) : (t.newest source).map (·.run) = t.manifest.history source := by
  have hperm : ((t.newest source).map (·.run)).Perm (t.manifest.history source) := by
    refine ((List.mergeSort_perm _ _).map _).trans (.trans ?_ (List.stableSort_perm _ _).symm)
    refine .trans ?_ (List.reverse_perm _).symm
    rw [Tables.manifest, List.filter_map]
    exact .refl _
  exact List.Perm.eq_of_pairwise (fun r r' _ _ h h' => absurd h' (hs.manifest.before_asymm h)) hs.pairwise_newest
    pairwise_history hperm

lemma Sound.latest? (hs : t.Sound) : t.latest? source = t.manifest.latest? source := by
  unfold Tables.latest? Manifest.latest?
  rw [← hs.newest_eq, List.head?_map, List.head?_take]
  simp

/-- The number of a line is that of the latest line of its source exactly if its run is the latest. -/
lemma Sound.latest_number_iff (hs : t.Sound) (ha : a ∈ t.rows) :
    ((t.newest a.run.source).take 1).head?.map (·.number) = some a.number ↔
      t.manifest.latest? a.run.source = some a.run := by
  rw [← hs.latest?]
  unfold Tables.latest?
  cases hn : (t.newest a.run.source).take 1 with
  | nil => simp
  | cons b rest =>
    have hb : b ∈ t.rows := (mem_newest.mp (List.mem_of_mem_take (hn ▸ List.mem_cons_self))).1
    simp only [List.head?_cons, Option.map_some, Option.some.injEq]
    constructor
    · intro hnumber
      by_contra hne
      exact hs.number_ne hb ha (fun h => hne (congrArg Row.run h)) hnumber
    · intro hrun
      exact congrArg Row.number (List.inj_on_of_nodup_map hs.manifest.nodup_runs hb ha hrun)

lemma Sound.mem_latestRuns_iff (hs : t.Sound) {r : Run} :
    r ∈ t.latestRuns ↔ t.manifest.latest? r.source = some r := by
  unfold Tables.latestRuns
  rw [List.mem_map]
  constructor
  · rintro ⟨a, ha, rfl⟩
    obtain ⟨ha, hlatest⟩ := List.mem_filter.mp (List.mem_mergeSort.mp ha)
    exact (hs.latest_number_iff ha).mp (of_decide_eq_true hlatest)
  · intro hlatest
    obtain ⟨a, ha, rfl⟩ := List.mem_map.mp (latest?_mem hlatest).1
    have hnumber := (hs.latest_number_iff ha).mpr hlatest
    exact ⟨a, List.mem_mergeSort.mpr (List.mem_filter.mpr ⟨ha, decide_eq_true hnumber⟩), rfl⟩

lemma Sound.latestRuns (hs : t.Sound) : t.latestRuns = t.manifest.latestRuns := by
  have hnodup : t.latestRuns.Nodup := by
    refine ((List.mergeSort_perm _ _).map _).nodup_iff.mpr ?_
    exact hs.manifest.nodup_runs.sublist (List.filter_sublist.map _)
  have hnodup' : t.manifest.latestRuns.Nodup := by
    refine pairwise_latestRuns.imp ?_
    rintro r r' hlt rfl
    exact (Text.lt_iff.mp hlt).2 rfl
  have hperm : t.latestRuns.Perm t.manifest.latestRuns := by
    refine (List.perm_ext_iff_of_nodup hnodup hnodup').mpr fun r => ?_
    rw [hs.mem_latestRuns_iff, Manifest.mem_latestRuns_iff]
  have hsorted : t.latestRuns.Pairwise fun r r' => Text.le r.source r'.source = true := by
    refine List.pairwise_map.mpr (List.pairwise_mergeSort ?_ ?_ _)
    · exact fun _ _ _ => Text.le_trans _ _ _
    · exact fun _ _ => Text.le_total _ _
  refine List.Perm.eq_of_pairwise ?_ hsorted (pairwise_latestRuns.imp fun h => (Text.lt_iff.mp h).1) hperm
  -- runs of one source that are both its latest are one run
  intro r r' hr hr' hle hle'
  have hlatest := hs.mem_latestRuns_iff.mp hr
  rw [Text.le_antisymm hle hle', Manifest.mem_latestRuns_iff.mp hr'] at hlatest
  exact (Option.some.inj hlatest).symm

lemma piecesOf_eq {id : Text} : t.piecesOf id = t.manifest.piecesOf id := by
  refine (List.stableSort_eq_mergeSort ?_ ?_ _).symm
  · exact fun _ _ _ => Text.le_trans _ _ _
  · exact fun _ _ => Text.le_total _ _

/-! Dropping old runs. -/

lemma Sound.mem_stale_iff (hs : t.Sound) {id : Text} :
    id ∈ t.stale source keep ↔ id ∈ t.manifest.stale source keep := by
  have hkept : ((t.newest source).take (max keep 1).toNat).map (·.run.id) =
      ((t.manifest.history source).map (·.id)).take (max keep 1).toNat := by
    rw [← hs.newest_eq, List.map_map, List.map_take]
    rfl
  unfold Tables.stale Manifest.stale
  rw [List.map_drop, List.mem_drop_iff_not_mem_take hs.manifest.nodup_history, List.mem_map, List.mem_map, hkept]
  constructor
  · rintro ⟨a, ha, rfl⟩
    obtain ⟨ha, hstale⟩ := List.mem_filter.mp ha
    obtain ⟨hsource, hnot⟩ := of_decide_eq_true hstale
    exact ⟨⟨a.run, mem_history.mpr ⟨List.mem_map_of_mem ha, hsource⟩, rfl⟩, hnot⟩
  · rintro ⟨⟨r, hr, rfl⟩, hnot⟩
    obtain ⟨hr, hsource⟩ := mem_history.mp hr
    obtain ⟨a, ha, rfl⟩ := List.mem_map.mp hr
    exact ⟨a, List.mem_filter.mpr ⟨ha, decide_eq_true ⟨hsource, hnot⟩⟩, rfl⟩

/-- What the tables drop is what the manifest drops, and they count it alike. -/
lemma Sound.prune (hs : t.Sound) :
    ((t.prune source keep).1.manifest, (t.prune source keep).2) = t.manifest.prune source keep := by
  have hstale : ∀ id, id ∈ (t.prunePieces source keep).stale source keep ↔ id ∈ t.manifest.stale source keep :=
    fun _ => hs.mem_stale_iff
  have hruns : (t.prune source keep).1.manifest.runs = (t.manifest.prune source keep).1.runs := by
    change (t.prune source keep).1.rows.map (·.run) =
      (t.rows.map (·.run)).filter fun r => !(t.manifest.stale source keep).contains r.id
    rw [List.filter_map]
    refine congrArg (List.map Row.run) (List.filter_congr fun a _ => ?_)
    rw [Bool.eq_iff_iff, decide_eq_true_iff, hstale]
    simp
  have hpieces : (t.prune source keep).1.manifest.pieces = (t.manifest.prune source keep).1.pieces := by
    rw [Manifest.prune_pieces]
    refine List.filter_congr fun q _ => ?_
    simp [hs.mem_stale_iff]
  have hcount : (t.prune source keep).2 = (t.manifest.prune source keep).2 := by
    rw [hs.manifest.prune_count]
    change t.rows.countP _ = (t.rows.map (·.run)).countP _
    rw [List.countP_map]
    refine List.countP_congr fun a ha => ?_
    have hrun : a.run ∈ t.manifest.runs := List.mem_map_of_mem ha
    rw [Function.comp_apply, decide_eq_true_iff, decide_eq_true_iff, hstale]
    exact hs.manifest.id_mem_stale_iff hrun
  exact Prod.ext (congrArg₂ Manifest.mk hruns hpieces) hcount

lemma Sound.of_prune (hs : t.Sound) (source : Text) (keep : Int) : (t.prune source keep).1.Sound := by
  constructor
  · have hmanifest : (t.prune source keep).1.manifest = (t.manifest.prune source keep).1 := congrArg Prod.fst hs.prune
    exact hmanifest ▸ hs.manifest.prune source keep
  · exact hs.numbers.filter _

end Tables

/-! Sequences of calls. -/

/-- What changes a manifest. -/
inductive Call where
  | record (run : Run) (pieces : List RecordedPiece)
  | prune (source : Text) (keep : Int)
  deriving DecidableEq, Repr

/-- A call that fails changes nothing. -/
def apply (m : Manifest) : Call → Manifest
  | .record run pieces => (m.record run pieces).toOption.getD m
  | .prune source keep => (m.prune source keep).1

def after (calls : List Call) : Manifest := calls.foldl apply {}

/-- The call with the moment that is kept of it. -/
def Call.stored : Call → Call
  | .record run pieces => .record run.stored pieces
  | .prune source keep => .prune source keep

/-- All moments of what is recorded are kept as they are. -/
lemma representable_after (calls : List Call) : ∀ r ∈ (after (calls.map Call.stored)).runs, r.Representable := by
  have hstep : ∀ (m : Manifest) (call : Call), (∀ r ∈ m.runs, r.Representable) →
      ∀ r ∈ (m.apply call.stored).runs, r.Representable := by
    intro m call hm
    cases call with
    | record run pieces =>
      change ∀ r ∈ ((m.record run.stored pieces).toOption.getD m).runs, r.Representable
      cases h : m.record run.stored pieces with
      | error e => exact hm
      | ok m' =>
        intro r hr
        change r ∈ m'.runs at hr
        rw [(record_eq_ok h).2.2.1] at hr
        rcases List.mem_append.mp hr with hr | hr
        · exact hm r hr
        · obtain rfl := List.mem_singleton.mp hr
          exact run.representable_stored
    | prune source keep => exact fun r hr => hm r (List.mem_of_mem_filter hr)
  have hrun : ∀ m : Manifest, (∀ r ∈ m.runs, r.Representable) →
      ∀ r ∈ ((calls.map Call.stored).foldl apply m).runs, r.Representable := by
    induction calls with
    | nil => exact fun m hm => hm
    | cons call rest ih => exact fun m hm => ih _ (hstep m call hm)
  exact hrun {} fun r hr => absurd hr List.not_mem_nil

/-- What 64 bits keep as it is they keep of all calls alike. -/
lemma map_stored_eq {calls : List Call} (h : ∀ run pieces, .record run pieces ∈ calls → run.Representable) :
    calls.map Call.stored = calls := by
  conv_rhs => rw [← List.map_id calls]
  refine List.map_congr_left fun call hcall => ?_
  cases call with
  | record run pieces => exact congrArg (Call.record · pieces) (Run.stored_eq (h run pieces hcall))
  | prune source keep => rfl

namespace Tables
variable {t : Tables}

def apply (t : Tables) : Call → Tables
  | .record run pieces => (t.record run pieces).toOption.getD t
  | .prune source keep => (t.prune source keep).1

def after (calls : List Call) : Tables := calls.foldl apply {}

lemma Sound.apply (hs : t.Sound) (call : Call) :
    (t.apply call).Sound ∧ (t.apply call).manifest = t.manifest.apply call.stored := by
  cases call with
  | record run pieces =>
    change ((t.record run pieces).toOption.getD t).Sound ∧
      ((t.record run pieces).toOption.getD t).manifest = (t.manifest.record run.stored pieces).toOption.getD t.manifest
    rw [← hs.record]
    cases h : t.record run pieces with
    | error e => exact ⟨hs, rfl⟩
    | ok t' => exact ⟨hs.of_record h, rfl⟩
  | prune source keep => exact ⟨hs.of_prune source keep, congrArg Prod.fst hs.prune⟩

lemma sound_after (calls : List Call) :
    (after calls).Sound ∧ (after calls).manifest = Manifest.after (calls.map Call.stored) := by
  have hrun : ∀ t : Tables, t.Sound → (calls.foldl apply t).Sound ∧
      (calls.foldl apply t).manifest = (calls.map Call.stored).foldl Manifest.apply t.manifest := by
    induction calls with
    | nil => exact fun t hs => ⟨hs, rfl⟩
    | cons call rest ih =>
      intro t hs
      obtain ⟨hs', heq⟩ := hs.apply call
      rw [List.foldl_cons, List.map_cons, List.foldl_cons, ← heq]
      exact ih _ hs'
  exact hrun {} ⟨⟨List.nodup_nil, fun q hq => absurd hq List.not_mem_nil⟩, .nil⟩

end Tables

/-- The queries tell the greatest runs, and there is no piece without its run. -/
structure Consistent (m : Manifest) : Prop where
  latest_iff : ∀ source r, m.latest? source = some r ↔ m.IsLatest source r
  none_iff : ∀ source, m.latest? source = none ↔ ∀ r ∈ m.runs, r.source ≠ source
  ordered : m.latestRuns.Pairwise fun r r' => Text.lt r.source r'.source
  mem_latestRuns_iff : ∀ r, r ∈ m.latestRuns ↔ m.latest? r.source = some r
  owned : ∀ q ∈ m.pieces, ∃ r ∈ m.runs, r.id = q.run

lemma Sound.consistent (hs : m.Sound) : m.Consistent where
  latest_iff _ _ := hs.latest?_eq_some_iff
  none_iff _ := latest?_eq_none_iff
  ordered := pairwise_latestRuns
  mem_latestRuns_iff _ := Manifest.mem_latestRuns_iff
  owned := hs.pieces

/-- What is left of a manifest when all runs of a source but the `keep` greatest are dropped, and how many were. -/
structure Pruned (m : Manifest) (source : Text) (keep : Int) (m' : Manifest) (n : Nat) : Prop where
  runs : m'.runs = m.runs.filter fun r => r.source ≠ source ∨ m.laterThan r < (max keep 1).toNat
  pieces : m'.pieces = m.pieces.filter fun q => m'.runs.any (·.id = q.run)
  count : n = m.runs.countP fun r => r.source = source ∧ (max keep 1).toNat ≤ m.laterThan r
  latest : ∀ other, m'.latest? other = m.latest? other
  others_runs : ∀ other, other ≠ source → m'.runs.filter (·.source = other) = m.runs.filter (·.source = other)
  others_pieces : ∀ r ∈ m.runs, r.source ≠ source → m'.piecesOf r.id = m.piecesOf r.id

lemma Sound.pruned (hs : m.Sound) : m.Pruned source keep (m.prune source keep).1 (m.prune source keep).2 where
  runs := hs.prune_runs_eq
  pieces := hs.prune_pieces_eq
  count := hs.prune_count
  latest _ := hs.latest?_prune
  others_runs _ hne := (hs.prune_of_ne hne).1
  others_pieces r hr hne := (hs.prune_of_ne hne).2 r hr rfl

/-- Whatever was recorded and dropped, the tables give the answers of a manifest that was given the moments which 64 bits
keep. These tell the greatest runs, and dropping old runs takes exactly those that are not among the greatest. All
moments in it fit into 64 bits; if those that were recorded did, it was given the calls as they are. -/
theorem answers_after_calls (calls : List Call) :
    let m := after (calls.map Call.stored)
    let t := Tables.after calls
    (∀ source, t.latest? source = m.latest? source) ∧ t.latestRuns = m.latestRuns ∧
      (∀ id, t.piecesOf id = m.piecesOf id) ∧
      (∀ run pieces, (t.record run pieces).map Tables.manifest = m.record run.stored pieces) ∧
      (∀ source keep, ((t.prune source keep).1.manifest, (t.prune source keep).2) = m.prune source keep) ∧
      m.Consistent ∧ (∀ source keep, m.Pruned source keep (m.prune source keep).1 (m.prune source keep).2) ∧
      (∀ r ∈ m.runs, r.Representable) ∧
      ((∀ run pieces, .record run pieces ∈ calls → run.Representable) → m = after calls) := by
  obtain ⟨hs, heq⟩ := Tables.sound_after calls
  have hfit := representable_after calls
  intro m t
  have hm : t.manifest = m := heq
  refine ⟨?_, ?_, ?_, ?_, ?_, ?_, ?_, hfit, fun h => congrArg after (map_stored_eq h)⟩ <;> rw [← hm]
  · exact fun _ => hs.latest?
  · exact hs.latestRuns
  · exact fun _ => Tables.piecesOf_eq
  · exact fun _ _ => hs.record
  · exact fun _ _ => hs.prune
  · exact hs.manifest.consistent
  · exact fun _ _ => hs.manifest.pruned

/-- Three splits of a source: two at one moment, and one at a moment beyond 64 bits. -/
def crowdedCalls : List Call := [
  .record ⟨"r1", "t/x.d.ts", "h1", "p/x", 0, 0, 1700000001000000000⟩ [],
  .record ⟨"r2", "t/x.d.ts", "h2", "p/x", 0, 0, 1700000001000000000⟩ [],
  .record ⟨"r3", "t/x.d.ts", "h3", "p/x", 0, 0, 9223372036854775808⟩ []]

/-- Of the two the one recorded later is the latest. The third is kept as the earliest, and dropped first. -/
theorem answers_after_crowded_calls :
    ((Tables.after crowdedCalls).latest? "t/x.d.ts").map (·.id) = some "r2" ∧
      ((Tables.after crowdedCalls).prune "t/x.d.ts" 2).1.manifest.runs.map (·.id) = ["r1", "r2"] ∧
      ((Tables.after crowdedCalls).prune "t/x.d.ts" 2).2 = 1 := by
  obtain ⟨hlatest, -, -, -, hprune, -⟩ := answers_after_calls crowdedCalls
  obtain ⟨hruns, hcount⟩ := Prod.mk.inj (hprune "t/x.d.ts" 2)
  rw [hlatest, hruns, hcount]
  decide +kernel

end Manifest

end DeclPieces
