import DeclPieces.Piece.Merge
import DeclPieces.Workspace.Split

/-! Merging pieces back into their source, and undoing that. -/
namespace DeclPieces.Workspace

open Activity

structure MergeOptions where
  /-- Only show what would change. -/
  dryRun : Bool := false
  /-- Keep a copy of the source before it is overwritten. -/
  backup : Bool := false
  /-- Split the merged source again. -/
  resplit : Bool := false
  deriving DecidableEq, Repr

/-- The outcome of a merge. -/
structure MergeResult where
  source : Path
  applied : Nat
  missing : List Path
  changed : Bool
  written : Bool := false
  backup : Path := []
  diff : Text := []
  split : Option SplitResult := none

/-- Refuses a source that changed since its last recorded split. -/
def checkSplitOf (w : Workspace) (plan : Plan) : Activity Unit := do
  if !w.records then return ()
  match ← ofExcept ((← get).database.latest? (w.key plan.source)) with
  | none => return ()
  | some run =>
    if run.hash ≠ plan.hash then
      fail (.coded .sourceChanged "source changed since it was last split; split it again before merging"
        plan.source)

/-- Keeps a copy of a source, if copies are wanted. -/
def keepCopy (w : Workspace) (path : Path) (text : Text) (wanted : Bool) : Activity Path := do
  match w.backups with
  | none => return []
  | some b =>
    if !wanted then return []
    let p ← get
    match p.disk.makeDirs (b.sourceDir (w.key path)) with
    | .error e => fail (.note "creating backup directory" e)
    | .ok _ =>
      let at_ ← w.now
      let p ← get
      let (r, records, disk) := b.save (w.key path) text at_ p.disk
      set { p with disk := disk }
      if w.logsCopies then tell records
      return (← ofExcept r).path

/-- Overwrites a source. -/
def overwrite (path : Path) (text : Text) (what : Text) : Activity Unit := do
  let p ← get
  match p.disk.write path text with
  | .ok disk => set { p with disk := disk }
  | .error e => fail (.caused .pieceWriteFailed what path e)

/-- The outcome of an action of which a part may have been done before it failed. -/
structure Partial (α : Type) where
  done : α
  failure : Option Failure := none

/-- Merges the pieces of a plan. The lock of the piece directory is held. -/
def mergePlan (w : Workspace) (plan : Plan) (o : MergeOptions) : Activity (Partial MergeResult) := do
  w.checkSplitOf plan
  let merged ← ofExcept (plan.decomposition.merge w.options (← get).disk.read plan.text)
  let path := plan.source
  let result : MergeResult :=
    { source := path, applied := merged.applied, missing := merged.missing, changed := merged.changed }
  tell (merged.missing.map fun piece => Log.record .warn "Piece file missing; keeping original text"
    [("file", .text path), ("piece", .text piece)])
  if o.dryRun then
    if !merged.changed then return ⟨result, none⟩
    return ⟨{ result with diff := w.differ (w.key path) plan.text merged.text }, none⟩
  if !merged.changed then
    tellOne .debug "Merge left source unchanged" [("file", .text path), ("applied", .int merged.applied)]
    return ⟨result, none⟩
  let backup ← w.keepCopy path plan.text o.backup
  overwrite path merged.text "writing merged source"
  tellOne .info "Merged pieces into declaration file"
    [("file", .text path), ("applied", .int merged.applied), ("missing", .int merged.missing.length)]
  let result := { result with backup := backup, written := true }
  if !o.resplit then return ⟨result, none⟩
  fun p =>
    match (do w.splitPlan (← w.planOf path merged.text) true : Activity SplitResult).run p with
    | (.ok split, p) => (.ok ⟨{ result with split := some split }, none⟩, p)
    | (.error e, p) => (.ok ⟨result, some e⟩, p)

/-- Merges the pieces of a source into it. A failure to split again is reported with the result. -/
def merge (w : Workspace) (path : Path) (o : MergeOptions) : Activity (Partial MergeResult) := do
  let path := w.abs path
  let plan ← w.planOf path (← sourceText path)
  withLock plan.decomposition.dir (w.mergePlan plan o)

/-- Replaces a source by its latest copy. -/
def restore (w : Workspace) (path : Path) : Activity Backup.Entry := do
  let path := w.abs path
  match w.backups with
  | none => fail (.coded .backupMissing "backups are disabled" path)
  | some b =>
    let dir ← ofExcept (Address.pieceDirectory w.options path)
    withLock dir do
      match b.latest (← get).disk (w.key path) with
      | .error e => fail (.caused .backupMissing "no backup found" path e)
      | .ok entry =>
        let data ← ofExcept (b.read (← get).disk entry.path)
        overwrite path data "restoring source"
        tellOne .info "Restored declaration file from backup"
          [("file", .text path), ("backup", .text entry.path)]
        return entry

end DeclPieces.Workspace
