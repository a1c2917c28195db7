import DeclPieces.Digest
import DeclPieces.Log
import DeclPieces.Number.Literal
import DeclPieces.Storage

/-! Copies of source files, taken before they are overwritten. Each source has a directory of its own,
in which a copy is named by the moment it was taken. -/
namespace DeclPieces.Backup

/-- How copies are compressed, and how what is stored is read. -/
structure Codec where
  encode : Text → Text
  decode : Text → Except Fault Text

namespace Codec

/-- Does decoding undo encoding? -/
def Lossless (c : Codec) : Prop := ∀ data, c.decode (c.encode data) = .ok data

/-- The mark at the front of a compressed file. -/
def frameMark : Text := [0x28, 0xb5, 0x2f, 0xfd]

/-- Puts the mark in front and compresses nothing. An empty file holds an empty copy. -/
def framed : Codec where
  encode data := frameMark ++ data
  decode stored :=
    if stored.isEmpty then .ok []
    else if stored.hasPrefix frameMark then .ok (stored.drop frameMark.length)
    else .error (.plain "invalid input: magic number mismatch")

theorem framed_lossless : framed.Lossless := fun data => by simp [framed, frameMark, Text.hasPrefix]

end Codec

def suffix : Text := ".zst"

/-- A stored copy. `createdAt` counts nanoseconds of universal time. -/
structure Entry where
  source : Text
  path : Path
  createdAt : Int
  size : Nat
  deriving DecidableEq, Repr

end DeclPieces.Backup

namespace DeclPieces

/-- Where copies are kept, how many of each source (all of them if `keep` is not positive), and in which form. -/
structure Backups where
  dir : Path
  keep : Int
  codec : Backup.Codec

namespace Backups

open Backup

variable {σ : Type} [Storage σ]

/-- The directory name of a source. -/
def key (source : Text) : Text := (Digest.hash source).take 32

def sourceDir (b : Backups) (source : Text) : Path := Path.join b.dir (key source)

/-- A whole number as it may name a copy: digits with at most one sign, of 64 bits. -/
def instant? (t : Text) : Option Int :=
  let (negative, digits) := Number.sign t
  ((Text.toNat? digits).map (Number.signed negative)).filter Number.fits64

def ofListed? (source : Text) (dir : Path) (l : Listed) : Option Entry :=
  if l.isDir || !l.name.hasSuffix suffix then none
  else (instant? (l.name.dropSuffix suffix)).map fun at_ => ⟨source, Path.join dir l.name, at_, l.size⟩

/-- The copies of a source, newest first. -/
def list (b : Backups) (store : σ) (source : Text) : Except Fault (List Entry) :=
  let dir := b.sourceDir source
  match Storage.list store dir with
  | .missing _ => .ok []
  | .failed e => .error (.note "listing backups" e)
  | .content ls => .ok ((ls.filterMap (ofListed? source dir)).stableSort fun x y => y.createdAt ≤ x.createdAt)

def latest (b : Backups) (store : σ) (source : Text) : Except Fault Entry := do
  match ← b.list store source with
  | [] => .error (.coded .backupMissing "no backup found" source)
  | e :: _ => return e

/-- The data of a copy. -/
def read (b : Backups) (store : σ) (path : Path) : Except Fault Text :=
  match (Storage.read store path).toExcept with
  | .error e => .error (.note "reading backup" e)
  | .ok stored => (b.codec.decode stored).mapError (.note ("decompressing backup " ++ path))

/-- Removes copies one after the other, up to the first that cannot be removed. -/
def removeAll (source : Text) : List Entry → σ → List Log.Record × Option Fault × σ
  | [], store => ([], none, store)
  | e :: rest, store =>
    match Storage.remove store e.path with
    | .error fault => ([], some fault, store)
    | .ok store =>
      let (log, fault, store) := removeAll source rest store
      (Log.record .debug "Pruned backup" [("source", .text source), ("path", .text e.path)] :: log, fault, store)

/-- Removes the copies beyond the limit. -/
def prune (b : Backups) (source : Text) (store : σ) : List Log.Record × σ :=
  let failed (fault : Fault) : Log.Record :=
    Log.record .warn "Failed to prune backups" [("source", .text source), ("error", .text fault.message)]
  if b.keep ≤ 0 then ([], store)
  else match b.list store source with
    | .error fault => ([failed fault], store)
    | .ok entries =>
      let (log, fault, store) := removeAll source (entries.drop b.keep.toNat) store
      (log ++ fault.toList.map failed, store)

/-- Stores a copy of `data`, taken at the moment `now`. -/
def save (b : Backups) (source data : Text) (now : Int) (store : σ) :
    Except Fault Entry × List Log.Record × σ :=
  let dir := b.sourceDir source
  match Storage.makeDirs store dir with
  | .error e => (.error (.note "creating backup directory" e), [], store)
  | .ok store =>
    let path := Path.join dir (Text.ofInt now ++ suffix)
    let compressed := b.codec.encode data
    match Storage.write store path compressed with
    | .error e => (.error (.note "writing backup" e), [], store)
    | .ok store =>
      let saved := Log.record .debug "Saved backup"
        [("source", .text source), ("path", .text path), ("size", .int data.length),
          ("compressed", .int compressed.length)]
      let (log, store) := b.prune source store
      (.ok ⟨source, path, now, data.length⟩, saved :: log, store)

end Backups

end DeclPieces
