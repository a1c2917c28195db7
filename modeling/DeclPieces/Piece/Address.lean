import DeclPieces.Fault
import DeclPieces.Options

/-! Where pieces are stored, and how one module refers to another. -/
namespace DeclPieces.Address

/-- The endings of declaration files, each before those it ends in. -/
def suffixes : List Text := [".d.mts", ".d.cts", ".d.ts", ".mts", ".cts", ".ts"]

/-- Removes one ending of a declaration file, unless nothing would be left. -/
def trimSuffix (name : Text) : Text :=
  match suffixes.find? fun s => name.hasSuffix s && s.length < name.length with
  | some s => name.dropSuffix s
  | none => name

def outsideRoot (root source : Path) : Fault :=
  .coded .outsideRoot ("not under translated root " ++ root) source

/-- The directory that holds the pieces of a source file: the file's own directory, moved from the
translated root to the pieces root, extended by the file's name. -/
def pieceDirectory (o : Options) (source : Path) : Except Fault Path :=
  let dir := Path.dir source
  if !Path.within dir o.translatedRoot then .error (outsideRoot o.translatedRoot source)
  else match Path.rel? o.translatedRoot dir with
    | none => .error (outsideRoot o.translatedRoot source)
    | some below => .ok (Path.joinAll [o.piecesRoot, below, trimSuffix (Path.base source)])

/-- The generated index of a source file. -/
def indexPath (o : Options) (source : Path) : Except Fault Path :=
  (pieceDirectory o.withDefaults source).map fun dir => Path.join dir o.withDefaults.indexFile

def notRelated (source target : Path) : Fault :=
  .caused .internalError "computing relative module reference" target
    (.plain ("Rel: can't make " ++ target ++ " relative to " ++ source))

def selfReference (source target : Path) : Fault :=
  .coded .internalError ("module reference from " ++ source ++ " to itself") target

/-- The module path that leads from directory `source` to the file `target`. It starts with `./` or
`../` and has no ending of a declaration file. -/
def moduleReference (source target : Path) : Except Fault Text :=
  match Path.rel? source target with
  | none => .error (notRelated source target)
  | some r =>
    let r := Path.normalize r
    if r = Path.dot then .error (selfReference source target)
    else if Path.climbs r || r.hasPrefix "./" then .ok (trimSuffix r)
    else .ok (trimSuffix ("./" ++ r))

def isQuote (c : Char) : Bool := c = '"' || c = '\'' || c.toNat = 96

/-- Can the character stand in a file name as it is? -/
def isPortable (c : Char) : Bool :=
  c.isAlphanum || c = '_' || c = '$' || c = '-' || c = '.' || c = '@' || 0x7f < c.toNat

/-- A portable file name for a symbol. Quotes around the name are dropped, and characters that are
not portable become underscores. -/
def fileName (symbol : Text) : Text :=
  let bare := ((symbol.runes.dropWhile (isQuote ·.char)).reverse.dropWhile (isQuote ·.char)).reverse
  if bare.isEmpty then "_"
  else Text.ofChars (bare.map fun r => if isPortable r.char then r.char else '_')

end DeclPieces.Address

namespace DeclPieces

/-- The paths already given out. They are compared in lower case, so that a split comes out the same
where file names ignore case. -/
structure Allocator where
  used : List Text := []
  deriving DecidableEq, Repr

namespace Allocator

def taken (a : Allocator) (path : Path) : Bool := a.used.contains path.lower

def reserve (a : Allocator) (path : Path) : Allocator :=
  if a.taken path then a else ⟨path.lower :: a.used⟩

/-- The `n`-th choice for a name: the name itself, then the name followed by a number. -/
def candidate (dir name ext : Text) : Nat → Path
  | 0 => Path.join dir (name ++ ext)
  | n + 1 => Path.join dir (name ++ "-" ++ Text.ofNat (n + 1) ++ ext)

/-- The first free choice from the `n`-th on. Of one choice more than there are used paths, one is
free, so `fuel` need not exceed their number. -/
def firstFree (a : Allocator) (dir name ext : Text) (n : Nat) : Nat → Path
  | 0 => candidate dir name ext n
  | fuel + 1 =>
    if a.taken (candidate dir name ext n) then firstFree a dir name ext (n + 1) fuel
    else candidate dir name ext n

/-- Gives out a path and marks it as used. -/
def allocate (a : Allocator) (dir name ext : Text) : Path × Allocator :=
  let path := a.firstFree dir name ext 0 a.used.length
  (path, a.reserve path)

def noFreePath (dir name ext : Text) : Fault := .plain ("no free path for " ++ Path.join dir (name ++ ext))

/-- Gives out a path that was not in use. A name with climbs in it can have all its choices in use, and
then a search for a free one would not end. -/
def allocateFree (a : Allocator) (dir name ext : Text) : Except Fault (Path × Allocator) :=
  let (path, b) := a.allocate dir name ext
  if a.taken path then .error (noFreePath dir name ext) else .ok (path, b)

end Allocator

end DeclPieces
