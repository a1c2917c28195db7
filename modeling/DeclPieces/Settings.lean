import DeclPieces.Fault
import DeclPieces.Options
import DeclPieces.Text.Quoted
import DeclPieces.Watch

/-! The settings of a project, and when they are allowed. -/
namespace DeclPieces

structure Settings where
  version : Int := 1
  /-- Where source files live; from the project root if it is relative. -/
  translatedRoot : Text := "translated"
  /-- Where piece directories live. -/
  piecesRoot : Text := "pieces"
  extension : Text := ".d.ts"
  indexName : Text := "index"
  packageName : Text := "package"
  docTag : Text := "@packageDocumentation"
  importMarker : Text := Options.importMarkerDefault
  exportMarker : Text := Options.exportMarkerDefault
  /-- The declaration files whose globals every source sees. -/
  ambient : List Text := []
  /-- Is a source kept before it is rewritten? -/
  backup : Bool := true
  keepBackups : Int := 5
  debounceMs : Int := 500
  ignorePatterns : List Text := Watch.Settings.ignorePatterns {}
  /-- How many files are worked on at once. -/
  jobs : Int := 4
  logLevel : Text := "warn"
  /-- Receives every log record; empty if there is no such file. -/
  logFile : Text := ""
  deriving DecidableEq, Repr

/-- One of the settings. -/
inductive Setting where
  | version
  | jobs
  | translatedRoot
  | piecesRoot
  | extension
  | indexName
  | packageName
  | docTag
  | importMarker
  | exportMarker
  | ambient
  | backup
  | keepBackups
  | debounceMs
  | ignorePatterns
  | logLevel
  | logFile
  deriving DecidableEq, Repr

/-- The value of a setting. -/
inductive Setting.Value where
  | int (i : Int)
  | bool (b : Bool)
  | text (t : Text)
  | texts (ts : List Text)
  deriving DecidableEq, Repr

namespace Setting

/-- The settings in the order in which they are written to a file. -/
def all : List Setting :=
  [version, jobs, translatedRoot, piecesRoot, extension, indexName, packageName, docTag, importMarker, exportMarker,
    ambient, backup, keepBackups, debounceMs, ignorePatterns, logLevel, logFile]

/-- The table that a setting stands in, empty for those at the top, and its name there. -/
def place : Setting → Text × Text
  | version => ("", "version")
  | jobs => ("", "jobs")
  | translatedRoot => ("roots", "translated")
  | piecesRoot => ("roots", "pieces")
  | extension => ("pieces", "extension")
  | indexName => ("pieces", "indexName")
  | packageName => ("pieces", "packageName")
  | docTag => ("pieces", "docTag")
  | importMarker => ("pieces", "importMarker")
  | exportMarker => ("pieces", "exportMarker")
  | ambient => ("parser", "ambient")
  | backup => ("merge", "backup")
  | keepBackups => ("merge", "keepBackups")
  | debounceMs => ("watch", "debounceMs")
  | ignorePatterns => ("watch", "ignorePatterns")
  | logLevel => ("logging", "level")
  | logFile => ("logging", "file")

def section_ (s : Setting) : Text := s.place.1

def name (s : Setting) : Text := s.place.2

/-- The name with its table, such as `merge.keepBackups`. -/
def title (s : Setting) : Text := if s.section_.isEmpty then s.name else s.section_ ++ "." ++ s.name

/-- The tables, in the order in which they are written. -/
def sections : List Text := (all.map section_).filter (!·.isEmpty) |>.eraseDups

end Setting

namespace Settings

/-- Nothing set at all. -/
def zero : Settings :=
  { version := 0, translatedRoot := [], piecesRoot := [], extension := [], indexName := [], packageName := []
    docTag := [], importMarker := [], exportMarker := [], ambient := [], backup := false, keepBackups := 0
    debounceMs := 0, ignorePatterns := [], jobs := 0, logLevel := [], logFile := [] }

def get (s : Settings) : Setting → Setting.Value
  | .version => .int s.version
  | .jobs => .int s.jobs
  | .translatedRoot => .text s.translatedRoot
  | .piecesRoot => .text s.piecesRoot
  | .extension => .text s.extension
  | .indexName => .text s.indexName
  | .packageName => .text s.packageName
  | .docTag => .text s.docTag
  | .importMarker => .text s.importMarker
  | .exportMarker => .text s.exportMarker
  | .ambient => .texts s.ambient
  | .backup => .bool s.backup
  | .keepBackups => .int s.keepBackups
  | .debounceMs => .int s.debounceMs
  | .ignorePatterns => .texts s.ignorePatterns
  | .logLevel => .text s.logLevel
  | .logFile => .text s.logFile

/-- Gives a setting a value; one of another kind changes nothing. -/
def set (s : Settings) : Setting → Setting.Value → Settings
  | .version, .int i => { s with version := i }
  | .jobs, .int i => { s with jobs := i }
  | .translatedRoot, .text t => { s with translatedRoot := t }
  | .piecesRoot, .text t => { s with piecesRoot := t }
  | .extension, .text t => { s with extension := t }
  | .indexName, .text t => { s with indexName := t }
  | .packageName, .text t => { s with packageName := t }
  | .docTag, .text t => { s with docTag := t }
  | .importMarker, .text t => { s with importMarker := t }
  | .exportMarker, .text t => { s with exportMarker := t }
  | .ambient, .texts ts => { s with ambient := ts }
  | .backup, .bool b => { s with backup := b }
  | .keepBackups, .int i => { s with keepBackups := i }
  | .debounceMs, .int i => { s with debounceMs := i }
  | .ignorePatterns, .texts ts => { s with ignorePatterns := ts }
  | .logLevel, .text t => { s with logLevel := t }
  | .logFile, .text t => { s with logFile := t }
  | _, _ => s

def extensions : List Text := [".d.ts", ".d.mts", ".d.cts", ".ts", ".mts", ".cts"]

def levels : List Text := ["debug", "info", "warn", "warning", "error"]

def isBlank (t : Text) : Bool := t.trim.isEmpty

/-- What is wrong with the settings, in the order in which it is looked for: the setting and the reason. -/
def objections (s : Settings) : List (Setting × Text) :=
  let when (b : Bool) (k : Setting) (reason : Text) : List (Setting × Text) := if b then [(k, reason)] else []
  let empty : Text := "must not be empty"
  let negative : Text := "must not be negative"
  let quote (what t : Text) : Text := what ++ " " ++ t.quoted
  when (s.version ≠ 1) .version ("unsupported config version " ++ Text.ofInt s.version)
    ++ when (isBlank s.translatedRoot) .translatedRoot empty
    ++ when (isBlank s.piecesRoot) .piecesRoot empty
    ++ when (Path.clean s.translatedRoot = Path.clean s.piecesRoot) .piecesRoot "must differ from roots.translated"
    ++ when (!extensions.contains s.extension) .extension (quote "unsupported extension" s.extension)
    ++ when s.indexName.isEmpty .indexName empty
    ++ when s.packageName.isEmpty .packageName empty
    ++ when (isBlank s.importMarker) .importMarker empty
    ++ when (isBlank s.exportMarker) .exportMarker empty
    ++ when (s.importMarker = s.exportMarker) .exportMarker "must differ from pieces.importMarker"
    ++ when (s.keepBackups < 0) .keepBackups negative
    ++ when (s.debounceMs < 0) .debounceMs negative
    ++ when (s.jobs < 0) .jobs negative
    ++ when (!levels.contains s.logLevel.lower) .logLevel (quote "unknown level" s.logLevel)

/-- Settings are allowed if nothing is wrong with them; else the first objection is reported. -/
def validate (s : Settings) : Except Fault Unit :=
  match s.objections with
  | [] => .ok ()
  | (k, reason) :: _ => .error (.setting k.title reason)

/-- How the pieces of the project at `root` are addressed. -/
def options (s : Settings) (root : Path) : Options :=
  { translatedRoot := Path.resolve root s.translatedRoot
    piecesRoot := Path.resolve root s.piecesRoot
    extension := s.extension
    indexName := s.indexName
    packageName := s.packageName
    docTag := s.docTag
    importMarker := s.importMarker
    exportMarker := s.exportMarker }

def ambientFiles (s : Settings) (root : Path) : List Path := s.ambient.map (Path.resolve root)

def watching (s : Settings) : Watch.Settings :=
  { debounceMs := s.debounceMs, ignorePatterns := s.ignorePatterns, indexFile := s.indexName ++ s.extension }

end Settings

end DeclPieces
