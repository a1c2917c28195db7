import DeclPieces.Data.Toml.Document
import DeclPieces.Settings.Reader
import DeclPieces.Storage.Disk
import DeclPieces.Workspace.Key

/-! The file of settings that the program writes itself, and its strict check. -/
namespace DeclPieces.Settings

/-- The path of the file that is written for a project. -/
def filePath (root : Path) : Path := Path.join (Project.stateDir root) "config.toml"

def header : Text :=
  "# dtsplit configuration\n"
    ++ "# Environment variables prefixed with DTSPLIT_ override any key, e.g. DTSPLIT_LOGGING_LEVEL=debug.\n\n"

/-- Can the text stand between single quotes, where there are no escapes? -/
def isLiteral (t : Text) : Bool := t.all fun b => b ≠ 39 && (32 ≤ b || b = 9) && b ≠ 127

def upperHex (n : Nat) : UInt8 := UInt8.ofNat (if n < 10 then 48 + n else 55 + n)

def escaped (b : UInt8) : Text :=
  let letters : List (UInt8 × Char) := [(8, 'b'), (9, 't'), (10, 'n'), (12, 'f'), (13, 'r'), (34, '"'), (92, '\\')]
  match letters.lookup b with
  | some c => [92, Text.byte c]
  | none =>
    if b < 32 || b = 127 then "\\u00" ++ [upperHex (b.toNat / 16), upperHex (b.toNat % 16)] else [b]

def textLiteral (t : Text) : Text :=
  if isLiteral t then 39 :: t ++ [39] else 34 :: t.flatMap escaped ++ [34]

def valueLiteral : Setting.Value → Text
  | .int i => Text.ofInt i
  | .bool b => Text.ofBool b
  | .text t => textLiteral t
  | .texts ts => 91 :: Text.joinWith ", " (ts.map textLiteral) ++ [93]

/-- The lines of the settings of a table. -/
def sectionLines (s : Settings) (name : Text) : Text :=
  (Setting.all.filter fun k => k.section_ = name).flatMap fun k => k.name ++ " = " ++ valueLiteral (s.get k) ++ "\n"

def tableHeader (name : Text) : Text := "\n[" ++ name ++ "]\n"

/-- The text of a file with the given settings. -/
def fileText (s : Settings) : Text :=
  header ++ s.sectionLines [] ++ Setting.sections.flatMap fun name => tableHeader name ++ s.sectionLines name

/-- Writes the file of settings; one that exists is kept unless `force`. -/
def create (s : Settings) (root : Path) (force : Bool) (d : Disk) : Except Fault Disk := do
  let path := filePath root
  let d ← match d.makeDirs (Project.stateDir root) with
    | .ok d => pure d
    | .error e => throw (.note "creating state directory" e)
  if (d.look path).toOption.isSome && !force then
    throw (.coded Code.configInvalid "config file already exists (use --force to overwrite)" path)
  match d.write path s.fileText with
  | .ok d => return d
  | .error e => throw (.note "writing config" e)

/-! The check. -/

/-- Why a file cannot be used. -/
inductive Problem where
  /-- It is no TOML, or a value is of the wrong kind. -/
  | malformed
  | unreadable (fault : Fault)
  | rejected (fault : Fault)

def Problem.message : Problem → Text
  | malformed => "toml"
  | unreadable fault | rejected fault => fault.message

/-- What the check of a file finds. -/
structure Findings where
  path : Path
  /-- The keys that name no setting. -/
  unknown : List Text := []
  problem : Option Problem := none

namespace Findings

def count (f : Findings) : Nat := f.unknown.length + if f.problem.isSome then 1 else 0

def isClean (f : Findings) : Bool := f.count = 0

end Findings

def sameName (a b : Text) : Bool := a.lower = b.lower

def settingAt? (name : Text) (inner : Text) : Option Setting :=
  Setting.all.find? fun s => sameName s.section_ name && sameName s.name inner

def isSection (name : Text) : Bool := Setting.sections.any (sameName · name)

/-- Does the key name a setting or a table of settings? -/
def isKnown : Toml.Key → Bool
  | [name] => (settingAt? [] name).isSome || isSection name
  | [name, inner] => (settingAt? name inner).isSome
  | _ => false

/-- Reads the members of a table of settings. -/
def overlaySection? (section_ : Text) (s : Settings) (members : List (Text × Data)) : Option Settings :=
  members.foldlM (fun s (name, d) => match settingAt? section_ name with
    | some k => (Setting.strict.value? k d).map (s.set k)
    | none => some s) s

/-- Reads a document over `s`; every value must be of the kind of its setting. -/
def overlay? (s : Settings) (members : List (Text × Data)) : Option Settings :=
  members.foldlM (fun s (name, d) =>
    if isSection name then match d with
      | .table inner => overlaySection? name s inner
      | _ => none
    else overlaySection? [] s [(name, d)]) s

/-- The text of a key: a part that is not bare stands in quotes. -/
def keyText (key : Toml.Key) : Text :=
  let control (b : UInt8) : Text := match escaped b with
    | 92 :: 117 :: rest => 92 :: 117 :: Text.lower rest
    | t => t
  let part (t : Text) : Text :=
    if !t.isEmpty && t.all Toml.isBare then t else 34 :: t.flatMap control ++ [34]
  Text.joinWith "." (key.map part)

/-- Checks the text of a file at `path`. -/
def findings (path : Path) (t : Text) : Findings :=
  let t := if t.hasPrefix [0xEF, 0xBB, 0xBF] then t.drop 3 else t
  let entries := Toml.read? .second t
  let members := (entries.bind Toml.document?).bind fun d => match d with
    | .table members => some members
    | _ => none
  match members.bind (overlay? {}) with
  | none => { path, problem := some .malformed }
  | some s =>
    { path
      unknown := Text.sort (((Toml.keys [] (entries.getD [])).filter (!isKnown ·)).map keyText)
      problem := match s.validate with
        | .ok () => none
        | .error e => some (.rejected e) }

/-- Checks the file that `path` names in the directory `cwd`. -/
def check (cwd path : Path) (d : Disk) : Except Fault Findings :=
  match (d.place cwd path).bind d.look with
  | .error o => .error (.caused Code.configInvalid "config file not found" path (.access "stat" path o))
  | .ok .directory => .ok { path, problem := some (.unreadable (.access "read" path .isDirectory)) }
  | .ok (.file t) => .ok (findings path t)

end DeclPieces.Settings
