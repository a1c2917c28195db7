import DeclPieces.Data.Json
import DeclPieces.Data.Toml.Document
import DeclPieces.Data.Yaml
import DeclPieces.Settings.Reader
import DeclPieces.Workspace.Key

/-! Loading the settings of a project: its file over the defaults, and the environment over both. -/
namespace DeclPieces

/-- The variables of an environment. -/
abbrev Environment := List (Text × Text)

mutual
/-- The value with all names in lower case. -/
def Data.lowered : Data → Data
  | .list items => .list (loweredItems items)
  | .table members => .table (loweredMembers members)
  | d => d

def loweredItems : List Data → List Data
  | [] => []
  | d :: rest => d.lowered :: loweredItems rest

def loweredMembers : List (Text × Data) → List (Text × Data)
  | [] => []
  | (k, d) :: rest => (k.lower, d.lowered) :: loweredMembers rest
end

namespace Settings

/-- The forms in which a file of settings can be written, in the order in which they are looked for. -/
inductive Form where
  | json
  | toml
  | yaml
  | yml
  deriving DecidableEq, Repr

namespace Form

def all : List Form := [json, toml, yaml, yml]

def fileName : Form → Text
  | json => "config.json"
  | toml => "config.toml"
  | yaml => "config.yaml"
  | yml => "config.yml"

/-- The members of the table that a text is; one that holds nothing has none. -/
def members? (f : Form) (t : Text) : Option (List (Text × Data)) :=
  let data? := match f with
    | json => Json.read? t
    | toml => (Toml.read? .first t).bind Toml.document?
    | yaml | yml => Yaml.read? t
  match data? with
  | some (.table members) => some members
  | some .null => some []
  | _ => none

end Form

/-- The first file of settings that a project has. -/
def find? (isFile : Path → Bool) (root : Path) : Option (Form × Path) :=
  (Form.all.map fun f => (f, Path.join (Project.stateDir root) f.fileName)).find? fun (_, p) => isFile p

/-- The variable that stands for a setting or table. -/
def variable_ (names : List Text) : Text :=
  Text.joinWith "_" ("DTSPLIT" :: names.map fun n => n.map fun b => if 97 ≤ b && b ≤ 122 then b - 32 else b)

/-- All variables that can have a say. -/
def allVariables : List Text :=
  Setting.sections.map (fun name => variable_ [name]) ++
    Setting.all.map fun s => variable_ (if s.section_.isEmpty then [s.name] else [s.section_, s.name])

/-- The value of a variable, unless it is empty. -/
def fromEnvironment? (env : Environment) (names : List Text) : Option Text :=
  (env.lookup (variable_ names)).filter (!·.isEmpty)

def present? : Option Data → Option Data
  | some .null => none
  | d => d

/-- What a file, its names in lower case, says about a setting. A name may be written with its table. -/
def fromFile? (members : List (Text × Data)) (s : Setting) : Option Data :=
  let name := s.name.lower
  if s.section_.isEmpty then present? (members.lookup name)
  else
    (present? (members.lookup (s.section_ ++ "." ++ name))).or <|
      match members.lookup s.section_ with
      | some (.table inner) => present? (inner.lookup name)
      | _ => none

/-- Where the value of a setting comes from. -/
inductive Origin where
  | given (d : Data)
  | default
  /-- Hidden by a variable for its whole table. -/
  | hidden

/-- The source of a setting: a variable of its own, then the file, then the default. -/
def origin (env : Environment) (members : List (Text × Data)) (s : Setting) : Origin :=
  if s.section_.isEmpty then
    match fromEnvironment? env [s.name] with
    | some t => .given (.text t)
    | none => ((fromFile? members s).map .given).getD .default
  else match fromEnvironment? env [s.section_, s.name] with
    | some t => .given (.text t)
    | none =>
      if (fromEnvironment? env [s.section_]).isSome then .hidden
      else ((fromFile? members s).map .given).getD .default

/-- What a file has in place of a whole table, if that is no table. -/
def replacement? (members : List (Text × Data)) (s : Setting) : Option Data :=
  if s.section_.isEmpty then none
  else match members.lookup s.section_ with
    | some (.table _) => none
    | d => d

/-- Reads one setting into `r`. A table given as a moment has no members; given as nothing it keeps
the defaults; given as any other value it cannot be read. -/
def readSetting? (env : Environment) (members : List (Text × Data)) (r : Settings) (s : Setting) :
    Option Settings :=
  let keep := some (r.set s (Settings.get {} s))
  match replacement? members s with
  | some d =>
    if (fromEnvironment? env [s.section_]).isSome then none
    else match d with
      | .null => keep
      | .moment _ => some r
      | _ => none
  | none => match origin env members s with
    | .given d => (Setting.loose.value? s d).map (r.set s)
    | .default => keep
    | .hidden => some r

/-- The settings that a file and an environment give. -/
def read? (env : Environment) (members : List (Text × Data)) : Option Settings :=
  Setting.all.foldlM (readSetting? env (loweredMembers members)) zero

/-- Settings with the file they come from, empty if there is none. -/
structure Loaded where
  settings : Settings
  file : Path

/-- Loads the settings of a project. -/
def load (isFile : Path → Bool) (content : Path → Text) (env : Environment) (root : Path) : Except Fault Loaded := do
  let (members, file) ← match find? isFile root with
    | none => .ok (([] : List (Text × Data)), ([] : Path))
    | some (form, path) => match form.members? (content path) with
      | some members => .ok (members, path)
      | none => .error (.coded Code.configInvalid "reading config" [])
  match read? env members with
  | none => .error (.coded Code.configInvalid "decoding config" file)
  | some settings => match settings.validate with
    | .ok () => .ok ⟨settings, file⟩
    | .error e => .error (.caused Code.configInvalid "invalid configuration" file e)

end Settings

end DeclPieces
