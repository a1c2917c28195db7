import DeclPieces.CommandLine.Flag

/-! The commands of the program: their names, flags, operands and descriptions. -/
namespace DeclPieces.CommandLine

/-- How many operands a command takes. -/
inductive Arity where
  | any
  | none
  | exactly (n : Nat)
  | atMost (n : Nat)
  deriving DecidableEq, Repr

/-- What a command does. -/
inductive Task where
  | split
  | merge
  | plan
  | status
  | restore
  | watch
  | createSettings
  | checkSettings
  | showSettings
  | explain
  deriving DecidableEq, Repr

structure Command where
  /-- The words that name the command; the program itself has none. -/
  path : List Text
  /-- How its operands are shown. -/
  operands : Text := []
  short : Text
  long : Text := []
  flags : List Flag := []
  /-- The operands it takes, if it says so. -/
  arity : Option Arity := none
  /-- What it does; one without a task only groups others. -/
  task : Option Task := none
  deriving DecidableEq, Repr

namespace Command

def program : Text := "dtsplit"

def name (c : Command) : Text := c.path.getLastD program

/-- The name with those of the commands around it. -/
def fullName (c : Command) : Text := Text.joinWith " " (program :: c.path)

def isProgram (c : Command) : Bool := c.path.isEmpty

end Command

/-- The flags of every command. -/
def globalFlags : List Flag :=
  [{ name := "jobs", kind := .int, usage := "Files processed in parallel (default: config jobs)" },
    { name := "project", kind := .text, usage := "Project root (default: current directory)" },
    { name := "quiet", short := some 113, kind := .bool, usage := "Suppress all log output" },
    { name := "verbose", short := some 118, kind := .count, usage := "Increase log verbosity (-v info, -vv debug)" }]

def helpFlag (c : Command) : Flag :=
  { name := "help", short := some 104, kind := .bool, usage := "help for " ++ c.name }

def versionFlag : Flag := { name := "version", kind := .bool, usage := "version for dtsplit" }

def formatFlag (forms initial : Text) : Flag :=
  { name := "format", kind := .text, usage := "Output format (" ++ forms ++ ")", initial := initial }

def lines (ls : List String) : Text := Text.joinWith "\n" (ls.map Text.ofString)

def theProgram : Command where
  path := []
  short := "Split declaration files into one file per declaration and merge them back"
  long := lines
    ["dtsplit decomposes large TypeScript declaration files into one piece per",
      "top-level declaration, with explicit imports for every cross reference and a",
      "generated index re-exporting the original names. Edited pieces are merged back",
      "into the original file without re-parsing them.",
      "",
      "Configuration is read from .dtsplit/config.\x7btoml,json,yaml\x7d in the project root."]

def configGroup : Command where
  path := ["config"]
  short := "Manage dtsplit configuration"
  long := "Create, check and view the configuration stored in .dtsplit/config.toml"

def configInit : Command where
  path := ["config", "init"]
  short := "Write a configuration file with the default settings"
  flags := [{ name := "force", kind := .bool, usage := "Overwrite an existing config file" }]
  arity := some .none
  task := some .createSettings

def configCheck : Command where
  path := ["config", "check"]
  operands := "[file]"
  short := "Check a TOML configuration file for unknown keys and invalid values"
  arity := some (.atMost 1)
  task := some .checkSettings

def configShow : Command where
  path := ["config", "show"]
  short := "Show the effective configuration"
  long := lines
    ["Display the configuration after defaults, the config file and DTSPLIT_*",
      "environment overrides are applied.",
      "",
      "Examples:",
      "  dtsplit config show                  # YAML",
      "  dtsplit config show --format json    # JSON"]
  flags := [formatFlag "json, yaml" "yaml"]
  arity := some .none
  task := some .showSettings

def noBackupFlag : Flag :=
  { name := "no-backup", kind := .bool, usage := "Do not back up the previous file content" }

def mergeCommand : Command where
  path := ["merge"]
  operands := "[files...]"
  short := "Merge edited pieces back into their declaration files"
  long := lines
    ["Merge the pieces of each declaration file back into it.",
      "",
      "Each piece replaces the source range it was split from, minus its synthesized",
      "import and export lines. A missing piece leaves its range untouched. The",
      "previous file content is backed up under .dtsplit/backups unless --no-backup",
      "is given or merge.backup is false.",
      "",
      "A file that changed since it was last split is refused; split it again first.",
      "After writing, the file is split again so its pieces match the new text.",
      "",
      "Examples:",
      "  dtsplit merge                          # Merge every file",
      "  dtsplit merge --dry-run api.d.ts       # Show the diff without writing"]
  flags :=
    [{ name := "dry-run", kind := .bool, usage := "Print a unified diff instead of writing" }, noBackupFlag]
  task := some .merge

def planCommand : Command where
  path := ["plan"]
  operands := "<file>"
  short := "Show how a declaration file would be split"
  long := lines
    ["Parse a declaration file and print its decomposition without writing",
      "anything: every piece path, the declaration it holds, its byte range and the",
      "names it imports.",
      "",
      "Examples:",
      "  dtsplit plan translated/api.d.ts",
      "  dtsplit plan translated/api.d.ts --format yaml"]
  flags := [formatFlag "json, yaml, human" "human"]
  arity := some (.exactly 1)
  task := some .plan

def restoreCommand : Command where
  path := ["restore"]
  operands := "<file>"
  short := "Restore a declaration file from its most recent backup"
  long := lines
    ["Replace a declaration file with the content it had before the last merge",
      "that rewrote it. Backups are kept under .dtsplit/backups."]
  arity := some (.exactly 1)
  task := some .restore

def splitCommand : Command where
  path := ["split"]
  operands := "[files...]"
  short := "Split declaration files into pieces"
  long := lines
    ["Split each declaration file into one piece per top-level declaration.",
      "",
      "Pieces are written under the pieces root, mirroring the file's location under",
      "the translated root. Without arguments every declaration file under the",
      "translated root is split.",
      "",
      "Examples:",
      "  dtsplit split                          # Split every file",
      "  dtsplit split translated/api.d.ts      # Split one file",
      "  dtsplit split --jobs 8                 # Split up to 8 files at once",
      "  dtsplit split --force api.d.ts         # Discard unmerged piece edits"]
  flags := [{ name := "force", kind := .bool, usage := "Overwrite pieces edited since the last split" }]
  task := some .split

def statusCommand : Command where
  path := ["status"]
  operands := "<file>"
  short := "Show which pieces were edited since the last split"
  long := lines
    ["Compare the pieces of a declaration file with the hashes recorded when",
      "it was last split. Each piece is reported as unchanged, edited or missing.",
      "",
      "Examples:",
      "  dtsplit status translated/api.d.ts",
      "  dtsplit status translated/api.d.ts --format json"]
  flags := [formatFlag "json, yaml, human" "human"]
  arity := some (.exactly 1)
  task := some .status

def watchCommand : Command where
  path := ["watch"]
  operands := "[files...]"
  short := "Merge pieces back whenever they are edited"
  long := lines
    ["Watch the piece directories of the given declaration files (or of every",
      "declaration file under the translated root) and merge a file as soon as its",
      "pieces stop changing for watch.debounceMs milliseconds. Each merged file is",
      "split again right away, so later edits apply to the merged text.",
      "",
      "Files that were never split are skipped. Stop with Ctrl-C."]
  flags := [noBackupFlag]
  task := some .watch

def helpCommand : Command where
  path := ["help"]
  operands := "[command]"
  short := "Help about any command"
  long := lines
    ["Help provides help for any command in the application.",
      "Simply type dtsplit help [path to command] for full details."]
  task := some .explain

def completionGroup : Command where
  path := ["completion"]
  short := "Generate the autocompletion script for the specified shell"
  long := lines
    ["Generate the autocompletion script for dtsplit for the specified shell.",
      "See each sub-command's help for details on how to use the generated script."]

/-- A shell for which there is a completion script. -/
def completionFor (shell : Text) : Command where
  path := ["completion", shell]
  short := "Generate the autocompletion script for " ++ shell

/-- All commands, in the order in which they are looked through. -/
def commands : List Command :=
  [theProgram, configGroup, configInit, configCheck, configShow, mergeCommand, planCommand, restoreCommand, splitCommand,
    statusCommand, watchCommand, helpCommand, completionGroup, completionFor "bash", completionFor "zsh",
    completionFor "fish", completionFor "powershell"]

namespace Command

/-- The commands directly below one. -/
def children (c : Command) : List Command :=
  commands.filter fun d => !d.isProgram && d.path.dropLast = c.path

/-- The flags known before help is asked for. -/
def declared (c : Command) : List Flag := c.flags ++ globalFlags

/-- The flags of a command itself, by name. -/
def localFlags (c : Command) : List Flag :=
  let own := helpFlag c :: c.flags ++ if c.isProgram then versionFlag :: globalFlags else []
  own.stableSort fun a b => Text.le a.name b.name

/-- The flags that a command has from the program. -/
def inheritedFlags (c : Command) : List Flag := if c.isProgram then [] else globalFlags

end Command

end DeclPieces.CommandLine
