import ProtocolPages.Command.Options
import ProtocolPages.Output.Generate
import ProtocolPages.Schema.Node
import ProtocolPages.Settings.File

/-!
# Running the command

The command reads its settings, then takes the trees one after another: it reads a tree and writes
the documents of its protocols before it turns to the next one. One counter numbers the nameless
protocols of all trees. An expected failure ends the command with a message and the exit code one.
That there is no output folder is noticed when the first tree has been read.
-/

namespace ProtocolPages.Command

/-- The lines that show how the command is used. -/
def usage : String :=
  "usage: ddldoc [-h] [-o OUTPUT] [--config CONFIG] [-v | -q] [--version]\n" ++
  "              trees [trees ...]\n"

/-- The help text. -/
def helpText : String :=
  usage ++ "\n" ++
  "Generate Markdown protocol documentation from DDL parse trees\n" ++
  "\n" ++
  "positional arguments:\n" ++
  "  trees                 Parse tree JSON file(s)\n" ++
  "\n" ++
  "options:\n" ++
  "  -h, --help            show this help message and exit\n" ++
  "  -o OUTPUT, --output OUTPUT\n" ++
  "                        Output directory (default: docs)\n" ++
  "  --config CONFIG       TOML configuration file\n" ++
  "  -v, --verbose         Show debug output\n" ++
  "  -q, --quiet           Only show warnings\n" ++
  "  --version             show program's version number and exit\n"

/-- The line that shows the version. -/
def versionText : String := "ddldoc 0.1.0\n"

/-- The line that shows an error. -/
def errorLine (message : String) : String :=
  "ddldoc: error: " ++ message ++ "\n"

/-- The level from which log records are shown. -/
def Options.threshold (options : Options) : Level :=
  if options.verbose then .debug else if options.quiet then .warning else .info

/-- The state of a command between two trees. -/
structure Progress where
  /-- The disk. -/
  disk : Disk
  /-- The counter of nameless protocols. -/
  counter : Int
  /-- What was reported so far. -/
  log : Log
  /-- Why the command ended early, if it did. -/
  failure : Option Failure

/-- Read the tree at a path. -/
def loadTree (disk : Disk) (path : Path) : Log × Except Failure Schema :=
  match disk.readText path with
  | .error failure => ([], .error failure)
  | .ok text => Schema.loadText text

/-- Read a tree and write its documents. The command is a process of its own, so the default
settings are active; it hands over those that it has read. -/
def processTree (settings : Settings) (folder : Option Path) (p : Progress) (tree : Path) :
    Progress :=
  match loadTree p.disk tree, folder with
  | (log, .error failure), _ => { p with log := p.log ++ log, failure := some failure }
  | (log, .ok _), none => { p with log := p.log ++ log, failure := some .noFolder }
  | (log, .ok schema), some folder =>
    let walk := generate {} (some settings) .disk p.disk folder p.counter schema
    ⟨walk.state.store, walk.counter, p.log ++ log ++ walk.log, walk.failure⟩

/-- Take trees one after another, up to the first failure. -/
def processTrees (settings : Settings) (folder : Option Path) (p : Progress) :
    List Path → Progress
  | [] => p
  | tree :: rest =>
    let next := processTree settings folder p tree
    match next.failure with
    | some _ => next
    | none => processTrees settings folder next rest

/-- Read the settings that are asked for. -/
def chooseSettings (disk : Disk) (options : Options) : Except Failure Settings :=
  match options.config with
  | some path => Settings.load disk (.ofString path)
  | none => .ok {}

/-- Generate documents as asked for. -/
def process (disk : Disk) (options : Options) : Progress :=
  match chooseSettings disk options with
  | .error failure => ⟨disk, 0, [], some failure⟩
  | .ok settings =>
    processTrees settings (options.output.map Path.ofString) ⟨disk, 0, [], none⟩
      (options.trees.map Path.ofString)

/-- The outcome of the command. -/
structure Outcome where
  /-- The exit code, or the unexpected failure that broke the command off. -/
  exit : Except Failure Nat
  /-- What was printed. -/
  stdout : String
  /-- What was printed as log and error messages. -/
  stderr : String
  /-- The disk afterwards. -/
  disk : Disk

/-- Finish a command: an expected failure is shown, an unexpected one breaks the command off. -/
def Progress.finish (p : Progress) (threshold : Level) : Outcome :=
  let lines := p.log.lines threshold
  match p.failure with
  | none => ⟨.ok 0, "", lines, p.disk⟩
  | some failure =>
    match failure.message? with
    | some message => ⟨.ok 1, "", lines ++ errorLine message, p.disk⟩
    | none => ⟨.error failure, "", lines, p.disk⟩

/-- Run the command. -/
def run (args : List String) (disk : Disk) : Outcome :=
  match parse args with
  | .help => ⟨.ok 0, helpText, "", disk⟩
  | .version => ⟨.ok 0, versionText, "", disk⟩
  | .usageError message => ⟨.ok 2, "", usage ++ errorLine message, disk⟩
  | .run options => (process disk options).finish options.threshold

end ProtocolPages.Command
