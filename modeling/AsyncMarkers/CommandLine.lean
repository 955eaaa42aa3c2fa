import AsyncMarkers.Batch
import AsyncMarkers.Config.File

/-!
# The command line

Two paths, an input and an output, and options that may stand anywhere between them. Arguments are
read from left to right, and the first one that is wrong ends it. A file is transformed into a file,
a directory into a directory.
-/

namespace AsyncMarkers.CommandLine

/-- The options that take a value. -/
inductive Setting where
  | config
  | binding
  | marker
  | pattern
deriving DecidableEq

/-- The name of the option. -/
def Setting.name : Setting → String
  | .config => "config"
  | .binding => "runtime-binding"
  | .marker => "marker"
  | .pattern => "pattern"

/-- The option of a name, if there is one. -/
def Setting.ofName? : String → Option Setting := byName? [.config, .binding, .marker, .pattern] name

/-- The options that take none. -/
inductive Switch where
  /-- Transform every file, whatever its name. -/
  | force
  /-- Write all outputs into one directory. -/
  | flat
  /-- Copy files before they are overwritten. -/
  | backup
  /-- Tell more, and show the statistics. -/
  | debug
deriving DecidableEq

/-- The name of the option. -/
def Switch.name : Switch → String
  | .force => "force"
  | .flat => "no-preserve-structure"
  | .backup => "backup"
  | .debug => "debug"

/-- The option of a name, if there is one. -/
def Switch.ofName? : String → Option Switch := byName? [.force, .flat, .backup, .debug] name

/-! ### Arguments -/

/-- The arguments that have been read. -/
structure Arguments where
  paths : List String := []
  settings : List (Setting × String) := []
  switches : List Switch := []
deriving DecidableEq

namespace Arguments

/-- The value of an option. -/
def setting? (a : Arguments) (s : Setting) : Option String := a.settings.lookup s

/-- Whether an option has been given. -/
def has (a : Arguments) (s : Switch) : Bool := a.switches.contains s

end Arguments

/-- How far the arguments have been read. -/
inductive Reading where
  | options (arguments : Arguments)
  /-- The value of an option is to follow. -/
  | value (arguments : Arguments) (of : Setting)
  /-- Only paths are to follow. -/
  | paths (arguments : Arguments)
  /-- The version is asked for. -/
  | version
  /-- An argument is wrong. -/
  | refused
deriving DecidableEq

namespace Reading

/-- Takes a path; there are two. -/
def path (state : Arguments → Reading) (a : Arguments) (arg : String) : Reading :=
  if a.paths.length < 2 then state { a with paths := a.paths ++ [arg] } else .refused

/-- Takes the value of an option, which can be given once. -/
def setting (a : Arguments) (s : Setting) (value : String) : Reading :=
  if (a.setting? s).isSome then .refused
  else .options { a with settings := a.settings ++ [(s, value)] }

/-- Takes an option without a value, which can be given once. -/
def switch (a : Arguments) (s : Switch) : Reading :=
  if a.has s then .refused else .options { a with switches := a.switches ++ [s] }

/-- Takes an option by its name, with a value if one stands behind an equals sign. -/
def named (a : Arguments) (name : String) (value : Option String) : Reading :=
  match Setting.ofName? name, Switch.ofName? name, value with
  | some s, _, some text => setting a s text
  | some s, _, none => .value a s
  | none, some s, none => switch a s
  | none, none, none => if name = "version" then .version else .refused
  | none, _, some _ => .refused

/-- Takes an option: two dashes and a name, or a dash and a letter. -/
def option (a : Arguments) : List Char → Reading
  | ['-', '-'] => .paths a
  | '-' :: '-' :: text =>
    match text.span (· ≠ '=') with
    | (name, _ :: text) => named a (String.ofList name) (some (String.ofList text))
    | (name, []) => named a (String.ofList name) none
  | '-' :: 'V' :: _ => .version
  | _ => .refused

/-- Whether an argument is an option: a dash by itself is none. -/
def isOption (arg : String) : Bool :=
  match arg.toList with
  | '-' :: _ :: _ => true
  | _ => false

/-- Takes an argument. -/
def step : Reading → String → Reading
  | .options a, arg => if isOption arg then option a arg.toList else path .options a arg
  | .value a s, arg => if isOption arg then .refused else setting a s arg
  | .paths a, arg => path .paths a arg
  | .version, _ => .version
  | .refused, _ => .refused

end Reading

/-- What the command line asks for. -/
inductive Invocation where
  | transform (input output : String) (arguments : Arguments)
  | version
  | refused
deriving DecidableEq

/-- Reads the arguments. -/
def parse (args : List String) : Invocation :=
  match args.foldl Reading.step (.options {}) with
  | .options a | .paths a =>
    match a.paths with
    | [input, output] => .transform input output a
    | _ => .refused
  | .value _ _ | .refused => .refused
  | .version => .version

/-! ### Running -/

/-- How a run has ended, and what it has written. -/
structure Outcome where
  code : Nat
  /-- What has been told on the way. -/
  log : List String := []
  output : List String := []
  errors : List String := []

/-- The configuration with the values that the command line gives. -/
def configure (a : Arguments) (c : Config) : Config :=
  { c with
    binding := (a.setting? .binding).getD c.binding
    marker := (a.setting? .marker).getD c.marker
    filePattern := (a.setting? .pattern).getD c.filePattern }

/-- The session that the command line asks for. -/
def session (a : Arguments) (c : Config) : Except ConfigError Session := do
  let s := (← Session.ofConfig (configure a c)).addMarkerRules
  return if a.has .force then { s with selector := .always } else s

/-- The batch that the command line asks for. -/
def batch (a : Arguments) : Batch where
  keepStructure := !a.has .flat
  backup := a.has .backup

/-- The lines that tell what has come of the files. -/
def summaryLines (s : BatchSummary) : List String :=
  ["Streamline v" ++ version,
    "Files: " ++ Nat.repr s.processed ++ " processed, " ++ Nat.repr s.transformed ++
      " transformed, " ++ Nat.repr s.skipped ++ " skipped",
    "Rewrites: " ++ Nat.repr s.counts.functions ++ " functions, " ++ Nat.repr s.counts.calls ++
      " calls, " ++ Nat.repr s.counts.receivers ++ " array receivers"]

/-- The lines that show the statistics, in the order of the rules' names. -/
def statisticsLines (s : Statistics) : List String :=
  (s.mergeSort fun a b => decide (a.1 ≤ b.1)).map fun (name, stats) =>
    "  " ++ name ++ ": " ++ Nat.repr stats.applications ++ " applied, " ++
      Nat.repr stats.transformations ++ " rewrites, " ++ Nat.repr stats.errors ++ " errors"

/-- The lines that tell what has happened; changes to single nodes are told on demand only. -/
def logLines (a : Arguments) (events : List Event) : List String :=
  (events.filter fun e => a.has .debug || e.level ≠ .debug).map Event.line

/-- The end of a run that has failed. -/
def failure (a : Arguments) (message : String) (events : List Event) : Outcome where
  code := 1
  log := logLines a events
  errors := ["Error: " ++ message]

/-- The end of a run that has got through, though not every file need have. -/
def finished (a : Arguments) (s : BatchSummary) (g : Progress) : Outcome where
  code := if s.success then 0 else 1
  log := logLines a g.events
  output := summaryLines s ++ if a.has .debug then statisticsLines g.session.statistics else []
  errors := s.errors.map ("error: " ++ ·) ++
    if s.success then []
    else ["Error: " ++ Nat.repr s.errors.length ++ " file(s) could not be transformed"]

variable {m : Type → Type} [Monad m]

/-- The configuration file that the command line names, or the default configuration. -/
def loadConfig (fs : FileSystem m) (a : Arguments) : m (Except String Config) := do
  match a.setting? .config with
  | none => return .ok {}
  | some path =>
    match ← Config.load fs (.ofText path) with
    | .ok config => return .ok config
    | .error _ => return .error ("loading config " ++ path)

/-- Transforms a file or a directory. -/
def transform (fs : FileSystem m) (input output : Path) (a : Arguments) : m Outcome := do
  match ← loadConfig fs a with
  | .error message => return failure a message []
  | .ok config =>
    match session a config with
    | .error e => return failure a e.message []
    | .ok session =>
      let run :=
        if ← fs.isDirectory input then (batch a).transformDirectory fs
        else (batch a).transformFile fs
      match ← run input output { session } with
      | (.ok summary, g) => return finished a summary g
      | (.error e, g) => return failure a e.message g.events

/-- What is written if an argument is wrong. -/
def usage : List String :=
  ["error: invalid arguments", "", "Usage: streamline [OPTIONS] <INPUT> <OUTPUT>"]

/-- Does what the command line asks for. -/
def run (fs : FileSystem m) (args : List String) : m Outcome :=
  match parse args with
  | .refused => return { code := 2, errors := usage }
  | .version => return { code := 0, output := ["streamline " ++ version] }
  | .transform input output a => transform fs (.ofText input) (.ofText output) a

end AsyncMarkers.CommandLine
