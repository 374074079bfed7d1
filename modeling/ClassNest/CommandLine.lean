import ClassNest.Batch.Json
import ClassNest.Forest.Json
import ClassNest.Forest.Render
import ClassNest.Session

/-!
# The command line

`classgraph-dump` reads a batch, rebuilds its forest and prints it. This module holds all of it but the reading
and writing of files: what the arguments ask for, and what is printed for the content of the files.
-/
namespace ClassNest.CommandLine

/-! ## Options -/

inductive Format where
  | tree | json
deriving DecidableEq

structure Options where
  batch : String
  config : Option String := none
  preset : String := "structure"
  format : Format := .tree
  threads : Option Nat := none
deriving DecidableEq

/-- What the arguments ask for. -/
inductive Request where
  | run (o : Options)
  | help
  /-- the arguments make no sense -/
  | usage
deriving DecidableEq

/-- The options that take a value. -/
inductive Valued where
  | config | preset | format | threads
deriving DecidableEq

/-- The options given so far. -/
structure Given where
  batch : Option String := none
  config : Option String := none
  preset : Option String := none
  format : Option Format := none
  threads : Option Nat := none

/-- A count below two to the sixty-fourth, with or without a plus in front. -/
def count? (s : String) : Option Nat :=
  let digits := match s.toList with
    | '+' :: cs => cs
    | cs => cs
  if digits.isEmpty || !digits.all Char.isDigit then none
  else (some (Json.natOfDigits digits)).filter (· < 0x10000000000000000)

namespace Given

/-- Sets an option that has not been set; its value must make sense. -/
def set (g : Given) (option : Valued) (value : String) : Option Given :=
  match option with
  | .config => if g.config.isNone && value != "" then some { g with config := some value } else none
  | .preset => if g.preset.isNone then some { g with preset := some value } else none
  | .format =>
    if g.format.isSome then none
    else if value == "tree" then some { g with format := some .tree }
    else if value == "json" then some { g with format := some .json }
    else none
  | .threads =>
    if g.threads.isSome then none else (count? value).map fun n => { g with threads := some n }

/-- An argument that is no option: only the batch is asked for. -/
def addOperand (g : Given) (value : String) : Option Given :=
  if g.batch.isNone && value != "" then some { g with batch := some value } else none

/-- The request, once all arguments have been read. -/
def request (g : Given) : Request :=
  match g.batch with
  | none => .usage
  | some batch =>
    .run { batch := batch, config := g.config, preset := g.preset.getD "structure",
           format := g.format.getD .tree, threads := g.threads }

end Given

/-! ## Arguments -/

def longOption? (name : String) : Option Valued :=
  [("config", Valued.config), ("preset", .preset), ("format", .format), ("threads", .threads)].lookup name

def shortOption? (c : Char) : Option Valued :=
  [('c', Valued.config), ('p', .preset), ('f', .format), ('j', .threads)].lookup c

/-- One argument as it is written. -/
inductive Arg where
  /-- `--`: no option comes after it -/
  | separator
  | operand (value : String)
  | long (name : String) (value : Option String)
  /-- one or more short options, the last of which may have its value attached -/
  | short (cluster : List Char)
deriving DecidableEq

def Arg.ofText (s : String) : Arg :=
  match s.toList with
  | ['-', '-'] => .separator
  | '-' :: '-' :: cs =>
    let name := String.ofList (cs.takeWhile (· != '='))
    match cs.dropWhile (· != '=') with
    | _ :: value => .long name (some (String.ofList value))
    | [] => .long name none
  | '-' :: c :: cs => .short (c :: cs)
  | _ => .operand s

/-- What a group of short options means. -/
inductive Cluster where
  /-- only switches -/
  | switches
  | help
  /-- an option with the value attached to it, if there is one -/
  | valued (option : Valued) (value : Option String)
  | unknown

/-- The switches of a group are passed over up to an option with a value. -/
def Cluster.ofChars : List Char → Cluster
  | [] => .switches
  | c :: cs =>
    if c == 'v' then ofChars cs
    else if c == 'h' then .help
    else
      match shortOption? c, cs with
      | some option, [] => .valued option none
      | some option, '=' :: cs => .valued option (some (String.ofList cs))
      | some option, cs => .valued option (some (String.ofList cs))
      | none, _ => .unknown

/-- How far the arguments have been read. -/
inductive Progress where
  | reading (g : Given)
  /-- the value of the option comes next -/
  | waiting (g : Given) (option : Valued)
  /-- there are only operands left -/
  | operands (g : Given)
  | ended (r : Request)

namespace Progress

/-- Goes on if a value made sense. -/
def resume (f : Given → Progress) : Option Given → Progress
  | some g => f g
  | none => .ended .usage

/-- An option, with its value if that is part of the same argument. -/
def takeOption (g : Given) (option : Valued) : Option String → Progress
  | some value => resume .reading (g.set option value)
  | none => .waiting g option

def takeLong (g : Given) (name : String) (value : Option String) : Progress :=
  match longOption? name with
  | some option => takeOption g option value
  | none =>
    if value.isSome then .ended .usage
    else if name == "verbose" then .reading g
    else if name == "help" then .ended .help
    else .ended .usage

def takeShort (g : Given) (cluster : List Char) : Progress :=
  match Cluster.ofChars cluster with
  | .switches => .reading g
  | .help => .ended .help
  | .valued option value => takeOption g option value
  | .unknown => .ended .usage

/-- One argument. Anything that looks like an option is not the value of another one. -/
def step (p : Progress) (a : String) : Progress :=
  match p, Arg.ofText a with
  | .reading g, .operand value => resume .reading (g.addOperand value)
  | .reading g, .separator => .operands g
  | .reading g, .long name value => takeLong g name value
  | .reading g, .short cluster => takeShort g cluster
  | .waiting g option, .operand value => resume .reading (g.set option value)
  | .waiting .., _ => .ended .usage
  | .operands g, _ => resume .operands (g.addOperand a)
  | .ended r, _ => .ended r

/-- The request, once all arguments have been read. -/
def request : Progress → Request
  | .reading g | .operands g => g.request
  | .waiting .. => .usage
  | .ended r => r

end Progress

/-- What the arguments ask for. -/
def parse (args : List String) : Request := (args.foldl Progress.step (.reading {})).request

/-- What `--help` prints. -/
def helpText : String :=
  String.join ([
    "Rebuild and print the nested-class forest of a class batch",
    "",
    "Usage: classgraph-dump [OPTIONS] <BATCH>",
    "",
    "Arguments:",
    "  <BATCH>  JSON class batch (classes, corrupted, call_sites)",
    "",
    "Options:",
    "  -c, --config <CONFIG>    YAML configuration file (version 1)",
    "  -p, --preset <PRESET>    Preset used when no config file is given [default: structure]",
    "  -f, --format <FORMAT>    Output format [default: tree] [possible values: tree, json]",
    "  -j, --threads <THREADS>  Worker threads (overrides the config)",
    "  -v, --verbose...         Verbosity (-v info, -vv debug)",
    "  -h, --help               Print help"].map (· ++ "\n"))

/-! ## Running -/

/-- Why nothing was printed. -/
inductive Stop where
  | settings (fault : SettingsFault)
  | fault (fault : Fault)
deriving DecidableEq

def Stop.message : Stop → String
  | .settings f => f.message
  | .fault f => f.text

/-- What is printed: the forest, and the lines of the summary. -/
structure Printed where
  out : String
  summary : List String
deriving DecidableEq

/-- The files that can be read, by name. -/
abbrev Files := String → Option String

/-- The settings: from the file if one is named, else from the preset, with the threads asked for. -/
def Options.settings (o : Options) (files : Files) : Except SettingsFault Settings := do
  let settings ← match o.config with
    | some path =>
      match files path with
      | some content => Settings.ofText content
      | none => .error .io
    | none => (Preset.ofName o.preset).map Settings.ofPreset
  let settings := match o.threads with
    | some n => { settings with threads := { settings.threads with count := some n } }
    | none => settings
  settings.validate
  return settings

/-- The batch in the file that the options name. -/
def Options.readBatch (o : Options) (files : Files) : Except Fault Batch :=
  match files o.batch with
  | none => .error ⟨.reported .io "cannot read the batch" true, none⟩
  | some content =>
    match Batch.ofText content with
    | some b => .ok b
    | none => .error ⟨.reported .serialization "malformed batch" true, none⟩

/-- The lines that sum up a run. -/
def summary (o : Outcome) : List String :=
  (toString o.forest.roots.length ++ " roots, " ++ toString o.forest.size ++ " nodes, " ++
    toString o.forest.unattached.length ++ " unattached, " ++ toString (Log.count o.log .warn) ++
    " warnings, " ++ toString o.failures.length ++ " failed units") ::
  o.failures.map fun f => "  failed: " ++ f.text

/-- The forest as it is printed. -/
def Format.print (format : Format) (f : Forest) : String :=
  match format with
  | .tree => f.render
  | .json => f.toJson.pretty ++ "\n"

/-- The whole program for one set of options: settings first, then the batch, then the run. -/
def Options.execute (o : Options) (files : Files) : Except Stop Printed := do
  let settings ← (o.settings files).mapError Stop.settings
  let batch ← (o.readBatch files).mapError Stop.fault
  let r ← ((Session.new settings).run batch).mapError Stop.fault
  return ⟨o.format.print r.1.forest, summary r.1⟩

end ClassNest.CommandLine
