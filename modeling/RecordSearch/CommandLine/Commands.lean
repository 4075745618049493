import RecordSearch.CommandLine.Arguments
import RecordSearch.CommandLine.Report
import RecordSearch.Json.Reader
import RecordSearch.Query.Compile
import RecordSearch.Settings.Discovery
import RecordSearch.Settings.Printer
import RecordSearch.Settings.Template
import RecordSearch.Toml.Writer

/-! What the commands do. A command is a function of its surroundings: the file system, the current
    directory, the home directory and the input. It ends with a status, two texts to print, and
    perhaps a file to write. -/

namespace RecordSearch.CommandLine

open RecordSearch.Files (AccessError Store)
open RecordSearch.Search (CompiledQuery EngineError Record Setup Strategy)
open RecordSearch.Settings (Config)

/-- What a command finds around it. -/
structure Surroundings where
  files : Store
  /-- The current directory. -/
  directory : String
  home : Option String
  /-- The input, if it is text. -/
  input : Option String

/-- What a command ends with. -/
structure Outcome where
  code : Nat
  out : String
  err : String
  /-- A path to write to, and what to write. -/
  write : Option (String × String)
  deriving DecidableEq, Repr

/-- A command that did what it should. -/
def Outcome.success (out : String) : Outcome := ⟨0, out, "", none⟩

/-- A command that failed. -/
def Outcome.failure (err : String) : Outcome := ⟨1, "", err, none⟩

/-- A command that broke off. -/
def Outcome.brokenOff : Outcome := ⟨101, "", "", none⟩

/-- A command that failed with a message to be shown after some words; it breaks off if there is none. -/
def Outcome.explained (words : String) : Option String → Outcome
  | some message => .failure (line (words ++ message))
  | none => .brokenOff

/-! ### Searching -/

/-- Whether a path stands for the input. -/
def isInput (path : String) : Bool :=
  Files.lead path.toList = [] && Files.parts path.toList = [['-']]

/-- The records to search, or the message why there are none. -/
def readRecords (s : Surroundings) (data : Option String) : Except String (List Record) :=
  let source : Except String (String × String) := match data.filter fun path => !isInput path with
    | some path =>
      let path := Files.join s.directory path
      match s.files.read path with
      | .ok text => .ok (path, text)
      | .error e => .error ("failed to read " ++ path ++ ": " ++ e.message)
    | none =>
      match s.input with
      | some text => .ok ("stdin", text)
      | none => .error ("failed to read stdin: " ++ AccessError.notText.message)
  source.bind fun (label, text) =>
    match Json.read text with
    | some (.array records) => .ok records
    | some _ => .error (label ++ ": expected a JSON array of records")
    | none => .error (label ++ ": invalid JSON: malformed text")

/-- Whether malformed queries are repaired. -/
def repairs (config : Config) (given : Given) : Bool :=
  config.settings.search.recovery && !given.flags.contains .strict

/-- How records are searched. Configured paths to index are left aside unless records are ranked;
    paths that are given are not, though only ranking can use them. -/
def searchSetup (config : Config) (given : Given) : Setup :=
  let search := config.settings.search
  let fuzzy := config.settings.fuzzy
  let ranked := given.flags.contains .fuzzy || search.comparator = .fuzzy
  let index := if given.index ≠ [] then given.index else if ranked then search.index else []
  ⟨if ranked then .fuzzy (.edits fuzzy.maxDistance fuzzy.transpositions) else .binary,
    Search.orderPaths index, repairs config given, search.scoreMode⟩

/-- Searches records. -/
def searchRecords (config : Config) (given : Given) (query : String) (records : List Record) :
    Outcome :=
  let setup := searchSetup config given
  let engine : Search.Engine Float := .new setup none
  match engine.compile query with
  | .error e => .explained "error: " e.message
  | .ok compiled =>
    match (engine.run compiled (some records)).1 with
    | .error e => .explained "error: search failed: " e.message
    | .ok hits =>
      let report : SearchReport := ⟨query, compiled.tree.canonical, setup.strategy.name,
        setup.strategy.ranks, hits, given.limit.getD config.settings.search.limit⟩
      .success (if given.flags.contains .json then report.json
        else report.text (given.verbosity ≠ 0))

/-- The command `search`. -/
def search (s : Surroundings) (config : Config) (given : Given) (query : String) : Outcome :=
  match readRecords s given.data with
  | .error message => .failure (line ("error: " ++ message))
  | .ok records => searchRecords config given query records

/-! ### Parsing -/

/-- The command `parse`. -/
def parse (config : Config) (given : Given) (query : String) : Outcome :=
  if given.flags.contains .tokens then .success (tokenReport (Query.tokenize query))
  else match Query.compile (repairs config given) query with
    | .ok tree => .success (treeReport query tree)
    | .error e => .failure (refusal e)

/-! ### Configuring -/

/-- The command `check`; it fails if there are warnings. -/
def check (s : Surroundings) (config : Config) : Outcome :=
  match Settings.discover .standard s.files s.home s.directory with
  | [] => .success unconfigured
  | paths =>
    let report := checkReport (paths.map (Files.relativeTo s.directory)) config.settings
    ⟨if config.settings.warnings.isEmpty then 0 else 1, report, "", none⟩

/-- Where a new configuration file goes, and what it says; there is none without a home. -/
def newFile (s : Surroundings) (given : Given) : Option (String × String) :=
  let path := Settings.globalPath s.home
  if given.flags.contains .toHome || (path.bind Files.parent).any (Files.same s.directory) then
    path.map (·, Settings.globalTemplate)
  else some (Files.join s.directory Settings.fileName, Settings.projectTemplate)

/-- The command `init`. -/
def init (s : Surroundings) (given : Given) : Outcome :=
  match newFile s given with
  | none => .failure (line "error: could not determine home directory")
  | some (path, template) =>
    if s.files.isPresent path && !given.flags.contains .force then
      .failure (line ("error: configuration file already exists: " ++ path)
        ++ line "use --force to overwrite")
    else if s.files.lookup path matches .ok .directory then
      .failure (line ("error: failed to write " ++ path ++ ": " ++ AccessError.isDirectory.message))
    else
      ⟨0, line ("Created " ++ path) ++ line "" ++ line (Text.subheader "Configuration written:")
        ++ line (Text.indent template) ++ line "", "", some (path, template)⟩

/-! ### All commands -/

/-- Carries out a command under a configuration. -/
def carryOut (s : Surroundings) (config : Config) (invocation : Invocation) : Outcome :=
  let given := invocation.given
  match invocation.command with
  | .search => search s config given (given.query.getD "")
  | .parse => parse config given (given.query.getD "")
  | .init => init s given
  | .config => (config.settings.text .standard).elim .brokenOff .success
  | .check => check s config

/-- Carries out a command. A new configuration file can be written whatever the old one says. -/
def run (s : Surroundings) (invocation : Invocation) : Outcome :=
  if invocation.command = .init then carryOut s .default invocation
  else match Settings.load .standard s.files s.home s.directory with
    | .ok config => carryOut s config invocation
    | .error e => .failure (line ("error: failed to load configuration: " ++ e.message))

end RecordSearch.CommandLine
