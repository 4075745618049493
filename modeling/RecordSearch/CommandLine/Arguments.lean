/-! The arguments of the program. A command has flags, options with a value, and perhaps a query.
    They may stand in any order; short ones may be joined, and a value may follow its option at
    once, after `=`, or as the next argument. After `--` nothing is taken for an option. The value
    of an option is only looked at when the next option, the query or the end is reached. -/

namespace RecordSearch.CommandLine

/-- Why arguments are refused, or not carried out. -/
inductive UsageError where
  | helpWanted
  /-- No argument at all. -/
  | nothingGiven
  | missingCommand
  | unknownCommand
  | unknownArgument
  /-- An option without its value, or with an empty one where that means nothing. -/
  | missingValue
  | malformedValue
  /-- A value where none belongs. -/
  | unexpectedValue
  /-- A flag or an option that is given twice. -/
  | repeated
  | missingQuery
  deriving DecidableEq, Repr

/-- The status that the program ends with. -/
def UsageError.code : UsageError → Nat
  | helpWanted => 0
  | _ => 2

/-- What is on or off. -/
inductive Flag where
  | help
  | verbose
  | fuzzy
  | strict
  | json
  | tokens
  | toHome
  | force
  deriving DecidableEq, Repr

/-- What takes a value. -/
inductive Setting where
  | data
  | index
  | limit
  deriving DecidableEq, Repr

/-- The commands. -/
inductive Command where
  | search
  | parse
  | init
  | config
  | check
  deriving DecidableEq, Repr

/-- Whatever can be given by name. -/
inductive Item where
  | flag (f : Flag)
  | setting (s : Setting)
  deriving DecidableEq, Repr

/-- An item with its names: a letter, and a word. -/
structure Named where
  short : Option Char
  long : String
  item : Item
  deriving DecidableEq, Repr

namespace Command

/-- All commands. -/
def all : List Command := [search, parse, init, config, check]

/-- The name of a command. -/
def name : Command → String
  | search => "search"
  | parse => "parse"
  | init => "init"
  | config => "config"
  | check => "check"

/-- The command of a name. -/
def ofName? (text : String) : Option Command := all.find? fun command => command.name == text

/-- Whether a command takes a query. -/
def takesQuery : Command → Bool
  | search | parse => true
  | _ => false

end Command

/-- What can be given before a command as well as after it. -/
def commonItems : List Named :=
  [⟨some 'h', "help", .flag .help⟩, ⟨some 'v', "verbose", .flag .verbose⟩]

/-- What can be given to a command. -/
def Command.items : Command → List Named
  | search =>
    [⟨some 'd', "data", .setting .data⟩, ⟨some 'f', "fuzzy", .flag .fuzzy⟩,
      ⟨some 'i', "index", .setting .index⟩, ⟨none, "strict", .flag .strict⟩,
      ⟨some 'n', "limit", .setting .limit⟩, ⟨none, "json", .flag .json⟩] ++ commonItems
  | parse =>
    [⟨none, "strict", .flag .strict⟩, ⟨none, "tokens", .flag .tokens⟩] ++ commonItems
  | init => [⟨none, "global", .flag .toHome⟩, ⟨none, "force", .flag .force⟩] ++ commonItems
  | config | check => commonItems

/-- What has been given. -/
structure Given where
  query : Option String
  flags : List Flag
  verbosity : Nat
  data : Option String
  index : List String
  limit : Option Nat
  /-- The option that was given last, with its value if that has been given. -/
  pending : Option (Setting × Option String)
  deriving DecidableEq, Repr

namespace Given

/-- Nothing. -/
def nothing : Given := ⟨none, [], 0, none, [], none, none⟩

/-- The natural number that digits spell, after an optional plus, if it fits 64 bits. -/
def readLimit (text : String) : Option Nat :=
  let digits : List Char := match text.toList with
    | '+' :: cs => cs
    | cs => cs
  let n := digits.foldl (fun n c => 10 * n + (c.toNat - '0'.toNat)) 0
  if digits ≠ [] ∧ digits.all Char.isDigit ∧ n < Nat.pow 2 64 then some n else none

/-- Gives an option its value. -/
def setValue (g : Given) (value : String) : Setting → Except UsageError Given
  | .data =>
    if g.data.isSome then .error .repeated
    else if value.isEmpty then .error .missingValue
    else .ok { g with data := some value }
  | .index => .ok { g with index := g.index ++ [value] }
  | .limit =>
    if g.limit.isSome then .error .repeated
    else match readLimit value with
      | some n => .ok { g with limit := some n }
      | none => .error .malformedValue

/-- Looks at the option that was given last. -/
def settle (g : Given) : Except UsageError Given :=
  match g.pending with
  | none => .ok g
  | some (_, none) => .error .missingValue
  | some (setting, some value) => { g with pending := none }.setValue value setting

/-- Switches a flag on. -/
def setFlag (g : Given) (flag : Flag) : Except UsageError Given := do
  let g ← g.settle
  if flag = .help then .error .helpWanted
  else if flag = .verbose then .ok { g with verbosity := g.verbosity + 1 }
  else if g.flags.contains flag then .error .repeated
  else .ok { g with flags := g.flags ++ [flag] }

/-- Begins an option whose value may have been given with it. -/
def setOption (g : Given) (setting : Setting) (value : Option String) :
    Except UsageError Given := do
  let g ← g.settle
  match value with
  | some value => g.setValue value setting
  | none => .ok { g with pending := some (setting, none) }

/-- Takes an argument as the query. -/
def setQuery (g : Given) (takesQuery : Bool) (text : String) : Except UsageError Given :=
  if takesQuery ∧ g.query.isNone then g.settle.map fun g => { g with query := some text }
  else .error .unknownArgument

/-- Takes an argument that begins with two hyphens, without them. -/
def long (items : List Named) (g : Given) (text : List Char) : Except UsageError Given :=
  let name := String.ofList (text.takeWhile (· ≠ '='))
  let value := match text.dropWhile (· ≠ '=') with
    | _ :: value => some (String.ofList value)
    | [] => none
  match items.find? (·.long == name), value with
  | none, _ => .error .unknownArgument
  | some ⟨_, _, .flag _⟩, some _ => .error .unexpectedValue
  | some ⟨_, _, .flag flag⟩, none => g.setFlag flag
  | some ⟨_, _, .setting setting⟩, value => g.setOption setting value

/-- Takes the letters after one hyphen. The first option takes what follows it for its value. -/
def short (items : List Named) (g : Given) : List Char → Except UsageError Given
  | [] => .ok g
  | letter :: rest =>
    match items.find? (·.short = some letter) with
    | none => .error .unknownArgument
    | some ⟨_, _, .flag flag⟩ => (g.setFlag flag).bind fun g => g.short items rest
    | some ⟨_, _, .setting setting⟩ =>
      g.setOption setting <| match rest with
        | [] => none
        | '=' :: value => some (String.ofList value)
        | value => some (String.ofList value)

/-- Takes an argument that is no option by its looks. -/
def plain (takesQuery : Bool) (g : Given) (text : String) : Except UsageError Given :=
  match g.pending with
  | some (setting, none) => .ok { g with pending := some (setting, some text) }
  | _ => g.setQuery takesQuery text

/-- Takes one argument. -/
def take (items : List Named) (takesQuery : Bool) (g : Given) (argument : String) :
    Except UsageError Given :=
  match argument.toList with
  | '-' :: '-' :: text => g.long items text
  | '-' :: c :: text => g.short items (c :: text)
  | _ => g.plain takesQuery argument

end Given

/-- The command to carry out. -/
structure Invocation where
  command : Command
  given : Given
  deriving DecidableEq, Repr

/-- Takes the arguments after a command. -/
def readCommand (command : Command) : List String → Given → Except UsageError Given
  | [], g => .ok g
  | argument :: rest, g =>
    if argument = "--" then rest.foldlM (fun g text => g.setQuery command.takesQuery text) g
    else (g.take command.items command.takesQuery argument).bind (readCommand command rest)

/-- What the arguments after a command amount to. -/
def completeCommand (command : Command) (before : Given) (arguments : List String) :
    Except UsageError Invocation := do
  let g ← readCommand command arguments .nothing
  let g ← g.settle
  if command.takesQuery ∧ g.query.isNone then .error .missingQuery
  else
    let verbosity := if g.verbosity = 0 then before.verbosity else g.verbosity
    .ok ⟨command, { g with verbosity }⟩

/-- What is answered to `help` and the names after it. -/
def readHelp : List String → UsageError
  | [] => .helpWanted
  | [name] => if name = "help" ∨ (Command.ofName? name).isSome then .helpWanted else .unknownCommand
  | _ => .unknownCommand

/-- Takes an argument before any command that does not name one. -/
def takeEarly (g : Given) (argument : String) : Except UsageError Given :=
  (g.take commonItems false argument).mapError fun e =>
    if e = .unknownArgument ∧ (argument.toList.head? ≠ some '-' ∨ argument = "-")
    then .unknownCommand else e

/-- The command that the arguments give. -/
def readFrom (g : Given) : List String → Except UsageError Invocation
  | [] => .error (if g.verbosity = 0 then .nothingGiven else .missingCommand)
  | argument :: rest =>
    match Command.ofName? argument with
    | some command => completeCommand command g rest
    | none =>
      if argument = "help" then .error (readHelp rest)
      else if argument = "--" then
        match rest with
        | [] => .error (if g.verbosity = 0 then .nothingGiven else .missingCommand)
        | next :: _ =>
          let named := next = "help" ∨ (Command.ofName? next).isSome
          .error (if named then .unknownArgument else .unknownCommand)
      else (takeEarly g argument).bind fun g => readFrom g rest

/-- The command that the arguments of the program give. -/
def readArguments (arguments : List String) : Except UsageError Invocation :=
  readFrom .nothing arguments

end RecordSearch.CommandLine
