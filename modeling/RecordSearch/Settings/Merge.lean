import RecordSearch.Files.Path
import RecordSearch.Settings.Basic
import RecordSearch.Settings.Layer

/-! Settings merged from several files. The files are given with the highest precedence first, and
    each setting is that of the first file that gives it; a list of paths counts as one setting. The
    files are gone through from the last to the first, so that a choice without meaning is reported
    for the lowest precedence. -/

namespace RecordSearch.Settings

/-- A file with the settings that it gives. -/
structure Source where
  path : String
  layer : Layer

/-- A setting that is chosen from a few names. -/
inductive Choice where
  | comparator
  | scoreMode
  deriving DecidableEq, Repr

/-- The key of a choice. -/
def Choice.key : Choice → String
  | comparator => "search.comparator"
  | scoreMode => "search.score_mode"

/-- The names to choose from. -/
def Choice.expected : Choice → String
  | comparator => "\"binary\" or \"fuzzy\""
  | scoreMode => "\"reset\" or \"accumulate\""

/-- A choice of a name that means nothing. -/
structure InvalidChoice where
  path : String
  choice : Choice
  value : String
  deriving DecidableEq, Repr

/-- The message of an invalid choice. -/
def InvalidChoice.message (e : InvalidChoice) : String :=
  "invalid value '" ++ e.value ++ "' for " ++ e.choice.key ++ " in " ++ e.path ++ ": expected "
    ++ e.choice.expected

/-- The settings in effect, and where they come from. -/
structure Config where
  settings : Values
  /-- The directory of the file with the highest precedence. -/
  root : Option String
  /-- The files, the highest precedence first. -/
  sources : List String
  deriving DecidableEq, Repr

/-- The settings in effect where there is no file. -/
def Config.default : Config := ⟨.default, none, []⟩

/-- The meaning of a choice, where one is given. -/
def choose {α : Type} (path : String) (choice : Choice) (ofName? : String → Option α)
    (current : α) : Option String → Except InvalidChoice α
  | none => .ok current
  | some name =>
    match ofName? name with
    | some chosen => .ok chosen
    | none => .error ⟨path, choice, name⟩

/-- Search settings with those of a file over them. -/
def SearchSettings.over (s : SearchSettings) (path : String) (layer : SearchLayer) :
    Except InvalidChoice SearchSettings := do
  let comparator ← choose path .comparator ComparatorKind.ofName? s.comparator layer.comparator
  let scoreMode ← choose path .scoreMode scoreModeOfName? s.scoreMode layer.scoreMode
  .ok ⟨comparator, layer.recovery.getD s.recovery, scoreMode, layer.limit.getD s.limit,
    layer.index.getD s.index⟩

/-- Fuzzy settings with those of a file over them. -/
def FuzzySettings.over (s : FuzzySettings) (layer : FuzzyLayer) : FuzzySettings :=
  ⟨layer.maxDistance.getD s.maxDistance, layer.transpositions.getD s.transpositions⟩

/-- Settings with those of a file over them. -/
def Values.over (values : Values) (source : Source) : Except InvalidChoice Values := do
  let search ← match source.layer.search with
    | some layer => values.search.over source.path layer
    | none => .ok values.search
  let fuzzy := match source.layer.fuzzy with
    | some layer => values.fuzzy.over layer
    | none => values.fuzzy
  .ok ⟨search, fuzzy⟩

/-- The settings of several files, the highest precedence first. -/
def merge (sources : List Source) : Except InvalidChoice Config :=
  (sources.reverse.foldlM Values.over .default).map fun values =>
    ⟨values, sources.head?.bind fun source => Files.parent source.path, sources.map Source.path⟩

end RecordSearch.Settings
