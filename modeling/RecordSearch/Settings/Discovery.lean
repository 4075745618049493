import RecordSearch.Files.Path
import RecordSearch.Files.Store
import RecordSearch.Settings.Merge

/-! Which configuration files are in effect in a directory, and what they say. The file of the
    directory itself comes first, then those of the directories above it, and last the global file
    in the home directory. A file that says `root = true` ends the search; one that cannot be read
    is in effect, but ends nothing. -/

namespace RecordSearch.Settings

open RecordSearch.Files (AccessError Store)

variable (toml : Toml.Format)

/-- The name of configuration files. -/
def fileName : String := ".lexico.toml"

/-- Whether the search for files ends with this one. -/
def isRootFile (files : Store) (path : String) : Bool :=
  match files.read path with
  | .ok text => (Layer.read toml text).bind Layer.root = some true
  | .error _ => false

/-- The files of some directories up to the first that ends the search, and whether one did. -/
def discoverAlong (files : Store) : (directories : List String) → List String × Bool
  | [] => ([], false)
  | directory :: rest =>
    let path := Files.join directory fileName
    if files.isFile path then
      if isRootFile toml files path then ([path], true)
      else
        let (found, ended) := discoverAlong files rest
        (path :: found, ended)
    else discoverAlong files rest

/-- The path of the global file. -/
def globalPath (home : Option String) : Option String :=
  home.map fun home => Files.join home fileName

/-- The files in effect in a directory, the highest precedence first. -/
def discover (files : Store) (home : Option String) (directory : String) : List String :=
  let (found, ended) := discoverAlong toml files (Files.ancestors directory)
  match globalPath home with
  | some path =>
    if !ended && files.isFile path && !found.any (Files.same path) then found ++ [path] else found
  | none => found

/-- Why the configuration cannot be loaded. -/
inductive LoadError where
  | unreadable (path : String) (cause : AccessError)
  | malformed (path : String)
  | invalid (choice : InvalidChoice)
  deriving DecidableEq, Repr

/-- The message of a configuration that cannot be loaded. -/
def LoadError.message : LoadError → String
  | unreadable path cause => "failed to read config file " ++ path ++ ": " ++ cause.message
  | malformed path => "failed to parse config file " ++ path ++ ": malformed TOML"
  | invalid choice => choice.message

/-- A file with the settings that it gives. -/
def Source.load (files : Store) (path : String) : Except LoadError Source :=
  match files.read path with
  | .error cause => .error (.unreadable path cause)
  | .ok text =>
    match Layer.read toml text with
    | some layer => .ok ⟨path, layer⟩
    | none => .error (.malformed path)

/-- The configuration that files give, the highest precedence first. -/
def loadFiles (files : Store) (paths : List String) : Except LoadError Config := do
  let sources ← paths.mapM (Source.load toml files)
  (merge sources).mapError .invalid

/-- The configuration in effect in a directory. -/
def load (files : Store) (home : Option String) (directory : String) : Except LoadError Config :=
  loadFiles toml files (discover toml files home directory)

end RecordSearch.Settings
