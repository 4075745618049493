import RecordSearch.CommandLine.Commands
import RecordSearch.CommandLine.Usage

/-! The program. It looks up what a command can ask for, carries the command out, and does what the
    outcome says. -/

namespace RecordSearch.CommandLine

/-- The paths that a command may look at. -/
def pathsOf (directory : String) (home : Option String) (invocation : Invocation) : List String :=
  let configuration := (Files.ancestors directory).map fun d => Files.join d Settings.fileName
  let data := (invocation.given.data.filter fun path => !isInput path).map (Files.join directory)
  configuration ++ (Settings.globalPath home).toList ++ data.toList

/-- What bytes are as an entry. -/
def entryOfBytes (bytes : ByteArray) : Files.Entry :=
  match String.fromUTF8? bytes with
  | some content => .text content
  | none => .binary

/-- Whether the system means an error number, which it may give with a minus. -/
def isCode (number code : UInt32) : Bool := code = number || code = 0 - number

/-- What a path leads to. -/
def lookUp (path : String) : IO (Except Files.AccessError Files.Entry) := do
  try
    return .ok (entryOfBytes (← IO.FS.readBinFile path))
  catch e =>
    match e with
    | .noFileOrDirectory .. => return .error .notFound
    | .inappropriateType _ code _ =>
      if isCode 21 code then return .ok .directory
      else if isCode 20 code then return .error .notDirectory
      else return .error (.other (toString e))
    | .permissionDenied .. => return .ok (.unreadable (.other (toString e)))
    | e => return .error (.other (toString e))

/-- All that is left of a stream. -/
partial def readToEnd (stream : IO.FS.Stream) (before : ByteArray) : IO ByteArray := do
  let bytes ← stream.read 65536
  if bytes.isEmpty then return before else readToEnd stream (before ++ bytes)

/-- Whether a command reads the input. -/
def readsInput (invocation : Invocation) : Bool :=
  invocation.command = .search && (invocation.given.data.filter fun path => !isInput path).isNone

/-- Finds out what a command can ask for. -/
def surroundings (invocation : Invocation) : IO Surroundings := do
  let directory := (← IO.currentDir).toString
  let home := (← IO.getEnv "HOME").filter fun home => !home.isEmpty
  let entries ← (pathsOf directory home invocation).mapM fun path => do
    return (path, ← lookUp path)
  let bytes ← if readsInput invocation then readToEnd (← IO.getStdin) .empty else pure .empty
  return ⟨⟨fun path => (entries.lookup path).getD (.error .notFound)⟩, directory, home,
    String.fromUTF8? bytes⟩

/-- Does what an outcome says. -/
def perform (outcome : Outcome) : IO UInt32 := do
  match outcome.write with
  | none => pure ()
  | some (path, content) =>
    try IO.FS.writeFile path content
    catch e =>
      IO.eprintln ("error: failed to write " ++ path ++ ": " ++ toString e)
      return 1
  IO.print outcome.out
  IO.eprint outcome.err
  return outcome.code.toUInt32

end RecordSearch.CommandLine

open RecordSearch.CommandLine in
/-- Runs the program with its arguments. -/
def main (arguments : List String) : IO UInt32 := do
  match readArguments arguments with
  | .ok invocation => perform (run (← surroundings invocation) invocation)
  | .error .helpWanted =>
    IO.print UsageError.helpWanted.message
    return 0
  | .error e =>
    IO.eprint e.message
    return e.code.toUInt32
