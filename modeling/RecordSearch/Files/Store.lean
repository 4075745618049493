/-! What a program sees of a file system: what each path leads to, or why it leads nowhere. -/

namespace RecordSearch.Files

/-- Why something cannot be read or written. -/
inductive AccessError where
  | notFound
  | notDirectory
  | isDirectory
  | nameTooLong
  | nullInName
  | notText
  /-- A reason that only the system knows. -/
  | other (message : String)
  deriving DecidableEq, Repr

/-- The message of a failed access. -/
def AccessError.message : AccessError → String
  | notFound => "No such file or directory (os error 2)"
  | notDirectory => "Not a directory (os error 20)"
  | isDirectory => "Is a directory (os error 21)"
  | nameTooLong => "File name too long (os error 36)"
  | nullInName => "file name contained an unexpected NUL byte"
  | notText => "stream did not contain valid UTF-8"
  | other message => message

/-- What a path leads to. -/
inductive Entry where
  | text (content : String)
  /-- A file whose bytes are not text. -/
  | binary
  /-- A file that cannot be read. -/
  | unreadable (cause : AccessError)
  | directory
  deriving DecidableEq, Repr

/-- A file system. -/
structure Store where
  lookup : String → Except AccessError Entry

namespace Store

/-- The text of a file. -/
def read (files : Store) (path : String) : Except AccessError String :=
  match files.lookup path with
  | .ok (.text content) => .ok content
  | .ok .binary => .error .notText
  | .ok (.unreadable cause) => .error cause
  | .ok .directory => .error .isDirectory
  | .error e => .error e

/-- Whether a path leads to a file. -/
def isFile (files : Store) (path : String) : Bool :=
  match files.lookup path with
  | .ok (.text _) | .ok .binary | .ok (.unreadable _) => true
  | _ => false

/-- Whether a path leads anywhere. -/
def isPresent (files : Store) (path : String) : Bool := (files.lookup path).isOk

end Store

end RecordSearch.Files
