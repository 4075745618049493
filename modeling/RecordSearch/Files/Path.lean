import RecordSearch.Text.Blank

/-! Paths of a file system as they are written. A path is a lead, which is a slash for an absolute
    path, a dot for one that begins at `./`, and otherwise nothing, and then parts between slashes.
    Empty parts and single dots at its end say nothing. -/

namespace RecordSearch.Files

/-- What a path begins with, before its parts. -/
def lead : List Char → List Char
  | '/' :: _ => ['/']
  | ['.'] => ['.']
  | '.' :: '/' :: _ => ['.']
  | _ => []

/-- A part that leads nowhere. -/
def isIdle (part : List Char) : Bool := part.isEmpty || part = ['.']

/-- Drops the parts at the end that lead nowhere. -/
def dropIdle (parts : List (List Char)) : List (List Char) :=
  (parts.reverse.dropWhile isIdle).reverse

/-- The parts of a path, up to the last that leads anywhere. -/
def parts (cs : List Char) : List (List Char) :=
  dropIdle (Text.pieces (· = '/') (cs.drop (lead cs).length))

/-- Parts with slashes between them. -/
def joinParts (ps : List (List Char)) : List Char := ['/'].intercalate ps

/-- What a path says: its lead and the parts that lead anywhere. -/
def components (path : String) : List Char × List (List Char) :=
  let cs := path.toList
  (lead cs, (Text.pieces (· = '/') (cs.drop (lead cs).length)).filter fun part => !isIdle part)

/-- Whether two paths say the same. -/
def same (path path' : String) : Bool := components path = components path'

/-- The path of the directory that holds what a path leads to. -/
def parent (path : String) : Option String :=
  let cs := path.toList
  if (parts cs).isEmpty then if lead cs = ['.'] then some "" else none
  else some (String.ofList (lead cs ++ joinParts (dropIdle (parts cs).dropLast)))

/-- So many directories on the way up, beginning with the path itself. -/
def ancestorsUpTo : (count : Nat) → String → List String
  | 0, _ => []
  | count + 1, path =>
    path :: match parent path with
      | some above => ancestorsUpTo count above
      | none => []

/-- The path and all directories above it, the nearest first. -/
def ancestors (path : String) : List String := ancestorsUpTo (path.length + 1) path

/-- The path that is meant by `path` where the current directory is `directory`. -/
def join (directory path : String) : String :=
  if path.startsWith "/" then path
  else if directory.isEmpty ∨ directory.endsWith "/" then directory ++ path
  else directory ++ "/" ++ path

/-- A path as it is seen from a directory, if it lies beneath it. -/
def relativeTo (directory path : String) : String :=
  let (above, below) := (directory.toList, path.toList)
  let (outer, inner) := (parts above, parts below)
  if lead above = lead below ∧ outer.isPrefixOf inner then
    String.ofList (joinParts (inner.drop outer.length))
  else path

end RecordSearch.Files
