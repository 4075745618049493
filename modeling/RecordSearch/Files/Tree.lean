import RecordSearch.Files.Store
import RecordSearch.Text.Blank

/-! A file system held in memory: entries under the names that lead to them. A directory is there as
    soon as anything lies beneath it. Each name of a path but the last must lead to a directory, and
    so must all that precedes an empty name or a single dot. Long names and long paths lead nowhere,
    and neither does a path with a null in it. -/

namespace RecordSearch.Files

/-- The names that lead to an entry. -/
abbrev Names := List String

/-- A file system as entries under their names. -/
abbrev Tree := List (Names × Entry)

namespace Tree

/-- What lies under some names. -/
def entry (t : Tree) (names : Names) : Option Entry :=
  match t.lookup names with
  | some found => some found
  | none =>
    if names.isEmpty || t.any fun (other, _) => names.isPrefixOf other then some .directory
    else none

/-- The longest name that a directory can hold, in bytes. -/
def longestName : Nat := 255

/-- The shortest path, in bytes, that is too long. -/
def endlessPath : Nat := 4096

/-- The names reached by one more part of a path. -/
def step (t : Tree) (names : Names) (part : String) : Except AccessError Names :=
  match t.entry names with
  | none => .error .notFound
  | some .directory =>
    if part = "" ∨ part = "." then .ok names
    else if part = ".." then .ok names.dropLast
    else if longestName < part.utf8ByteSize then .error .nameTooLong
    else .ok (names ++ [part])
  | some _ => .error .notDirectory

/-- What a path leads to. -/
def lookup (t : Tree) (path : String) : Except AccessError Entry := do
  if path.contains '\x00' then throw .nullInName
  if path.isEmpty then throw .notFound
  if endlessPath ≤ path.utf8ByteSize then throw .nameTooLong
  let parts := (Text.pieces (· = '/') path.toList).map String.ofList
  let names ← parts.foldlM t.step []
  match t.entry names with
  | some found => .ok found
  | none => .error .notFound

/-- The tree as a file system. -/
def store (t : Tree) : Store := ⟨t.lookup⟩

end Tree

end RecordSearch.Files
