import RecordSearch.Toml.Format
import RecordSearch.Toml.Reader

/-! Writing the documents of sections that settings have. Each entry has a line of its own, and there
    is an empty line before every section but the first. A list of several texts has one of them on
    each line. -/

namespace RecordSearch.Toml

/-- A truth value as it is written. -/
def boolText (b : Bool) : String := if b then "true" else "false"

/-- A list of texts as it is written. -/
def listText (texts : List String) : String :=
  match texts with
  | [] => "[]"
  | [text] => "[" ++ quote text ++ "]"
  | texts => "[\n" ++ String.join (texts.map fun text => "    " ++ quote text ++ ",\n") ++ "]"

/-- A value as it is written. -/
def valueText? : Value → Option String
  | .string text => some (quote text)
  | .integer n => some (toString n)
  | .bool b => some (boolText b)
  | .array items => (items.mapM Value.asText).map listText
  | _ => none

/-- A line that gives a value. -/
def entryLine (key value : String) : String := key ++ " = " ++ value ++ "\n"

/-- The lines of some entries. -/
def entriesText? : List (String × Value) → Option String
  | [] => some ""
  | (key, v) :: entries => do
    let value ← valueText? v
    let rest ← entriesText? entries
    some (entryLine key value ++ rest)

/-- The text of a section. -/
def sectionText? : String × Value → Option String
  | (name, .table entries) => (entriesText? entries).map (("[" ++ name ++ "]\n") ++ ·)
  | _ => none

/-- The text of a document of sections. -/
def write : List (String × Value) → Option String
  | [] => some ""
  | [s] => sectionText? s
  | s :: sections => do
    let first ← sectionText? s
    let rest ← write sections
    some (first ++ "\n" ++ rest)

/-- The format that the program reads and writes. -/
def Format.standard : Format := ⟨Toml.read, Toml.write⟩

end RecordSearch.Toml
