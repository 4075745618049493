import RecordSearch.Text.Blank

/-! Text cut into lines. A line ends at a line feed, together with one carriage return before it;
    what follows the last line feed is a line if there is anything. -/

namespace RecordSearch.Text

/-- Drops one carriage return at the end. -/
def dropReturn (cs : List Char) : List Char :=
  if cs.getLast? = some '\r' then cs.dropLast else cs

/-- The lines of a text, without their ends. -/
def lines (cs : List Char) : List (List Char) :=
  let ps := pieces (· = '\n') cs
  ps.dropLast.map dropReturn ++ (ps.getLast?.toList.filter fun p => !p.isEmpty)

/-- The text that consists of some lines. -/
def unlines (ls : List String) : String := String.join (ls.map (· ++ "\n"))

/-- A line indented by two blanks, unless there is nothing on it. -/
def indentLine (line : List Char) : List Char := if line.isEmpty then [] else ' ' :: ' ' :: line

/-- The text with its lines indented by two blanks. -/
def indent (text : String) : String :=
  "\n".intercalate ((lines text.toList).map fun line => String.ofList (indentLine line))

/-- So many blanks. -/
def blanks (n : Nat) : String := String.ofList (List.replicate n ' ')

end RecordSearch.Text
