import RecordSearch.Query.Lexer
import RecordSearch.Query.Error
import RecordSearch.Text.Style

/-! Queries in colour. Tokens are written one blank apart, each in the style of its kind; a search
    term is set off only where it names a scope. -/

namespace RecordSearch.Query

open RecordSearch.Text (Style)

/-- The style of a token, knowing whether it names a scope. -/
def Kind.style (namesScope : Bool) : Kind → Option Style
  | .searchTerm => if namesScope then some .cyan else none
  | .groupTerminator | .lparen | .rparen => some .dim
  | .and | .or => some .yellow
  | .exclude => some .red
  | .gt | .gte | .lt | .lte => some .green
  | .number => some .magenta

/-- A token in its style. -/
def Token.highlighted (namesScope : Bool) (t : Token) : String :=
  match t.kind.style namesScope with
  | some style => style.paint t.written
  | none => t.written

/-- Each token in its style. -/
def highlightEach : List Token → List String
  | [] => []
  | t :: rest =>
    t.highlighted ((rest.head?.map Token.kind) = some .groupTerminator) :: highlightEach rest

/-- The tokens in colour. -/
def highlightTokens (ts : List Token) : String := " ".intercalate (highlightEach ts)

/-- A query in colour. -/
def highlight (query : String) : String := highlightTokens (tokenize query)

/-- The query with a caret below the character at a byte offset; past the end it stands right after
    the last character. -/
def errorPointer (query : String) (offset : Nat) : String :=
  query ++ "\n" ++ Text.blanks (charactersBefore offset query.toList) ++ Style.red.paint "^"

end RecordSearch.Query
