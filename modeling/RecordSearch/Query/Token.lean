import RecordSearch.Query.Kind
import RecordSearch.Decimal.Layout
import RecordSearch.Text.Blank

/-! Tokens carry text, or a number where a comparison asks for one, and the byte offset they were
    found at. A search term is written back in double quotes where its bare text would be read as
    something else; a double quote itself cannot be escaped. -/

namespace RecordSearch.Query

/-- What a token carries. -/
inductive Content where
  | text (text : String)
  | number (amount : Float)

/-- A token of a query. -/
structure Token where
  kind : Kind
  content : Content
  position : Nat

namespace Token

/-- A token that carries text. -/
def ofText (kind : Kind) (text : String) (position : Nat) : Token :=
  ⟨kind, .text text, position⟩

/-- A punctuation mark or keyword. -/
def ofKind (kind : Kind) (position : Nat) : Token := ofText kind (kind.literal.getD "") position

/-- The text of a token; a number is written out. -/
def lexeme (t : Token) : String :=
  match t.content with
  | .text text => text
  | .number amount => Decimal.Layout.query.text amount

/-- The number of a token that carries one. -/
def number (t : Token) : Option Float :=
  match t.content with
  | .text _ => none
  | .number amount => some amount

end Token

/-- The lookahead that an optional token gives. -/
def Lookahead.of : Option Token → Lookahead
  | some t => .token t.kind
  | none => .endOfInput

/-- Characters that end a bare word, white space apart. -/
def isDelimiter (c : Char) : Bool := [':', '"', '<', '>', '!', '(', ')'].contains c

/-- Characters that end a bare word. -/
def endsWord (c : Char) : Bool := Text.isBlank c || isDelimiter c

/-- Whether a text has to be quoted to be read as one search term. -/
def needsQuoting (text : String) : Bool :=
  text.isEmpty || text == "AND" || text == "OR" || text.toList.any endsWord

/-- A search term as written in a query. Text with a double quote is left as it is. -/
def quoteTerm (text : String) : String :=
  if needsQuoting text && !text.toList.contains '"' then "\"" ++ text ++ "\"" else text

/-- A token as written in a query. -/
def Token.written (t : Token) : String :=
  match t.kind with
  | .searchTerm => quoteTerm t.lexeme
  | _ => t.lexeme

/-- Tokens as written in a query, one blank apart. -/
def writeTokens (ts : List Token) : String := " ".intercalate (ts.map Token.written)

end RecordSearch.Query
