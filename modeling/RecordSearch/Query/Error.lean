import RecordSearch.Query.Token

/-! Why a query has no parse tree. The parser reports what it found, where, and what it would have
    taken instead; with the query at hand the report shows the place and, for common mistakes, a
    hint. -/

namespace RecordSearch.Query

/-- The causes of a failed parse. -/
inductive Cause where
  /-- There is no action and no recovery. -/
  | unexpected
  /-- The recovery gave up. -/
  | recoveryFailed
  /-- The recovery kept stepping in and nothing was shifted. -/
  | recoveryStalled
  /-- The table refers to an entry that it does not have. -/
  | invalidTable
  deriving DecidableEq, Repr

/-- A failed parse. -/
structure ParseError where
  cause : Cause
  /-- The offset of the offending token; none at the end of the input. -/
  position : Option Nat
  /-- The kind of the offending token; none at the end of the input. -/
  found : Option Kind
  /-- The lookaheads with an action in the failing state. -/
  acceptable : List Lookahead
  deriving DecidableEq, Repr

/-- An enumeration in which the last item is set off. -/
def enumerate : List String → String
  | [] => "nothing"
  | [only] => only
  | items => "one of " ++ ", ".intercalate items.dropLast ++ " or " ++ items.getLastD ""

namespace ParseError

/-- The message of a failed parse. -/
def message (e : ParseError) : String :=
  let found := match e.found with
    | some k => k.text
    | none => Lookahead.endOfInput.text
  let expected := enumerate (e.acceptable.map Lookahead.text)
  match e.cause with
  | .unexpected => "unexpected " ++ found ++ ", expected " ++ expected
  | .recoveryFailed => "cannot recover from " ++ found ++ ", expected " ++ expected
  | .recoveryStalled => "error recovery made no progress at " ++ found
  | .invalidTable => "parse table is inconsistent"

end ParseError

/-- A failed parse with the query it was about. -/
structure QueryError where
  error : ParseError
  query : String
  deriving DecidableEq, Repr

/-- The number of characters that begin before a byte offset. -/
def charactersBefore (offset : Nat) : List Char → Nat
  | [] => 0
  | c :: cs => if offset = 0 then 0 else charactersBefore (offset - c.utf8Size) cs + 1

/-- The text before a byte offset; none if the offset lies inside a character or past the end. -/
def textBefore : (offset : Nat) → List Char → Option (List Char)
  | 0, _ => some []
  | _ + 1, [] => none
  | offset + 1, c :: cs =>
    if c.utf8Size ≤ offset + 1 then (textBefore (offset + 1 - c.utf8Size) cs).map (c :: ·) else none

namespace QueryError

/-- The offset of the error, the length of the query standing for its end. -/
def position (e : QueryError) : Nat := e.error.position.getD (Text.byteLength e.query.toList)

/-- A hint for the common mistakes. -/
def suggestion (e : QueryError) : Option String :=
  if e.error.acceptable = [.token .rparen] then
    some "Add a closing parenthesis ) to match the opening one"
  else match e.error.found with
    | some .groupTerminator => some "Quote terms containing ':' to search for them literally"
    | some .and | some .or =>
      some "AND and OR need a term on both sides, e.g. 'falcon OR dragon'"
    | none =>
      if e.error.acceptable.contains (.token .searchTerm) then
        some "The query ends early; add a term after the last operator"
      else none
    | some _ => none

/-- The hint on a line of its own. -/
def hintLine (e : QueryError) : String :=
  match e.suggestion with
  | some hint => "\n  hint: " ++ hint
  | none => ""

/-- The message, the query with a caret below the error, and the hint. Where the offset of the error lies
    inside a character there is no text before it, and so no report. -/
def report (e : QueryError) : Option String :=
  let cs := e.query.toList
  (textBefore (min e.position (Text.byteLength cs)) cs).map fun before =>
    "query syntax error: " ++ e.error.message ++ "\n  " ++ e.query ++ "\n  "
      ++ String.ofList (List.replicate before.length ' ') ++ "^" ++ e.hintLine

end QueryError

end RecordSearch.Query
