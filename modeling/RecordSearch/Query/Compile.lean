import RecordSearch.Query.Lexer
import RecordSearch.Query.Recovery

/-! Compiling a query: its tokens are parsed by the table of the query grammar, with malformed
    queries repaired or, in strict mode, refused. -/

namespace RecordSearch.Query

/-- Enough steps to parse so many tokens: a tree of queries has a bounded number of nodes for every
    leaf, and a repair adds at most one term and one parenthesis for every open one. -/
def enoughSteps (tokens : Nat) : Nat := 64 * (tokens + 2)

/-- The result of a parse; one that does not end in the steps allowed for makes no progress. -/
def resultOf {σ : Type} : Option (Except ParseError Tree × σ) → Except ParseError Tree
  | some (result, _) => result
  | none => .error ⟨.recoveryStalled, none, none, []⟩

/-- Parses tokens by the query grammar, repairing what is malformed past `inputLength` bytes. -/
def parseRepaired (inputLength : Nat) (tokens : List Token) : Except ParseError Tree :=
  resultOf (Table.query.parse (some repair) (enoughSteps tokens.length) tokens inputLength)

/-- Parses tokens by the query grammar and refuses what is malformed. -/
def parseStrict (tokens : List Token) : Except ParseError Tree :=
  resultOf (Table.query.parse (σ := Unit) none (enoughSteps tokens.length) tokens ())

/-- The parse tree of a query. -/
def compile (recovery : Bool) (query : String) : Except QueryError Tree :=
  let tokens := tokenize query
  let result := if recovery then parseRepaired (Text.byteLength query.toList) tokens
    else parseStrict tokens
  result.mapError (⟨·, query⟩)

end RecordSearch.Query
