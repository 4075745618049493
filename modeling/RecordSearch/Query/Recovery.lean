import RecordSearch.Query.Parser

/-! The recovery policy of queries. Where a term is acceptable the offending token becomes one; else
    a missing parenthesis is closed; else, if nothing more may come, the rest is dropped. Tokens
    added at the end of the input are placed one after the other past the query. -/

namespace RecordSearch.Query

/-- The place of a token made up for the one found, and the next free place past the query. -/
def placeFor (nextOffset : Nat) : Option Token → Nat × Nat
  | some token => (token.position, nextOffset)
  | none => (nextOffset, nextOffset + 1)

/-- The policy that repairs queries; it remembers the next free place past the query. -/
def repair : Policy Nat := fun nextOffset stalled =>
  let (position, next) := placeFor nextOffset stalled.found
  if stalled.accepts .searchTerm then
    let text := (stalled.found.map Token.lexeme).getD ""
    (.replace (.ofText .searchTerm text position), next)
  else if stalled.accepts .rparen then (.replace (.ofKind .rparen position), next)
  else if stalled.acceptable = [.endOfInput] then (.stop, nextOffset)
  else (.fail, nextOffset)

end RecordSearch.Query
