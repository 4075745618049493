import RecordSearch.Search.Record
import RecordSearch.Search.Flags
import RecordSearch.Query.Token
import RecordSearch.Decimal.Reader
import RecordSearch.Text.Lowercase

/-! Whether a record matches a term. A number under a comparison is compared with numbers and with
    texts that read as finite numbers; anything else matches if its text contains the text of the
    term, letter case aside. Without a scope one matching field is enough. -/

namespace RecordSearch.Search

open RecordSearch.Query (Token)

/-- A term made ready to be matched many times. -/
structure TermTest where
  /-- The text of the term in lower case. -/
  needle : List Char
  /-- The comparison to make, if there is one and the term is a number. -/
  comparison : Option (Comparison × Float)

namespace TermTest

/-- The test of a term under a pending comparison. -/
def of (term : Token) (operator : Option Comparison) : TermTest :=
  ⟨Text.lower term.lexeme.toList, operator.bind fun op => term.number.map fun x => (op, x)⟩

/-- Whether the text of a value contains the term. -/
def containedIn (t : TermTest) (value : Record) : Bool :=
  (atomicText value).any fun text => Text.contains t.needle (Text.lower text.toList)

/-- Whether a value matches. -/
def value (t : TermTest) (v : Record) : Bool :=
  match t.comparison, v with
  | some (op, operand), .number n => op.holds n.toFloat operand
  | some (op, operand), .string s =>
    (Decimal.readFinite (Text.trim s.toList)).any fun x => op.holds x operand
  | _, v => t.containedIn v

/-- Whether a record matches at a scope, or else in one of its fields. -/
def record (t : TermTest) (scope : Option String) (r : Record) : Bool :=
  match scope with
  | some path => (resolve r path).any t.value
  | none => (fieldValues r).any t.value

end TermTest

/-- Whether a record matches a term, negation not counted. -/
def isMatch (term : Token) (flags : Flags) (record : Record) : Bool :=
  (TermTest.of term flags.operator).record flags.scope record

end RecordSearch.Search
