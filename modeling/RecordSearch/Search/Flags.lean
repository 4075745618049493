import RecordSearch.Query.Kind

/-! What a query says about everything below some point of it: the scope, whether the number of
    negations is odd, and a comparison for the next number. Under odd negation a conjunction is
    evaluated as a disjunction and the other way round. -/

namespace RecordSearch.Search

open RecordSearch.Query (Kind)

/-- The four orderings. -/
inductive Comparison where
  | gt
  | gte
  | lt
  | lte
  deriving DecidableEq, Repr

namespace Comparison

/-- The ordering of a token kind. -/
def ofKind : Kind → Option Comparison
  | .gt => some gt
  | .gte => some gte
  | .lt => some lt
  | .lte => some lte
  | _ => none

/-- Whether a candidate stands in the ordering to an operand. -/
def holds : Comparison → Float → Float → Bool
  | gt, candidate, operand => operand < candidate
  | gte, candidate, operand => operand ≤ candidate
  | lt, candidate, operand => candidate < operand
  | lte, candidate, operand => candidate ≤ operand

/-- The ordering as written in a query. -/
def symbol : Comparison → String
  | gt => ">"
  | gte => ">="
  | lt => "<"
  | lte => "<="

end Comparison

/-- How two operands are joined. -/
inductive Connective where
  | and
  | or
  deriving DecidableEq, Repr

namespace Connective

/-- The connective that is meant under a negation. -/
def under (exclude : Bool) : Connective → Connective
  | and => if exclude then or else and
  | or => if exclude then and else or

/-- The connective as written in a query. -/
def keyword : Connective → String
  | and => "AND"
  | or => "OR"

end Connective

/-- What holds for everything below a node of a query. -/
structure Flags where
  /-- The path that searches are restricted to. -/
  scope : Option String
  /-- Whether the number of negations is odd. -/
  exclude : Bool
  /-- The comparison for the next number. -/
  operator : Option Comparison
  deriving DecidableEq, Repr

namespace Flags

/-- What holds for a whole query. -/
def root : Flags := ⟨none, false, none⟩

/-- The flags with a segment added to the scope. -/
def within (segment : String) (f : Flags) : Flags :=
  let scope := match f.scope with
    | some parent => parent ++ "." ++ segment
    | none => segment
  { f with scope := some scope }

/-- The flags under one negation more. -/
def negated (f : Flags) : Flags := { f with exclude := !f.exclude }

/-- The flags for the operand of a comparison. -/
def comparing (operator : Comparison) (f : Flags) : Flags := { f with operator := some operator }

end Flags

end RecordSearch.Search
