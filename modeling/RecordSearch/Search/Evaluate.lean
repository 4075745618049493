import RecordSearch.Search.Comparator
import RecordSearch.Query.Tree

/-! What a parse tree does to data. The structure is decided here: a list is a conjunction of its
    nonempty items, a group narrows the scope, a negation turns connectives round, and a comparison
    binds to the number after it. Terms and connectives themselves are left to a comparator. -/

namespace RecordSearch.Search

open RecordSearch.Query (Tree)

variable {δ : Type}

/-- What several operands joined by conjunction do, which may be a disjunction under negation. -/
def conjoin (c : Comparator δ) (flags : Flags) : List (δ → δ) → δ → δ
  | [] => id
  | [f] => f
  | f :: fs => c.join (Connective.and.under flags.exclude) f (conjoin c flags fs)

/-- The comparison that a node for one holds. -/
def comparisonOf (t : Tree) : Option Comparison :=
  t.children.head?.bind fun child => child.token?.bind fun token => Comparison.ofKind token.kind

mutual

/-- What a tree does to data under the given flags. -/
def evaluate (c : Comparator δ) (flags : Flags) : Tree → δ → δ
  | .leaf token =>
    match token.kind with
    | .searchTerm | .number => c.search flags token
    | _ => c.clear
  | .node label children =>
    match label with
    | .list => conjoin c flags (evaluateItems c flags children)
    | .and => evaluateConnective c flags .and children
    | .or => evaluateConnective c flags .or children
    | .group => evaluateGroup c flags children
    | .term => evaluateTerm c flags children
    | .search | .searchType | .searchTerm | .comparison => evaluateWrapper c flags children

/-- What each nonempty item of a list does. -/
def evaluateItems (c : Comparator δ) (flags : Flags) : List Tree → List (δ → δ)
  | [] => []
  | t :: ts =>
    if t.isEmpty then evaluateItems c flags ts
    else evaluate c flags t :: evaluateItems c flags ts

/-- What two operands around a keyword do. -/
def evaluateConnective (c : Comparator δ) (flags : Flags) (connective : Connective) :
    List Tree → δ → δ
  | [lhs, _, rhs] =>
    c.join (connective.under flags.exclude) (evaluate c flags lhs) (evaluate c flags rhs)
  | _ => id

/-- What a term does after a scope. -/
def evaluateGroup (c : Comparator δ) (flags : Flags) : List Tree → δ → δ
  | [.leaf segment, _, term] => evaluate c (flags.within segment.lexeme) term
  | _ => id

/-- What a term with an optional negation or comparison does. -/
def evaluateTerm (c : Comparator δ) (flags : Flags) : List Tree → δ → δ
  | [] => id
  | first :: rest =>
    if first.isToken .exclude then evaluateWrapper c flags.negated rest
    else if first.label? = some .comparison ∧ !rest.isEmpty then
      evaluateOperand c flags (comparisonOf first) rest
    else if first.isToken .lparen then evaluateHead c flags rest
    else evaluate c flags first

/-- What the operand of a comparison does; only a number is compared. -/
def evaluateOperand (c : Comparator δ) (flags : Flags) (comparison : Option Comparison) :
    List Tree → δ → δ
  | [] => id
  | operand :: _ =>
    match comparison with
    | some op =>
      evaluate c (if operand.isToken .number then flags.comparing op else flags) operand
    | none => evaluate c flags operand

/-- What the one child of a node does, parentheses left out. -/
def evaluateWrapper (c : Comparator δ) (flags : Flags) : List Tree → δ → δ
  | [] => id
  | child :: rest =>
    if child.isToken .lparen then evaluateHead c flags rest else evaluate c flags child

/-- What the first of several trees does. -/
def evaluateHead (c : Comparator δ) (flags : Flags) : List Tree → δ → δ
  | [] => id
  | child :: _ => evaluate c flags child

end

end RecordSearch.Search
