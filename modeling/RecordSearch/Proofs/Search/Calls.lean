import RecordSearch.Query.Tree
import RecordSearch.Search.Builder
import RecordSearch.Decimal.Reader

/-! Queries put together by calls, and the trees that the calls describe. A call is a search or a
    connective; what is searched for may be a query put together by calls of its own. The tree is read
    off the calls one after the other, without the stack that a builder works on and without any text:
    every search is joined to what stands so far, which goes into parentheses when it is joined
    itself. -/

namespace RecordSearch.Search

open RecordSearch.Query (Tree Token Kind Nonterminal)

/-! ### Calls -/

mutual

/-- A call on a query under construction. -/
inductive Call where
  | search (wanted : Wanted) (options : SearchOptions)
  | connect (connective : Connective)

/-- What a call may search for: a text, a number or a query of its own, given by its calls. -/
inductive Wanted where
  | text (text : String)
  | number (amount : Float)
  | group (calls : List Call)

end

mutual

/-- The operand that a builder is given. -/
def Wanted.operand : Wanted → Operand
  | .text text => .text text
  | .number amount => .number amount
  | .group calls => .group (Builder.empty.after calls).stack

/-- A query under construction after calls in turn. -/
def Builder.after (b : Builder) : List Call → Builder
  | [] => b
  | .search wanted options :: calls => (b.search wanted.operand options).after calls
  | .connect c :: calls => (b.connect c).after calls

end

/-- The query that calls put together. -/
def Builder.ofCalls (calls : List Call) : Builder := Builder.empty.after calls

mutual

/-- The searches of a query that is searched for. -/
def Wanted.searches : Wanted → List (Wanted × SearchOptions)
  | .text _ => []
  | .number _ => []
  | .group calls => searchesOf calls

/-- The searches among calls, with those of the queries that are searched for. -/
def searchesOf : List Call → List (Wanted × SearchOptions)
  | [] => []
  | .search wanted options :: calls => (wanted, options) :: (wanted.searches ++ searchesOf calls)
  | .connect _ :: calls => searchesOf calls

end

/-! ### Trees -/

/-- The leaf of a mark. -/
def mark (k : Kind) : Tree := .leaf (.ofKind k 0)

/-- The kind that an ordering is read as. -/
def Comparison.kind : Comparison → Kind
  | gt => .gt
  | gte => .gte
  | lt => .lt
  | lte => .lte

/-- The kind that a connective is read as. -/
def Connective.kind : Connective → Kind
  | and => .and
  | or => .or

/-- The node of a connective. -/
def Connective.label : Connective → Nonterminal
  | and => .and
  | or => .or

/-- Whether a term stands under an ordering. -/
def isCompared : Option TermOperator → Bool
  | some (.compare _) => true
  | _ => false

/-- The leaf of a text, which under an ordering is its number if it spells one. -/
def textLeaf (compared : Bool) (text : String) : Tree :=
  match if compared then Decimal.readFinite text.toList else none with
  | some x => .leaf ⟨.number, .number x, 0⟩
  | none => .leaf (.ofText .searchTerm text 0)

/-- The leaf of a number, which is a text unless it stands under an ordering. -/
def numberLeaf (compared : Bool) (x : Float) : Tree :=
  if compared then .leaf ⟨.number, .number x, 0⟩
  else .leaf (.ofText .searchTerm (Decimal.Layout.query.text x) 0)

/-- A tree as a list of its own. -/
def listOf : Option Tree → Tree
  | none => .node .list []
  | some t => .node .list [t, .node .list []]

/-- A list in parentheses. -/
def inParens (list : Tree) : List Tree := [mark .lparen, list, mark .rparen]

/-- An operand after its operator. -/
def underOperator (operator : Option TermOperator) (operand : List Tree) : Tree :=
  match operator with
  | none => .node .term [.node .searchTerm operand]
  | some .exclude => .node .term [mark .exclude, .node .searchTerm operand]
  | some (.compare op) => .node .term (.node .comparison [mark op.kind] :: operand)

/-- A term at its scope. -/
def atPath (scope : Option String) (t : Tree) : Tree :=
  match scope with
  | none => .node .searchType [t]
  | some path =>
    .node .searchType [.node .group
      [.leaf (.ofText .searchTerm path 0), mark .groupTerminator, t]]

/-- What stands to the left of a connective: a single search, or anything else in parentheses. -/
def leftOperand : Tree → Tree
  | .node .search [.node .searchType children] => .node .searchType children
  | t => .node .searchType [.node .term [.node .searchTerm (inParens (listOf (some t)))]]

/-- Two trees with a connective between them. -/
def joined (lhs : Tree) (c : Connective) (rhs : Tree) : Tree :=
  .node .search [.node c.label [leftOperand lhs, mark c.kind, rhs]]

/-- A search added to what stands so far. -/
def joinedTo (sofar : Option Tree) (waiting : Connective) (next : Tree) : Tree :=
  match sofar with
  | none => next
  | some lhs => joined lhs waiting next

/-- A search with its scope and operator. -/
def searchTree (options : SearchOptions) (operand : List Tree) : Tree :=
  .node .search [atPath options.scope (underOperator options.operator operand)]

mutual

/-- What is searched for as the operand of an operator. -/
def Wanted.trees (compared : Bool) : Wanted → List Tree
  | .text text => [textLeaf compared text]
  | .number amount => [numberLeaf compared amount]
  | .group calls => inParens (listOf (described none .and calls))

/-- The tree that calls describe, after what stands so far and the connective that waits: the last one
    since the last search, or else the conjunction. -/
def described (sofar : Option Tree) (waiting : Connective) : List Call → Option Tree
  | [] => sofar
  | .connect c :: calls => described sofar c calls
  | .search wanted options :: calls =>
    let operand := wanted.trees (isCompared options.operator)
    described (some (joinedTo sofar waiting (searchTree options operand))) .and calls

end

/-- The query that calls describe. -/
def treeOf (calls : List Call) : Tree := listOf (described none .and calls)

end RecordSearch.Search
