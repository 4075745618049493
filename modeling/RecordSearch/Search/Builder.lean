import RecordSearch.Search.Flags
import RecordSearch.Query.Token
import RecordSearch.Text.Escaped

/-! Queries put together by calls. Calls work on a stack: a search is pushed, after a conjunction if
    no connective waits, and as soon as an expression, a connective and an expression lie on top
    they become one expression. The text of the stack is the query; `check` refuses terms whose
    text would be read as something else. -/

namespace RecordSearch.Search

open RecordSearch.Query (quoteTerm)

/-- What may stand before a term. -/
inductive TermOperator where
  | exclude
  | compare (operator : Comparison)
  deriving DecidableEq, Repr

/-- The operator as written in a query. -/
def TermOperator.symbol : TermOperator → String
  | exclude => "!"
  | compare operator => operator.symbol

/-- What a search call may ask for beside its term. -/
structure SearchOptions where
  scope : Option String
  operator : Option TermOperator
  deriving DecidableEq, Repr

mutual

/-- What is searched for: a text, a number or a query of its own, given by its stack. -/
inductive Operand where
  | text (text : String)
  | number (amount : Float)
  | group (stack : List Entry)

/-- A search, or two expressions joined by a connective. -/
inductive Expression where
  | search (operand : Operand) (options : SearchOptions)
  | joined (lhs : Expression) (connective : Connective) (rhs : Expression)

/-- What lies on the stack: a finished expression, or a connective that waits for its second
    operand. -/
inductive Entry where
  | expression (e : Expression)
  | connective (c : Connective)

end

/-- A query under construction; the top of the stack comes first. -/
structure Builder where
  stack : List Entry

namespace Builder

/-- No calls yet. -/
def empty : Builder := ⟨[]⟩

/-- Joins expressions on top of the stack with the connectives between them. -/
def fold : List Entry → List Entry
  | .expression rhs :: .connective c :: .expression lhs :: rest =>
    .expression (.joined lhs c rhs) :: rest
  | stack => stack

/-- Puts the conjunction that is meant between two expressions without a connective. -/
def implyAnd : List Entry → List Entry
  | .expression e :: rest => .connective .and :: .expression e :: rest
  | stack => stack

/-- Adds a search. -/
def search (operand : Operand) (options : SearchOptions) (b : Builder) : Builder :=
  ⟨fold (.expression (.search operand options) :: implyAnd b.stack)⟩

/-- Adds a connective, in place of one that already waits. Before the first search it is dropped. -/
def connect (c : Connective) (b : Builder) : Builder :=
  match b.stack with
  | .connective _ :: rest => ⟨.connective c :: rest⟩
  | .expression e :: rest => ⟨.connective c :: .expression e :: rest⟩
  | [] => b

/-- Joins the next search by conjunction. -/
def and : Builder → Builder := connect .and

/-- Joins the next search by disjunction. -/
def or : Builder → Builder := connect .or

/-- Whether nothing is searched for yet. -/
def isEmpty (b : Builder) : Bool :=
  b.stack.all fun
    | .expression _ => false
    | .connective _ => true

end Builder

/-! ### The text of a query -/

/-- The scope of a search as written in a query. -/
def scopeText (options : SearchOptions) : String :=
  match options.scope with
  | some path => quoteTerm path ++ ":"
  | none => ""

/-- The operator of a search as written in a query. -/
def operatorText (options : SearchOptions) : String :=
  match options.operator with
  | some operator => operator.symbol
  | none => ""

/-- The left operand of a connective, in parentheses if it is joined itself. -/
def leftText (lhs : Expression) (text : String) : String :=
  match lhs with
  | .joined .. => "(" ++ text ++ ")"
  | .search .. => text

mutual

/-- An operand as written in a query. -/
def Operand.written : Operand → String
  | .text text => quoteTerm text
  | .number amount => Decimal.Layout.query.text amount
  | .group stack => "(" ++ " ".intercalate (writtenEntries stack).reverse ++ ")"

/-- An expression as written in a query. -/
def Expression.written : Expression → String
  | .search operand options => scopeText options ++ operatorText options ++ operand.written
  | .joined lhs c rhs => leftText lhs lhs.written ++ " " ++ c.keyword ++ " " ++ rhs.written

/-- The expressions of a stack as written in a query; waiting connectives are not written. -/
def writtenEntries : List Entry → List String
  | [] => []
  | .expression e :: rest => e.written :: writtenEntries rest
  | .connective _ :: rest => writtenEntries rest

end

/-- The text of the query. -/
def Builder.text (b : Builder) : String := " ".intercalate (writtenEntries b.stack).reverse

/-! ### Terms that cannot be written -/

/-- Why a term cannot be written. -/
inductive Reason where
  | doubleQuote
  | blank
  | notFinite
  | comparedGroup
  deriving DecidableEq, Repr

/-- The wording of a reason. -/
def Reason.text : Reason → String
  | doubleQuote => "double quotes cannot be escaped"
  | blank => "blank terms are dropped by the lexer"
  | notFinite => "only finite numbers are written as numbers"
  | comparedGroup => "comparisons apply to single terms, not groups"

/-- A term that cannot be written, and why. -/
structure Unrepresentable where
  term : String
  reason : Reason
  deriving DecidableEq, Repr

/-- The message about a term that cannot be written. -/
def Unrepresentable.message (u : Unrepresentable) : String :=
  "cannot express " ++ Text.escape u.term ++ " in a query: " ++ u.reason.text

/-- Refuses text that no quoting carries through. -/
def checkText (text : String) : Except Unrepresentable Unit :=
  if text.toList.contains '"' then .error ⟨text, .doubleQuote⟩
  else if Text.isBlankText text.toList then .error ⟨text, .blank⟩
  else .ok ()

/-- Refuses a scope that cannot be written. -/
def checkScope (options : SearchOptions) : Except Unrepresentable Unit :=
  match options.scope with
  | some path => checkText path
  | none => .ok ()

mutual

/-- Refuses an operand that cannot be written after an operator. -/
def Operand.check (operator : Option TermOperator) : Operand → Except Unrepresentable Unit
  | .text text => checkText text
  | .number amount =>
    if Decimal.isFinite amount then .ok ()
    else .error ⟨Decimal.Layout.query.text amount, .notFinite⟩
  | .group stack =>
    match operator with
    | some (.compare op) =>
      .error ⟨op.symbol ++ (Operand.group stack).written, .comparedGroup⟩
    | _ => checkEntries stack

/-- Refuses an expression with something in it that cannot be written, the first from the left. -/
def Expression.check : Expression → Except Unrepresentable Unit
  | .search operand options => do
    checkScope options
    operand.check options.operator
  | .joined lhs _ rhs => do
    lhs.check
    rhs.check

/-- Refuses a stack with something in it that cannot be written, the bottom first. -/
def checkEntries : List Entry → Except Unrepresentable Unit
  | [] => .ok ()
  | .expression e :: rest => do
    checkEntries rest
    e.check
  | .connective _ :: rest => checkEntries rest

end

/-- Refuses a query with something in it that cannot be written. -/
def Builder.check (b : Builder) : Except Unrepresentable Unit := checkEntries b.stack

end RecordSearch.Search
