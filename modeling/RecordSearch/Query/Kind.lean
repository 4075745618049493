/-! The kinds of token a query is made of. A lookahead is what the parser may see next: a token of
    some kind, or the end of the input. Both are numbered in the order of their declaration, which
    is the order of columns in a parse table. -/

namespace RecordSearch.Query

/-- The kinds of token. -/
inductive Kind where
  | searchTerm
  | groupTerminator
  | lparen
  | rparen
  | and
  | or
  | exclude
  | gt
  | gte
  | lt
  | lte
  | number
  deriving DecidableEq, Repr

namespace Kind

/-- Every kind, in column order. -/
def all : List Kind :=
  [searchTerm, groupTerminator, lparen, rparen, and, or, exclude, gt, gte, lt, lte, number]

/-- The column of a kind. -/
def index (k : Kind) : Nat := all.idxOf k

/-- The name of a kind in a printed tree. -/
def name : Kind → String
  | searchTerm => "SearchTerm"
  | groupTerminator => "GroupTerminator"
  | lparen => "LParen"
  | rparen => "RParen"
  | and => "And"
  | or => "Or"
  | exclude => "Exclude"
  | gt => "Gt"
  | gte => "Gte"
  | lt => "Lt"
  | lte => "Lte"
  | number => "Number"

/-- The one spelling of a punctuation mark or keyword; terms and numbers have none. -/
def literal : Kind → Option String
  | groupTerminator => some ":"
  | lparen => some "("
  | rparen => some ")"
  | and => some "AND"
  | or => some "OR"
  | exclude => some "!"
  | gt => some ">"
  | gte => some ">="
  | lt => some "<"
  | lte => some "<="
  | searchTerm => none
  | number => none

/-- The four orderings. -/
def isComparison : Kind → Bool
  | gt | gte | lt | lte => true
  | _ => false

/-- How an error message calls a kind. -/
def text : Kind → String
  | searchTerm => "search term"
  | number => "number"
  | and => "AND"
  | or => "OR"
  | k => "'" ++ k.literal.getD "" ++ "'"

theorem mem_all (k : Kind) : k ∈ all := by cases k <;> decide

end Kind

/-- What the parser may see next. -/
inductive Lookahead where
  | token (kind : Kind)
  | endOfInput
  deriving DecidableEq, Repr

namespace Lookahead

/-- Every lookahead, in column order. -/
def all : List Lookahead := Kind.all.map token ++ [endOfInput]

/-- The column of a lookahead. -/
def column : Lookahead → Nat
  | token k => k.index
  | endOfInput => Kind.all.length

/-- The lookahead of a column; every column past the kinds is the end of the input. -/
def ofColumn (column : Nat) : Lookahead :=
  match Kind.all[column]? with
  | some k => token k
  | none => endOfInput

/-- The name of a lookahead in a printed table. -/
def name : Lookahead → String
  | token k => k.name
  | endOfInput => "End"

/-- How an error message calls a lookahead. -/
def text : Lookahead → String
  | token k => k.text
  | endOfInput => "end of input"

theorem mem_all (l : Lookahead) : l ∈ all := by
  cases l with
  | token k => cases k <;> decide
  | endOfInput => decide

end Lookahead

end RecordSearch.Query
