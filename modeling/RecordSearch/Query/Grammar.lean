import RecordSearch.Query.Kind

/-! Context-free grammars over the token kinds and nine nonterminals, and the grammar of queries
    among them. A query is a list of searches; a search is a conjunction, a disjunction or a single
    term, which may have a scope, a negation or a comparison. -/

namespace RecordSearch.Query

/-- The syntactic categories of queries. -/
inductive Nonterminal where
  | list
  | search
  | and
  | or
  | searchType
  | group
  | term
  | searchTerm
  | comparison
  deriving DecidableEq, Repr

namespace Nonterminal

/-- Every nonterminal, in column order. -/
def all : List Nonterminal :=
  [list, search, and, or, searchType, group, term, searchTerm, comparison]

/-- The column of a nonterminal. -/
def index (n : Nonterminal) : Nat := all.idxOf n

/-- The name of a nonterminal in a printed tree. -/
def name : Nonterminal → String
  | list => "S"
  | search => "Search"
  | and => "And"
  | or => "Or"
  | searchType => "SearchType"
  | group => "Group"
  | term => "Term"
  | searchTerm => "SearchTerm"
  | comparison => "CmpOp"

theorem mem_all (n : Nonterminal) : n ∈ all := by cases n <;> decide

end Nonterminal

/-- A symbol on the right of a production. -/
inductive Symbol where
  | terminal (kind : Kind)
  | nonterminal (label : Nonterminal)
  deriving DecidableEq, Repr

namespace Symbol

/-- Every symbol, the terminals first. -/
def all : List Symbol := Kind.all.map terminal ++ Nonterminal.all.map nonterminal

/-- How a production shows a symbol. -/
def text : Symbol → String
  | terminal k => k.text
  | nonterminal n => n.name

theorem mem_all (s : Symbol) : s ∈ all := by
  cases s with
  | terminal k => simp [all, Kind.mem_all]
  | nonterminal n => simp [all, Nonterminal.mem_all]

end Symbol

/-- A rule that rewrites a nonterminal into a sequence of symbols. -/
structure Production where
  lhs : Nonterminal
  rhs : List Symbol
  deriving DecidableEq, Repr

/-- The text of a production. -/
def Production.text (p : Production) : String :=
  let rhs := if p.rhs.isEmpty then ["ε"] else p.rhs.map Symbol.text
  " ".intercalate (p.lhs.name :: "→" :: rhs)

/-- A start symbol and numbered productions. -/
structure Grammar where
  start : Nonterminal
  productions : List Production
  deriving DecidableEq, Repr

open Nonterminal in
/-- The grammar of queries. -/
def Grammar.query : Grammar where
  start := list
  productions := [
    ⟨list, [.nonterminal search, .nonterminal list]⟩,
    ⟨list, []⟩,
    ⟨search, [.nonterminal and]⟩,
    ⟨search, [.nonterminal or]⟩,
    ⟨search, [.nonterminal searchType]⟩,
    ⟨and, [.nonterminal searchType, .terminal .and, .nonterminal search]⟩,
    ⟨or, [.nonterminal searchType, .terminal .or, .nonterminal search]⟩,
    ⟨searchType, [.nonterminal group]⟩,
    ⟨searchType, [.nonterminal term]⟩,
    ⟨group, [.terminal .searchTerm, .terminal .groupTerminator, .nonterminal term]⟩,
    ⟨term, [.nonterminal searchTerm]⟩,
    ⟨term, [.terminal .exclude, .nonterminal searchTerm]⟩,
    ⟨term, [.nonterminal comparison, .terminal .number]⟩,
    ⟨term, [.nonterminal comparison, .terminal .searchTerm]⟩,
    ⟨searchTerm, [.terminal .searchTerm]⟩,
    ⟨searchTerm, [.terminal .lparen, .nonterminal list, .terminal .rparen]⟩,
    ⟨comparison, [.terminal .gt]⟩,
    ⟨comparison, [.terminal .lt]⟩,
    ⟨comparison, [.terminal .gte]⟩,
    ⟨comparison, [.terminal .lte]⟩]

end RecordSearch.Query
