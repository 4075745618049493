import RecordSearch.Proofs.Search.Calls

/-! A query under construction is a left fold. Calls fall into rounds, each a search with the connectives
    called since the search before, and connectives after the last search. Whatever the calls, the
    stack holds at most one expression and at most one connective on top of it (`stackOf`). The
    expression joins the searches of the rounds from left to right, each by the last connective of its
    round, and its text is the text of the query (`Builder.stack_ofCalls`). -/

namespace RecordSearch.Search

/-- A search with the connectives called since the search before. -/
structure Round where
  connectives : List Connective
  wanted : Wanted
  options : SearchOptions

namespace Round

/-- The calls of a round. -/
def calls (r : Round) : List Call := r.connectives.map .connect ++ [.search r.wanted r.options]

/-- What a round searches for. -/
def expression (r : Round) : Expression := .search r.wanted.operand r.options

/-- The last connective of a round, or else the conjunction. -/
def connective (r : Round) : Connective := r.connectives.getLastD .and

/-- An expression with the search of a round joined to it. -/
def joinedTo (lhs : Expression) (r : Round) : Expression := .joined lhs r.connective r.expression

/-- The searches of rounds joined from left to right. The connectives of the first round join nothing. -/
def combined : List Round → Option Expression
  | [] => none
  | first :: more => some (more.foldl joinedTo first.expression)

end Round

/-- Every sequence of calls falls into rounds and the connectives after the last search. -/
theorem exists_rounds : ∀ calls : List Call, ∃ (rounds : List Round) (trailing : List Connective),
    calls = rounds.flatMap Round.calls ++ trailing.map .connect
  | [] => ⟨[], [], rfl⟩
  | .search wanted options :: calls => by
      obtain ⟨rounds, trailing, rfl⟩ := exists_rounds calls
      exact ⟨⟨[], wanted, options⟩ :: rounds, trailing, rfl⟩
  | .connect c :: calls => by
      obtain ⟨rounds, trailing, rfl⟩ := exists_rounds calls
      -- a connective belongs to the search after it, if there is one
      cases rounds with
      | nil => exact ⟨[], c :: trailing, rfl⟩
      | cons r rounds =>
        exact ⟨⟨c :: r.connectives, r.wanted, r.options⟩ :: rounds, trailing, rfl⟩

/-! ### The stack -/

/-- The stack that holds an expression, if there is one, and a connective that waits after it. -/
def stackOf : Option Expression → Option Connective → List Entry
  | none, _ => []
  | some e, none => [.expression e]
  | some e, some c => [.connective c, .expression e]

section Calls

variable {b : Builder} {sofar : Option Expression} {waiting : Option Connective}

/-- A connective replaces the one that waits. -/
theorem stack_connect (h : b.stack = stackOf sofar waiting) (c : Connective) :
    (b.connect c).stack = stackOf sofar (some c) := by
  rcases sofar with _ | e
  · simp [Builder.connect, h, stackOf]
  · rcases waiting with _ | c' <;> simp [Builder.connect, h, stackOf]

/-- The first search is an expression of its own. -/
theorem stack_search_first (h : b.stack = stackOf none waiting) (operand : Operand)
    (options : SearchOptions) :
    (b.search operand options).stack = stackOf (some (.search operand options)) none := by
  simp [Builder.search, Builder.implyAnd, Builder.fold, h, stackOf]

/-- Another search is joined by the connective that waits, or else by conjunction. -/
theorem stack_search_next {lhs : Expression} (h : b.stack = stackOf (some lhs) waiting)
    (operand : Operand) (options : SearchOptions) :
    (b.search operand options).stack =
      stackOf (some (.joined lhs (waiting.getD .and) (.search operand options))) none := by
  rcases waiting with _ | c <;> simp [Builder.search, Builder.implyAnd, Builder.fold, h, stackOf]

theorem after_append (calls' : List Call) : ∀ (calls : List Call) (b : Builder),
    b.after (calls ++ calls') = (b.after calls).after calls'
  | [], b => by rw [List.nil_append, Builder.after]
  | .search wanted options :: calls, b => by
      rw [List.cons_append, Builder.after, Builder.after, after_append calls' calls]
  | .connect c :: calls, b => by
      rw [List.cons_append, Builder.after, Builder.after, after_append calls' calls]

/-- Of several connectives the last one waits. -/
theorem stack_after_connects : ∀ (cs : List Connective) {b : Builder} {waiting : Option Connective},
    b.stack = stackOf sofar waiting →
      (b.after (cs.map .connect)).stack = stackOf sofar (cs.getLast?.or waiting)
  | [], b, waiting, h => by
      rw [List.map_nil, Builder.after]
      exact h
  | c :: cs, b, waiting, h => by
      have hlast : (c :: cs).getLast?.or waiting = cs.getLast?.or (some c) := by
        rw [List.getLast?_cons, Option.some_or]
        cases cs.getLast? <;> rfl
      rw [List.map_cons, Builder.after, hlast]
      exact stack_after_connects cs (stack_connect h c)

/-- The first round leaves its search on the stack. -/
theorem stack_after_first (r : Round) :
    (Builder.empty.after r.calls).stack = stackOf (some r.expression) none := by
  have hempty : Builder.empty.stack = stackOf none none := rfl
  have hconnects := stack_after_connects r.connectives hempty
  rw [Round.calls, after_append, Builder.after, Builder.after]
  exact stack_search_first hconnects r.wanted.operand r.options

/-- A round joins its search to the expression on the stack. -/
theorem stack_after_round {lhs : Expression} (h : b.stack = stackOf (some lhs) none) (r : Round) :
    (b.after r.calls).stack = stackOf (some (r.joinedTo lhs)) none := by
  have hconnects := stack_after_connects r.connectives h
  have hconnective : (r.connectives.getLast?.or none).getD .and = r.connective := by
    rw [Option.or_none, Round.connective, List.getLastD_eq_getLast?]
  rw [Round.calls, after_append, Builder.after, Builder.after,
    stack_search_next hconnects r.wanted.operand r.options, hconnective]
  rfl

/-- Rounds fold their searches into the expression on the stack. -/
theorem stack_after_rounds : ∀ (rounds : List Round) {b : Builder} {lhs : Expression},
    b.stack = stackOf (some lhs) none →
      (b.after (rounds.flatMap Round.calls)).stack =
        stackOf (some (rounds.foldl Round.joinedTo lhs)) none
  | [], b, lhs, h => by
      rw [List.flatMap_nil, Builder.after]
      exact h
  | r :: rounds, b, lhs, h => by
      rw [List.flatMap_cons, after_append, List.foldl_cons]
      exact stack_after_rounds rounds (stack_after_round h r)

/-- From the first call on, rounds leave their searches joined from left to right. -/
theorem stack_ofCalls_rounds : ∀ rounds : List Round,
    (Builder.ofCalls (rounds.flatMap Round.calls)).stack = stackOf (Round.combined rounds) none
  | [] => rfl
  | first :: more => by
      rw [Builder.ofCalls, List.flatMap_cons, after_append]
      exact stack_after_rounds more (stack_after_first first)

/-! ### The query -/

/-- A query is written as the expression on its stack. -/
theorem text_of_stack (h : b.stack = stackOf sofar waiting) :
    b.text = (sofar.map Expression.written).getD "" := by
  rcases sofar with _ | e
  · simp [Builder.text, h, stackOf, writtenEntries]
  · rcases waiting with _ | c <;> simp [Builder.text, h, stackOf, writtenEntries]

theorem isEmpty_of_stack (h : b.stack = stackOf sofar waiting) : b.isEmpty = sofar.isNone := by
  rcases sofar with _ | e
  · simp [Builder.isEmpty, h, stackOf]
  · rcases waiting with _ | c <;> simp [Builder.isEmpty, h, stackOf]

end Calls

/-- Any calls are rounds with connectives after them. The stack holds the searches of the rounds joined
    from left to right, each by the last connective of its round, and the last connective after them;
    the text is that of the expression alone, and the query is empty if there is none. -/
theorem Builder.stack_ofCalls (calls : List Call) :
    ∃ (rounds : List Round) (trailing : List Connective),
      calls = rounds.flatMap Round.calls ++ trailing.map .connect ∧
      (Builder.ofCalls calls).stack = stackOf (Round.combined rounds) trailing.getLast? ∧
      (Builder.ofCalls calls).text = ((Round.combined rounds).map Expression.written).getD "" ∧
      (Builder.ofCalls calls).isEmpty = (Round.combined rounds).isNone := by
  obtain ⟨rounds, trailing, hcalls⟩ := exists_rounds calls
  have hstack : (Builder.ofCalls calls).stack =
      stackOf (Round.combined rounds) trailing.getLast? := by
    have htrailing := stack_after_connects trailing (stack_ofCalls_rounds rounds)
    rw [Option.or_none] at htrailing
    rw [hcalls, Builder.ofCalls, after_append]
    exact htrailing
  exact ⟨rounds, trailing, hcalls, hstack, text_of_stack hstack, isEmpty_of_stack hstack⟩

end RecordSearch.Search
