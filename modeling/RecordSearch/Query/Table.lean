import RecordSearch.Query.Grammar.Items

/-! Parse tables. In each state a lookahead may have one action: shift it, reduce by a production
    that is complete in the state and may be followed by the lookahead, or accept. A grammar in
    which two actions compete for one place has no table. -/

namespace RecordSearch.Query

/-- What the parser does on a lookahead. -/
inductive Action where
  | shift (state : Nat)
  | reduce (production : Nat)
  | accept
  deriving DecidableEq, Repr

/-- How an error message shows an action. -/
def Action.text : Action → String
  | .shift state => "Shift(" ++ toString state ++ ")"
  | .reduce production => "Reduce(" ++ toString production ++ ")"
  | .accept => "Accept"

/-- Two actions that compete for one place. -/
structure Conflict where
  state : Nat
  lookahead : Lookahead
  existing : Action
  incoming : Action

/-- The message of a conflict. -/
def Conflict.message (c : Conflict) : String :=
  "conflict in state " ++ toString c.state ++ " on " ++ c.lookahead.text ++ ": "
    ++ c.existing.text ++ " vs " ++ c.incoming.text

/-- The entries of one state. -/
structure Row where
  actions : List (Lookahead × Action)
  gotos : List (Nonterminal × Nat)

/-- The actions and gotos of a grammar, by state. -/
structure Table where
  productions : List Production
  rows : List Row

namespace Table

/-- The action of a state on a lookahead. -/
def action (t : Table) (state : Nat) (lookahead : Lookahead) : Option Action :=
  (t.rows[state]?).bind fun row => row.actions.lookup lookahead

/-- The state to enter after reducing to a nonterminal. -/
def goto (t : Table) (state : Nat) (label : Nonterminal) : Option Nat :=
  (t.rows[state]?).bind fun row => row.gotos.lookup label

/-- The lookaheads with an action in a state, in column order. -/
def expected (t : Table) (state : Nat) : List Lookahead :=
  Lookahead.all.filter fun l => (t.action state l).isSome

/-- Puts an action in its place, unless another one is there. -/
def place (state : Nat) (actions : List (Lookahead × Action)) :
    Lookahead × Action → Except Conflict (List (Lookahead × Action))
  | (lookahead, incoming) =>
    match actions.lookup lookahead with
    | none => .ok (actions ++ [(lookahead, incoming)])
    | some existing =>
      if existing = incoming then .ok actions
      else .error ⟨state, lookahead, existing, incoming⟩

/-- The shifts that the transitions of a state give. -/
def shifts (transitions : List (Symbol × Nat)) : List (Lookahead × Action) :=
  transitions.filterMap fun
    | (.terminal k, target) => some (.token k, .shift target)
    | (.nonterminal _, _) => none

/-- The gotos that the transitions of a state give. -/
def gotos (transitions : List (Symbol × Nat)) : List (Nonterminal × Nat) :=
  transitions.filterMap fun
    | (.terminal _, _) => none
    | (.nonterminal n, target) => some (n, target)

/-- What the complete items of a state ask for, in the order of items. -/
def reductions (g : Grammar) (follow : List (Nonterminal × Lookahead)) (state : List Item) :
    List (Lookahead × Action) :=
  (state.filter g.isComplete).flatMap fun i =>
    match g.productions[i.production]? with
    | some p => (Grammar.followOf follow p.lhs).map fun l => (l, .reduce i.production)
    | none => [(.endOfInput, .accept)]

/-- The rows of the states from the given number on. -/
def buildRows (g : Grammar) (follow : List (Nonterminal × Lookahead)) :
    Nat → List (List Item × List (Symbol × Nat)) → Except Conflict (List Row)
  | _, [] => .ok []
  | number, (state, transitions) :: rest => do
    let actions ← (shifts transitions ++ reductions g follow state).foldlM (place number) []
    let rows ← buildRows g follow (number + 1) rest
    return ⟨actions, gotos transitions⟩ :: rows

/-- The table of a grammar, or the first conflict that stands against it. -/
def build (g : Grammar) : Except Conflict Table := do
  let c := g.collection
  let rows ← buildRows g g.follow 0 (c.states.zip c.transitions)
  return ⟨g.productions, rows⟩

/-- The table that was built; it is empty if there was a conflict. -/
def built : Except Conflict Table → Table
  | .ok t => t
  | .error _ => ⟨[], []⟩

/-- The table of the query grammar, which has no conflict. -/
def query : Table := built (build Grammar.query)

end Table

end RecordSearch.Query
