import RecordSearch.Query.Grammar.Analysis

/-! The states of a shift-reduce parser. An item is a production with a dot that tells how much of
    it has been seen; one production more, numbered past the last, leads to the start symbol. A
    state is a set of items, listed in the order of their numbers, that holds with a dot before a
    nonterminal also every production of it with the dot at its start. The states are found from
    the first one breadth first, by advancing the dot over each symbol in turn. -/

namespace RecordSearch.Query

/-- A production, by its number, and how many symbols of it have been seen. -/
structure Item where
  production : Nat
  dot : Nat
  deriving DecidableEq, Repr

/-- The item with one symbol more seen. -/
def Item.advance (i : Item) : Item := ⟨i.production, i.dot + 1⟩

/-- States by number, and for each the state that every symbol leads to. -/
structure Collection where
  states : List (List Item)
  transitions : List (List (Symbol × Nat))

namespace Grammar

/-- The number of the production that leads to the start symbol. -/
def goal (g : Grammar) : Nat := g.productions.length

/-- The right side of a production, the added one included. -/
def rhsOf (g : Grammar) (production : Nat) : List Symbol :=
  match g.productions[production]? with
  | some p => p.rhs
  | none => [.nonterminal g.start]

/-- The symbol after the dot. -/
def afterDot (g : Grammar) (i : Item) : Option Symbol := (g.rhsOf i.production)[i.dot]?

/-- Whether the dot is at the end. -/
def isComplete (g : Grammar) (i : Item) : Bool := i.dot = (g.rhsOf i.production).length

/-- Every item of a grammar in the order of numbers. -/
def items (g : Grammar) : List Item :=
  (List.range (g.productions.length + 1)).flatMap fun p =>
    (List.range ((g.rhsOf p).length + 1)).map fun dot => ⟨p, dot⟩

/-- The nonterminals whose productions a state expands, from those after its dots. -/
def expanded (g : Grammar) (seeds : List Nonterminal) : List Nonterminal :=
  closureOf Nonterminal.all
    (fun ns n => g.productions.any fun p =>
      ns.contains p.lhs && p.rhs.head? = some (.nonterminal n))
    seeds

/-- The nonterminal after the dot. -/
def nonterminalAfterDot (g : Grammar) (i : Item) : Option Nonterminal :=
  match g.afterDot i with
  | some (.nonterminal n) => some n
  | _ => none

/-- The items and, with a dot before a nonterminal, the productions of it. -/
def close (g : Grammar) (kernel : List Item) : List Item :=
  let ns := g.expanded (kernel.filterMap g.nonterminalAfterDot)
  g.items.filter fun i => kernel.contains i ||
    i.dot = 0 && (g.productions[i.production]?).any fun p => ns.contains p.lhs

/-- The first state. -/
def initial (g : Grammar) : List Item := g.close [⟨g.goal, 0⟩]

/-- The items of a state whose dot may advance over a symbol, advanced. -/
def kernelAfter (g : Grammar) (state : List Item) (symbol : Symbol) : List Item :=
  (state.filter fun i => g.afterDot i = some symbol).map Item.advance

/-- The number of a state among the known ones, to which it is added if it is new. -/
def number (states : List (List Item)) (state : List Item) : List (List Item) × Nat :=
  match states.idxOf? state with
  | some n => (states, n)
  | none => (states ++ [state], states.length)

/-- The transitions of a state over the given symbols, and the states known after that. -/
def successors (g : Grammar) (state : List Item) :
    List Symbol → List (List Item) → List (List Item) × List (Symbol × Nat)
  | [], states => (states, [])
  | symbol :: rest, states =>
    let kernel := g.kernelAfter state symbol
    if kernel.isEmpty then g.successors state rest states
    else
      let (states, target) := number states (g.close kernel)
      let (states, transitions) := g.successors state rest states
      (states, (symbol, target) :: transitions)

/-- Goes on with the first state that has no transitions yet. -/
def collect (g : Grammar) : Nat → Collection → Collection
  | 0, c => c
  | fuel + 1, c =>
    match c.states[c.transitions.length]? with
    | none => c
    | some state =>
      let (states, transitions) := g.successors state Symbol.all c.states
      g.collect fuel ⟨states, c.transitions ++ [transitions]⟩

/-- All states and transitions. There are at most as many states as there are sets of items. -/
def collection (g : Grammar) : Collection :=
  g.collect (Nat.pow 2 g.items.length + 1) ⟨[g.initial], []⟩

end Grammar

end RecordSearch.Query
