import RecordSearch.Query.Grammar.Items

/-! How the analysis of a grammar and its states come about, loop by loop. A pass goes through the
    productions in order and adds at once what each of them gives, so that the next ones go by it;
    passes are repeated until one changes nothing. A state is closed with a stack of items that are
    still to be expanded. The selections of `Grammar.Analysis` and the states of `Grammar.Items` are
    what these loops end with. -/

namespace RecordSearch.Query

/-- A selection of a domain with what more there is. -/
def enlarge {α : Type} [DecidableEq α] (domain : List α) (more : α → Bool) (s : List α) : List α :=
  domain.filter fun a => s.contains a || more a

/-- Repeats a pass until it changes nothing. -/
def settle {σ : Type} [DecidableEq σ] (pass : σ → σ) : (fuel : Nat) → σ → σ
  | 0, s => s
  | fuel + 1, s =>
    let t := pass s
    if t = s then s else settle pass fuel t

namespace Grammar

/-! ### Passes -/

/-- What is known of the beginnings of what nonterminals derive: which derive nothing at all, and
    which tokens may come first. -/
structure Beginnings where
  nullable : List Nonterminal
  first : List (Nonterminal × Kind)
  deriving DecidableEq

/-- Adds what a production gives by what was known before it. -/
def Beginnings.visit (b : Beginnings) (p : Production) : Beginnings where
  nullable := enlarge Nonterminal.all (fun n => p.lhs = n && allAmong b.nullable p.rhs) b.nullable
  first := enlarge firstDomain
    (fun (n, k) => p.lhs = n && begins b.nullable b.first k p.rhs) b.first

/-- One pass over the productions. -/
def passFirst (g : Grammar) (b : Beginnings) : Beginnings := g.productions.foldl Beginnings.visit b

/-- A nonterminal on the right of a production of `lhs`, and the symbols after it. -/
structure Place where
  lhs : Nonterminal
  label : Nonterminal
  rest : List Symbol

/-- The nonterminals of a sequence, in order. -/
def placesIn (lhs : Nonterminal) : List Symbol → List Place
  | [] => []
  | .terminal _ :: rest => placesIn lhs rest
  | .nonterminal n :: rest => ⟨lhs, n, rest⟩ :: placesIn lhs rest

/-- The nonterminals on the right of the productions, in order. -/
def places (g : Grammar) : List Place := g.productions.flatMap fun p => placesIn p.lhs p.rhs

/-- Whether a lookahead may come before the given symbols are at an end, or right after them. -/
def Beginnings.comesNext (b : Beginnings) (after : Bool) (l : Lookahead) (rest : List Symbol) : Bool :=
  after && allAmong b.nullable rest ||
    match l with
    | .token k => begins b.nullable b.first k rest
    | .endOfInput => false

/-- Adds what may follow the nonterminal at a place, by what may follow the production. -/
def Beginnings.visitPlace (b : Beginnings) (s : List (Nonterminal × Lookahead)) (place : Place) :
    List (Nonterminal × Lookahead) :=
  enlarge followDomain (fun (n, l) => place.label = n &&
    b.comesNext (s.contains (place.lhs, l)) l place.rest) s

/-- One pass over the places of the productions. -/
def passFollow (g : Grammar) (b : Beginnings) (s : List (Nonterminal × Lookahead)) :
    List (Nonterminal × Lookahead) := g.places.foldl b.visitPlace s

/-- The passes for the beginnings, and then those for the lookaheads that follow. -/
def analyse (g : Grammar) (fuel : Nat) : Beginnings × List (Nonterminal × Lookahead) :=
  let b := settle g.passFirst fuel ⟨[], []⟩
  (b, settle (g.passFollow b) fuel [(g.start, .endOfInput)])

/-! ### Pending items -/

/-- The items with the dot at the start of a production of a nonterminal. -/
def openings (g : Grammar) (n : Nonterminal) : List Item :=
  ((List.range g.productions.length).filter fun j => (g.productions[j]?).any (·.lhs = n)).map (⟨·, 0⟩)

/-- What an item adds to some items. -/
def added (g : Grammar) (items : List Item) (i : Item) : List Item :=
  match g.nonterminalAfterDot i with
  | some n => (g.openings n).filter fun j => !items.contains j
  | none => []

/-- Expands the item that is on top of the stack until there is none. What it adds is put on the stack. -/
def expandAll (g : Grammar) : (fuel : Nat) → (pending items : List Item) → List Item
  | 0, _, items => items
  | _ + 1, [], items => items
  | fuel + 1, i :: pending, items =>
    let new := g.added items i
    expandAll g fuel (new.reverse ++ pending) (items ++ new)

/-- The state that comes of expanding a kernel, its items in order. -/
def expandKernel (g : Grammar) (fuel : Nat) (kernel : List Item) : List Item :=
  let items := g.expandAll fuel kernel.reverse kernel
  g.items.filter fun i => items.contains i

end Grammar

end RecordSearch.Query
