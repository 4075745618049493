import Mathlib.Algebra.Order.BigOperators.Group.List
import Mathlib.Algebra.Order.Group.Nat
import Mathlib.Data.List.Infix
import RecordSearch.Proofs.Parsing.Completion

/-! Whether a parse without recovery ends. A reduction by an empty production puts a tree on the stack
    and takes no token, so there is no end in sight from the input alone. But each step makes one node
    more, and a stack that can be completed has no more nodes than the tree it becomes a part of. What
    the parser does up to a token does not depend on what comes after it, so one such tree is a bound
    for all stacks over the same tokens with a completion that goes on with the same kind
    (`exists_nodes_le`). Where a nonterminal derives no tokens a stack may have no completion, and the
    parser may not end (`parse_endless`). -/

namespace RecordSearch.Query

/-! ### Nodes -/

namespace Tree

mutual

/-- The number of nodes of a tree, its leaves included. -/
def nodes : Tree → Nat
  | leaf _ => 1
  | node _ children => nodesOf children + 1

/-- The number of nodes of several trees. -/
def nodesOf : List Tree → Nat
  | [] => 0
  | t :: ts => t.nodes + nodesOf ts

end

@[simp] theorem nodes_leaf (token : Token) : (leaf token).nodes = 1 := by simp [nodes]

@[simp] theorem nodes_node (label : Nonterminal) (children : List Tree) :
    (node label children).nodes = nodesOf children + 1 := by simp [nodes]

@[simp] theorem nodesOf_nil : nodesOf [] = 0 := by simp [nodesOf]

@[simp] theorem nodesOf_cons (t : Tree) (ts : List Tree) :
    nodesOf (t :: ts) = t.nodes + nodesOf ts := by simp [nodesOf]

@[simp] theorem nodesOf_append (ts us : List Tree) :
    nodesOf (ts ++ us) = nodesOf ts + nodesOf us := by
  induction ts with
  | nil => simp
  | cons t ts ih => simp [ih, Nat.add_assoc]

@[simp] theorem nodesOf_reverse (ts : List Tree) : nodesOf ts.reverse = nodesOf ts := by
  induction ts with
  | nil => rfl
  | cons t ts ih => simp [ih, Nat.add_comm]

end Tree

namespace Configuration

variable {σ : Type} {g : Grammar} {t : Table}

/-- The number of nodes made so far. -/
def nodes (c : Configuration σ) : Nat := Tree.nodesOf (c.stack.map Prod.snd)

/-- How many nodes may still be made within a bound. -/
def room (bound : Nat) (c : Configuration σ) : Nat := bound - c.nodes

/-- Every step that goes on makes one node. -/
theorem Move.nodes_eq {c c' : Configuration σ} (h : Move g t c (.next c')) :
    c'.nodes = c.nodes + 1 := by
  cases h with
  | shift input action => simp [nodes, Nat.add_comm]
  | reduce action production stack symbols goto =>
    simp [nodes, stack]
    omega

/-- A run that ends with a tree has made no more nodes than that has. -/
theorem nodes_le_of_run (ha : g.Automaton t) {c : Configuration σ} (hc : c.Valid g t) {fuel : Nat}
    {tree : Tree} {m : σ} (hrun : c.run t none fuel = some (.ok tree, m)) : c.nodes ≤ tree.nodes := by
  obtain ⟨last, ⟨hlast, hle⟩, hdone⟩ := run_invariant
    (P := fun c' => c'.Valid g t ∧ c.nodes ≤ c'.nodes)
    (fun d d' ⟨hd, hle⟩ hs => by
      have hmove := move_of_step ha hd hs (by simp)
      exact ⟨hmove.valid hd, hle.trans (hmove.nodes_eq.symm ▸ Nat.le_succ _)⟩)
    ⟨hc, Nat.le_refl _⟩ hrun
  have hmove := move_of_step ha hlast hdone (by simp)
  cases hmove with
  | accept stack input root => simpa [nodes, stack] using hle

/-! ### Bounds -/

/-- A stack has no more nodes than a tree to which another one over the same tokens is completed, if
    the completions of both go on with the same kind. -/
theorem CompletedBy.nodes_le (ha : g.Automaton t) {c d : Configuration Unit} {kinds kinds' : List Kind}
    {tree tree' : Tree} (hc : c.CompletedBy g t kinds tree) (hd : d.CompletedBy g t kinds' tree')
    (hshifted : d.shifted = c.shifted) (hhead : kinds'.head? = kinds.head?) : d.nodes ≤ tree.nodes := by
  obtain ⟨r, hreaches⟩ := hd.reaches
  obtain ⟨hvalid, hlocal⟩ := hreaches.invariant (P := fun c => c.Valid g t ∧ c.Local t)
    (fun c c' h hs => ⟨(move_of_step ha h.1 hs (by simp)).valid h.1, h.2.next ha h.1 hs⟩)
    ⟨.start _ _, .start _ _⟩
  have hcome : Reaches t none (start (c.shifted ++ plain kinds) ()) ⟨d.stack, plain kinds, r, ()⟩ := by
    cases kinds with
    | nil =>
      obtain rfl : kinds' = [] := List.head?_eq_none_iff.mp hhead
      exact hshifted ▸ hreaches
    | cons k rest =>
      obtain ⟨rest', rfl⟩ : ∃ rest', kinds' = k :: rest' := List.head?_eq_some_iff.mp hhead
      exact hshifted ▸ hlocal (.ofKind k 0) (plain rest') rfl (plain rest)
  obtain ⟨fuel, hrun⟩ : ∃ fuel, (start (c.shifted ++ plain kinds) ()).run t none fuel =
      some (.ok tree, ()) := run_of_isDerivation ha hc.isDerivation ()
  obtain ⟨_, hrest⟩ := hcome.run_eq hrun
  exact nodes_le_of_run (c := ⟨d.stack, plain kinds, r, ()⟩) ha ⟨hvalid.path, hvalid.conforms⟩ hrest

/-- One of the completions that go on with a kind, if there is any, bounds all the others. -/
theorem exists_nodes_le_of_head (ha : g.Automaton t) (tokens : List Token) (head : Option Kind) :
    ∃ bound, ∀ (c : Configuration Unit) (kinds : List Kind) (tree : Tree),
      c.CompletedBy g t kinds tree → c.shifted = tokens → kinds.head? = head → c.nodes ≤ bound := by
  by_cases hany : ∃ (c : Configuration Unit) (kinds : List Kind) (tree : Tree),
      c.CompletedBy g t kinds tree ∧ c.shifted = tokens ∧ kinds.head? = head
  · obtain ⟨c, kinds, tree, hc, rfl, rfl⟩ := hany
    exact ⟨tree.nodes, fun d kinds' tree' hd hshifted hhead => hc.nodes_le ha hd hshifted hhead⟩
  · exact ⟨0, fun c kinds tree hc hshifted hhead =>
      absurd ⟨c, kinds, tree, hc, hshifted, hhead⟩ hany⟩

/-- There is a bound on the stacks over any tokens, as their completions go on with one of finitely many
    kinds. -/
theorem exists_nodes_le (hbuild : Table.build g = .ok t) (hg : g.Productive) (tokens : List Token) :
    ∃ bound, ∀ c : Configuration Unit, c.Valid g t → c.shifted = tokens → c.nodes ≤ bound := by
  choose bound hbound using exists_nodes_le_of_head (Grammar.automaton_of_build hbuild) tokens
  have hheads : ∀ head : Option Kind, head ∈ none :: Kind.all.map some := by
    intro head
    cases head with
    | none => exact List.mem_cons_self
    | some k => exact List.mem_cons_of_mem _ (List.mem_map_of_mem (Kind.mem_all k))
  refine ⟨((none :: Kind.all.map some).map bound).sum, fun c hc hshifted => ?_⟩
  obtain ⟨kinds, tree, hcompleted⟩ := hc.exists_completedBy hbuild hg
  exact (hbound _ c kinds tree hcompleted hshifted rfl).trans
    (List.le_sum_of_mem (List.mem_map_of_mem (hheads kinds.head?)))

/-- There is a bound on the nodes that are made while some tokens are parsed. -/
theorem exists_nodes_le_along (hbuild : Table.build g = .ok t) (hg : g.Productive)
    (tokens : List Token) :
    ∃ bound, ∀ c : Configuration Unit, Along g t tokens c → c.nodes ≤ bound := by
  choose bound hbound using exists_nodes_le hbuild hg
  refine ⟨(tokens.inits.map bound).sum, fun c hc => ?_⟩
  have hprefix : c.shifted <+: tokens := ⟨c.input, hc.tokens_eq⟩
  exact (hbound c.shifted c hc.valid rfl).trans
    (List.le_sum_of_mem (List.mem_map_of_mem ((List.mem_inits _ _).mpr hprefix)))

theorem exists_run_of_productive (hbuild : Table.build g = .ok t) (hg : g.Productive)
    (tokens : List Token) : ∃ fuel r, (start tokens ()).run t none fuel = some r := by
  have ha := Grammar.automaton_of_build hbuild
  obtain ⟨bound, hbound⟩ := exists_nodes_le_along hbuild hg tokens
  have hstep : ∀ c c' : Configuration Unit, Along g t tokens c → c.step t none = .next c' →
      Along g t tokens c' ∧ c'.room bound < c.room bound := by
    intro c c' hc hs
    have hnext := hc.next ha hs
    have hmade := (move_of_step ha hc.valid hs (by simp)).nodes_eq
    have hmore := hbound c' hnext
    exact ⟨hnext, by rw [room, room]; omega⟩
  exact ⟨_, run_of_decreasing hstep (.start tokens ()) (Nat.lt_succ_of_le (Nat.le_refl _))⟩

end Configuration

namespace Table

variable {g : Grammar} {t : Table}

/-- If a table is built, and every nonterminal that comes up derives some tokens, then every parse
    without recovery ends. -/
theorem parse_ends (hbuild : build g = .ok t) (hg : g.Productive) (tokens : List Token) :
    ∃ fuel result, t.parse (σ := Unit) none fuel tokens () = some (result, ()) := by
  obtain ⟨fuel, ⟨result, _⟩, hrun⟩ := Configuration.exists_run_of_productive hbuild hg tokens
  exact ⟨fuel, result, hrun⟩

theorem parse_ends_query : build Grammar.query = .ok query ∧ Grammar.query.Productive ∧
    ∃ fuel result, query.parse (σ := Unit) none fuel [.ofKind .lparen 0, .ofKind .and 2] () =
      some (result, ()) := by
  have hproductive : Grammar.query.Productive := fun n _ _ _ => Grammar.yields_query (.nonterminal n)
  exact ⟨query_spec.1, hproductive, parse_ends query_spec.1 hproductive _⟩

end Table

/-! ### A parse without an end -/

/-- A search always ends with another search, so none is ever complete, and a list of one is none. But a
    search may begin with any number of empty terms. -/
def Grammar.endless : Grammar where
  start := .list
  productions := [
    ⟨.list, [.nonterminal .search]⟩,
    ⟨.list, [.terminal .lparen, .nonterminal .term, .terminal .rparen]⟩,
    ⟨.search, [.nonterminal .term, .nonterminal .search]⟩,
    ⟨.term, []⟩]

/-- Where reductions by an empty production lead from state to state, there is no answer. -/
theorem Configuration.run_eq_none_of_loop {σ : Type} {t : Table} {policy : Option (Policy σ)} {j : Nat}
    {p : Production} (hp : t.productions[j]? = some p) (hempty : p.rhs = []) {token : Token}
    {states : List Nat} (hleads : ∀ q ∈ states, t.action q (.token token.kind) = some (.reduce j) ∧
      ∃ q' ∈ states, t.goto q p.lhs = some q') {c : Configuration σ} {rest : List Token}
    (htop : topState c.stack ∈ states) (hinput : c.input = token :: rest) (fuel : Nat) :
    c.run t policy fuel = none := by
  induction fuel generalizing c with
  | zero => rfl
  | succ fuel ih =>
    obtain ⟨haction, q', hq', hgoto⟩ := hleads _ htop
    have hreduce : t.action (topState c.stack) (.of c.input.head?) = some (.reduce j) := by
      rw [hinput]
      exact haction
    have hstep : c.step t policy = .next ⟨(q', .node p.lhs []) :: c.stack, c.input, c.recoveries,
        c.memory⟩ := step_reduce hreduce hp (List.nil_append _).symm (by rw [hempty]; rfl) hgoto
    rw [run_next hstep]
    exact ih hq' hinput

namespace Table

/-- Before a closing parenthesis an empty term is put on the stack, and after it another one. -/
theorem built_endless : (build Grammar.endless).isOk = true ∧
    (built (build Grammar.endless)).productions[3]? = some ⟨.term, []⟩ ∧
    ∀ q ∈ [0, 4], (built (build Grammar.endless)).action q (.token .rparen) = some (.reduce 3) ∧
      (built (build Grammar.endless)).goto q .term = some 4 := by
  decide +kernel

/-- A table may be built and a parse still not end. -/
theorem parse_endless : ∃ t, build Grammar.endless = .ok t ∧
    ∀ fuel, t.parse (σ := Unit) none fuel [.ofKind .rparen 0] () = none := by
  obtain ⟨hok, hproduction, hloop⟩ := built_endless
  cases hbuild : build Grammar.endless with
  | error conflict => rw [hbuild] at hok; cases hok
  | ok t =>
    rw [hbuild, built] at hproduction hloop
    have hleads : ∀ q ∈ [0, 4], t.action q (.token .rparen) = some (.reduce 3) ∧
        ∃ q' ∈ [0, 4], t.goto q .term = some q' := fun q hq =>
      ⟨(hloop q hq).1, 4, List.mem_cons_of_mem _ List.mem_cons_self, (hloop q hq).2⟩
    exact ⟨t, rfl, fun fuel =>
      Configuration.run_eq_none_of_loop hproduction rfl hleads List.mem_cons_self rfl fuel⟩

end Table

end RecordSearch.Query
