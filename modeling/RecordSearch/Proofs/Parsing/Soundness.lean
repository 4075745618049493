import RecordSearch.Proofs.Automaton
import RecordSearch.Proofs.Parsing.Run

/-! What stands on the stack of a parser. The states follow each other in the automaton and every tree
    conforms to the grammar. So the symbols below a moved dot are always the top of the stack
    (`Path.viable`), a reduction finds its children, and where the table has an action a step is one
    of three moves (`step_move`). A run that ends well ends with a tree of the start symbol over the
    tokens it has shifted. -/

namespace RecordSearch.Query

/-- Every state of a stack was entered over the tree it stands on. -/
def Table.Path (t : Table) : List (Nat × Tree) → Prop
  | [] => True
  | (q, tree) :: rest => t.enters (topState rest) tree.symbol = some q ∧ t.Path rest

theorem Table.Path.drop {t : Table} : ∀ {stack : List (Nat × Tree)}, t.Path stack →
    ∀ n, t.Path (stack.drop n)
  | [], _, n => by simp [Path]
  | _ :: _, h, 0 => h
  | (_, _) :: _, h, n + 1 => Path.drop h.2 n

/-- The symbols before a dot are on top of the stack, and below them stands a state that holds the
    production with the dot at its start. -/
theorem Table.Path.viable {g : Grammar} {t : Table} (ha : g.Automaton t) :
    ∀ {stack : List (Nat × Tree)}, t.Path stack → ∀ {i : Item}, g.Holds (topState stack) i →
      i.dot ≤ stack.length ∧
      ((stack.take i.dot).map fun e => e.2.symbol).reverse = (g.rhsOf i.production).take i.dot ∧
      g.Holds (topState (stack.drop i.dot)) ⟨i.production, 0⟩
  | [], _, i, hi => by
      have hdot : i.dot = 0 := ha.initial_dot i hi
      have heq : i = ⟨i.production, 0⟩ := by rw [← hdot]
      rw [hdot]
      exact ⟨Nat.le_refl _, rfl, heq ▸ hi⟩
  | (q, tree) :: rest, ⟨henters, hpath⟩, ⟨j, 0⟩, hi => ⟨Nat.zero_le _, rfl, hi⟩
  | (q, tree) :: rest, ⟨henters, hpath⟩, ⟨j, d + 1⟩, hi => by
      obtain ⟨⟨j', d'⟩, hbefore, hafter, hadvance⟩ :=
        ha.retreats _ _ _ _ henters hi (Nat.succ_ne_zero d)
      obtain ⟨rfl, rfl⟩ : j' = j ∧ d' = d := by simpa [Item.advance] using hadvance
      obtain ⟨hlength, hsymbols, hstart⟩ := hpath.viable ha hbefore
      refine ⟨Nat.succ_le_succ hlength, ?_, hstart⟩
      simp only [Grammar.afterDot] at hafter hsymbols
      rw [List.take_succ_cons, List.map_cons, List.reverse_cons, hsymbols, List.take_add_one,
        hafter]
      rfl

namespace Configuration

variable {σ : Type} {g : Grammar} {t : Table} {policy : Option (Policy σ)}

/-- What holds of the stack at any time. -/
structure Valid (g : Grammar) (t : Table) (c : Configuration σ) : Prop where
  path : t.Path c.stack
  conforms : ∀ entry ∈ c.stack, entry.2.Conforms g

/-- The tokens below the trees of a stack. -/
def tokensOf (stack : List (Nat × Tree)) : List Token :=
  Tree.leavesOf (stack.map Prod.snd).reverse

/-- The tokens shifted so far. -/
def shifted (c : Configuration σ) : List Token := tokensOf c.stack

theorem tokensOf_cons (q : Nat) (tree : Tree) (stack : List (Nat × Tree)) :
    tokensOf ((q, tree) :: stack) = tokensOf stack ++ tree.leaves := by
  simp [tokensOf]

theorem tokensOf_append (frames stack : List (Nat × Tree)) :
    tokensOf (frames ++ stack) = tokensOf stack ++ tokensOf frames := by
  simp [tokensOf]

theorem Valid.start (tokens : List Token) (m : σ) : (start tokens m).Valid g t where
  path := trivial
  conforms _ h := by simp [Configuration.start] at h

/-! ### Steps -/

/-- What a step does where the table has an action. -/
inductive Move (g : Grammar) (t : Table) (c : Configuration σ) : Step σ → Prop
  | shift {token : Token} {rest : List Token} {q : Nat} (input : c.input = token :: rest)
      (action : t.action (topState c.stack) (.token token.kind) = some (.shift q)) :
      Move g t c (.next ⟨(q, .leaf token) :: c.stack, rest, 0, c.memory⟩)
  | reduce {j q : Nat} {p : Production} {frames rest : List (Nat × Tree)}
      (action : t.action (topState c.stack) (.of c.input.head?) = some (.reduce j))
      (production : g.productions[j]? = some p) (stack : c.stack = frames ++ rest)
      (symbols : (frames.map Prod.snd).reverse.map Tree.symbol = p.rhs)
      (goto : t.goto (topState rest) p.lhs = some q) :
      Move g t c (.next ⟨(q, .node p.lhs (frames.map Prod.snd).reverse) :: rest, c.input,
        c.recoveries, c.memory⟩)
  | accept {q : Nat} {tree : Tree} (stack : c.stack = [(q, tree)]) (input : c.input = [])
      (root : tree.symbol = .nonterminal g.start) : Move g t c (.done (.ok tree) c.memory)

theorem step_shift {c : Configuration σ} {token : Token} {rest : List Token} {q : Nat}
    (input : c.input = token :: rest)
    (action : t.action (topState c.stack) (.token token.kind) = some (.shift q)) :
    c.step t policy = .next ⟨(q, .leaf token) :: c.stack, rest, 0, c.memory⟩ := by
  have hfound : t.action (topState c.stack) (.of c.input.head?) = some (.shift q) := by
    rw [input]
    exact action
  simp only [step, hfound]
  rw [input]

theorem step_reduce {c : Configuration σ} {j q : Nat} {p : Production}
    {frames rest : List (Nat × Tree)}
    (action : t.action (topState c.stack) (.of c.input.head?) = some (.reduce j))
    (production : t.productions[j]? = some p) (stack : c.stack = frames ++ rest)
    (length : frames.length = p.rhs.length) (goto : t.goto (topState rest) p.lhs = some q) :
    c.step t policy = .next ⟨(q, .node p.lhs (frames.map Prod.snd).reverse) :: rest, c.input,
      c.recoveries, c.memory⟩ := by
  have hlong : ¬ c.stack.length < p.rhs.length := by
    rw [stack, List.length_append, length]
    omega
  have hreduce : t.reduce j c.stack c.input.head? =
      .ok ((q, .node p.lhs (frames.map Prod.snd).reverse) :: rest) := by
    rw [Table.reduce, production]
    simp only [if_neg hlong]
    rw [stack, ← length, List.drop_left, List.take_left, goto]
  simp only [step, action, hreduce]

theorem step_accept {c : Configuration σ} {q : Nat} {tree : Tree} (stack : c.stack = [(q, tree)])
    (input : c.input = []) (action : t.action q .endOfInput = some .accept) :
    c.step t policy = .done (.ok tree) c.memory := by
  have hfound : t.action (topState c.stack) (.of c.input.head?) = some .accept := by
    rw [stack, input]
    exact action
  simp only [step, hfound]
  rw [stack]

/-- Where the table has an action, a step is a move; no entry is ever missing. -/
theorem step_move (ha : g.Automaton t) {c : Configuration σ} (hc : c.Valid g t)
    (haction : (t.action (topState c.stack) (.of c.input.head?)).isSome = true) :
    Move g t c (c.step t policy) := by
  obtain ⟨action, haction⟩ := Option.isSome_iff_exists.mp haction
  cases action with
  | shift q =>
    obtain ⟨k, hk⟩ := ha.of_shift _ _ _ haction
    cases hinput : c.input with
    | nil => simp [hinput, Lookahead.of] at hk
    | cons token rest =>
      rw [hinput] at haction
      rw [step_shift hinput haction]
      exact .shift hinput haction
  | reduce j =>
    obtain ⟨p, hp, hholds, -⟩ := ha.of_reduce _ _ _ haction
    obtain ⟨hlength, hsymbols, hstart⟩ := hc.path.viable ha hholds
    rw [Grammar.rhsOf_eq hp, List.take_length] at hsymbols
    -- the state below the children holds the production, so its nonterminal leads on
    obtain ⟨i, hi, hafter⟩ := ha.expands _ _ _ hstart hp
    obtain ⟨q, hgoto⟩ := ha.leads _ _ _ hi hafter
    have hstack : c.stack = c.stack.take p.rhs.length ++ c.stack.drop p.rhs.length :=
      (List.take_append_drop _ _).symm
    rw [step_reduce haction (ha.productions ▸ hp) hstack (List.length_take_of_le hlength) hgoto]
    refine .reduce haction hp hstack ?_ hgoto
    rw [List.map_reverse, List.map_map]
    exact hsymbols
  | accept =>
    obtain ⟨hend, hholds⟩ := ha.of_accept _ _ haction
    have hinput : c.input = [] := by
      cases hinput : c.input with
      | nil => rfl
      | cons token rest => simp [hinput, Lookahead.of] at hend
    obtain ⟨hlength, hsymbols, hstart⟩ := hc.path.viable ha hholds
    have hpath := hc.path
    cases hstack : c.stack with
    | nil => simp [hstack] at hlength
    | cons entry rest =>
      obtain ⟨q, tree⟩ := entry
      rw [hstack] at hsymbols hstart haction hpath
      -- only the first state holds the item at its start, and it is never entered
      have hrest : rest = [] := by
        cases rest with
        | nil => rfl
        | cons below rest =>
          exact absurd (ha.goal_initial _ hstart) (ha.enters_ne_zero _ _ _ hpath.2.1)
      subst hrest
      rw [step_accept hstack hinput (hend ▸ haction)]
      refine .accept hstack hinput ?_
      simpa [Grammar.rhsOf_goal] using hsymbols

/-- Where the table has no action, the policy is asked. -/
theorem step_stalled {c : Configuration σ}
    (haction : t.action (topState c.stack) (.of c.input.head?) = none) :
    c.step t policy = match policy with
      | some policy => c.recover t policy
      | none => .done (.error (t.errorAt .unexpected (topState c.stack) c.input.head?)) c.memory := by
  cases policy <;> simp only [step, haction]

/-! ### What moves keep -/

theorem Move.valid {c c' : Configuration σ} (h : Move g t c (.next c')) (hc : c.Valid g t) :
    c'.Valid g t := by
  cases h with
  | shift input action =>
    refine ⟨⟨Table.enters_terminal.mpr action, hc.path⟩, fun entry he => ?_⟩
    rcases List.mem_cons.mp he with rfl | he
    · exact .leaf _
    · exact hc.conforms entry he
  | @reduce j q p frames rest action production stack symbols goto =>
    have hpath := hc.path.drop frames.length
    rw [stack, List.drop_left] at hpath
    refine ⟨⟨goto, hpath⟩, fun entry he => ?_⟩
    rcases List.mem_cons.mp he with rfl | he
    · refine .node (symbols ▸ List.mem_of_getElem? production) fun tree ht => ?_
      obtain ⟨entry, hentry, rfl⟩ := List.mem_map.mp (List.mem_reverse.mp ht)
      exact hc.conforms entry (stack ▸ List.mem_append_left _ hentry)
    · exact hc.conforms entry (stack ▸ List.mem_append_right _ he)

/-- A move takes the shifted tokens off the input and loses none. -/
theorem Move.tokens {c c' : Configuration σ} (h : Move g t c (.next c')) :
    c'.shifted ++ c'.input = c.shifted ++ c.input := by
  cases h with
  | shift input action => simp [shifted, tokensOf_cons, input]
  | reduce action production stack symbols goto =>
    rw [shifted, shifted, stack, tokensOf_cons, tokensOf_append, Tree.leaves_node]
    rfl

theorem Move.isDerivation {c : Configuration σ} {tree : Tree} {m : σ}
    (h : Move g t c (.done (.ok tree) m)) (hc : c.Valid g t) :
    g.IsDerivation c.shifted tree := by
  cases h with
  | accept stack input root =>
    refine ⟨root, hc.conforms _ (stack ▸ List.mem_cons_self), ?_⟩
    rw [shifted, stack, tokensOf_cons]
    rfl

end Configuration

end RecordSearch.Query
