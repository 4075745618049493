import RecordSearch.Proofs.Grammar.Prefix
import RecordSearch.Proofs.Parsing.Strict

/-! Where a parse without recovery fails. Every item of the state on top of a stack continues what
    stands on the stack to a sentential form (`Table.Path.continues`), so no token is shifted that
    cannot be right; and what the parser does up to a token does not depend on what follows the
    token (`Local.next`), so none is refused that could be. The error is therefore about the first
    token that no sentence has there (`parseStrict_error`). -/

namespace RecordSearch.Query

namespace Grammar

variable {g : Grammar}

/-- After the given symbols an item goes on to a sentential form. -/
def Continues (g : Grammar) (α : List Symbol) (i : Item) : Prop :=
  ∃ after, g.Derives [.nonterminal g.start] (α ++ (g.rhsOf i.production).drop i.dot ++ after)

theorem continues_goal : g.Continues [] ⟨g.goal, 0⟩ := by
  refine ⟨[], ?_⟩
  rw [rhsOf_goal]
  exact .refl _

theorem drop_of_afterDot {i : Item} {s : Symbol} (h : g.afterDot i = some s) :
    (g.rhsOf i.production).drop i.dot = s :: (g.rhsOf i.production).drop (i.dot + 1) := by
  obtain ⟨hlt, hs⟩ := List.getElem?_eq_some_iff.mp h
  rw [List.drop_eq_getElem_cons hlt, hs]

theorem Continues.advance {α : List Symbol} {i : Item} {s : Symbol} (h : g.Continues α i)
    (hafter : g.afterDot i = some s) : g.Continues (α ++ [s]) i.advance := by
  obtain ⟨after, hderives⟩ := h
  rw [drop_of_afterDot hafter] at hderives
  refine ⟨after, ?_⟩
  simpa [Item.advance] using hderives

theorem Continues.expand {α : List Symbol} {i : Item} {j : Nat} {p : Production}
    (h : g.Continues α i) (hp : g.productions[j]? = some p)
    (hafter : g.afterDot i = some (.nonterminal p.lhs)) : g.Continues α ⟨j, 0⟩ := by
  obtain ⟨after, hderives⟩ := h
  rw [drop_of_afterDot hafter] at hderives
  have hrewrites := Rewrites.expand (List.mem_of_getElem? hp) α
    ((g.rhsOf i.production).drop (i.dot + 1) ++ after)
  refine ⟨(g.rhsOf i.production).drop (i.dot + 1) ++ after, ?_⟩
  rw [rhsOf_eq hp, List.drop_zero]
  refine hderives.tail ?_
  simpa using hrewrites

end Grammar

/-! ### Stacks begin sentences -/

/-- The symbols of a stack, the bottom first. -/
def symbolsOf (stack : List (Nat × Tree)) : List Symbol :=
  (stack.map Prod.snd).reverse.map Tree.symbol

theorem symbolsOf_cons (q : Nat) (tree : Tree) (stack : List (Nat × Tree)) :
    symbolsOf ((q, tree) :: stack) = symbolsOf stack ++ [tree.symbol] := by
  simp [symbolsOf]

namespace Table

variable {g : Grammar} {t : Table}

/-- What stands on a stack is continued by each item of the state on top. -/
theorem Path.continues (ha : g.Automaton t) : ∀ {stack : List (Nat × Tree)}, t.Path stack →
    ∀ i, g.Holds (topState stack) i → g.Continues (symbolsOf stack) i
  | [], _ => by
      refine Grammar.Holds.induction ?_ fun i j p hi hp hafter => hi.expand hp hafter
      intro i hi hkernel
      rw [ha.eq_goal_of_kernel hi hkernel]
      exact Grammar.continues_goal
  | (q, tree) :: rest, ⟨henters, hpath⟩ => by
      refine Grammar.Holds.induction ?_ fun i j p hi hp hafter => hi.expand hp hafter
      intro i hi hkernel
      rw [symbolsOf_cons]
      have hdot := ha.dot_ne_zero_of_kernel henters hi hkernel
      obtain ⟨j, hj, hafter, rfl⟩ := ha.retreats _ _ _ _ henters hi hdot
      exact (hpath.continues ha j hj).advance hafter

theorem Path.exists_holds (hbuild : Table.build g = .ok t) :
    ∀ {stack : List (Nat × Tree)}, t.Path stack → ∃ i, g.Holds (topState stack) i
  | [], _ => ⟨_, Grammar.holds_goal⟩
  | (q, tree) :: rest, ⟨henters, _⟩ => by
      obtain ⟨i, hi, hafter⟩ := Grammar.exists_afterDot_of_enters hbuild henters
      exact ⟨_, (Grammar.automaton_of_build hbuild).advances _ _ _ _ henters hi hafter⟩

end Table

namespace Configuration

variable {σ : Type} {g : Grammar} {t : Table}

/-- The tokens shifted begin a sentence. -/
theorem Valid.isPrefix_shifted (hbuild : Table.build g = .ok t) (hg : ∀ s, g.Yields s)
    {c : Configuration σ} (hc : c.Valid g t) : g.IsPrefix (c.shifted.map Token.kind) := by
  obtain ⟨i, hi⟩ := hc.path.exists_holds hbuild
  obtain ⟨after, hstart⟩ := hc.path.continues (Grammar.automaton_of_build hbuild) i hi
  rw [List.append_assoc] at hstart
  have hbelow : ∀ tree ∈ (c.stack.map Prod.snd).reverse,
      g.Derives [tree.symbol] (tree.leaves.map fun x => .terminal x.kind) := by
    intro tree htree
    obtain ⟨entry, hentry, rfl⟩ := List.mem_map.mp (List.mem_reverse.mp htree)
    exact Grammar.derives_leaves (hc.conforms entry hentry)
  refine Grammar.isPrefix_of_derives hg hstart ?_
  rw [List.map_map]
  exact Grammar.derives_leavesOf hbelow

/-! ### Tokens behind the lookahead -/

/-- A configuration that comes of the tokens up to its lookahead, whatever follows that. -/
def Local (t : Table) (c : Configuration σ) : Prop :=
  ∀ token rest, c.input = token :: rest → ∀ rest',
    Reaches t none (start (c.shifted ++ token :: rest') c.memory)
      { c with input := token :: rest' }

theorem Local.start (tokens : List Token) (m : σ) : (start tokens m).Local t :=
  fun _ _ _ _ => .refl _

theorem Local.next (ha : g.Automaton t) {c c' : Configuration σ} (hc : c.Valid g t)
    (hlocal : c.Local t) (hs : c.step t none = .next c') : c'.Local t := by
  intro token rest hinput rest'
  cases move_of_step ha hc hs (by simp) with
  | @shift first _ q input action =>
    have hstep : step t none { c with input := first :: token :: rest' } =
        .next ⟨(q, .leaf first) :: c.stack, token :: rest', 0, c.memory⟩ :=
      step_shift rfl action
    have hreaches := (hlocal first _ input (token :: rest')).tail hstep
    rw [shifted, tokensOf_cons, Tree.leaves_leaf, List.append_assoc]
    exact hreaches
  | @reduce j q p frames below action production stack symbols goto =>
    rw [hinput] at action
    have hlength : frames.length = p.rhs.length := by
      rw [← symbols, List.length_map, List.length_reverse, List.length_map]
    have hstep : step t none { c with input := token :: rest' } =
        .next ⟨(q, .node p.lhs (frames.map Prod.snd).reverse) :: below, token :: rest',
          c.recoveries, c.memory⟩ :=
      step_reduce action (ha.productions ▸ production) stack hlength goto
    have hreaches := (hlocal token rest hinput rest').tail hstep
    rw [shifted, stack, tokensOf_append] at hreaches
    rw [shifted, tokensOf_cons, Tree.leaves_node]
    exact hreaches

/-- A step without a policy fails at a token that has no action. -/
theorem stalled_of_done (ha : g.Automaton t) {c : Configuration σ} (hc : c.Valid g t) {e : ParseError}
    {m : σ} (hs : c.step t none = .done (.error e) m) :
    t.action (topState c.stack) (.of c.input.head?) = none ∧
      e = t.errorAt .unexpected (topState c.stack) c.input.head? := by
  cases haction : t.action (topState c.stack) (.of c.input.head?) with
  | none =>
    rw [step_stalled haction, Step.done.injEq, Except.error.injEq] at hs
    exact ⟨rfl, hs.1.symm⟩
  | some action =>
    have hmove : Move g t c (c.step t none) := step_move ha hc (by rw [haction]; rfl)
    rw [hs] at hmove
    cases hmove

/-- A parse without a policy that fails stops before a token that has no action, and what every step
    keeps holds there. -/
theorem exists_stalled (ha : g.Automaton t) {P : Configuration σ → Prop} {tokens : List Token}
    {m m' : σ} {e : ParseError} {fuel : Nat} (hstart : P (.start tokens m))
    (hstep : ∀ c c', c.Valid g t → P c → c.step t none = .next c' → P c')
    (hrun : (Configuration.start tokens m).run t none fuel = some (.error e, m')) :
    ∃ c : Configuration σ, Along g t tokens c ∧ P c ∧
      t.action (topState c.stack) (.of c.input.head?) = none ∧
      e = t.errorAt .unexpected (topState c.stack) c.input.head? := by
  obtain ⟨c, ⟨hc, hp⟩, hs⟩ := run_invariant (P := fun c => Along g t tokens c ∧ P c)
    (fun c c' h hs => ⟨h.1.next ha hs, hstep c c' h.1.valid h.2 hs⟩) ⟨.start tokens m, hstart⟩ hrun
  exact ⟨c, hc, hp, stalled_of_done ha hc.valid hs⟩

/-- A token that has no action there is in no sentence. -/
theorem not_isPrefix_of_stalled (ha : g.Automaton t) {c : Configuration σ} (hlocal : c.Local t)
    {token : Token} {rest : List Token} (hinput : c.input = token :: rest)
    (haction : t.action (topState c.stack) (.of c.input.head?) = none) :
    ¬ g.IsPrefix ((c.shifted ++ [token]).map Token.kind) := by
  rintro ⟨more, hmore⟩
  -- tokens of the missing kinds complete the sentence, and the parser stops at the same place
  have hkinds : (c.shifted ++ [token]).map Token.kind ++ more =
      (c.shifted ++ token :: more.map fun k => Token.ofKind k 0).map Token.kind := by
    have hmap : more.map (Token.kind ∘ fun k => Token.ofKind k 0) = more := List.map_id' more
    simp [hmap]
  rw [hkinds, Grammar.isSentence_iff] at hmore
  obtain ⟨tree, htree⟩ := hmore
  obtain ⟨_, hok⟩ := @run_of_isDerivation _ _ _ none ha _ tree htree c.memory
  rw [hinput] at haction
  have hreaches := hlocal token rest hinput (more.map fun k => Token.ofKind k 0)
  obtain ⟨_, herror⟩ := hreaches.run (run_done (step_stalled haction) 0)
  have heq := run_unique hok herror
  simp at heq

end Configuration

/-! ### Errors of queries -/

/-- The error is about the token with the given number, or about the end of the tokens if there is
    none: the tokens before it begin a sentence, and with it they do not. -/
structure ParseError.Blames (e : ParseError) (tokens : List Token) (k : Nat) : Prop where
  cause : e.cause = .unexpected
  index : k ≤ tokens.length
  position : e.position = tokens[k]?.map Token.position
  found : e.found = tokens[k]?.map Token.kind
  before : Grammar.query.IsPrefix ((tokens.take k).map Token.kind)
  token : k < tokens.length → ¬ Grammar.query.IsPrefix ((tokens.take (k + 1)).map Token.kind)
  finish : k = tokens.length → ¬ Grammar.query.IsSentence (tokens.map Token.kind)

/-- What is refused without recovery is refused at the first token that cannot be right. -/
theorem parseStrict_error (tokens : List Token) :
    (∃ t, parseStrict tokens = .ok t) ∨
      ∃ e k, parseStrict tokens = .error e ∧ e.Blames tokens k := by
  cases hparse : parseStrict tokens with
  | ok t => exact .inl ⟨t, rfl⟩
  | error e =>
    refine .inr ?_
    have ha := Table.automaton_query
    obtain ⟨_, hrun⟩ := exists_run_of_parseStrict tokens
    rw [hparse] at hrun
    obtain ⟨c, hc, hlocal, haction, rfl⟩ := Configuration.exists_stalled ha
      (P := Configuration.Local Table.query) (.start tokens ())
      (fun _ _ hc hlocal hs => hlocal.next ha hc hs) hrun
    have htokens : tokens = c.shifted ++ c.input := hc.tokens_eq.symm
    have htake : tokens.take c.shifted.length = c.shifted := by rw [htokens, List.take_left]
    have hfound : tokens[c.shifted.length]? = c.input.head? := by
      rw [htokens, List.getElem?_append_right (Nat.le_refl _), Nat.sub_self, List.head?_eq_getElem?]
    refine ⟨_, c.shifted.length, rfl, ?_⟩
    constructor
    case cause => rfl
    case index =>
      rw [htokens, List.length_append]
      omega
    case position => rw [hfound]; rfl
    case found => rw [hfound]; rfl
    case before =>
      rw [htake]
      exact hc.valid.isPrefix_shifted Table.query_spec.1 Grammar.yields_query
    case token =>
      intro hlt
      cases hinput : c.input with
      | nil => simp [htokens, hinput] at hlt
      | cons token rest =>
        have hnext : tokens.take (c.shifted.length + 1) = c.shifted ++ [token] := by
          rw [htokens, hinput, List.take_length_add_append]
          rfl
        rw [hnext]
        exact Configuration.not_isPrefix_of_stalled ha hlocal hinput haction
    case finish =>
      intro _ hsentence
      obtain ⟨t, ht⟩ := Grammar.isSentence_iff.mp hsentence
      have hok := parseStrict_of_isDerivation ht
      rw [hparse] at hok
      cases hok

end RecordSearch.Query
