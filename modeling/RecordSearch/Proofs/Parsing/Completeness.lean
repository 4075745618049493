import RecordSearch.Proofs.Parsing.Soundness

/-! Every derivation tree is found. Where the root of a conforming tree stands after a dot, and the
    token after it may follow it, the parser puts the tree on the stack from its leaves alone
    (`runs_of_conforms`); no policy is asked on the way. So a table that was built takes the leaves
    of each derivation tree to that tree (`run_of_isDerivation`), and no two trees have the same
    leaves. -/

namespace RecordSearch.Query

namespace Configuration

variable {σ : Type} {g : Grammar} {t : Table} {policy : Option (Policy σ)}

/-- From the leaves of the tree the parser comes to the tree, wherever it is wanted. -/
def Runs (g : Grammar) (t : Table) (policy : Option (Policy σ)) (tree : Tree) : Prop :=
  ∀ (stack : List (Nat × Tree)) (rest : List Token) (r : Nat) (m : σ) (q : Nat) (i : Item),
    g.Holds (topState stack) i → g.afterDot i = some tree.symbol →
    t.enters (topState stack) tree.symbol = some q →
    (∀ n, tree.symbol = .nonterminal n → (n, Lookahead.of rest.head?) ∈ g.follow) →
    ∃ r', Reaches t policy ⟨stack, tree.leaves ++ rest, r, m⟩ ⟨(q, tree) :: stack, rest, r', m⟩

theorem runs_leaf (token : Token) : Runs g t policy (.leaf token) := by
  intro stack rest r m q i _ _ henters _
  exact ⟨0, .single (step_shift rfl (Table.enters_terminal.mp henters))⟩

/-- The children of a production from the dot on come to stand on the stack. -/
theorem reaches_children (ha : g.Automaton t) {p : Production} {j : Nat}
    (hp : g.productions[j]? = some p) :
    ∀ (trees : List Tree) (u : List Symbol) (stack : List (Nat × Tree)) (rest : List Token)
      (r : Nat) (m : σ), (∀ tree ∈ trees, tree.Conforms g) → (∀ tree ∈ trees, Runs g t policy tree) →
      p.rhs = u ++ trees.map Tree.symbol → g.Holds (topState stack) ⟨j, u.length⟩ →
      (p.lhs, Lookahead.of rest.head?) ∈ g.follow →
      ∃ frames r', (frames.map Prod.snd).reverse = trees ∧
        g.Holds (topState (frames ++ stack)) ⟨j, p.rhs.length⟩ ∧
        Reaches t policy ⟨stack, Tree.leavesOf trees ++ rest, r, m⟩ ⟨frames ++ stack, rest, r', m⟩
  | [], u, stack, rest, r, m, _, _, hrhs, hi, _ => by
      rw [List.map_nil, List.append_nil] at hrhs
      exact ⟨[], r, rfl, by rw [hrhs]; exact hi, .refl _⟩
  | tree :: trees, u, stack, rest, r, m, hconforms, hruns, hrhs, hi, hfollow => by
      have hafter : g.afterDot ⟨j, u.length⟩ = some tree.symbol := by
        rw [Grammar.afterDot, Grammar.rhsOf_eq hp, hrhs]
        simp
      obtain ⟨q, henters⟩ := ha.leads _ _ _ hi hafter
      have hnext : ∀ n, tree.symbol = .nonterminal n →
          (n, Lookahead.of (Tree.leavesOf trees ++ rest).head?) ∈ g.follow := fun n hn =>
        Grammar.follow_of_siblings (List.mem_of_getElem? hp) (by rw [hrhs, List.map_cons, hn])
          (fun u hu => hconforms u (List.mem_cons_of_mem _ hu)) hfollow
      obtain ⟨r₁, hfirst⟩ :=
        hruns tree List.mem_cons_self stack _ r m q _ hi hafter henters hnext
      -- the dot moves over the tree, and the others follow from there
      have hmoved : g.Holds (topState ((q, tree) :: stack)) ⟨j, (u ++ [tree.symbol]).length⟩ := by
        have hadvanced := ha.advances _ _ _ _ henters hi hafter
        rwa [List.length_append]
      obtain ⟨frames, r₂, htrees, hend, hothers⟩ := reaches_children ha hp trees
        (u ++ [tree.symbol]) ((q, tree) :: stack) rest r₁ m
        (fun v hv => hconforms v (List.mem_cons_of_mem _ hv))
        (fun v hv => hruns v (List.mem_cons_of_mem _ hv)) (by rw [hrhs]; simp) hmoved hfollow
      refine ⟨frames ++ [(q, tree)], r₂, by simp [htrees], by simpa using hend, ?_⟩
      rw [Tree.leavesOf_cons, List.append_assoc, List.append_assoc]
      exact hfirst.trans hothers

/-- Every conforming tree is found from its leaves. -/
theorem runs_of_conforms (ha : g.Automaton t) {tree : Tree} (h : tree.Conforms g) :
    Runs g t policy tree := by
  induction h with
  | leaf token => exact runs_leaf token
  | @node label children production below ih =>
    intro stack rest r m q i hi hafter henters hnext
    obtain ⟨j, hp⟩ := List.mem_iff_getElem?.mp production
    have hstart := ha.closed _ _ _ _ hi hp hafter
    have hfollow := hnext label rfl
    obtain ⟨frames, r', htrees, hend, hreaches⟩ :=
      reaches_children ha hp children [] stack rest r m below ih rfl hstart hfollow
    have hlength : frames.length = (children.map Tree.symbol).length := by
      rw [List.length_map, ← htrees, List.length_reverse, List.length_map]
    have hgoto : t.goto (topState stack) label = some q := henters
    have haction : t.action (topState (frames ++ stack)) (.of rest.head?) = some (.reduce j) :=
      ha.reduces _ _ _ _ hend hp hfollow
    have hreduce : step t policy ⟨frames ++ stack, rest, r', m⟩ =
        .next ⟨(q, .node label (frames.map Prod.snd).reverse) :: stack, rest, r', m⟩ :=
      step_reduce haction (ha.productions ▸ hp) rfl hlength hgoto
    rw [htrees] at hreduce
    exact ⟨r', by simpa using hreaches.tail hreduce⟩

/-- The leaves of a derivation tree are taken to the tree. -/
theorem run_of_isDerivation (ha : g.Automaton t) {tokens : List Token} {tree : Tree}
    (h : g.IsDerivation tokens tree) (m : σ) :
    ∃ fuel, (start tokens m).run t policy fuel = some (.ok tree, m) := by
  have hafter : g.afterDot ⟨g.goal, 0⟩ = some tree.symbol := by
    rw [Grammar.afterDot, Grammar.rhsOf_goal, h.root]
    rfl
  obtain ⟨q, henters⟩ := ha.leads _ _ _ ha.initial hafter
  have hnext : ∀ n, tree.symbol = .nonterminal n →
      (n, Lookahead.of ([] : List Token).head?) ∈ g.follow := fun n hn => by
    obtain rfl : g.start = n := Symbol.nonterminal.inj (h.root.symm.trans hn)
    exact Grammar.follow_start
  obtain ⟨r, hreaches⟩ :=
    runs_of_conforms ha h.conforms [] [] 0 m q _ ha.initial hafter henters hnext
  have haccept := ha.accepts q (ha.advances _ _ _ _ henters ha.initial hafter)
  rw [List.append_nil, h.leaves] at hreaches
  exact hreaches.run (run_done (step_accept rfl rfl haccept) 0)

/-- No other tree has the same leaves. -/
theorem isDerivation_unique (ha : g.Automaton t) {tokens : List Token} {tree tree' : Tree}
    (h : g.IsDerivation tokens tree) (h' : g.IsDerivation tokens tree') : tree = tree' := by
  have hruns : ∀ {u}, g.IsDerivation tokens u →
      ∃ fuel, (start tokens ()).run t none fuel = some (.ok u, ()) :=
    fun hu => run_of_isDerivation ha hu ()
  obtain ⟨_, hrun⟩ := hruns h
  obtain ⟨_, hrun'⟩ := hruns h'
  have heq := run_unique hrun hrun'
  simpa using heq

end Configuration

end RecordSearch.Query
