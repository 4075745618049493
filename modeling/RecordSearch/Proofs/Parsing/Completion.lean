import RecordSearch.Proofs.Parsing.Blame

/-! What stands on a stack can be completed, if every nonterminal that comes up derives some tokens.
    There are then tokens that take the parser through the stack to a derivation tree
    (`Configuration.Valid.exists_completedBy`): the trees on the stack become nodes of it, and after them come
    trees for the symbols that an item of the state on top still asks for. -/

namespace RecordSearch.Query

/-- Tokens of the given kinds that differ in nothing else. -/
def plain (kinds : List Kind) : List Token := kinds.map fun k => .ofKind k 0

namespace Grammar

variable {g : Grammar}

/-- Every nonterminal that occurs in what the start symbol derives derives some tokens. -/
def Productive (g : Grammar) : Prop :=
  ∀ n u v, g.Derives [.nonterminal g.start] (u ++ .nonterminal n :: v) → g.Yields (.nonterminal n)

/-- The symbols after a dot derive some tokens. -/
theorem Continues.yields (hg : g.Productive) {α : List Symbol} {i : Item} (h : g.Continues α i)
    {s : Symbol} (hs : s ∈ (g.rhsOf i.production).drop i.dot) : g.Yields s := by
  cases s with
  | terminal k => exact yields_terminal k
  | nonterminal n =>
    obtain ⟨after, hderives⟩ := h
    obtain ⟨u, v, hsplit⟩ := List.append_of_mem hs
    rw [hsplit] at hderives
    exact hg n (α ++ u) (v ++ after) (by simpa using hderives)

/-- Symbols that derive tokens are the roots of trees over plain ones. -/
theorem exists_plain_trees {α : List Symbol} (h : ∀ s ∈ α, g.Yields s) :
    ∃ ts : List Tree, ts.map Tree.symbol = α ∧ (∀ t ∈ ts, t.Conforms g) ∧
      ∃ kinds, Tree.leavesOf ts = plain kinds := by
  obtain ⟨kinds, hkinds⟩ := exists_derives_of_yields h
  have hplain : (plain kinds).map (fun x => Symbol.terminal x.kind) = kinds.map .terminal := by
    simp [plain, Token.ofKind, Token.ofText]
  rw [← hplain] at hkinds
  obtain ⟨ts, hsymbols, hconforms, hleaves⟩ := exists_trees hkinds
  exact ⟨ts, hsymbols, hconforms, kinds, hleaves⟩

/-- The first of these tokens may come after the production of an item; after the production that leads
    to the start symbol nothing comes. -/
def MayEnd (g : Grammar) (i : Item) (rest : List Token) : Prop :=
  match g.productions[i.production]? with
  | some p => (p.lhs, Lookahead.of rest.head?) ∈ g.follow
  | none => rest = []

/-- The token after a nonterminal that a dot stands before may follow it. -/
theorem MayEnd.follow {i : Item} {n : Nonterminal} {ts : List Tree} {rest : List Token}
    (h : g.MayEnd i rest) (hafter : g.afterDot i = some (.nonterminal n))
    (hts : ∀ t ∈ ts, t.Conforms g)
    (hsymbols : ts.map Tree.symbol = (g.rhsOf i.production).drop (i.dot + 1)) :
    (n, Lookahead.of (Tree.leavesOf ts ++ rest).head?) ∈ g.follow := by
  rw [MayEnd] at h
  cases hp : g.productions[i.production]? with
  | some p =>
    rw [hp] at h
    have hrhs : p.rhs = p.rhs.take i.dot ++ .nonterminal n :: ts.map Tree.symbol := by
      rw [hsymbols, ← drop_of_afterDot hafter, rhsOf_eq hp, List.take_append_drop]
    exact follow_of_siblings (List.mem_of_getElem? hp) hrhs hts h
  | none =>
    rw [hp] at h
    have hgoal : g.rhsOf i.production = [.nonterminal g.start] := by rw [rhsOf, hp]
    rw [afterDot, hgoal] at hafter
    obtain ⟨hdot, hstart⟩ := List.getElem?_eq_some_iff.mp hafter
    obtain rfl : g.start = n := by simpa using hstart
    have hnone : ts = [] := by
      rw [hgoal, List.drop_eq_nil_of_le (Nat.succ_le_succ (Nat.zero_le _))] at hsymbols
      exact List.map_eq_nil_iff.mp hsymbols
    rw [h, hnone]
    exact follow_start

end Grammar

/-! ### Items of the state on top -/

namespace Configuration

variable {g : Grammar} {t : Table}

/-- Whatever trees are put for the symbols after the dot of an item, there are tokens with which the
    parser comes to the stack and ends with a derivation tree. -/
def Completes (g : Grammar) (t : Table) (stack : List (Nat × Tree)) (i : Item) : Prop :=
  ∀ ts : List Tree, (∀ u ∈ ts, u.Conforms g) → ts.map Tree.symbol = (g.rhsOf i.production).drop i.dot →
    ∃ kinds tree r, g.MayEnd i (plain kinds) ∧
      g.IsDerivation (tokensOf stack ++ (Tree.leavesOf ts ++ plain kinds)) tree ∧
      Reaches t none (start (tokensOf stack ++ (Tree.leavesOf ts ++ plain kinds)) ())
        ⟨stack, Tree.leavesOf ts ++ plain kinds, r, ()⟩

theorem completes_goal : Completes g t [] ⟨g.goal, 0⟩ := by
  intro ts hts hsymbols
  rw [Grammar.rhsOf_goal] at hsymbols
  obtain ⟨tree, rfl, hroot⟩ := List.map_eq_singleton_iff.mp hsymbols
  have hmayEnd : g.MayEnd ⟨g.goal, 0⟩ (plain []) := by
    rw [Grammar.MayEnd, Grammar.goal, List.getElem?_eq_none (Nat.le_refl _)]
    rfl
  exact ⟨[], tree, 0, hmayEnd, ⟨hroot, hts tree (List.mem_singleton_self _),
    by simp [tokensOf, plain]⟩, .refl _⟩

/-- A tree is put together from those of its production. -/
theorem Completes.expand {stack : List (Nat × Tree)} {i : Item} {j : Nat} {p : Production}
    (h : Completes g t stack i) (hyields : ∀ s ∈ (g.rhsOf i.production).drop (i.dot + 1), g.Yields s)
    (hp : g.productions[j]? = some p) (hafter : g.afterDot i = some (.nonterminal p.lhs)) :
    Completes g t stack ⟨j, 0⟩ := by
  intro ts hts hsymbols
  rw [Grammar.rhsOf_eq hp, List.drop_zero] at hsymbols
  obtain ⟨us, hus_symbols, hus, later, hlater⟩ := Grammar.exists_plain_trees hyields
  have hnode : (Tree.node p.lhs ts).Conforms g := .node (hsymbols ▸ List.mem_of_getElem? hp) hts
  obtain ⟨kinds, tree, r, hmayEnd, htree, hreaches⟩ := h (.node p.lhs ts :: us)
    (List.forall_mem_cons.mpr ⟨hnode, hus⟩)
    (by rw [Grammar.drop_of_afterDot hafter, List.map_cons, hus_symbols]; rfl)
  have hleaves : Tree.leavesOf (.node p.lhs ts :: us) ++ plain kinds =
      Tree.leavesOf ts ++ plain (later ++ kinds) := by
    simp [hlater, plain]
  rw [hleaves] at htree hreaches
  refine ⟨later ++ kinds, tree, r, ?_, htree, hreaches⟩
  have hfollow := hmayEnd.follow hafter hus hus_symbols
  rw [hlater] at hfollow
  rw [Grammar.MayEnd, hp]
  simpa [plain] using hfollow

/-- The parser goes on over a tree that an item asks for. -/
theorem Completes.advance (ha : g.Automaton t) {stack : List (Nat × Tree)} {q : Nat} {tree : Tree}
    {i : Item} (h : Completes g t stack i) (hi : g.Holds (topState stack) i)
    (hafter : g.afterDot i = some tree.symbol) (htree : tree.Conforms g)
    (henters : t.enters (topState stack) tree.symbol = some q) :
    Completes g t ((q, tree) :: stack) i.advance := by
  intro ts hts hsymbols
  obtain ⟨kinds, root, r, hmayEnd, hroot, hreaches⟩ := h (tree :: ts)
    (List.forall_mem_cons.mpr ⟨htree, hts⟩)
    (by rw [Grammar.drop_of_afterDot hafter, List.map_cons, hsymbols]; rfl)
  have hnext : ∀ n, tree.symbol = .nonterminal n →
      (n, Lookahead.of (Tree.leavesOf ts ++ plain kinds).head?) ∈ g.follow := fun n hn =>
    hmayEnd.follow (hn ▸ hafter) hts hsymbols
  rw [Tree.leavesOf_cons, List.append_assoc] at hroot hreaches
  obtain ⟨r', hover⟩ := runs_of_conforms ha htree stack _ r () q i hi hafter henters hnext
  have htokens : tokensOf ((q, tree) :: stack) ++ (Tree.leavesOf ts ++ plain kinds) =
      tokensOf stack ++ (tree.leaves ++ (Tree.leavesOf ts ++ plain kinds)) := by
    rw [tokensOf_cons, List.append_assoc]
  rw [← htokens] at hroot hreaches
  exact ⟨kinds, root, r', hmayEnd, hroot, hreaches.trans hover⟩

/-- If the items whose dots were moved are completed, so are all that the state on top holds. -/
theorem completes_of_kernel (ha : g.Automaton t) (hg : g.Productive) {stack : List (Nat × Tree)}
    (hpath : t.Path stack)
    (hkernel : ∀ i, g.Holds (topState stack) i → i.dot ≠ 0 ∨ i.production = g.goal →
      Completes g t stack i) {i : Item} (hi : g.Holds (topState stack) i) :
    Completes g t stack i := by
  -- an item that is handed on is held too, so the symbols after its dot derive some tokens
  have hall : ∀ i, g.Holds (topState stack) i → g.Holds (topState stack) i ∧
      Completes g t stack i := by
    refine Grammar.Holds.induction (fun i hi h => ⟨hi, hkernel i hi h⟩) ?_
    rintro i j p ⟨hi, hcompletes⟩ hp hafter
    refine ⟨ha.closed _ _ _ _ hi hp hafter, hcompletes.expand (fun s hs => ?_) hp hafter⟩
    refine (hpath.continues ha i hi).yields hg ?_
    rw [Grammar.drop_of_afterDot hafter]
    exact List.mem_cons_of_mem _ hs
  exact (hall i hi).2

/-- Every item of the state on top of a stack is completed. -/
theorem completes_of_path (ha : g.Automaton t) (hg : g.Productive) :
    ∀ {stack : List (Nat × Tree)}, t.Path stack → (∀ entry ∈ stack, entry.2.Conforms g) →
      ∀ {i : Item}, g.Holds (topState stack) i → Completes g t stack i
  | [], hpath, _, _, hi => by
      refine completes_of_kernel ha hg hpath (fun i hi hkernel => ?_) hi
      rw [ha.eq_goal_of_kernel hi hkernel]
      exact completes_goal
  | (q, tree) :: rest, hpath, hconforms, _, hi => by
      refine completes_of_kernel ha hg hpath (fun i hi hkernel => ?_) hi
      have hdot := ha.dot_ne_zero_of_kernel hpath.1 hi hkernel
      obtain ⟨j, hj, hafter, rfl⟩ := ha.retreats _ _ _ _ hpath.1 hi hdot
      have hbelow : Completes g t rest j := completes_of_path ha hg hpath.2
        (fun entry hentry => hconforms entry (List.mem_cons_of_mem _ hentry)) hj
      exact hbelow.advance ha hj hafter (hconforms _ List.mem_cons_self) hpath.1

/-! ### Completed stacks -/

/-- With tokens of the given kinds the parser goes on from a stack to a derivation tree; with these and
    the tokens that it has shifted it comes to the stack. -/
structure CompletedBy (g : Grammar) (t : Table) (c : Configuration Unit) (kinds : List Kind)
    (tree : Tree) : Prop where
  isDerivation : g.IsDerivation (c.shifted ++ plain kinds) tree
  reaches : ∃ r, Reaches t none (start (c.shifted ++ plain kinds) ()) ⟨c.stack, plain kinds, r, ()⟩

/-- Every stack on which states and trees fit together can be completed. -/
theorem Valid.exists_completedBy (hbuild : Table.build g = .ok t) (hg : g.Productive)
    {c : Configuration Unit} (hc : c.Valid g t) : ∃ kinds tree, c.CompletedBy g t kinds tree := by
  have ha := Grammar.automaton_of_build hbuild
  obtain ⟨i, hi⟩ := hc.path.exists_holds hbuild
  obtain ⟨ts, hsymbols, hts, later, hlater⟩ :=
    Grammar.exists_plain_trees fun s hs => (hc.path.continues ha i hi).yields hg hs
  obtain ⟨kinds, tree, r, -, htree, hreaches⟩ :=
    completes_of_path ha hg hc.path hc.conforms hi ts hts hsymbols
  have hplain : Tree.leavesOf ts ++ plain kinds = plain (later ++ kinds) := by simp [hlater, plain]
  rw [hplain] at htree hreaches
  exact ⟨later ++ kinds, tree, htree, r, hreaches⟩

end Configuration

end RecordSearch.Query
