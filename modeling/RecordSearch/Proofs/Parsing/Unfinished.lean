import RecordSearch.Proofs.Parsing.Blame
import RecordSearch.Proofs.Parsing.Kept
import RecordSearch.Proofs.Parsing.Policy

/-! Queries that break off. No repair is made before the end of tokens that begin a sentence, so all
    of them are shifted as they are (`Onward.step`); and as parentheses are balanced in every
    sentence, there is one way to add what is missing. So if an empty term, where one is missing, and
    some parentheses complete the tokens to a sentence, then the repaired parse gives the tree of that
    sentence (`parseRepaired_of_added`). -/

namespace RecordSearch.Query

/-! ### Parentheses -/

/-- How many parentheses more a kind leaves open. -/
def Kind.depth : Kind → Int
  | .lparen => 1
  | .rparen => -1
  | _ => 0

/-- What stands below a nonterminal leaves none open. -/
def Symbol.depth : Symbol → Int
  | .terminal k => k.depth
  | .nonterminal _ => 0

/-- How many parentheses more a sequence of symbols leaves open. -/
def depthAlong : List Symbol → Int
  | [] => 0
  | symbol :: symbols => symbol.depth + depthAlong symbols

theorem depthAlong_append (xs ys : List Symbol) :
    depthAlong (xs ++ ys) = depthAlong xs + depthAlong ys := by
  induction xs with
  | nil => exact (Int.zero_add _).symm
  | cons x xs ih => rw [List.cons_append, depthAlong, depthAlong, ih, Int.add_assoc]

/-- How many parentheses more some tokens leave open. -/
def depthOf (tokens : List Token) : Int := depthAlong (tokens.map fun x => .terminal x.kind)

theorem depthOf_append (xs ys : List Token) : depthOf (xs ++ ys) = depthOf xs + depthOf ys := by
  rw [depthOf, List.map_append, depthAlong_append]
  rfl

theorem depth_production : ∀ p ∈ Grammar.query.productions, depthAlong p.rhs = 0 := by decide

theorem depthOf_leavesOf {children : List Tree}
    (h : ∀ t ∈ children, depthOf t.leaves = t.symbol.depth) :
    depthOf (Tree.leavesOf children) = depthAlong (children.map Tree.symbol) := by
  induction children with
  | nil => rfl
  | cons t children ih =>
    rw [Tree.leavesOf_cons, depthOf_append, h t List.mem_cons_self,
      ih fun u hu => h u (List.mem_cons_of_mem t hu), List.map_cons, depthAlong]

/-- Parentheses are balanced below every nonterminal. -/
theorem depthOf_leaves {t : Tree} (ht : t.Conforms Grammar.query) :
    depthOf t.leaves = t.symbol.depth := by
  induction ht with
  | leaf token => exact Int.add_zero _
  | node production _ ih =>
    rw [Tree.leaves_node, depthOf_leavesOf ih]
    exact depth_production _ production

theorem depthOf_isDerivation {tokens : List Token} {t : Tree}
    (ht : Grammar.query.IsDerivation tokens t) : depthOf tokens = 0 := by
  rw [← ht.leaves, depthOf_leaves ht.conforms, ht.root]
  rfl

theorem depthOf_added (place : Nat) (term : Bool) (closings : Nat) :
    depthOf (added place term closings) = -closings := by
  induction closings with
  | zero => cases term <;> rfl
  | succ closings ih =>
    rw [added_succ, depthOf_append, ih]
    have hone : depthOf [.ofKind .rparen (place + (added place term closings).length)] = -1 := rfl
    rw [hone]
    omega

/-! ### Beginnings of sentences -/

theorem Grammar.IsPrefix.of_append {g : Grammar} {kinds more : List Kind}
    (h : g.IsPrefix (kinds ++ more)) : g.IsPrefix kinds := by
  obtain ⟨rest, hrest⟩ := h
  rw [List.append_assoc] at hrest
  exact ⟨_, hrest⟩

theorem Grammar.IsDerivation.isPrefix {g : Grammar} {xs ys : List Token} {t : Tree}
    (h : g.IsDerivation (xs ++ ys) t) : g.IsPrefix (xs.map Token.kind) := by
  refine ⟨ys.map Token.kind, ?_⟩
  rw [← List.map_append]
  exact Grammar.isSentence_iff.mpr ⟨t, h⟩

namespace Configuration

variable {g : Grammar} {t : Table} {xs : List Token}

/-- Where the table has an action, the policy does not matter. -/
theorem step_of_action {σ : Type} {c : Configuration σ} (policy policy' : Option (Policy σ))
    (h : (t.action (topState c.stack) (.of c.input.head?)).isSome = true) :
    c.step t policy = c.step t policy' := by
  obtain ⟨action, haction⟩ := Option.isSome_iff_exists.mp h
  cases action <;> simp only [step, haction]

/-- The tokens are being shifted as they are, or all of them were. -/
inductive Onward (g : Grammar) (t : Table) (xs : List Token) (c : Configuration Nat) : Prop
  | before (along : Along g t xs c) (unaware : c.Local t)
  | past (more : List Token) (shifted : c.shifted = xs ++ more)

/-- There is nothing to repair before the end of tokens that begin a sentence. -/
theorem Along.input_of_stalled {σ : Type} (ha : g.Automaton t)
    (hviable : g.IsPrefix (xs.map Token.kind)) {c : Configuration σ} (hc : Along g t xs c) (hlocal : c.Local t)
    (haction : t.action (topState c.stack) (.of c.input.head?) = none) : c.input = [] := by
  cases hinput : c.input with
  | nil => rfl
  | cons token rest =>
    have hxs : xs = (c.shifted ++ [token]) ++ rest := by
      rw [← hc.tokens_eq, hinput, List.append_assoc]
      rfl
    rw [hxs, List.map_append] at hviable
    exact absurd hviable.of_append (not_isPrefix_of_stalled ha hlocal hinput haction)

theorem Onward.step (ha : g.Automaton t)
    (hviable : g.IsPrefix (xs.map Token.kind)) {c c' : Configuration Nat} (hsteady : c.Steady g t)
    (hc : c.Onward g t xs) (hs : c.step t (some repair) = .next c') : c'.Onward g t xs := by
  have hanswer : Answer g t c (.next c') := hs ▸ step_answer ha hsteady.valid
  have hshifted := hanswer.shifted_eq
  cases hc with
  | before along unaware =>
    cases haction : t.action (topState c.stack) (.of c.input.head?) with
    | some action =>
      rw [step_of_action (some repair) none (by rw [haction]; rfl)] at hs
      exact .before (along.next ha hs) (unaware.next ha along.valid hs)
    | none =>
      have hinput := along.input_of_stalled ha hviable unaware haction
      have htokens := along.tokens_eq
      rw [hinput, List.append_nil] at htokens
      rw [htokens] at hshifted
      exact .past _ hshifted
  | past more shifted =>
    rw [shifted, List.append_assoc] at hshifted
    exact .past _ hshifted

/-- A parse that ends well has shifted them all. -/
theorem Onward.leaves (ha : g.Automaton t) {c : Configuration Nat} (hc : c.Onward g t xs)
    (hsteady : c.Steady g t) {tree : Tree} {m : Nat}
    (hs : c.step t (some repair) = .done (.ok tree) m) : ∃ more, tree.leaves = xs ++ more := by
  have hmove : Move g t c (.done (.ok tree) m) :=
    hs ▸ step_move ha hsteady.valid (action_of_done hs)
  have hleaves := (hmove.isDerivation hsteady.valid).leaves
  cases hc with
  | before along _ =>
    have htokens := along.tokens_eq
    cases hmove with
    | accept _ input _ =>
      rw [input, List.append_nil] at htokens
      exact ⟨[], by rw [List.append_nil, hleaves, htokens]⟩
  | past more shifted => exact ⟨more, hleaves.trans shifted⟩

end Configuration

/-! ### Repaired parses -/

section Repaired

variable {place : Nat} {tokens : List Token} {t : Tree}

/-- A repair leaves tokens alone that begin a sentence. -/
theorem leaves_of_isPrefix (hviable : Grammar.query.IsPrefix (tokens.map Token.kind))
    (h : parseRepaired place tokens = .ok t) : ∃ more, t.leaves = tokens ++ more := by
  have ha := Table.automaton_query
  obtain ⟨c, m, hsteady, honward, hs⟩ := exists_done_of_parseRepaired
    (P := Configuration.Onward Grammar.query Table.query tokens)
    (.before (.start tokens place) (.start tokens place))
    (fun c c' hc honward hs => honward.step ha hviable hc hs) h
  exact honward.leaves ha hsteady hs

/-- What a repair adds to them is a term, if one is missing, and parentheses. -/
theorem leaves_of_isPrefix_eq (hviable : Grammar.query.IsPrefix (tokens.map Token.kind))
    (h : parseRepaired place tokens = .ok t) : ∃ closings,
      t.leaves = tokens ++ added place ((lastKind none tokens).any Kind.leavesOpen) closings := by
  obtain ⟨more, hmore⟩ := leaves_of_isPrefix hviable h
  have hrepaired := leaves_of_parseRepaired h
  rw [hmore] at hrepaired
  generalize hleaves : tokens ++ more = leaves at hrepaired
  cases hrepaired with
  | @complete ys kept closings =>
    obtain ⟨rfl, rfl⟩ := List.append_inj hleaves kept.length_eq
    exact ⟨closings, hmore⟩
  | @cut k _ kept found =>
    -- tokens were lost, but all of them are there
    obtain ⟨x, hx, -⟩ := Option.map_eq_some_iff.mp found
    have hlt := (List.getElem?_eq_some_iff.mp hx).1
    have hlength := kept.length_eq
    rw [← hleaves, List.length_take, List.length_append] at hlength
    omega

/-- The tokens of a sentence are parsed as without recovery. -/
theorem parseRepaired_of_isDerivation (h : Grammar.query.IsDerivation tokens t) :
    parseRepaired place tokens = .ok t := by
  obtain ⟨tree, m, hrun, -⟩ := Configuration.exists_run_repair tokens place
  obtain ⟨fuel, hrun'⟩ := Configuration.run_of_isDerivation Table.automaton_query h place
  have heq := Configuration.run_unique hrun hrun'
  rw [parseRepaired, Table.parse, hrun, heq, resultOf]

/-- Tokens that lack an empty term, where one is missing, and some parentheses are completed to a
    sentence. -/
theorem parseRepaired_of_added {closings : Nat}
    (h : Grammar.query.IsDerivation
      (tokens ++ added place ((lastKind none tokens).any Kind.leavesOpen) closings) t) :
    parseRepaired place tokens = .ok t := by
  obtain ⟨u, hu, hderivation⟩ := exists_parseRepaired place tokens
  obtain ⟨closings', hleaves⟩ := leaves_of_isPrefix_eq h.isPrefix hu
  have hdepth := depthOf_isDerivation h
  have hdepth' := depthOf_isDerivation hderivation
  rw [depthOf_append, depthOf_added] at hdepth
  rw [hleaves, depthOf_append, depthOf_added] at hdepth'
  obtain rfl : closings' = closings := by omega
  rw [hleaves] at hderivation
  rw [hu, Configuration.isDerivation_unique Table.automaton_query hderivation h]

end Repaired

end RecordSearch.Query
