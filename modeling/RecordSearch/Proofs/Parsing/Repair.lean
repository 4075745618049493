import RecordSearch.Proofs.Parsing.Promises

/-! Parsing with recovery never fails. Where the table has no action, the repair policy puts a term or
    a parenthesis in the way or cuts the rest off, and the table has an action on what is seen then
    (`step_repair`). Between two shifts that is needed at most twice, so the bound on repairs is not
    reached, and each repair spends credit. So every parse ends, with a derivation tree
    (`parseRepaired_spec`). -/

namespace RecordSearch.Query

namespace Table

variable {t : Table}

theorem stateCredit_of_action {q : Nat} {l : Lookahead} (h : (t.action q l).isSome = true) :
    t.stateCredit q l = t.idleCredit q := by
  obtain ⟨action, haction⟩ := Option.isSome_iff_exists.mp h
  rw [stateCredit, haction]

theorem stateCredit_of_mended {q : Nat} {l l' : Lookahead} (h : t.action q l = none)
    (hmended : t.mended q = some l') :
    t.stateCredit q l = l'.credit + t.idleCredit q + 1 - l.credit := by
  rw [stateCredit, h, hmended]

theorem stalls_of_action {q : Nat} {l : Lookahead} (h : (t.action q l).isSome = true) :
    t.stalls q l = t.stallsAhead q l := by
  obtain ⟨action, haction⟩ := Option.isSome_iff_exists.mp h
  rw [stalls, haction]

theorem stalls_of_mended {q : Nat} {l l' : Lookahead} (h : t.action q l = none)
    (hmended : t.mended q = some l') : t.stalls q l = t.stallsAhead q l' + 1 := by
  rw [stalls, h, hmended]

/-- The top state of a stack is a row of the table. -/
theorem Path.top_lt {g : Grammar} (ha : g.Automaton t) :
    ∀ {stack : List (Nat × Tree)}, t.Path stack → topState stack < t.rows.length
  | [], _ => ha.rows_pos
  | (_, _) :: _, ⟨henters, _⟩ => ha.enters_lt _ _ _ henters

end Table

namespace Configuration

variable {g : Grammar} {t : Table} {c c' : Configuration Nat}

/-- What the policy makes of a configuration, and what is seen then. -/
inductive Mend (c : Configuration Nat) : Lookahead → Configuration Nat → Prop
  /-- The token found is taken as a term; at the end of the input an empty one is added. -/
  | term : Mend c (.token .searchTerm)
      ⟨c.stack, .ofText .searchTerm ((c.input.head?.map Token.lexeme).getD "")
        (placeFor c.memory c.input.head?).1 :: c.input.tail,
        c.recoveries + 1, (placeFor c.memory c.input.head?).2⟩
  /-- A parenthesis is closed. -/
  | closing : Mend c (.token .rparen)
      ⟨c.stack, .ofKind .rparen (placeFor c.memory c.input.head?).1 :: c.input.tail,
        c.recoveries + 1, (placeFor c.memory c.input.head?).2⟩
  /-- The rest is cut off. -/
  | stop : Mend c .endOfInput ⟨c.stack, [], c.recoveries + 1, c.memory⟩

/-- The policy does what the state is mended with. -/
theorem recover_mend {l : Lookahead} (hcap : c.recoveries ≠ maxRecoveries)
    (hmended : t.mended (topState c.stack) = some l) :
    ∃ c', c.recover t repair = .next c' ∧ c.Mend l c' := by
  have haccepts : ∀ k stack found, (Stalled.mk stack found (t.expected (topState c.stack))).accepts k
      = (t.action (topState c.stack) (.token k)).isSome := fun k stack found => by
    rw [Stalled.accepts, Bool.eq_iff_iff, List.contains_iff_mem, Table.mem_expected]
  simp only [recover, if_neg hcap, repair, haccepts]
  rw [Table.mended] at hmended
  split at hmended
  · next hterm =>
    obtain rfl := Option.some.inj hmended
    rw [if_pos hterm]
    exact ⟨_, rfl, .term⟩
  · next hterm =>
    rw [if_neg hterm]
    split at hmended
    · next hparen =>
      obtain rfl := Option.some.inj hmended
      rw [if_pos hparen]
      exact ⟨_, rfl, .closing⟩
    · next hparen =>
      rw [if_neg hparen]
      split at hmended
      · next hend =>
        obtain rfl := Option.some.inj hmended
        rw [if_pos hend]
        exact ⟨_, rfl, .stop⟩
      · cases hmended

theorem Mend.stack_eq {l : Lookahead} (h : c.Mend l c') : c'.stack = c.stack := by
  cases h <;> rfl

theorem Mend.recoveries_eq {l : Lookahead} (h : c.Mend l c') :
    c'.recoveries = c.recoveries + 1 := by cases h <;> rfl

theorem Mend.seen {l : Lookahead} (h : c.Mend l c') : Lookahead.of c'.input.head? = l := by
  cases h <;> rfl

theorem inputCredit_eq (tokens : List Token) :
    inputCredit tokens = (Lookahead.of tokens.head?).credit + inputCredit tokens.tail := by
  cases tokens with
  | nil => rfl
  | cons token rest => rw [inputCredit_cons]; rfl

theorem Mend.inputCredit_le {l : Lookahead} (h : c.Mend l c') :
    inputCredit c'.input ≤ l.credit + inputCredit c.input.tail := by
  cases h with
  | term => rw [inputCredit_cons]; exact Nat.le_refl _
  | closing => rw [inputCredit_cons]; exact Nat.le_refl _
  | stop => exact Nat.zero_le _

/-- A repair spends credit. -/
theorem Mend.credit_lt {l : Lookahead} (h : c.Mend l c')
    (haction : t.action (topState c.stack) (.of c.input.head?) = none)
    (hmended : t.mended (topState c.stack) = some l) : c'.credit t < c.credit t := by
  have hinput := h.inputCredit_le
  have hbefore := Table.stateCredit_of_mended haction hmended
  have hafter := Table.stateCredit_of_action (Table.action_of_mended hmended)
  rw [credit, credit, h.stack_eq, h.seen, hbefore, hafter, inputCredit_eq c.input]
  omega

/-- A repair uses up one of the stalls. -/
theorem Mend.stalls_eq {l : Lookahead} (h : c.Mend l c')
    (haction : t.action (topState c.stack) (.of c.input.head?) = none)
    (hmended : t.mended (topState c.stack) = some l) : c.stalls t = c'.stalls t + 1 := by
  have hbefore := Table.stalls_of_mended haction hmended
  have hafter := Table.stalls_of_action (Table.action_of_mended hmended)
  rw [stalls, stalls, h.stack_eq, h.seen, hbefore, hafter]

/-! ### Steps under repair -/

/-- What holds of a parse under repair at any time. -/
structure Steady (g : Grammar) (t : Table) (c : Configuration Nat) : Prop where
  valid : c.Valid g t
  bounded : c.recoveries + c.stalls t ≤ 2

theorem Steady.start (tokens : List Token) (m : Nat) : (start tokens m).Steady g t := by
  refine ⟨.start tokens m, ?_⟩
  have hstalls := t.stalls_le 0 (.of tokens.head?)
  have hnone : (Configuration.start tokens m).recoveries = 0 := rfl
  rw [hnone, Nat.zero_add]
  exact hstalls

/-- What a step under repair does. -/
inductive Repair (g : Grammar) (t : Table) (c : Configuration Nat) : Step Nat → Prop
  | move {s : Step Nat} (move : Move g t c s) : Repair g t c s
  | mend {l : Lookahead} {c' : Configuration Nat}
      (action : t.action (topState c.stack) (.of c.input.head?) = none)
      (mended : t.mended (topState c.stack) = some l) (mend : c.Mend l c') : Repair g t c (.next c')

/-- A step under repair is a move or mends the input. -/
theorem step_repair (ha : g.Automaton t) (hcredited : t.Credited) (hc : c.Steady g t) :
    Repair g t c (c.step t (some repair)) := by
  cases haction : t.action (topState c.stack) (.of c.input.head?) with
  | some action => exact .move (step_move ha hc.valid (by rw [haction]; rfl))
  | none =>
    obtain ⟨l, hmended⟩ :=
      Option.isSome_iff_exists.mp (hcredited.mends _ _ (hc.valid.path.top_lt ha) haction)
    have hcap : c.recoveries ≠ maxRecoveries := by
      have hbounded := hc.bounded
      have hmax : maxRecoveries = 13 := rfl
      omega
    obtain ⟨c', hrecover, hmend⟩ := recover_mend hcap hmended
    have hstep : c.step t (some repair) = .next c' := (step_stalled haction).trans hrecover
    rw [hstep]
    exact .mend haction hmended hmend

theorem Move.steady (ha : g.Automaton t) (hcredited : t.Credited) (h : Move g t c (.next c'))
    (hc : c.Steady g t) : c'.Steady g t := by
  refine ⟨h.valid hc.valid, ?_⟩
  cases h with
  | @shift token rest q input action =>
    have hstalls := t.stalls_le q (.of rest.head?)
    exact Nat.le_trans (Nat.le_of_eq (Nat.zero_add _)) hstalls
  | reduce action production stack symbols goto =>
    have hstalls := hcredited.reduce_stalls _ _ _ _ _ _ action (ha.productions ▸ production) goto
    exact Nat.le_trans (Nat.add_le_add_left hstalls _) hc.bounded

theorem Repair.steady (ha : g.Automaton t) (hcredited : t.Credited)
    (h : Repair g t c (.next c')) (hc : c.Steady g t) : c'.Steady g t := by
  cases h with
  | move move => exact move.steady ha hcredited hc
  | mend action mended mend =>
    have hstalls := mend.stalls_eq action mended
    have hbounded := hc.bounded
    refine ⟨⟨?_, ?_⟩, ?_⟩
    · rw [mend.stack_eq]
      exact hc.valid.path
    · rw [mend.stack_eq]
      exact hc.valid.conforms
    · rw [mend.recoveries_eq]
      omega

theorem Repair.credit_lt (ha : g.Automaton t) (hcredited : t.Credited)
    (h : Repair g t c (.next c')) : c'.credit t < c.credit t := by
  cases h with
  | move move => exact move.credit_lt ha hcredited
  | mend action mended mend => exact mend.credit_lt action mended

/-- A parse under repair ends well. -/
theorem Repair.isDerivation {result : Except ParseError Tree} {m : Nat}
    (h : Repair g t c (.done result m)) (hc : c.Steady g t) :
    ∃ tree, result = .ok tree ∧ g.IsDerivation tree.leaves tree := by
  cases h with
  | move move =>
    cases move with
    | accept stack input root =>
      exact ⟨_, rfl, root, hc.valid.conforms _ (stack ▸ List.mem_cons_self), rfl⟩

/-- A parse of a query under repair ends, within the steps allowed for, with a derivation tree. -/
theorem exists_run_repair (tokens : List Token) (m : Nat) :
    ∃ tree m', (start tokens m).run Table.query (some repair) (enoughSteps tokens.length)
      = some (.ok tree, m') ∧ Grammar.query.IsDerivation tree.leaves tree := by
  have ha := Table.automaton_query
  have hcredited := Table.credited_query
  have hstep : ∀ c c', Steady Grammar.query Table.query c →
      c.step Table.query (some repair) = .next c' → Repair Grammar.query Table.query c (.next c') :=
    fun c c' hc hs => hs ▸ step_repair ha hcredited hc
  obtain ⟨⟨result, m'⟩, hrun⟩ := run_of_decreasing
    (fun c c' hc hs => ⟨(hstep c c' hc hs).steady ha hcredited hc,
      (hstep c c' hc hs).credit_lt ha hcredited⟩)
    (.start tokens m) (credit_start_lt Table.query tokens m)
  obtain ⟨c, hc, hs⟩ := run_invariant
    (fun c c' hc hs => (hstep c c' hc hs).steady ha hcredited hc) (.start tokens m) hrun
  obtain ⟨tree, rfl, htree⟩ := (hs ▸ step_repair ha hcredited hc).isDerivation hc
  exact ⟨tree, m', hrun, htree⟩

end Configuration

/-! ### Parsing with recovery -/

theorem exists_parseRepaired (inputLength : Nat) (tokens : List Token) :
    ∃ t, parseRepaired inputLength tokens = .ok t ∧ Grammar.query.IsDerivation t.leaves t := by
  obtain ⟨t, m, hrun, ht⟩ := Configuration.exists_run_repair tokens inputLength
  exact ⟨t, by rw [parseRepaired, Table.parse, hrun, resultOf], ht⟩

/-- What every step under repair keeps holds where a parse ends. -/
theorem exists_done_of_parseRepaired {P : Configuration Nat → Prop} {inputLength : Nat}
    {tokens : List Token} {t : Tree} (hstart : P (.start tokens inputLength))
    (hstep : ∀ c c', c.Steady Grammar.query Table.query → P c →
      c.step Table.query (some repair) = .next c' → P c')
    (h : parseRepaired inputLength tokens = .ok t) :
    ∃ c m, c.Steady Grammar.query Table.query ∧ P c ∧
      c.step Table.query (some repair) = .done (.ok t) m := by
  have ha := Table.automaton_query
  have hcredited := Table.credited_query
  obtain ⟨tree, m, hrun, -⟩ := Configuration.exists_run_repair tokens inputLength
  obtain rfl : tree = t := by
    rw [parseRepaired, Table.parse, hrun, resultOf] at h
    exact Except.ok.inj h
  obtain ⟨c, ⟨hsteady, hc⟩, hs⟩ := Configuration.run_invariant
    (P := fun c => c.Steady Grammar.query Table.query ∧ P c)
    (fun c c' hc hs => ⟨(hs ▸ Configuration.step_repair ha hcredited hc.1).steady ha hcredited hc.1,
      hstep c c' hc.1 hc.2 hs⟩)
    ⟨.start tokens inputLength, hstart⟩ hrun
  exact ⟨c, m, hsteady, hc, hs⟩

/-- With recovery every sequence of tokens, and so every query, has a derivation tree. -/
theorem parseRepaired_spec :
    (∀ inputLength tokens, ∃ t, parseRepaired inputLength tokens = .ok t ∧
      Grammar.query.IsDerivation t.leaves t) ∧
    ∀ query, ∃ t, compile true query = .ok t ∧ Grammar.query.IsDerivation t.leaves t := by
  refine ⟨exists_parseRepaired, fun query => ?_⟩
  obtain ⟨t, hparse, ht⟩ :=
    exists_parseRepaired (Text.byteLength query.toList) (tokenize query)
  refine ⟨t, ?_, ht⟩
  simp only [compile, if_true, hparse]
  rfl

end RecordSearch.Query
