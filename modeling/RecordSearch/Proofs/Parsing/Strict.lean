import RecordSearch.Proofs.Parsing.Promises

/-! Parsing without recovery decides the language of queries: it takes exactly the sentences of the
    grammar and gives the one derivation tree of each (`parseStrict_spec`). -/

namespace RecordSearch.Query

namespace Configuration

variable {σ : Type} {g : Grammar} {t : Table}

/-- A step without a policy is a move, unless it ends the parse with an error. -/
theorem move_of_step (ha : g.Automaton t) {c : Configuration σ} (hc : c.Valid g t) {s : Step σ}
    (hs : c.step t none = s) (hne : ∀ e m, s ≠ .done (.error e) m) : Move g t c s := by
  cases haction : t.action (topState c.stack) (.of c.input.head?) with
  | none => exact absurd (hs.symm.trans (step_stalled haction)) (hne _ _)
  | some action =>
    rw [← hs]
    exact step_move ha hc (by rw [haction]; rfl)

/-- Between the start and the end the shifted tokens and those to come are the whole input. -/
structure Along (g : Grammar) (t : Table) (tokens : List Token) (c : Configuration σ) : Prop where
  valid : c.Valid g t
  tokens_eq : c.shifted ++ c.input = tokens

theorem Along.start (tokens : List Token) (m : σ) : Along g t tokens (start tokens m) :=
  ⟨.start tokens m, rfl⟩

theorem Along.next (ha : g.Automaton t) {tokens : List Token} {c c' : Configuration σ}
    (hc : Along g t tokens c) (hs : c.step t none = .next c') : Along g t tokens c' := by
  have hmove := move_of_step ha hc.valid hs (by simp)
  exact ⟨hmove.valid hc.valid, hmove.tokens.trans hc.tokens_eq⟩

/-- What a parse without a policy gives is a derivation tree of the input. -/
theorem isDerivation_of_run (ha : g.Automaton t) {tokens : List Token} {m m' : σ} {tree : Tree}
    {fuel : Nat} (hrun : (Configuration.start tokens m).run t none fuel = some (.ok tree, m')) :
    g.IsDerivation tokens tree := by
  obtain ⟨c, hc, hs⟩ := run_invariant (P := Along g t tokens) (fun _ _ hc hs => hc.next ha hs)
    (.start tokens m) hrun
  have hmove := move_of_step ha hc.valid hs (by simp)
  have hderivation := hmove.isDerivation hc.valid
  have hinput : c.input = [] := by
    cases hmove with
    | accept _ input _ => exact input
  have htokens := hc.tokens_eq
  rw [hinput, List.append_nil] at htokens
  rwa [htokens] at hderivation

/-- A parse of a query without a policy ends within the steps allowed for. -/
theorem exists_run_strict (tokens : List Token) (m : σ) :
    ∃ r, (start tokens m).run Table.query none (enoughSteps tokens.length) = some r := by
  have ha := Table.automaton_query
  refine run_of_decreasing (P := Valid Grammar.query Table.query) (fun c c' hc hs => ?_)
    (.start tokens m) (credit_start_lt Table.query tokens m)
  have hmove := move_of_step ha hc hs (by simp)
  exact ⟨hmove.valid hc, hmove.credit_lt ha Table.credited_query⟩

end Configuration

/-! ### Parsing without recovery -/

theorem parseStrict_of_run {tokens : List Token} {result : Except ParseError Tree} {fuel : Nat}
    (h : (Configuration.start tokens ()).run Table.query none fuel = some (result, ())) :
    parseStrict tokens = result := by
  obtain ⟨r, hrun⟩ := Configuration.exists_run_strict tokens ()
  have hresult := Configuration.run_unique hrun h
  rw [parseStrict, Table.parse, hrun, hresult, resultOf]

theorem exists_run_of_parseStrict (tokens : List Token) :
    ∃ fuel, (Configuration.start tokens ()).run Table.query none fuel
      = some (parseStrict tokens, ()) := by
  obtain ⟨⟨result, _⟩, hrun⟩ := Configuration.exists_run_strict tokens ()
  exact ⟨_, hrun.trans (by rw [parseStrict_of_run hrun])⟩

theorem parseStrict_of_isDerivation {tokens : List Token} {t : Tree}
    (h : Grammar.query.IsDerivation tokens t) : parseStrict tokens = .ok t := by
  obtain ⟨_, hrun⟩ := Configuration.run_of_isDerivation Table.automaton_query h ()
  exact parseStrict_of_run hrun

theorem isDerivation_of_parseStrict {tokens : List Token} {t : Tree}
    (h : parseStrict tokens = .ok t) : Grammar.query.IsDerivation tokens t := by
  obtain ⟨_, hrun⟩ := exists_run_of_parseStrict tokens
  rw [h] at hrun
  exact Configuration.isDerivation_of_run Table.automaton_query hrun

/-- Parsing without recovery takes exactly the sentences of the query grammar, and what it gives is
    the one derivation tree of its tokens. -/
theorem parseStrict_spec (tokens : List Token) :
    ((∃ t, parseStrict tokens = .ok t) ↔ Grammar.query.IsSentence (tokens.map Token.kind)) ∧
    ∀ t, parseStrict tokens = .ok t → Grammar.query.IsDerivation tokens t ∧
      ∀ u, Grammar.query.IsDerivation tokens u → u = t := by
  refine ⟨?_, fun t ht => ?_⟩
  · rw [Grammar.isSentence_iff]
    constructor
    · rintro ⟨t, ht⟩
      exact ⟨t, isDerivation_of_parseStrict ht⟩
    · rintro ⟨t, ht⟩
      exact ⟨t, parseStrict_of_isDerivation ht⟩
  · have hderivation := isDerivation_of_parseStrict ht
    exact ⟨hderivation, fun u hu =>
      Configuration.isDerivation_unique Table.automaton_query hu hderivation⟩

end RecordSearch.Query
