import RecordSearch.Proofs.Parsing.Consulting
import RecordSearch.Proofs.Parsing.Unfinished

/-! What a policy is asked first. As long as the table has an action, a parse under a policy and the one
    without go side by side (`run_beside`). So tokens that are parsed without recovery are parsed the
    same way under any policy, which is never asked; and where the parse without recovery reports an
    error, the policy is asked, and its first question is about that error (`parse_asks`). -/

namespace RecordSearch.Query

variable {σ : Type}

/-- The policy with a record of what it was asked, in order. -/
def Policy.recording (policy : Policy σ) : Policy (σ × List Stalled) := fun (memory, asked) stalled =>
  let (decision, memory) := policy memory stalled
  (decision, memory, asked ++ [stalled])

/-- What is remembered after a step. -/
def Step.memory : Step σ → σ
  | .next c => c.memory
  | .done _ memory => memory

namespace Configuration

/-- What a policy would be asked about. -/
def question (t : Table) (c : Configuration σ) : Stalled :=
  ⟨(c.stack.map Prod.snd).reverse, c.input.head?, t.expected (topState c.stack)⟩

variable {g : Grammar} {t : Table} {policy : Policy σ}

/-- Where the table has no action the policy is asked, unless it was asked too often. -/
theorem memory_step_recording (policy : Policy σ) {c : Configuration (σ × List Stalled)}
    (haction : t.action (topState c.stack) (.of c.input.head?) = none)
    (hcap : c.recoveries ≠ maxRecoveries) :
    (c.step t (some policy.recording)).memory.2 = c.memory.2 ++ [c.question t] := by
  rw [step_stalled haction]
  simp only [recover, if_neg hcap, Policy.recording, question]
  cases policy c.memory.1
      ⟨(c.stack.map Prod.snd).reverse, c.input.head?, t.expected (topState c.stack)⟩ with
  | mk decision memory => cases decision <;> rfl

/-- A parse is the same with the record and without. -/
theorem run_recording (policy : Policy σ) (fuel : Nat) (c : Configuration (σ × List Stalled)) :
    (c.mapMemory Prod.fst).run t (some policy) fuel =
      (c.run t (some policy.recording) fuel).map fun r => (r.1, r.2.1) :=
  run_mapMemory (fun _ _ => rfl) fuel c

/-! ### Parses side by side -/

/-- A parse under a policy comes to a place without an action, and the policy was not asked before. -/
structure StallsAt (g : Grammar) (t : Table) (policy : Policy σ) (a c : Configuration σ) : Prop where
  reached : a.Reaches t (some policy) c
  action : t.action (topState c.stack) (.of c.input.head?) = none
  recoveries : c.recoveries = 0
  memory : c.memory = a.memory
  tokens : c.shifted ++ c.input = a.shifted ++ a.input

/-- What a move keeps of a parse in which the policy was not asked. -/
theorem Move.unasked {c c' : Configuration σ} (h : Move g t c (.next c')) :
    c'.memory = c.memory ∧ c'.recoveries ≤ c.recoveries := by
  cases h with
  | shift => exact ⟨rfl, Nat.zero_le _⟩
  | reduce => exact ⟨rfl, Nat.le_refl _⟩

/-- A parse without a policy that ends, and the one under a policy: either both give the same tree, or
    the latter comes to the place that the former reports. -/
theorem run_beside (policy : Policy σ) (ha : g.Automaton t) {result : Except ParseError Tree} :
    ∀ {fuel : Nat} {c : Configuration σ}, c.Valid g t → c.recoveries = 0 →
      (c.mapMemory fun _ => ()).run t none fuel = some (result, ()) →
      (∃ tree, result = .ok tree ∧ c.run t (some policy) fuel = some (.ok tree, c.memory)) ∨
        ∃ c', StallsAt g t policy c c' ∧
          result = .error (t.errorAt .unexpected (topState c'.stack) c'.input.head?)
  | 0, _, _, _, hrun => by simp [run] at hrun
  | fuel + 1, c, hc, hrecoveries, hrun => by
      cases haction : t.action (topState c.stack) (.of c.input.head?) with
      | none =>
        have haction' : t.action (topState (c.mapMemory fun _ => ()).stack)
            (.of (c.mapMemory fun _ => ()).input.head?) = none := haction
        rw [run_done (step_stalled haction'), Option.some.injEq, Prod.mk.injEq] at hrun
        exact .inr ⟨c, ⟨.refl c, haction, hrecoveries, rfl, rfl⟩, hrun.1.symm⟩
      | some action =>
        have hsome : (t.action (topState c.stack) (.of c.input.head?)).isSome = true := by
          rw [haction]
          rfl
        have hbeside := step_mapMemory_of_action (fun _ => ()) (some policy) none hsome
        have hmove : Move g t c (c.step t (some policy)) := step_move ha hc hsome
        cases hs : c.step t (some policy) with
        | next c' =>
          rw [hs] at hbeside hmove
          obtain ⟨hmemory, hle⟩ := hmove.unasked
          rw [run_next hbeside] at hrun
          rcases run_beside policy ha (hmove.valid hc) (by omega) hrun with
            ⟨tree, rfl, hsame⟩ | ⟨d, hd, rfl⟩
          · exact .inl ⟨tree, rfl, by rw [run_next hs, hsame, hmemory]⟩
          · exact .inr ⟨d, ⟨(Reaches.single hs).trans hd.reached, hd.action, hd.recoveries,
              hd.memory.trans hmemory, hd.tokens.trans hmove.tokens⟩, rfl⟩
        | done r m =>
          rw [hs] at hbeside hmove
          rw [run_done hbeside, Option.some.injEq, Prod.mk.injEq] at hrun
          cases hmove with
          | accept => exact .inl ⟨_, hrun.1.symm, run_done hs fuel⟩

end Configuration

/-! ### Questions of a parse -/

namespace Table

/-- A parse under a policy asks it, and this is the first question. -/
def AsksFirst (t : Table) (policy : Policy σ) (tokens : List Token) (memory : σ)
    (question : Stalled) : Prop :=
  ∃ c, (Configuration.start tokens (memory, [])).Reaches t (some policy.recording) c ∧
    c.memory = (memory, []) ∧ (c.step t (some policy.recording)).memory.2 = [question]

variable {g : Grammar} {t : Table}

/-- Under a policy, tokens that are parsed without recovery give the same tree in as many steps, and the
    policy is not asked. Where the parse without recovery reports an error, the policy is asked; what
    it sees first is the token that the error is about, behind the trees of all tokens before it, and
    the lookaheads that the error lists. -/
theorem parse_asks (hbuild : build g = .ok t) {fuel : Nat} {tokens : List Token}
    {result : Except ParseError Tree}
    (hrun : t.parse (σ := Unit) none fuel tokens () = some (result, ())) (policy : Policy σ)
    (memory : σ) :
    (∀ tree, result = .ok tree →
      t.parse (some policy) fuel tokens memory = some (.ok tree, memory) ∧
      t.parse (some policy.recording) fuel tokens (memory, []) = some (.ok tree, memory, [])) ∧
    ∀ e, result = .error e → ∃ question, t.AsksFirst policy tokens memory question ∧
      e = ⟨.unexpected, question.found.map Token.position, question.found.map Token.kind,
        question.acceptable⟩ ∧
      ∃ input, tokens = Tree.leavesOf question.stack ++ input ∧ question.found = input.head? := by
  have ha := Grammar.automaton_of_build hbuild
  rcases Configuration.run_beside policy.recording ha (.start tokens (memory, [])) rfl hrun
    with ⟨tree, rfl, hsame⟩ | ⟨c, hc, rfl⟩
  · constructor
    · intro u hu
      obtain rfl := Except.ok.inj hu
      have hplain := Configuration.run_recording (t := t) policy fuel (.start tokens (memory, []))
      rw [hsame] at hplain
      exact ⟨hplain, hsame⟩
    · intro e he
      cases he
  · constructor
    · intro u hu
      cases hu
    · intro e he
      obtain rfl := Except.error.inj he
      have hcap : c.recoveries ≠ maxRecoveries := by
        rw [hc.recoveries]
        decide
      have hasked := Configuration.memory_step_recording policy hc.action hcap
      rw [hc.memory] at hasked
      exact ⟨c.question t, ⟨c, hc.reached, hc.memory, hasked⟩, rfl, c.input, hc.tokens.symm, rfl⟩

/-- Nothing is asked about a query that is right; a parenthesis that closes nothing is asked about. -/
theorem parse_asks_closing : build Grammar.query = .ok query ∧
    (∃ fuel, query.parse (σ := Unit) none fuel Tree.atMostFive.leaves () =
        some (.ok Tree.atMostFive, ()) ∧
      query.parse (some repair) fuel Tree.atMostFive.leaves 7 = some (.ok Tree.atMostFive, 7)) ∧
    ∃ fuel e question, query.parse (σ := Unit) none fuel [.ofKind .rparen 0] () =
        some (.error e, ()) ∧
      query.AsksFirst repair [.ofKind .rparen 0] 1 question ∧ e.acceptable = question.acceptable := by
  refine ⟨query_spec.1, ?_, ?_⟩
  · obtain ⟨fuel, hrun⟩ := exists_run_of_parseStrict Tree.atMostFive.leaves
    rw [parseStrict_of_isDerivation Tree.isDerivation_atMostFive] at hrun
    exact ⟨fuel, hrun, ((parse_asks query_spec.1 hrun repair 7).1 _ rfl).1⟩
  · obtain ⟨fuel, hrun⟩ := exists_run_of_parseStrict [.ofKind .rparen 0]
    cases hparse : parseStrict [.ofKind .rparen 0] with
    | ok t => exact absurd (depthOf_isDerivation (isDerivation_of_parseStrict hparse)) (by decide)
    | error e =>
      rw [hparse] at hrun
      obtain ⟨question, hasks, rfl, -⟩ := (parse_asks query_spec.1 hrun repair 1).2 e rfl
      exact ⟨fuel, _, question, hrun, hasks, rfl⟩

end Table

end RecordSearch.Query
