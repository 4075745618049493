import RecordSearch.Proofs.Parsing.Policy

/-! How often a policy is asked. A policy that keeps count decides like the one that does not, and the
    parse is the same (`run_counting`). Each question takes a step of those that the reserve allows
    for, so the number of questions is bounded by the number of tokens, whatever the answers are
    (`parse_counting`). -/

namespace RecordSearch.Query

/-- The policy with a count of how often it was asked. -/
def Policy.counting {σ : Type} (policy : Policy σ) : Policy (σ × Nat) := fun (memory, asked) stalled =>
  let (decision, memory) := policy memory stalled
  (decision, memory, asked + 1)

variable {σ τ : Type}

/-! ### Memories that hold more -/

/-- The configuration with something else remembered. -/
def Configuration.mapMemory (f : σ → τ) (c : Configuration σ) : Configuration τ :=
  ⟨c.stack, c.input, c.recoveries, f c.memory⟩

/-- The step with something else remembered. -/
def Step.mapMemory (f : σ → τ) : Step σ → Step τ
  | .next c => .next (c.mapMemory f)
  | .done result memory => .done result (f memory)

namespace Configuration

/-- Where the table has an action, neither the policy nor the memory matters. -/
theorem step_mapMemory_of_action {t : Table} {c : Configuration σ} (f : σ → τ)
    (policy : Option (Policy σ)) (policy' : Option (Policy τ))
    (h : (t.action (topState c.stack) (.of c.input.head?)).isSome = true) :
    (c.mapMemory f).step t policy' = (c.step t policy).mapMemory f := by
  obtain ⟨action, haction⟩ := Option.isSome_iff_exists.mp h
  cases action with
  | shift q =>
    simp only [step, mapMemory, haction]
    cases c.input <;> rfl
  | reduce j =>
    simp only [step, mapMemory, haction]
    cases t.reduce j c.stack c.input.head? <;> rfl
  | accept =>
    simp only [step, mapMemory, haction]
    split <;> rfl

/-- Without a policy nothing is remembered. -/
theorem step_mapMemory_none {t : Table} {f : σ → τ} (c : Configuration σ) :
    (c.mapMemory f).step t none = (c.step t none).mapMemory f := by
  cases haction : t.action (topState c.stack) (.of c.input.head?) with
  | none =>
    have haction' : t.action (topState (c.mapMemory f).stack) (.of (c.mapMemory f).input.head?) =
        none := haction
    rw [step_stalled haction, step_stalled haction']
    rfl
  | some action => exact step_mapMemory_of_action f _ _ (by rw [haction]; rfl)

/-- Parses whose steps are the same, what they remember apart, are the same. -/
theorem run_mapMemory_of_step {t : Table} {f : σ → τ} {policy : Option (Policy σ)}
    {policy' : Option (Policy τ)}
    (hf : ∀ c : Configuration σ, (c.mapMemory f).step t policy' = (c.step t policy).mapMemory f)
    (fuel : Nat) (c : Configuration σ) :
    (c.mapMemory f).run t policy' fuel = (c.run t policy fuel).map fun r => (r.1, f r.2) := by
  induction fuel generalizing c with
  | zero => rfl
  | succ fuel ih =>
    have hstep := hf c
    cases hs : c.step t policy with
    | next c' =>
      rw [hs] at hstep
      rw [run_next hs, run_next hstep, ih]
    | done result memory =>
      rw [hs] at hstep
      rw [run_done hs, run_done hstep, Option.map_some]

section MapMemory

variable {t : Table} {f : σ → τ} {policy : Policy σ} {policy' : Policy τ}
  (hf : ∀ memory stalled,
    policy' (f memory) stalled = ((policy memory stalled).1, f (policy memory stalled).2))

include hf

theorem recover_mapMemory (c : Configuration σ) :
    (c.mapMemory f).recover t policy' = (c.recover t policy).mapMemory f := by
  simp only [recover, mapMemory, hf]
  split
  · rfl
  · cases hdecision : policy c.memory
      ⟨(c.stack.map Prod.snd).reverse, c.input.head?, t.expected (topState c.stack)⟩ with
    | mk decision memory => cases decision <;> rfl

theorem step_mapMemory (c : Configuration σ) :
    (c.mapMemory f).step t (some policy') = (c.step t (some policy)).mapMemory f := by
  cases haction : t.action (topState c.stack) (.of c.input.head?) with
  | none =>
    have haction' : t.action (topState (c.mapMemory f).stack) (.of (c.mapMemory f).input.head?) =
        none := haction
    rw [step_stalled haction, step_stalled haction']
    exact recover_mapMemory hf c
  | some action => exact step_mapMemory_of_action f _ _ (by rw [haction]; rfl)

/-- A policy that remembers less, but decides the same, has the same parse. -/
theorem run_mapMemory (fuel : Nat) (c : Configuration σ) :
    (c.mapMemory f).run t (some policy') fuel =
      (c.run t (some policy) fuel).map fun r => (r.1, f r.2) :=
  run_mapMemory_of_step (step_mapMemory hf) fuel c

end MapMemory

/-- A parse is the same with the count and without. -/
theorem run_counting {t : Table} (policy : Policy σ) (fuel : Nat) (c : Configuration (σ × Nat)) :
    (c.mapMemory Prod.fst).run t (some policy) fuel =
      (c.run t (some policy.counting) fuel).map fun r => (r.1, r.2.1) :=
  run_mapMemory (fun _ _ => rfl) fuel c

/-! ### Questions -/

variable {g : Grammar} {t : Table} {policy : Policy σ} {c c' : Configuration (σ × Nat)}

/-- What a step does where the policy is asked, unless it was asked too often. -/
inductive Asks (c : Configuration (σ × Nat)) : Step (σ × Nat) → Prop
  | meddle {c' : Configuration (σ × Nat)} (cap : c.recoveries ≠ maxRecoveries)
      (meddles : c.Meddles c') (asked : c'.memory.2 = c.memory.2 + 1) : Asks c (.next c')
  | fail {e : ParseError} {m : σ × Nat} (cap : c.recoveries ≠ maxRecoveries)
      (asked : m.2 = c.memory.2 + 1) : Asks c (.done (.error e) m)
  | stalled {e : ParseError} : Asks c (.done (.error e) c.memory)

theorem recover_asks (c : Configuration (σ × Nat)) : c.Asks (c.recover t policy.counting) := by
  simp only [recover, Policy.counting]
  split
  · exact .stalled
  · next hcap =>
    cases policy c.memory.1
      ⟨(c.stack.map Prod.snd).reverse, c.input.head?, t.expected (topState c.stack)⟩ with
    | mk decision memory =>
      cases decision with
      | replace token => exact .meddle hcap (.replace token _) rfl
      | stop => exact .meddle hcap (.stop _) rfl
      | fail => exact .fail hcap rfl

/-- What a step of a parse under a policy with a count does. -/
inductive Turn (g : Grammar) (t : Table) (c : Configuration (σ × Nat)) : Step (σ × Nat) → Prop
  | move {s : Step (σ × Nat)} (move : Move g t c s) : Turn g t c s
  | asks {s : Step (σ × Nat)} (action : t.action (topState c.stack) (.of c.input.head?) = none)
      (asks : c.Asks s) : Turn g t c s

theorem step_turn (ha : g.Automaton t) (hc : c.Valid g t) :
    Turn g t c (c.step t (some policy.counting)) := by
  cases haction : t.action (topState c.stack) (.of c.input.head?) with
  | some action => exact .move (step_move ha hc (by rw [haction]; rfl))
  | none =>
    rw [step_stalled haction]
    exact .asks haction (recover_asks c)

/-- What holds at any time: the questions so far are paid for. -/
structure Paid (g : Grammar) (t : Table) (limit : Nat) (c : Configuration (σ × Nat)) : Prop where
  valid : c.Valid g t
  bounded : c.recoveries ≤ maxRecoveries
  asked_le : c.memory.2 + c.patience t ≤ limit

variable {limit : Nat}

/-- A step that goes on takes some patience; if the policy was asked, that pays for it. -/
theorem Paid.next (ha : g.Automaton t) (hreserved : t.Reserved) (hc : c.Paid g t limit)
    (hs : c.step t (some policy.counting) = .next c') :
    c'.Paid g t limit ∧ c'.patience t < c.patience t := by
  have hvalid : c'.Valid g t := (hs ▸ step_answer ha hc.valid : Answer g t c (.next c')).valid hc.valid
  have hasked := hc.asked_le
  have hturn : Turn g t c (.next c') := hs ▸ step_turn ha hc.valid
  cases hturn with
  | move move =>
    have hpatience := move.patience_lt ha hreserved
    have hmemory : c'.memory = c.memory := by cases move <;> rfl
    exact ⟨⟨hvalid, move.recoveries_le.trans hc.bounded, by rw [hmemory]; omega⟩, hpatience⟩
  | asks action asks =>
    cases asks with
    | meddle cap meddles asked =>
      have hcap : c.recoveries < maxRecoveries := Nat.lt_of_le_of_ne hc.bounded cap
      have hpatience := meddles.patience_lt action hcap
      have hrecoveries := meddles.recoveries_eq
      exact ⟨⟨hvalid, by omega, by omega⟩, hpatience⟩

theorem Paid.done (ha : g.Automaton t) (hc : c.Paid g t limit) {result : Except ParseError Tree}
    {m : σ × Nat} (hs : c.step t (some policy.counting) = .done result m) : m.2 ≤ limit := by
  have hasked := hc.asked_le
  have hturn : Turn g t c (.done result m) := hs ▸ step_turn ha hc.valid
  cases hturn with
  | move move =>
    cases move with
    | accept => omega
  | asks action asks =>
    cases asks with
    | fail cap asked =>
      have hcap : c.recoveries < maxRecoveries := Nat.lt_of_le_of_ne hc.bounded cap
      have hpatience : 0 < c.patience t := by rw [patience]; omega
      omega
    | stalled => omega

theorem Paid.start (tokens : List Token) (memory : σ) :
    Paid g t ((start tokens (memory, 0)).patience t) (start tokens (memory, 0)) where
  valid := .start tokens _
  bounded := Nat.zero_le _
  asked_le := (Nat.zero_add _).le

end Configuration

/-- However a policy decides, a parse of a query ends, and how often the policy is asked on the way is
    bounded by the number of tokens. -/
theorem Table.parse_counting (policy : Policy σ) (tokens : List Token) (memory : σ) :
    ∃ result memory' asked, asked < 224 * (tokens.length + 1) ∧
      query.parse (some policy.counting) (224 * (tokens.length + 1)) tokens (memory, 0) =
        some (result, memory', asked) ∧
      query.parse (some policy) (224 * (tokens.length + 1)) tokens memory = some (result, memory') := by
  have hstart : (Configuration.start tokens (memory, 0)).Paid Grammar.query query _ :=
    .start tokens memory
  have hpatience := Configuration.patience_start_lt query tokens (memory, 0)
  have hnext {c c' : Configuration (σ × Nat)} {limit : Nat} (hc : c.Paid Grammar.query query limit)
      (hs : c.step query (some policy.counting) = .next c') :=
    hc.next automaton_query reserved_query hs
  obtain ⟨⟨result, memory', asked⟩, hrun⟩ :=
    Configuration.run_of_decreasing (fun _ _ hc hs => hnext hc hs) hstart hpatience
  obtain ⟨c, hc, hdone⟩ := Configuration.run_invariant (fun _ _ hc hs => (hnext hc hs).1) hstart hrun
  have hplain := Configuration.run_counting (t := query) policy (224 * (tokens.length + 1))
    (Configuration.start tokens (memory, 0))
  rw [hrun] at hplain
  exact ⟨result, memory', asked, (hc.done automaton_query hdone).trans_lt hpatience, hrun, hplain⟩

end RecordSearch.Query
