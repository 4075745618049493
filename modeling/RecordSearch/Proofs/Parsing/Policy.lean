import RecordSearch.Proofs.Parsing.Promises

/-! Parsing under any policy. Whatever a policy answers, it changes only what is still to come, so the
    stack stays a path of the automaton under trees that conform to the grammar: each step is a move,
    a change of the input, or an error that is not about the table (`step_answer`). So for every
    grammar that has a table a reduction finds its children, the trees on the stack hold the tokens
    shifted so far, and what a parse gives is a derivation tree of these (`sound_of_build`). -/

namespace RecordSearch.Query

namespace Configuration

variable {σ : Type} {g : Grammar} {t : Table} {policy : Option (Policy σ)}
  {c c' : Configuration σ}

/-- The token that the next step shifts. -/
def shifting (t : Table) (c : Configuration σ) : Option Token :=
  match t.action (topState c.stack) (.of c.input.head?) with
  | some (.shift _) => c.input.head?
  | _ => none

/-- The steps from one configuration to another shift the given tokens on the way. -/
inductive Shifts (t : Table) (policy : Option (Policy σ)) (a : Configuration σ) :
    List Token → Configuration σ → Prop
  | here : Shifts t policy a [] a
  | step {tokens : List Token} {c c' : Configuration σ} (before : Shifts t policy a tokens c)
      (next : c.step t policy = .next c') :
      Shifts t policy a (tokens ++ (c.shifting t).toList) c'

/-! ### Steps under any policy -/

/-- What a step does, whatever the policy says. -/
inductive Answer (g : Grammar) (t : Table) (c : Configuration σ) : Step σ → Prop
  | move {s : Step σ} (move : Move g t c s) : Answer g t c s
  | resume {c' : Configuration σ}
      (action : t.action (topState c.stack) (.of c.input.head?) = none)
      (stack : c'.stack = c.stack) : Answer g t c (.next c')
  | refuse {e : ParseError} {m : σ} (cause : e.cause ≠ .invalidTable) :
      Answer g t c (.done (.error e) m)

/-- A policy does not touch the stack, and it fails for reasons of its own. -/
theorem recover_answer (policy : Policy σ)
    (haction : t.action (topState c.stack) (.of c.input.head?) = none) :
    Answer g t c (c.recover t policy) := by
  simp only [recover]
  split
  · exact .refuse (by simp [Table.errorAt])
  · split
    · exact .resume haction rfl
    · exact .resume haction rfl
    · exact .refuse (by simp [Table.errorAt])

theorem step_answer (ha : g.Automaton t) (hc : c.Valid g t) :
    Answer g t c (c.step t policy) := by
  cases haction : t.action (topState c.stack) (.of c.input.head?) with
  | some action => exact .move (step_move ha hc (by rw [haction]; rfl))
  | none =>
    rw [step_stalled haction]
    cases policy with
    | some policy => exact recover_answer policy haction
    | none => exact .refuse (by simp [Table.errorAt])

theorem Answer.valid (h : Answer g t c (.next c')) (hc : c.Valid g t) : c'.Valid g t := by
  cases h with
  | move move => exact move.valid hc
  | resume _ stack =>
    refine ⟨?_, ?_⟩
    · rw [stack]
      exact hc.path
    · rw [stack]
      exact hc.conforms

/-- A step adds the token that it shifts, if any, to those below the stack. -/
theorem Answer.shifted_eq (h : Answer g t c (.next c')) :
    c'.shifted = c.shifted ++ (c.shifting t).toList := by
  cases h with
  | move move =>
    cases move with
    | @shift token rest q input action =>
      have hshifting : c.shifting t = some token := by simp [shifting, input, Lookahead.of, action]
      rw [hshifting, shifted, tokensOf_cons]
      simp [shifted]
    | reduce action production stack symbols goto =>
      have hshifting : c.shifting t = none := by simp [shifting, action]
      rw [hshifting, shifted, shifted, stack, tokensOf_cons, tokensOf_append]
      simp [tokensOf]
  | resume action stack =>
    have hshifting : c.shifting t = none := by simp [shifting, action]
    rw [hshifting, shifted, stack]
    simp [shifted]

/-- The trees on the stack hold the tokens shifted so far. -/
theorem Shifts.spec (ha : g.Automaton t) {a : Configuration σ} (hvalid : a.Valid g t)
    {tokens : List Token} (h : Shifts t policy a tokens c) :
    c.Valid g t ∧ c.shifted = a.shifted ++ tokens := by
  induction h with
  | here => exact ⟨hvalid, (List.append_nil _).symm⟩
  | @step tokens c c' before next ih =>
    obtain ⟨hc, htokens⟩ := ih
    have hanswer : Answer g t c (.next c') := next ▸ step_answer ha hc
    refine ⟨hanswer.valid hc, ?_⟩
    rw [hanswer.shifted_eq, htokens, List.append_assoc]

/-- A run that ends does so where some tokens were shifted. -/
theorem exists_shifts_of_run {a : Configuration σ} {fuel : Nat} {result : Except ParseError Tree}
    {m : σ} (hrun : a.run t policy fuel = some (result, m)) :
    ∃ tokens c, Shifts t policy a tokens c ∧ c.step t policy = .done result m := by
  obtain ⟨c, ⟨tokens, hc⟩, hs⟩ := run_invariant (P := fun c => ∃ tokens, Shifts t policy a tokens c)
    (fun _ _ ⟨_, h⟩ hs => ⟨_, h.step hs⟩) ⟨[], .here⟩ hrun
  exact ⟨tokens, c, hc, hs⟩

/-! ### Parses -/

/-- What a parse that begins with the given configuration never gets wrong. -/
structure Sound (g : Grammar) (t : Table) (policy : Option (Policy σ)) (a : Configuration σ) :
    Prop where
  /-- A reduction takes no more trees than the stack holds, -/
  reduces : ∀ tokens c j, Shifts t policy a tokens c →
    t.action (topState c.stack) (.of c.input.head?) = some (.reduce j) →
    ∃ p, t.productions[j]? = some p ∧ p.rhs.length ≤ c.stack.length
  /-- and at any time the trees on the stack hold the tokens shifted so far. -/
  leaves : ∀ tokens c, Shifts t policy a tokens c →
    Tree.leavesOf (c.stack.map Prod.snd).reverse = tokens
  /-- No entry of the table is missing. -/
  consistent : ∀ fuel e m, a.run t policy fuel = some (.error e, m) → e.cause ≠ .invalidTable
  /-- The result is a derivation tree of the shifted tokens. -/
  derives : ∀ fuel tree m, a.run t policy fuel = some (.ok tree, m) →
    ∃ tokens c, Shifts t policy a tokens c ∧ c.step t policy = .done (.ok tree) m ∧
      g.IsDerivation tokens tree

/-- Every grammar that has a table is parsed soundly, whatever the policy. -/
theorem sound_of_build (hbuild : Table.build g = .ok t) (policy : Option (Policy σ))
    (input : List Token) (memory : σ) : Sound g t policy (start input memory) := by
  have ha := Grammar.automaton_of_build hbuild
  have hspec : ∀ {tokens c}, Shifts t policy (start input memory) tokens c →
      c.Valid g t ∧ c.shifted = tokens := fun h => h.spec ha (.start input memory)
  constructor
  case reduces =>
    intro tokens c j h haction
    obtain ⟨p, hp, hholds, -⟩ := ha.of_reduce _ _ _ haction
    exact ⟨p, ha.productions ▸ hp, ((hspec h).1.path.viable ha hholds).1⟩
  case leaves =>
    intro tokens c h
    exact (hspec h).2
  case consistent =>
    intro fuel e m hrun
    obtain ⟨tokens, c, h, hs⟩ := exists_shifts_of_run hrun
    have hanswer : Answer g t c (.done (.error e) m) := hs ▸ step_answer ha (hspec h).1
    cases hanswer with
    | move move => cases move
    | refuse cause => exact cause
  case derives =>
    intro fuel tree m hrun
    obtain ⟨tokens, c, h, hs⟩ := exists_shifts_of_run hrun
    have hanswer : Answer g t c (.done (.ok tree) m) := hs ▸ step_answer ha (hspec h).1
    refine ⟨tokens, c, h, hs, ?_⟩
    cases hanswer with
    | move move => exact (hspec h).2 ▸ move.isDerivation (hspec h).1

/-- A policy that puts a term in the way at first, and later on takes the input to end. -/
def termThenStop : Policy Nat := fun asked _ =>
  (if asked = 0 then .replace (.ofText .searchTerm "x" 0) else .stop, asked + 1)

theorem sound_of_build_termThenStop : Table.build Grammar.query = .ok Table.query ∧
    Sound Grammar.query Table.query (some termThenStop) (start [.ofKind .and 0, .ofKind .rparen 4] 0) :=
  ⟨Table.query_spec.1, sound_of_build Table.query_spec.1 (some termThenStop) _ 0⟩

end Configuration

end RecordSearch.Query
