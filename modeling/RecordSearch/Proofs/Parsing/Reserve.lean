import RecordSearch.Proofs.Parsing.Credit

/-! Why no policy can keep a parse of a query going. In place of each token to come a policy may have
    another one shifted, and at the end of the input it may add some, as many as it likes if it were not
    for the table: at the end an open list is closed by reductions before the policy is asked, and then
    a parenthesis is all that may follow. So a state has a reserve for what can still be added, and
    every shift and every reduction draws on it (`reserved_of_checked`), while a policy only decides
    what it is used for. -/

namespace RecordSearch.Query

/-- Whether there is a token to see. -/
def Lookahead.isToken : Lookahead → Bool
  | .token _ => true
  | .endOfInput => false

namespace Table

/-- The reserve of a state that calls for something more at the end of the input. -/
def gapReserve (t : Table) (q : Nat) : Nat :=
  -- a mark has no credit, but a term may come after it
  if (t.action q (.token .exclude)).isSome then 15
  -- an opening parenthesis has 10, and the list after it 3
  else if (t.action q (.token .lparen)).isSome then 14
  -- the operand of a comparison has 10
  else if t.takesNumber q then 11
  -- only marks without credit are left, such as the closing parenthesis
  else 1

/-- The reserve of a state, with or without a token to see. -/
def reserve (t : Table) (q : Nat) (more : Bool) : Nat :=
  if (t.action q .endOfInput).isSome then t.idleCredit q + if more then 16 else 0
  else t.gapReserve q

/-- What the reserves of a table promise. -/
structure Reserved (t : Table) : Prop where
  shift_draws : ∀ q k q', t.action q (.token k) = some (.shift q') →
    (Symbol.terminal k).credit + t.reserve q' true < t.reserve q true + 16
  shift_last_draws : ∀ q k q', t.action q (.token k) = some (.shift q') →
    (Symbol.terminal k).credit + t.reserve q' false < t.reserve q true
  reduce_draws : ∀ q l j p below q', t.action q l = some (.reduce j) →
    t.productions[j]? = some p → t.goto below p.lhs = some q' →
    (Symbol.nonterminal p.lhs).credit + t.reserve q' l.isToken
      < Symbol.creditOf p.rhs + t.reserve q l.isToken

/-- Whether a shift keeps the promises. -/
def reservesShift (t : Table) (q : Nat) (k : Kind) (q' : Nat) : Bool :=
  decide ((Symbol.terminal k).credit + t.reserve q' true < t.reserve q true + 16)
  && decide ((Symbol.terminal k).credit + t.reserve q' false < t.reserve q true)

/-- Whether a reduction keeps the promises. -/
def reservesReduce (t : Table) (q : Nat) (more : Bool) (p : Production) (q' : Nat) : Bool :=
  decide ((Symbol.nonterminal p.lhs).credit + t.reserve q' more
    < Symbol.creditOf p.rhs + t.reserve q more)

/-- Whether the action of a state keeps the promises. -/
def reservesAction (t : Table) (q : Nat) (l : Lookahead) : Bool :=
  match t.action q l, l with
  | some (.shift q'), .token k => t.reservesShift q k q'
  | some (.reduce j), _ =>
    t.productions[j]?.all fun p => (t.enteredOver p.lhs).all (t.reservesReduce q l.isToken p)
  | _, _ => true

/-- Whether every action keeps the promises. -/
def reservesActions (t : Table) : Bool :=
  (List.range t.rows.length).all fun q => Lookahead.all.all (t.reservesAction q)

variable {t : Table}

section Checked

variable (hchecked : t.reservesActions = true)

include hchecked

theorem reservesAction_of_action {q : Nat} {l : Lookahead} {a : Action}
    (h : t.action q l = some a) : t.reservesAction q l = true :=
  check_of_all hchecked (lt_of_action (by rw [h]; rfl)) l

theorem reservesShift_of_checked {q q' : Nat} {k : Kind}
    (h : t.action q (.token k) = some (.shift q')) : t.reservesShift q k q' = true := by
  have hcell := reservesAction_of_action hchecked h
  simpa only [reservesAction, h] using hcell

/-- The check is all that the reserves need. -/
theorem reserved_of_checked : t.Reserved where
  shift_draws q k q' h := by
    have hshift := reservesShift_of_checked hchecked h
    simp only [reservesShift, Bool.and_eq_true, decide_eq_true_eq] at hshift
    exact hshift.1
  shift_last_draws q k q' h := by
    have hshift := reservesShift_of_checked hchecked h
    simp only [reservesShift, Bool.and_eq_true, decide_eq_true_eq] at hshift
    exact hshift.2
  reduce_draws q l j p below q' h hp hgoto := by
    have hcell := reservesAction_of_action hchecked h
    simp only [reservesAction, h, hp, Option.all_some] at hcell
    exact of_decide_eq_true (List.all_eq_true.mp hcell q' (mem_enteredOver hgoto))

end Checked

/-! ### The reserve of a configuration -/

theorem reserve_le (t : Table) (q : Nat) : ∀ more, t.reserve q more ≤ 15 + if more then 4 else 0 := by
  intro more
  have hidle : t.idleCredit q ≤ 3 := by
    rw [idleCredit]
    split <;> omega
  have hgap : t.gapReserve q ≤ 15 := by
    rw [gapReserve]
    split
    · exact Nat.le_refl _
    · split
      · exact Nat.le_succ _
      · split <;> omega
  rw [reserve]
  cases more <;> split <;> simp <;> omega

theorem reserve_false_le (t : Table) (q : Nat) (more : Bool) :
    t.reserve q false ≤ t.reserve q more := by
  rw [reserve, reserve]
  split <;> simp

end Table

namespace Configuration

variable {σ : Type} {g : Grammar} {t : Table} {c c' : Configuration σ}

/-- The reserve of a configuration; each token behind the next one adds to it. -/
def reserve (t : Table) (c : Configuration σ) : Nat :=
  framesCredit c.stack + 16 * c.input.tail.length +
    t.reserve (topState c.stack) (Lookahead.of c.input.head?).isToken

theorem reserve_start_le (t : Table) (tokens : List Token) (m : σ) :
    (start tokens m).reserve t ≤ 16 * tokens.length + 15 := by
  have hstate := t.reserve_le 0 (Lookahead.of tokens.head?).isToken
  have hstack : framesCredit [] = 0 := rfl
  cases tokens with
  | nil => simpa [reserve, start, topState, hstack, Lookahead.of, Lookahead.isToken] using hstate
  | cons token rest =>
    simp only [reserve, start, topState, hstack, List.tail_cons, List.length_cons, List.head?_cons,
      Lookahead.of, Lookahead.isToken, if_true] at hstate ⊢
    omega

/-- Every move draws on the reserve. -/
theorem Move.reserve_lt (ha : g.Automaton t) (hreserved : t.Reserved)
    (h : Move g t c (.next c')) : c'.reserve t < c.reserve t := by
  cases h with
  | @shift token rest q input action =>
    have htop : topState ((q, Tree.leaf token) :: c.stack) = q := rfl
    simp only [reserve, framesCredit_cons, htop, input, List.tail_cons, List.head?_cons,
      Lookahead.of, Lookahead.isToken, Tree.symbol]
    cases rest with
    | nil =>
      have hdraws := hreserved.shift_last_draws _ _ _ action
      simp only [List.tail_nil, List.length_nil, List.head?_nil]
      omega
    | cons next rest =>
      have hdraws := hreserved.shift_draws _ _ _ action
      simp only [List.tail_cons, List.length_cons, List.head?_cons]
      omega
  | @reduce j q p frames rest action production stack symbols goto =>
    have hdraws := hreserved.reduce_draws _ _ _ _ _ _ action (ha.productions ▸ production) goto
    rw [← framesCredit_of_symbols symbols] at hdraws
    have hbefore : framesCredit c.stack = framesCredit frames + framesCredit rest := by
      rw [stack, framesCredit_append]
    simp only [reserve, framesCredit_cons, topState, Tree.symbol] at hdraws ⊢
    omega

/-- What a policy may change. -/
inductive Meddles (c : Configuration σ) : Configuration σ → Prop
  /-- Another token is seen next, -/
  | replace (token : Token) (m : σ) :
      Meddles c ⟨c.stack, token :: c.input.tail, c.recoveries + 1, m⟩
  /-- or there is nothing more to see. -/
  | stop (m : σ) : Meddles c ⟨c.stack, [], c.recoveries + 1, m⟩

/-- A policy adds nothing to the reserve: at the end of the input it has one already. -/
theorem Meddles.reserve_le (h : c.Meddles c')
    (haction : t.action (topState c.stack) (.of c.input.head?) = none) :
    c'.reserve t ≤ c.reserve t := by
  cases h with
  | replace token m =>
    cases hinput : c.input with
    | nil =>
      rw [hinput] at haction
      have hgap : t.action (topState c.stack) .endOfInput = none := haction
      simp [reserve, hinput, Table.reserve, hgap]
    | cons first rest => simp [reserve, hinput, Lookahead.of, Lookahead.isToken]
  | stop m =>
    have hstate := t.reserve_false_le (topState c.stack) (Lookahead.of c.input.head?).isToken
    simp only [reserve, List.tail_nil, List.length_nil, List.head?_nil, Lookahead.of,
      Lookahead.isToken] at hstate ⊢
    omega

/-! ### Steps to the end -/

/-- How many steps may be left: between two moves the policy is asked so often at most. -/
def patience (t : Table) (c : Configuration σ) : Nat :=
  14 * c.reserve t + (maxRecoveries - c.recoveries)

theorem patience_start_lt (t : Table) (tokens : List Token) (m : σ) :
    (start tokens m).patience t < 224 * (tokens.length + 1) := by
  have hreserve := reserve_start_le t tokens m
  have hmax : maxRecoveries = 13 := rfl
  have hrecoveries : (start tokens m).recoveries = 0 := rfl
  rw [patience, hrecoveries, hmax]
  omega

theorem Move.recoveries_le (h : Move g t c (.next c')) : c'.recoveries ≤ c.recoveries := by
  cases h with
  | shift => exact Nat.zero_le _
  | reduce => exact Nat.le_refl _

theorem Move.patience_lt (ha : g.Automaton t) (hreserved : t.Reserved) (h : Move g t c (.next c')) :
    c'.patience t < c.patience t := by
  have hdraws := h.reserve_lt ha hreserved
  have hmax : maxRecoveries = 13 := rfl
  rw [patience, patience, hmax]
  omega

theorem Meddles.recoveries_eq (h : c.Meddles c') : c'.recoveries = c.recoveries + 1 := by
  cases h <;> rfl

theorem Meddles.patience_lt (h : c.Meddles c')
    (haction : t.action (topState c.stack) (.of c.input.head?) = none)
    (hcap : c.recoveries < maxRecoveries) : c'.patience t < c.patience t := by
  have hreserve := h.reserve_le haction
  have hrecoveries := h.recoveries_eq
  rw [patience, patience, hrecoveries]
  omega

end Configuration

end RecordSearch.Query
