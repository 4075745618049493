import RecordSearch.Proofs.Parsing.Credit

/-! What the states of a table have the repair policy do. Before the end of the input a state takes a
    term, or it sees a parenthesis that closes nothing; at the end it takes one only after a mark that
    leaves something open. Each promise is about one entry of the table, like those of the credits
    (`steered_of_checked`). -/

namespace RecordSearch.Query

/-- Whether a kind calls for something after it; an open parenthesis may be closed at once. -/
def Kind.leavesOpen : Kind → Bool
  | .groupTerminator | .and | .or | .exclude => true
  | k => k.isComparison

namespace Table

/-- Whether a term may come next. -/
def takesTerm (t : Table) (q : Nat) : Bool := (t.action q (.token .searchTerm)).isSome

/-- Whether no term is missing at the end of the input. -/
def settled (t : Table) (q : Nat) : Bool := (t.action q .endOfInput).isSome || !t.takesTerm q

/-- What the table promises to a parse under repair. -/
structure Steered (t : Table) : Prop where
  start_takes : t.takesTerm 0 = true
  start_settled : t.settled 0 = true
  shift_takes : ∀ q k q', t.action q (.token k) = some (.shift q') → t.takesTerm q' = true
  /-- A term is missing after a mark that leaves something open. -/
  shift_settled : ∀ q k q', t.action q (.token k) = some (.shift q') →
    t.settled q' = !k.leavesOpen
  reduce_takes : ∀ q l j p below q', t.action q l = some (.reduce j) →
    t.productions[j]? = some p → t.goto below p.lhs = some q' →
    t.takesTerm q' = true ∨ l = .token .rparen ∨ l = .endOfInput
  reduce_settled : ∀ q j p below q', t.action q .endOfInput = some (.reduce j) →
    t.productions[j]? = some p → t.goto below p.lhs = some q' → t.settled q' = true
  reduce_term : ∀ q j p below q', t.action q (.token .searchTerm) = some (.reduce j) →
    t.productions[j]? = some p → t.goto below p.lhs = some q' → t.takesTerm q' = true
  /-- Where a parenthesis is closed for want of anything else, this is done at once. -/
  closes : ∀ q, t.mended q = some (.token .rparen) → t.action q .endOfInput = none →
    ∃ q', t.action q (.token .rparen) = some (.shift q')
  /-- The rest is cut off after a whole query only. -/
  stops : ∀ q, t.mended q = some .endOfInput → t.action q .endOfInput = some .accept
  /-- Where a parenthesis is closed, nothing else is taken. -/
  closes_alone : ∀ q q', t.action q (.token .rparen) = some (.shift q') →
    t.expected q = [.token .rparen]
  /-- A parenthesis and the end of the input bring about the same reductions. -/
  closing_reduce : ∀ q j, t.action q (.token .rparen) = some (.reduce j) →
    t.action q .endOfInput = some (.reduce j)
  ending_reduce : ∀ q j, t.action q .endOfInput = some (.reduce j) →
    t.action q (.token .rparen) = some (.reduce j)

/-- Whether a shift keeps the promises. -/
def steersShift (t : Table) (k : Kind) (q' : Nat) : Bool :=
  t.takesTerm q' && t.settled q' == !k.leavesOpen

/-- Whether a reduction keeps the promises. -/
def steersReduce (t : Table) (l : Lookahead) (q' : Nat) : Bool :=
  match l with
  | .endOfInput => t.settled q'
  | .token .rparen => true
  | .token _ => t.takesTerm q'

/-- Whether the action of a state keeps the promises. -/
def steersAction (t : Table) (q : Nat) (l : Lookahead) : Bool :=
  match t.action q l, l with
  | some (.shift q'), .token k => t.steersShift k q'
  | some (.reduce j), _ =>
    t.productions[j]?.all fun p => (t.enteredOver p.lhs).all (t.steersReduce l)
  | _, _ => true

/-- Whether what a state is mended with keeps the promises. -/
def steersMended (t : Table) (q : Nat) : Bool :=
  match t.mended q with
  | some (.token .rparen) =>
    (t.action q .endOfInput).isSome ||
      match t.action q (.token .rparen) with
      | some (.shift _) => true
      | _ => false
  | some .endOfInput => t.action q .endOfInput == some .accept
  | _ => true

/-- Whether what a state does at a parenthesis keeps the promises. -/
def steersClosing (t : Table) (q : Nat) : Bool :=
  match t.action q (.token .rparen) with
  | some (.shift _) => t.expected q == [.token .rparen]
  | some (.reduce j) => t.action q .endOfInput == some (.reduce j)
  | _ => true

/-- Whether what a state does at the end of the input keeps the promises. -/
def steersEnding (t : Table) (q : Nat) : Bool :=
  match t.action q .endOfInput with
  | some (.reduce j) => t.action q (.token .rparen) == some (.reduce j)
  | _ => true

/-- Whether what a state does, whatever the lookahead is, keeps the promises. -/
def steersState (t : Table) (q : Nat) : Bool :=
  t.steersMended q && t.steersClosing q && t.steersEnding q

/-- Whether every state keeps the promises. -/
def steersStates (t : Table) : Bool :=
  t.takesTerm 0 && t.settled 0 &&
    (List.range t.rows.length).all fun q =>
      t.steersState q && Lookahead.all.all (t.steersAction q)

variable {t : Table}

section Checked

variable (hchecked : t.steersStates = true)

include hchecked

theorem steersState_of_checked {q : Nat} {l : Lookahead} (h : (t.action q l).isSome = true) :
    t.steersState q = true ∧ ∀ l, t.steersAction q l = true := by
  simp only [steersStates, Bool.and_eq_true, List.all_eq_true] at hchecked
  obtain ⟨hstate, haction⟩ := hchecked.2 q (List.mem_range.mpr (lt_of_action h))
  exact ⟨hstate, fun l => haction l (Lookahead.mem_all l)⟩

theorem steersShift_of_checked {q q' : Nat} {k : Kind}
    (h : t.action q (.token k) = some (.shift q')) : t.steersShift k q' = true := by
  have hcell := (steersState_of_checked hchecked (by rw [h]; rfl)).2 (.token k)
  simpa only [steersAction, h] using hcell

theorem steersReduce_of_checked {q j below q' : Nat} {l : Lookahead} {p : Production}
    (h : t.action q l = some (.reduce j)) (hp : t.productions[j]? = some p)
    (hgoto : t.goto below p.lhs = some q') : t.steersReduce l q' = true := by
  have hcell := (steersState_of_checked hchecked (by rw [h]; rfl)).2 l
  simp only [steersAction, h, hp, Option.all_some] at hcell
  exact List.all_eq_true.mp hcell q' (mem_enteredOver hgoto)

theorem steersMended_of_checked {q : Nat} {l : Lookahead} (h : t.mended q = some l) :
    t.steersMended q = true := by
  have hstate := (steersState_of_checked hchecked (action_of_mended h)).1
  simp only [steersState, Bool.and_eq_true] at hstate
  exact hstate.1.1

theorem steersClosing_of_checked {q : Nat} {action : Action}
    (h : t.action q (.token .rparen) = some action) : t.steersClosing q = true := by
  have hstate := (steersState_of_checked hchecked (by rw [h]; rfl)).1
  simp only [steersState, Bool.and_eq_true] at hstate
  exact hstate.1.2

theorem steersEnding_of_checked {q : Nat} {action : Action}
    (h : t.action q .endOfInput = some action) : t.steersEnding q = true := by
  have hstate := (steersState_of_checked hchecked (by rw [h]; rfl)).1
  simp only [steersState, Bool.and_eq_true] at hstate
  exact hstate.2

/-- The check is all that the promises need. -/
theorem steered_of_checked : t.Steered where
  start_takes := by
    simp only [steersStates, Bool.and_eq_true] at hchecked
    exact hchecked.1.1
  start_settled := by
    simp only [steersStates, Bool.and_eq_true] at hchecked
    exact hchecked.1.2
  shift_takes q k q' h := by
    have hshift := steersShift_of_checked hchecked h
    rw [steersShift, Bool.and_eq_true] at hshift
    exact hshift.1
  shift_settled q k q' h := by
    have hshift := steersShift_of_checked hchecked h
    rw [steersShift, Bool.and_eq_true] at hshift
    exact beq_iff_eq.mp hshift.2
  reduce_takes q l j p below q' h hp hgoto := by
    have hreduce := steersReduce_of_checked hchecked h hp hgoto
    rcases l with k | _
    · cases k
      case rparen => exact .inr (.inl rfl)
      all_goals exact .inl hreduce
    · exact .inr (.inr rfl)
  reduce_settled q j p below q' h hp hgoto := steersReduce_of_checked hchecked h hp hgoto
  reduce_term q j p below q' h hp hgoto := steersReduce_of_checked hchecked h hp hgoto
  closes q h hend := by
    have hmended := steersMended_of_checked hchecked h
    simp only [steersMended, h, hend, Option.isSome_none, Bool.false_or] at hmended
    split at hmended
    · next q' haction => exact ⟨q', haction⟩
    · cases hmended
  stops q h := by
    have hmended := steersMended_of_checked hchecked h
    simp only [steersMended, h] at hmended
    exact beq_iff_eq.mp hmended
  closes_alone q q' h := by
    have hclosing := steersClosing_of_checked hchecked h
    simp only [steersClosing, h] at hclosing
    exact beq_iff_eq.mp hclosing
  closing_reduce q j h := by
    have hclosing := steersClosing_of_checked hchecked h
    simp only [steersClosing, h] at hclosing
    exact beq_iff_eq.mp hclosing
  ending_reduce q j h := by
    have hending := steersEnding_of_checked hchecked h
    simp only [steersEnding, h] at hending
    exact beq_iff_eq.mp hending

end Checked

end Table

end RecordSearch.Query
