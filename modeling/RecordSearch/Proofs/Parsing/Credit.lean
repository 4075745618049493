import RecordSearch.Proofs.Parsing.Completeness
import RecordSearch.Query.Compile

/-! Why a parse of a query ends. Every symbol on the stack and every token to come has some credit,
    and a state has credit for the repair of a lookahead that it has no action on. With a table whose
    entries keep the promises of the credits (`credited_of_checked`) each step spends credit, so there
    are no more steps than credit at the start, and that is in proportion to the number of tokens. -/

namespace RecordSearch.Query

/-- The credit of a symbol on the stack: the reductions that it may still bring about. -/
def Symbol.credit : Symbol → Nat
  -- a term becomes a search by one reduction after the other, each of which takes some
  | .terminal .searchTerm => 10
  | .terminal .number => 10
  | .terminal .lparen => 10
  | .terminal k => if k.isComparison then 1 else 0
  | .nonterminal .list => 0
  | .nonterminal .comparison => 0
  | .nonterminal .search => 3
  | .nonterminal .searchTerm => 9
  | .nonterminal .term => 8
  | .nonterminal .group => 8
  | .nonterminal _ => 7

/-- The credit of several symbols. -/
def Symbol.creditOf : List Symbol → Nat
  | [] => 0
  | s :: rest => s.credit + creditOf rest

theorem Symbol.creditOf_append : ∀ u v : List Symbol,
    creditOf (u ++ v) = creditOf u + creditOf v
  | [], v => (Nat.zero_add _).symm
  | s :: u, v => by rw [List.cons_append, creditOf, creditOf_append u v, creditOf, Nat.add_assoc]

theorem Symbol.creditOf_reverse : ∀ u : List Symbol, creditOf u.reverse = creditOf u
  | [] => rfl
  | s :: u => by
      rw [List.reverse_cons, creditOf_append, creditOf_reverse u, creditOf, creditOf, creditOf]
      omega

/-- The credit of a token to come. -/
def Lookahead.credit : Lookahead → Nat
  | .token .searchTerm => 11
  | .token .number => 12
  | .token .rparen => 1
  -- enough for the token to be taken as a term
  | .token _ => 14
  | .endOfInput => 0

theorem Lookahead.credit_le (l : Lookahead) : l.credit ≤ 14 := by
  rcases l with k | _
  · cases k <;> decide
  · decide

namespace Table

/-- What the repair policy has a state see instead of a lookahead without an action. -/
def mended (t : Table) (q : Nat) : Option Lookahead :=
  if (t.action q (.token .searchTerm)).isSome then some (.token .searchTerm)
  else if (t.action q (.token .rparen)).isSome then some (.token .rparen)
  else if t.expected q = [.endOfInput] then some .endOfInput
  else none

/-- The credit of a state for the empty list that it may begin. -/
def idleCredit (t : Table) (q : Nat) : Nat := if (t.goto q .list).isSome then 3 else 0

/-- The credit of a state that sees a lookahead; a repair is paid for in advance. -/
def stateCredit (t : Table) (q : Nat) (l : Lookahead) : Nat :=
  match t.action q l, t.mended q with
  | none, some l' => l'.credit + t.idleCredit q + 1 - l.credit
  | _, _ => t.idleCredit q

/-- How often the policy may be asked again after reductions on a lookahead. -/
def stallsAhead (t : Table) (q : Nat) (l : Lookahead) : Nat :=
  match t.action q l with
  | some (.reduce _) => if l = .token .rparen ∨ l = .endOfInput then 1 else 0
  | _ => 0

/-- How often the policy may be asked before the next shift. -/
def stalls (t : Table) (q : Nat) (l : Lookahead) : Nat :=
  match t.action q l, t.mended q with
  | none, some l' => t.stallsAhead q l' + 1
  | _, _ => t.stallsAhead q l

/-- Whether a number may come next. -/
def takesNumber (t : Table) (q : Nat) : Bool := (t.action q (.token .number)).isSome

/-- What the credits of a table promise. -/
structure Credited (t : Table) : Prop where
  shift_pays : ∀ q k q' l, t.action q (.token k) = some (.shift q') →
    (Symbol.terminal k).credit + t.stateCredit q' l
      < (Lookahead.token k).credit + t.stateCredit q (.token k)
  reduce_pays : ∀ q l j p below q', t.action q l = some (.reduce j) →
    t.productions[j]? = some p → t.goto below p.lhs = some q' →
    (Symbol.nonterminal p.lhs).credit + t.stateCredit q' l
      < Symbol.creditOf p.rhs + t.stateCredit q l
  reduce_stalls : ∀ q l j p below q', t.action q l = some (.reduce j) →
    t.productions[j]? = some p → t.goto below p.lhs = some q' → t.stalls q' l ≤ t.stalls q l
  mends : ∀ q l, q < t.rows.length → t.action q l = none → (t.mended q).isSome = true
  /-- A number may come after a comparison, -/
  shift_number : ∀ q k q', t.action q (.token k) = some (.shift q') → k.isComparison = true →
    t.takesNumber q' = true
  /-- and also once the comparison is reduced. -/
  reduce_number : ∀ q l j p below q', t.action q l = some (.reduce j) →
    t.productions[j]? = some p → t.goto below p.lhs = some q' → t.takesNumber q = true →
    t.takesNumber q' = true

/-! ### Checking a table -/

/-- The states entered over a nonterminal. -/
def enteredOver (t : Table) (n : Nonterminal) : List Nat :=
  t.rows.filterMap fun row => row.gotos.lookup n

/-- Whether a shift keeps the promises. -/
def checkShift (t : Table) (q : Nat) (k : Kind) (q' : Nat) : Bool :=
  (Lookahead.all.all fun l => decide ((Symbol.terminal k).credit + t.stateCredit q' l
    < (Lookahead.token k).credit + t.stateCredit q (.token k)))
  && (!k.isComparison || t.takesNumber q')

/-- Whether a reduction keeps the promises. -/
def checkReduce (t : Table) (q : Nat) (l : Lookahead) (p : Production) (q' : Nat) : Bool :=
  decide ((Symbol.nonterminal p.lhs).credit + t.stateCredit q' l
    < Symbol.creditOf p.rhs + t.stateCredit q l)
  && decide (t.stalls q' l ≤ t.stalls q l)
  && (!t.takesNumber q || t.takesNumber q')

/-- Whether the action of a state keeps the promises. -/
def checkAction (t : Table) (q : Nat) (l : Lookahead) : Bool :=
  match t.action q l, l with
  | some (.shift q'), .token k => t.checkShift q k q'
  | some (.reduce j), _ =>
    t.productions[j]?.all fun p => (t.enteredOver p.lhs).all (t.checkReduce q l p)
  | some _, _ => true
  | none, _ => (t.mended q).isSome

/-- Whether every action keeps the promises. -/
def checkActions (t : Table) : Bool :=
  (List.range t.rows.length).all fun q => Lookahead.all.all fun l => t.checkAction q l

variable {t : Table}

theorem mem_expected {q : Nat} {l : Lookahead} : l ∈ t.expected q ↔ (t.action q l).isSome = true := by
  rw [expected, List.mem_filter]
  exact and_iff_right (Lookahead.mem_all l)

/-- The table has an action on what the policy puts in the way. -/
theorem action_of_mended {q : Nat} {l : Lookahead} (h : t.mended q = some l) :
    (t.action q l).isSome = true := by
  rw [mended] at h
  split at h
  · next hterm => exact Option.some.inj h ▸ hterm
  · split at h
    · next hparen => exact Option.some.inj h ▸ hparen
    · split at h
      · next hend =>
        rw [← Option.some.inj h, ← mem_expected, hend]
        exact List.mem_singleton_self _
      · cases h

theorem mem_enteredOver {below q' : Nat} {n : Nonterminal} (h : t.goto below n = some q') :
    q' ∈ t.enteredOver n := by
  obtain ⟨row, hrow, hgoto⟩ := Option.bind_eq_some_iff.mp h
  exact List.mem_filterMap.mpr ⟨row, List.mem_of_getElem? hrow, hgoto⟩

theorem lt_of_action {q : Nat} {l : Lookahead} (h : (t.action q l).isSome = true) :
    q < t.rows.length := by
  obtain ⟨a, ha⟩ := Option.isSome_iff_exists.mp h
  obtain ⟨row, hrow⟩ := Grammar.exists_row_of_action ha
  exact (List.getElem?_eq_some_iff.mp hrow).1

/-- A check of all entries covers each of them. -/
theorem check_of_all {check : Nat → Lookahead → Bool}
    (h : ((List.range t.rows.length).all fun q => Lookahead.all.all fun l => check q l) = true)
    {q : Nat} (hq : q < t.rows.length) (l : Lookahead) : check q l = true := by
  rw [List.all_eq_true] at h
  exact List.all_eq_true.mp (h q (List.mem_range.mpr hq)) l (Lookahead.mem_all l)

section Checked

variable (hchecked : t.checkActions = true)

include hchecked

theorem checkAction_of_checked {q : Nat} (hq : q < t.rows.length) (l : Lookahead) :
    t.checkAction q l = true := check_of_all hchecked hq l

theorem checkAction_of_action {q : Nat} {l : Lookahead} {a : Action}
    (h : t.action q l = some a) : t.checkAction q l = true :=
  checkAction_of_checked hchecked (lt_of_action (by rw [h]; rfl)) l

theorem checkShift_of_checked {q q' : Nat} {k : Kind}
    (h : t.action q (.token k) = some (.shift q')) : t.checkShift q k q' = true := by
  have hcell := checkAction_of_action hchecked h
  simpa only [checkAction, h] using hcell

theorem checkReduce_of_checked {q j below q' : Nat} {l : Lookahead} {p : Production}
    (h : t.action q l = some (.reduce j)) (hp : t.productions[j]? = some p)
    (hgoto : t.goto below p.lhs = some q') : t.checkReduce q l p q' = true := by
  have hcell := checkAction_of_action hchecked h
  simp only [checkAction, h, hp, Option.all_some] at hcell
  exact List.all_eq_true.mp hcell q' (mem_enteredOver hgoto)

/-- The check is all that the credits need. -/
theorem credited_of_checked : t.Credited where
  shift_pays q k q' l h := by
    have hshift := checkShift_of_checked hchecked h
    rw [checkShift, Bool.and_eq_true, List.all_eq_true] at hshift
    exact of_decide_eq_true (hshift.1 l (Lookahead.mem_all l))
  reduce_pays q l j p below q' h hp hgoto := by
    have hreduce := checkReduce_of_checked hchecked h hp hgoto
    simp only [checkReduce, Bool.and_eq_true, decide_eq_true_eq] at hreduce
    exact hreduce.1.1
  reduce_stalls q l j p below q' h hp hgoto := by
    have hreduce := checkReduce_of_checked hchecked h hp hgoto
    simp only [checkReduce, Bool.and_eq_true, decide_eq_true_eq] at hreduce
    exact hreduce.1.2
  mends q l hq h := by
    have hcell := checkAction_of_checked hchecked hq l
    simpa only [checkAction, h] using hcell
  shift_number q k q' h hk := by
    have hshift := checkShift_of_checked hchecked h
    rw [checkShift, Bool.and_eq_true, hk] at hshift
    simpa using hshift.2
  reduce_number q l j p below q' h hp hgoto hq := by
    have hreduce := checkReduce_of_checked hchecked h hp hgoto
    rw [checkReduce, Bool.and_eq_true, hq] at hreduce
    simpa using hreduce.2

end Checked

/-! ### Credit and stalls of a configuration -/

theorem stateCredit_le (t : Table) (q : Nat) (l : Lookahead) : t.stateCredit q l ≤ 18 := by
  have hidle : t.idleCredit q ≤ 3 := by
    rw [idleCredit]
    split <;> omega
  rw [stateCredit]
  split
  · next l' _ _ =>
    have hcredit := l'.credit_le
    omega
  · omega

theorem stalls_le (t : Table) (q : Nat) (l : Lookahead) : t.stalls q l ≤ 2 := by
  have hahead : ∀ l', t.stallsAhead q l' ≤ 1 := fun l' => by
    rw [stallsAhead]
    split
    · split <;> omega
    · omega
  rw [stalls]
  split
  · next l' _ _ =>
    have := hahead l'
    omega
  · have := hahead l
    omega

end Table

namespace Configuration

variable {σ : Type} {g : Grammar} {t : Table} {c c' : Configuration σ}

/-- The credit of the tokens to come. -/
def inputCredit : List Token → Nat
  | [] => 0
  | token :: rest => (Lookahead.token token.kind).credit + inputCredit rest

/-- The credit of the symbols on a stack. -/
def framesCredit (stack : List (Nat × Tree)) : Nat :=
  Symbol.creditOf (stack.map fun entry => entry.2.symbol)

/-- The credit left. -/
def credit (t : Table) (c : Configuration σ) : Nat :=
  framesCredit c.stack + inputCredit c.input + t.stateCredit (topState c.stack) (.of c.input.head?)

/-- How often the policy may be asked before the next shift. -/
def stalls (t : Table) (c : Configuration σ) : Nat :=
  t.stalls (topState c.stack) (.of c.input.head?)

theorem framesCredit_cons (q : Nat) (tree : Tree) (stack : List (Nat × Tree)) :
    framesCredit ((q, tree) :: stack) = tree.symbol.credit + framesCredit stack := rfl

theorem framesCredit_append (frames stack : List (Nat × Tree)) :
    framesCredit (frames ++ stack) = framesCredit frames + framesCredit stack := by
  rw [framesCredit, List.map_append, Symbol.creditOf_append]
  rfl

theorem framesCredit_of_symbols {frames : List (Nat × Tree)} {rhs : List Symbol}
    (h : (frames.map Prod.snd).reverse.map Tree.symbol = rhs) :
    framesCredit frames = Symbol.creditOf rhs := by
  rw [← h, List.map_reverse, Symbol.creditOf_reverse, List.map_map]
  rfl

theorem inputCredit_cons (token : Token) (rest : List Token) :
    inputCredit (token :: rest) = (Lookahead.token token.kind).credit + inputCredit rest := rfl

theorem inputCredit_le : ∀ tokens : List Token, inputCredit tokens ≤ 14 * tokens.length
  | [] => Nat.le_refl _
  | token :: rest => by
      have hfirst := (Lookahead.token token.kind).credit_le
      have hrest := inputCredit_le rest
      rw [inputCredit_cons, List.length_cons]
      omega

/-- The steps that are allowed for are enough for the credit at the start. -/
theorem credit_start_lt (t : Table) (tokens : List Token) (m : σ) :
    (start tokens m).credit t < enoughSteps tokens.length := by
  have hinput := inputCredit_le tokens
  have hstate := t.stateCredit_le 0 (.of tokens.head?)
  have hstack : framesCredit [] = 0 := rfl
  simp only [credit, start, topState, enoughSteps, hstack]
  omega

/-- Every move spends credit. -/
theorem Move.credit_lt (ha : g.Automaton t) (hcredited : t.Credited)
    (h : Move g t c (.next c')) : c'.credit t < c.credit t := by
  cases h with
  | @shift token rest q input action =>
    have hpays := hcredited.shift_pays _ _ _ (.of rest.head?) action
    simp only [credit, framesCredit_cons, topState, input, inputCredit_cons, List.head?_cons,
      Lookahead.of, Tree.symbol] at hpays ⊢
    omega
  | @reduce j q p frames rest action production stack symbols goto =>
    have hpays := hcredited.reduce_pays _ _ _ _ _ _ action (ha.productions ▸ production) goto
    rw [← framesCredit_of_symbols symbols] at hpays
    have hbefore : framesCredit c.stack = framesCredit frames + framesCredit rest := by
      rw [stack, framesCredit_append]
    simp only [credit, framesCredit_cons, topState, Tree.symbol] at hpays ⊢
    omega

end Configuration

end RecordSearch.Query
