import RecordSearch.Proofs.Automaton.Entries

/-! The automaton that a table drives. A state is entered from another one over a symbol, by a shift
    or after a reduction; `Automaton` says which items it holds then, and which actions the items of
    a state call for. Whatever is true of a parser follows from these facts alone, and
    `automaton_of_build` is the main statement: they hold of every table that `Table.build` gives. -/

namespace RecordSearch.Query

/-- The state entered from a state over a symbol. -/
def Table.enters (t : Table) (q : Nat) : Symbol → Option Nat
  | .terminal k =>
    match t.action q (.token k) with
    | some (.shift q') => some q'
    | _ => none
  | .nonterminal n => t.goto q n

theorem Table.enters_terminal {t : Table} {q q' : Nat} {k : Kind} :
    t.enters q (.terminal k) = some q' ↔ t.action q (.token k) = some (.shift q') := by
  rw [enters]
  split <;> simp_all

namespace Grammar

/-- A state of the collection holds an item. -/
def Holds (g : Grammar) (q : Nat) (i : Item) : Prop :=
  ∃ state, g.collection.states[q]? = some state ∧ i ∈ state

/-- What the entries of a table promise about the items of states. -/
structure Automaton (g : Grammar) (t : Table) : Prop where
  productions : t.productions = g.productions
  initial : g.Holds 0 ⟨g.goal, 0⟩
  initial_dot : ∀ i, g.Holds 0 i → i.dot = 0
  goal_initial : ∀ q, g.Holds q ⟨g.goal, 0⟩ → q = 0
  /-- With the dot before a nonterminal a state holds all its productions, -/
  closed : ∀ q i j p, g.Holds q i → g.productions[j]? = some p →
    g.afterDot i = some (.nonterminal p.lhs) → g.Holds q ⟨j, 0⟩
  /-- and it holds no other productions with the dot at the start. -/
  expands : ∀ q j p, g.Holds q ⟨j, 0⟩ → g.productions[j]? = some p →
    ∃ i, g.Holds q i ∧ g.afterDot i = some (.nonterminal p.lhs)
  /-- Every symbol after a dot leads on, -/
  leads : ∀ q i s, g.Holds q i → g.afterDot i = some s → ∃ q', t.enters q s = some q'
  /-- to a state that holds the item advanced, -/
  advances : ∀ q q' s i, t.enters q s = some q' → g.Holds q i → g.afterDot i = some s →
    g.Holds q' i.advance
  /-- and there every item with a moved dot was advanced. -/
  retreats : ∀ q q' s i, t.enters q s = some q' → g.Holds q' i → i.dot ≠ 0 →
    ∃ j, g.Holds q j ∧ g.afterDot j = some s ∧ j.advance = i
  enters_ne_zero : ∀ q q' s, t.enters q s = some q' → q' ≠ 0
  /-- States are numbered by the rows of the table. -/
  rows_pos : 0 < t.rows.length
  enters_lt : ∀ q q' s, t.enters q s = some q' → q' < t.rows.length
  reduces : ∀ q j p l, g.Holds q ⟨j, p.rhs.length⟩ → g.productions[j]? = some p →
    (p.lhs, l) ∈ g.follow → t.action q l = some (.reduce j)
  accepts : ∀ q, g.Holds q ⟨g.goal, 1⟩ → t.action q .endOfInput = some .accept
  of_shift : ∀ q l q', t.action q l = some (.shift q') → ∃ k, l = .token k
  of_reduce : ∀ q l j, t.action q l = some (.reduce j) →
    ∃ p, g.productions[j]? = some p ∧ g.Holds q ⟨j, p.rhs.length⟩ ∧ (p.lhs, l) ∈ g.follow
  of_accept : ∀ q l, t.action q l = some .accept → l = .endOfInput ∧ g.Holds q ⟨g.goal, 1⟩

variable {g : Grammar}

/-! ### Items that no other item hands on -/

theorem Automaton.eq_goal_of_kernel {t : Table} (ha : g.Automaton t) {i : Item} (hi : g.Holds 0 i)
    (hkernel : i.dot ≠ 0 ∨ i.production = g.goal) : i = ⟨g.goal, 0⟩ := by
  have hdot : i.dot = 0 := ha.initial_dot i hi
  have hgoal : i.production = g.goal := hkernel.resolve_left (not_not_intro hdot)
  rw [← hgoal, ← hdot]

/-- The start symbol is led to from the first state only, and that is never entered. -/
theorem Automaton.dot_ne_zero_of_kernel {t : Table} (ha : g.Automaton t) {q q' : Nat} {s : Symbol}
    (henters : t.enters q s = some q') {i : Item} (hi : g.Holds q' i)
    (hkernel : i.dot ≠ 0 ∨ i.production = g.goal) : i.dot ≠ 0 := by
  intro hdot
  have hgoal : i.production = g.goal := hkernel.resolve_left (not_not_intro hdot)
  have heq : i = ⟨g.goal, 0⟩ := by rw [← hgoal, ← hdot]
  exact absurd (ha.goal_initial q' (heq ▸ hi)) (ha.enters_ne_zero _ _ _ henters)

/-! ### Items of the states of the collection -/

theorem isState_of_getElem? {q : Nat} {state : List Item}
    (h : g.collection.states[q]? = some state) : g.IsState state :=
  (collection_complete g).1.states state (List.mem_of_getElem? h)

theorem Holds.mem_items {q : Nat} {i : Item} (h : g.Holds q i) : i ∈ g.items := by
  obtain ⟨state, hq, hi⟩ := h
  exact (isState_of_getElem? hq).mem_items i hi

theorem holds_goal : g.Holds 0 ⟨g.goal, 0⟩ :=
  ⟨g.initial, (collection_complete g).1.first,
    mem_close.mpr ⟨start_mem_items (Nat.le_refl _), Or.inl (List.mem_singleton_self _)⟩⟩

theorem Holds.dot_eq_zero {i : Item} (h : g.Holds 0 i) : i.dot = 0 := by
  obtain ⟨state, hq, hi⟩ := h
  rw [(collection_complete g).1.first, Option.some.injEq] at hq
  subst hq
  rcases (mem_close.mp hi).2 with hi | ⟨h0, -⟩
  · rw [List.mem_singleton.mp hi]
  · exact h0

/-- The first state comes once. -/
theorem eq_zero_of_initial {q : Nat} (h : g.collection.states[q]? = some g.initial) : q = 0 := by
  have hfirst := (collection_complete g).1.first
  have hnodup := (collection_complete g).1.nodup
  exact (List.getElem?_inj (List.getElem?_eq_some_iff.mp h).1 hnodup).mp (h.trans hfirst.symm)

theorem Holds.eq_zero_of_goal {q : Nat} (h : g.Holds q ⟨g.goal, 0⟩) : q = 0 := by
  obtain ⟨state, hq, hi⟩ := h
  obtain ⟨kernel, rfl, hkernel⟩ := isState_of_getElem? hq
  rcases (mem_close.mp hi).2 with hi | ⟨-, p, hp, -⟩
  · exact eq_zero_of_initial (((hkernel _ hi).2 rfl).2 ▸ hq)
  · exact absurd (production_lt hp) (Nat.lt_irrefl _)

theorem Holds.closed {q j : Nat} {i : Item} {p : Production} (h : g.Holds q i)
    (hp : g.productions[j]? = some p) (hafter : g.afterDot i = some (.nonterminal p.lhs)) :
    g.Holds q ⟨j, 0⟩ := by
  obtain ⟨state, hq, hi⟩ := h
  obtain ⟨kernel, rfl, -⟩ := isState_of_getElem? hq
  exact ⟨_, hq, close_closed hi hafter hp⟩

theorem Holds.expands {q j : Nat} {p : Production} (h : g.Holds q ⟨j, 0⟩)
    (hp : g.productions[j]? = some p) :
    ∃ i, g.Holds q i ∧ g.afterDot i = some (.nonterminal p.lhs) := by
  obtain ⟨state, hq, hj⟩ := h
  obtain ⟨kernel, rfl, hkernel⟩ := isState_of_getElem? hq
  have hnew : (⟨j, 0⟩ : Item) ∉ kernel := fun hmem => by
    have hgoal : j = g.goal := congrArg Item.production ((hkernel _ hmem).2 rfl).1
    exact absurd (production_lt hp) (by omega)
  obtain ⟨i, hi, hafter⟩ := close_expands (fun i hi => (hkernel i hi).1) hj hnew hp
  exact ⟨i, ⟨_, hq, hi⟩, hafter⟩

/-- What holds of the items whose dots were moved, and of the one that leads to the start symbol, and
    is handed on to the productions of a nonterminal after a dot, holds of every item of a state. -/
theorem Holds.induction {q : Nat} {P : Item → Prop}
    (hkernel : ∀ i, g.Holds q i → i.dot ≠ 0 ∨ i.production = g.goal → P i)
    (hexpand : ∀ i j p, P i → g.productions[j]? = some p →
      g.afterDot i = some (.nonterminal p.lhs) → P ⟨j, 0⟩) : ∀ i, g.Holds q i → P i := by
  rintro i ⟨state, hq, hi⟩
  obtain ⟨kernel, rfl, hitems⟩ := isState_of_getElem? hq
  have hmoved : ∀ j ∈ kernel, P j := by
    intro j hj
    refine hkernel j ⟨_, hq, mem_close.mpr ⟨(hitems j hj).1, Or.inl hj⟩⟩ ?_
    by_cases h0 : j.dot = 0
    · exact Or.inr (congrArg Item.production ((hitems j hj).2 h0).1)
    · exact Or.inl h0
  exact close_induction hmoved hexpand i hi

/-! ### The entries of a built table -/

/-- A state of the collection with its transitions and its row. -/
structure Entry (g : Grammar) (t : Table) (q : Nat) (state : List Item)
    (transitions : List (Symbol × Nat)) (row : Row) : Prop where
  state_at : g.collection.states[q]? = some state
  row_at : t.rows[q]? = some row
  row_of : Table.RowOf g state transitions row
  leads : g.Leads g.collection.states state Symbol.all transitions

section Built

variable {t : Table} (hbuild : Table.build g = .ok t)

include hbuild

theorem build_ok : t.productions = g.productions ∧
    List.Forall₂ (fun pair row => Table.RowOf g pair.1 pair.2 row)
      (g.collection.states.zip g.collection.transitions) t.rows := by
  rw [Table.build] at hbuild
  obtain ⟨rows, hrows, h⟩ := Except.exists_of_bind_ok hbuild
  obtain rfl : _ = t := Except.ok.inj h
  exact ⟨rfl, Table.buildRows_ok hrows⟩

theorem length_rows : t.rows.length = g.collection.states.length := by
  have hlength := (build_ok hbuild).2.length_eq
  rw [List.length_zip, (collection_complete g).2, Nat.min_self] at hlength
  exact hlength.symm

theorem exists_entry {q : Nat} (hq : q < g.collection.states.length) :
    ∃ state transitions row, g.Entry t q state transitions row := by
  have htransitions : q < g.collection.transitions.length := (collection_complete g).2 ▸ hq
  have hrow : q < t.rows.length := length_rows hbuild ▸ hq
  have hstate := List.getElem?_eq_getElem hq
  obtain ⟨state, hstate', hleads⟩ :=
    (collection_complete g).1.visited q _ (List.getElem?_eq_getElem htransitions)
  obtain rfl : g.collection.states[q] = state := Option.some.inj (hstate.symm.trans hstate')
  refine ⟨_, _, _, hstate, List.getElem?_eq_getElem hrow, ?_, hleads⟩
  have hall := (List.forall₂_iff_get.mp (build_ok hbuild).2).2 q
    (by rw [List.length_zip]; omega) hrow
  simpa using hall

theorem entry_of_holds {q : Nat} {i : Item} (h : g.Holds q i) :
    ∃ state transitions row, g.Entry t q state transitions row ∧ i ∈ state := by
  obtain ⟨state, hq, hi⟩ := h
  obtain ⟨state', transitions, row, he⟩ :=
    exists_entry hbuild (List.getElem?_eq_some_iff.mp hq).1
  obtain rfl : state = state' := Option.some.inj (hq.symm.trans he.state_at)
  exact ⟨state, transitions, row, he, hi⟩

theorem entry_of_row {q : Nat} {row : Row} (h : t.rows[q]? = some row) :
    ∃ state transitions, g.Entry t q state transitions row := by
  have hq := (List.getElem?_eq_some_iff.mp h).1
  obtain ⟨state, transitions, row', he⟩ := exists_entry hbuild (length_rows hbuild ▸ hq)
  obtain rfl : row = row' := Option.some.inj (h.symm.trans he.row_at)
  exact ⟨state, transitions, he⟩

end Built

variable {t : Table} {q : Nat} {state : List Item} {transitions : List (Symbol × Nat)} {row : Row}

theorem Entry.action (h : g.Entry t q state transitions row) (l : Lookahead) (a : Action) :
    t.action q l = some a ↔ (l, a) ∈ Table.shifts transitions ++ Table.reductions g g.follow state := by
  rw [Table.action, h.row_at, Option.bind_some, h.row_of.action]

theorem Entry.holds_iff (h : g.Entry t q state transitions row) {i : Item} :
    g.Holds q i ↔ i ∈ state := by
  refine ⟨fun ⟨state', hstate', hi⟩ => ?_, fun hi => ⟨state, h.state_at, hi⟩⟩
  rw [h.state_at, Option.some.injEq] at hstate'
  exact hstate' ▸ hi

/-- A symbol after a dot is entered over one of the transitions. -/
theorem Entry.enters (h : g.Entry t q state transitions row) {s : Symbol}
    (hs : ∃ q', (s, q') ∈ transitions) : ∃ q', t.enters q s = some q' := by
  obtain ⟨q', hmem⟩ := hs
  cases s with
  | terminal k =>
    refine ⟨q', Table.enters_terminal.mpr ((h.action _ _).mpr (List.mem_append_left _ ?_))⟩
    exact Table.mem_shifts.mpr ⟨k, q', rfl, rfl, hmem⟩
  | nonterminal n =>
    have hgoto := exists_lookup_of_mem (Table.mem_gotos.mpr hmem)
    rwa [Table.enters, Table.goto, h.row_at, Option.bind_some, h.row_of.gotos]

theorem Entry.mem_of_enters (h : g.Entry t q state transitions row) {s : Symbol} {q' : Nat}
    (hs : t.enters q s = some q') : (s, q') ∈ transitions := by
  cases s with
  | terminal k =>
    rw [Table.enters_terminal, h.action, List.mem_append] at hs
    rcases hs with hs | hs
    · obtain ⟨k', q'', hk, ha, hmem⟩ := Table.mem_shifts.mp hs
      rw [Lookahead.token.injEq] at hk
      rw [Action.shift.injEq] at ha
      exact hk ▸ ha ▸ hmem
    · obtain ⟨i, -, -, ⟨p, -, -, ha⟩ | ⟨-, -, ha⟩⟩ := Table.mem_reductions.mp hs <;> simp at ha
  | nonterminal n =>
    rw [Table.enters, Table.goto, h.row_at, Option.bind_some, h.row_of.gotos] at hs
    exact Table.mem_gotos.mp (mem_of_lookup hs)

/-! ### Actions of a state -/

theorem Entry.exists_of_reduce (h : g.Entry t q state transitions row) {l : Lookahead}
    {j : Nat} (hr : t.action q l = some (.reduce j)) :
    ∃ p, g.productions[j]? = some p ∧ g.Holds q ⟨j, p.rhs.length⟩ ∧ (p.lhs, l) ∈ g.follow := by
  rw [h.action, List.mem_append] at hr
  rcases hr with hr | hr
  · obtain ⟨k, q', -, ha, -⟩ := Table.mem_shifts.mp hr
    simp at ha
  · obtain ⟨i, hi, hcomplete, ⟨p, hp, hfollow, ha⟩ | ⟨-, -, ha⟩⟩ := Table.mem_reductions.mp hr
    · rw [Action.reduce.injEq] at ha
      subst ha
      rw [isComplete, decide_eq_true_eq, rhsOf_eq hp] at hcomplete
      exact ⟨p, hp, h.holds_iff.mpr (hcomplete ▸ hi), hfollow⟩
    · simp at ha

theorem Entry.holds_of_accept (h : g.Entry t q state transitions row) {l : Lookahead}
    (ha : t.action q l = some .accept) : l = .endOfInput ∧ g.Holds q ⟨g.goal, 1⟩ := by
  rw [h.action, List.mem_append] at ha
  rcases ha with ha | ha
  · obtain ⟨k, q', -, ha, -⟩ := Table.mem_shifts.mp ha
    simp at ha
  · obtain ⟨i, hi, hcomplete, ⟨p, -, -, ha⟩ | ⟨hp, hl, -⟩⟩ := Table.mem_reductions.mp ha
    · simp at ha
    · -- a complete item without a production is the one for the start symbol
      have hgoal : i.production = g.goal :=
        Nat.le_antisymm (mem_items.mp (h.holds_iff.mpr hi).mem_items).1
          (List.getElem?_eq_none_iff.mp hp)
      rw [isComplete, decide_eq_true_eq, hgoal, rhsOf_goal] at hcomplete
      have heq : i = ⟨g.goal, 1⟩ := by rw [← hgoal]; exact congrArg (Item.mk i.production) hcomplete
      exact ⟨hl, h.holds_iff.mpr (heq ▸ hi)⟩

theorem exists_row_of_action {l : Lookahead} {a : Action} (h : t.action q l = some a) :
    ∃ row, t.rows[q]? = some row := by
  obtain ⟨row, hrow, -⟩ := Option.bind_eq_some_iff.mp h
  exact ⟨row, hrow⟩

theorem exists_row_of_enters {s : Symbol} {q' : Nat} (h : t.enters q s = some q') :
    ∃ row, t.rows[q]? = some row := by
  cases s with
  | terminal k => exact exists_row_of_action (Table.enters_terminal.mp h)
  | nonterminal n =>
    obtain ⟨row, hrow, -⟩ := Option.bind_eq_some_iff.mp h
    exact ⟨row, hrow⟩

/-- A state is entered over a symbol only from one with an item that has the symbol after its dot. -/
theorem exists_afterDot_of_enters (hbuild : Table.build g = .ok t) {s : Symbol} {q' : Nat}
    (h : t.enters q s = some q') : ∃ i, g.Holds q i ∧ g.afterDot i = some s := by
  obtain ⟨row, hrow⟩ := exists_row_of_enters h
  obtain ⟨state, transitions, he⟩ := entry_of_row hbuild hrow
  obtain ⟨hne, -⟩ := he.leads.target s q' (he.mem_of_enters h)
  obtain ⟨i, hi⟩ := List.exists_mem_of_ne_nil _ hne
  obtain ⟨j, hj, hafter, -⟩ := mem_kernelAfter.mp hi
  exact ⟨j, he.holds_iff.mpr hj, hafter⟩

/-- Every table that is built is the automaton of its grammar. -/
theorem automaton_of_build (hbuild : Table.build g = .ok t) : g.Automaton t where
  productions := (build_ok hbuild).1
  initial := holds_goal
  initial_dot _ h := h.dot_eq_zero
  goal_initial _ h := h.eq_zero_of_goal
  closed _ _ _ _ h hp hafter := h.closed hp hafter
  expands _ _ _ h hp := h.expands hp
  leads q i s h hafter := by
    obtain ⟨state, transitions, row, he, hi⟩ := entry_of_holds hbuild h
    have hkernel : i.advance ∈ g.kernelAfter state s := mem_kernelAfter.mpr ⟨i, hi, hafter, rfl⟩
    exact he.enters (he.leads.all s (Symbol.mem_all s) (List.ne_nil_of_mem hkernel))
  advances q q' s i hs h hafter := by
    obtain ⟨state, transitions, row, he, hi⟩ := entry_of_holds hbuild h
    obtain ⟨-, htarget⟩ := he.leads.target s q' (he.mem_of_enters hs)
    refine ⟨_, htarget, mem_close.mpr ⟨advance_mem_items h.mem_items hafter, Or.inl ?_⟩⟩
    exact mem_kernelAfter.mpr ⟨i, hi, hafter, rfl⟩
  retreats q q' s i hs h hdot := by
    obtain ⟨row, hrow⟩ := exists_row_of_enters hs
    obtain ⟨state, transitions, he⟩ := entry_of_row hbuild hrow
    obtain ⟨-, htarget⟩ := he.leads.target s q' (he.mem_of_enters hs)
    obtain ⟨state', hstate', hi⟩ := h
    obtain rfl : _ = state' := Option.some.inj (htarget.symm.trans hstate')
    rcases (mem_close.mp hi).2 with hi | ⟨h0, -⟩
    · obtain ⟨j, hj, hafter, rfl⟩ := mem_kernelAfter.mp hi
      exact ⟨j, he.holds_iff.mpr hj, hafter, rfl⟩
    · exact absurd h0 hdot
  enters_ne_zero q q' s hs := by
    rintro rfl
    obtain ⟨row, hrow⟩ := exists_row_of_enters hs
    obtain ⟨state, transitions, he⟩ := entry_of_row hbuild hrow
    obtain ⟨hne, htarget⟩ := he.leads.target s 0 (he.mem_of_enters hs)
    obtain ⟨i, hi⟩ := List.exists_mem_of_ne_nil _ hne
    obtain ⟨j, hj, hafter, rfl⟩ := mem_kernelAfter.mp hi
    have hitem := advance_mem_items (he.holds_iff.mpr hj).mem_items hafter
    have hdot := Holds.dot_eq_zero ⟨_, htarget, mem_close.mpr ⟨hitem, Or.inl hi⟩⟩
    simp [Item.advance] at hdot
  rows_pos := by
    rw [length_rows hbuild]
    exact (List.getElem?_eq_some_iff.mp (collection_complete g).1.first).1
  enters_lt q q' s hs := by
    obtain ⟨row, hrow⟩ := exists_row_of_enters hs
    obtain ⟨state, transitions, he⟩ := entry_of_row hbuild hrow
    obtain ⟨-, htarget⟩ := he.leads.target s q' (he.mem_of_enters hs)
    rw [length_rows hbuild]
    exact (List.getElem?_eq_some_iff.mp htarget).1
  reduces q j p l h hp hfollow := by
    obtain ⟨state, transitions, row, he, hi⟩ := entry_of_holds hbuild h
    refine (he.action _ _).mpr (List.mem_append_right _ (Table.mem_reductions.mpr ?_))
    exact ⟨_, hi, by simp [isComplete, rhsOf_eq hp], Or.inl ⟨p, hp, hfollow, rfl⟩⟩
  accepts q h := by
    obtain ⟨state, transitions, row, he, hi⟩ := entry_of_holds hbuild h
    refine (he.action _ _).mpr (List.mem_append_right _ (Table.mem_reductions.mpr ?_))
    exact ⟨_, hi, by simp [isComplete, rhsOf_goal], Or.inr ⟨by simp [goal], rfl, rfl⟩⟩
  of_shift q l q' h := by
    obtain ⟨row, hrow⟩ := exists_row_of_action h
    obtain ⟨state, transitions, he⟩ := entry_of_row hbuild hrow
    rw [he.action, List.mem_append] at h
    rcases h with h | h
    · obtain ⟨k, -, hk, -⟩ := Table.mem_shifts.mp h
      exact ⟨k, hk⟩
    · obtain ⟨i, -, -, ⟨p, -, -, ha⟩ | ⟨-, -, ha⟩⟩ := Table.mem_reductions.mp h <;> simp at ha
  of_reduce q l j h := by
    obtain ⟨row, hrow⟩ := exists_row_of_action h
    obtain ⟨state, transitions, he⟩ := entry_of_row hbuild hrow
    exact he.exists_of_reduce h
  of_accept q l h := by
    obtain ⟨row, hrow⟩ := exists_row_of_action h
    obtain ⟨state, transitions, he⟩ := entry_of_row hbuild hrow
    exact he.holds_of_accept h

end Grammar

end RecordSearch.Query
