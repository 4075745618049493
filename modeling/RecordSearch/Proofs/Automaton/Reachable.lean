import Mathlib.Logic.Relation
import RecordSearch.Proofs.Automaton.Collection
import RecordSearch.Proofs.Automaton.Pending

/-! The collection of states is complete and minimal. Its states are told apart by their items, each is
    the least closed set of items that holds its kernel, and the transitions lead to the closures of the
    advanced items. States are only added as targets of the one that is visited, which stands before
    them (`exists_transition_of_new`); that is the invariant of the search from which every state is
    reached (`collection_exact`). -/

namespace RecordSearch.Query

/-- A state leads to another one over some symbol. -/
def Collection.Step (c : Collection) (p q : Nat) : Prop :=
  ∃ transitions s, c.transitions[p]? = some transitions ∧ (s, q) ∈ transitions

/-- Every state but the first has a predecessor with a smaller number. -/
def Collection.Preceded (c : Collection) : Prop :=
  ∀ q, 0 < q → q < c.states.length → ∃ p < q, c.Step p q

/-- From predecessor to predecessor the numbers go down to the first state. -/
theorem Collection.Preceded.reachable {c : Collection} (h : c.Preceded) {q : Nat}
    (hq : q < c.states.length) : Relation.ReflTransGen c.Step 0 q := by
  induction q using Nat.strong_induction_on with
  | _ q ih =>
    rcases Nat.eq_zero_or_pos q with rfl | hpos
    · exact .refl
    · obtain ⟨p, hlt, hstep⟩ := h q hpos hq
      exact (ih p hlt (hlt.trans hq)).tail hstep

namespace Grammar

variable {g : Grammar}

/-! ### Rounds of the search -/

theorem collect_of_visited {c : Collection} (h : c.states[c.transitions.length]? = none) :
    ∀ fuel, g.collect fuel c = c
  | 0 => rfl
  | fuel + 1 => by rw [collect, h]

theorem collect_add : ∀ (fuel more : Nat) (c : Collection),
    g.collect (fuel + more) c = g.collect more (g.collect fuel c)
  | 0, more, c => by rw [Nat.zero_add, collect]
  | fuel + 1, more, c => by
      rw [Nat.add_right_comm, collect, collect]
      cases hstate : c.states[c.transitions.length]? with
      | none => exact (collect_of_visited hstate more).symm
      | some state => exact collect_add fuel more _

/-- The search comes to an end: however many more rounds are allowed, they change nothing. -/
theorem collect_eq_collection (g : Grammar) (more : Nat) :
    g.collect (Nat.pow 2 g.items.length + 1 + more) ⟨[g.initial], []⟩ = g.collection := by
  have hvisited : g.collection.states[g.collection.transitions.length]? = none :=
    List.getElem?_eq_none (Nat.le_of_eq (collection_complete g).2.symm)
  rw [collect_add]
  exact collect_of_visited hvisited more

/-- What a visit keeps holds at the end of the search. -/
theorem collect_induction {P : Collection → Prop}
    (hvisit : ∀ c state, P c → c.states[c.transitions.length]? = some state →
      P ⟨(g.successors state Symbol.all c.states).1,
        c.transitions ++ [(g.successors state Symbol.all c.states).2]⟩) :
    ∀ (fuel : Nat) {c : Collection}, P c → P (g.collect fuel c)
  | 0, _, h => h
  | fuel + 1, c, h => by
      rw [collect]
      cases hstate : c.states[c.transitions.length]? with
      | none => exact h
      | some state => exact collect_induction hvisit fuel (hvisit c state h hstate)

/-! ### Sets of items -/

/-- The state is the least closed set that holds the kernel. -/
structure IsClosure (g : Grammar) (kernel : Item → Prop) (state : List Item) : Prop where
  holds : ∀ i, kernel i → i ∈ state
  closed : g.Closed (· ∈ state)
  least : ∀ S : Item → Prop, (∀ i, kernel i → S i) → g.Closed S → ∀ i ∈ state, S i

theorem isClosure_close {kernel : List Item} (hkernel : ∀ i ∈ kernel, i ∈ g.items) :
    g.IsClosure (· ∈ kernel) (g.close kernel) where
  holds i hi := mem_close.mpr ⟨hkernel i hi, Or.inl hi⟩
  closed _ _ _ hi hp hafter := close_closed hi hafter hp
  least _ hholds hclosed := close_induction hholds hclosed

/-- A symbol is after the dot of some item if and only if there is a kernel after it. -/
theorem exists_target_iff {states : List (List Item)} {state : List Item}
    {transitions : List (Symbol × Nat)} (h : g.Leads states state Symbol.all transitions) (s : Symbol) :
    (∃ target, (s, target) ∈ transitions) ↔ ∃ i ∈ state, g.afterDot i = some s := by
  constructor
  · rintro ⟨target, htarget⟩
    obtain ⟨i, hi⟩ := List.exists_mem_of_ne_nil _ (h.target s target htarget).1
    obtain ⟨j, hj, hafter, -⟩ := mem_kernelAfter.mp hi
    exact ⟨j, hj, hafter⟩
  · rintro ⟨i, hi, hafter⟩
    exact h.all s (Symbol.mem_all s)
      (List.ne_nil_of_mem (mem_kernelAfter.mpr ⟨i, hi, hafter, rfl⟩))

theorem isClosure_kernelAfter {state : List Item} (hstate : ∀ i ∈ state, i ∈ g.items) (s : Symbol) :
    g.IsClosure (fun i => ∃ j ∈ state, g.afterDot j = some s ∧ j.advance = i)
      (g.close (g.kernelAfter state s)) := by
  have hclosure : g.IsClosure (· ∈ g.kernelAfter state s) (g.close (g.kernelAfter state s)) := by
    refine isClosure_close fun i hi => ?_
    obtain ⟨j, hj, hafter, rfl⟩ := mem_kernelAfter.mp hi
    exact advance_mem_items (hstate j hj) hafter
  simpa only [mem_kernelAfter] using hclosure

/-- Closed kernels with the same items are the same list, which is in the order of items. -/
theorem close_ext {kernel kernel' : List Item}
    (h : ∀ i, i ∈ g.close kernel ↔ i ∈ g.close kernel') : g.close kernel = g.close kernel' :=
  (isSelection_filter _).ext (isSelection_filter _) h

/-- States with the same items have the same number. -/
theorem eq_of_mem_iff {p q : Nat} {state state' : List Item}
    (hp : g.collection.states[p]? = some state) (hq : g.collection.states[q]? = some state')
    (h : ∀ i, i ∈ state ↔ i ∈ state') : p = q := by
  have hcollected := (collection_complete g).1
  obtain ⟨kernel, rfl, -⟩ := hcollected.states state (List.mem_of_getElem? hp)
  obtain ⟨kernel', rfl, -⟩ := hcollected.states state' (List.mem_of_getElem? hq)
  refine (List.getElem?_inj (List.getElem?_eq_some_iff.mp hp).1 hcollected.nodup).mp ?_
  rw [hp, hq, close_ext h]

/-! ### Predecessors -/

theorem lt_or_eq_of_number (states : List (List Item)) (state : List Item) {q : Nat}
    (hq : q < (number states state).1.length) : q < states.length ∨ q = (number states state).2 := by
  rw [number] at hq ⊢
  split at hq
  · exact .inl hq
  · rw [List.length_append, List.length_singleton] at hq
    exact Nat.lt_succ_iff_lt_or_eq.mp hq

/-- A state that is found on a visit is the target of a transition. -/
theorem exists_transition_of_new {state : List Item} {q : Nat} :
    ∀ (symbols : List Symbol) (states : List (List Item)), states.length ≤ q →
      q < (g.successors state symbols states).1.length →
      ∃ s, (s, q) ∈ (g.successors state symbols states).2
  | [], states, hnew, hq => absurd hq (Nat.not_lt.mpr hnew)
  | symbol :: rest, states, hnew, hq => by
      rw [successors] at hq ⊢
      split at hq
      · next hempty =>
        rw [if_pos hempty]
        exact exists_transition_of_new rest states hnew hq
      · next hempty =>
        rw [if_neg hempty]
        by_cases hknown : q < (number states (g.close (g.kernelAfter state symbol))).1.length
        · have htarget := (lt_or_eq_of_number states _ hknown).resolve_left (Nat.not_lt.mpr hnew)
          exact ⟨symbol, htarget ▸ List.mem_cons_self⟩
        · obtain ⟨s, hs⟩ := exists_transition_of_new rest _ (Nat.le_of_not_lt hknown) hq
          exact ⟨s, List.mem_cons_of_mem _ hs⟩

theorem preceded_visit {c : Collection} {state : List Item} (h : c.Preceded)
    (hstate : c.states[c.transitions.length]? = some state) :
    Collection.Preceded ⟨(g.successors state Symbol.all c.states).1,
      c.transitions ++ [(g.successors state Symbol.all c.states).2]⟩ := by
  intro q hpos hq
  by_cases hknown : q < c.states.length
  · obtain ⟨p, hlt, transitions, s, htransitions, hs⟩ := h q hpos hknown
    have hp : p < c.transitions.length := (List.getElem?_eq_some_iff.mp htransitions).1
    exact ⟨p, hlt, transitions, s, (List.getElem?_append_left hp).trans htransitions, hs⟩
  · -- a new state is entered from the one that is visited, and this is an old one
    have hvisited : c.transitions.length < c.states.length :=
      (List.getElem?_eq_some_iff.mp hstate).1
    obtain ⟨s, hs⟩ := exists_transition_of_new Symbol.all c.states (Nat.le_of_not_lt hknown) hq
    exact ⟨c.transitions.length, by omega, _, s, List.getElem?_concat_length, hs⟩

theorem preceded_collection (g : Grammar) : g.collection.Preceded := by
  refine collect_induction (fun c state => preceded_visit) _ fun q hpos hq => ?_
  rw [List.length_singleton] at hq
  omega

/-! ### The collection -/

/-- For every start symbol and list of productions the search comes to an end, with the transitions of
    every state, and the stack that a kernel is expanded with comes to be empty, with the closure of the
    kernel. The first state is the closure of the item that leads to the start symbol; no two states
    have the same items, and each is closed. Every other state is the target of one with a smaller
    number and is reached from the first. A state has a transition over a symbol if and only if the
    symbol is after the dot of some item, and it leads to the closure of all these items advanced. -/
theorem collection_exact (g : Grammar) :
    (∀ more, g.collect (Nat.pow 2 g.items.length + 1 + more) ⟨[g.initial], []⟩ = g.collection) ∧
    (∀ kernel more, g.expandKernel (kernel.length + g.items.length + more) kernel = g.close kernel) ∧
    g.collection.transitions.length = g.collection.states.length ∧
    (∃ state, g.collection.states[0]? = some state ∧ g.IsClosure (· = ⟨g.goal, 0⟩) state) ∧
    (∀ (p q : Nat) (state state' : List Item), g.collection.states[p]? = some state →
      g.collection.states[q]? = some state' → (∀ i, i ∈ state ↔ i ∈ state') → p = q) ∧
    (∀ state ∈ g.collection.states, g.Closed (· ∈ state)) ∧
    (∀ q, 0 < q → q < g.collection.states.length →
      (∃ p < q, g.collection.Step p q) ∧ Relation.ReflTransGen g.collection.Step 0 q) ∧
    ∀ (q : Nat) (state : List Item) (transitions : List (Symbol × Nat)),
      g.collection.states[q]? = some state → g.collection.transitions[q]? = some transitions →
      ∀ s, ((∃ target, (s, target) ∈ transitions) ↔ ∃ i ∈ state, g.afterDot i = some s) ∧
        ∀ target, (s, target) ∈ transitions →
          ∃ state', g.collection.states[target]? = some state' ∧
            g.IsClosure (fun i => ∃ j ∈ state, g.afterDot j = some s ∧ j.advance = i) state' := by
  have hcollected := (collection_complete g).1
  have hpreceded := preceded_collection g
  refine ⟨collect_eq_collection g, fun kernel more => expandKernel_eq kernel (Nat.le_add_right _ more),
    (collection_complete g).2, ?_, fun _ _ _ _ => eq_of_mem_iff, ?_, ?_, ?_⟩
  · refine ⟨g.initial, hcollected.first, ?_⟩
    have hclosure : g.IsClosure (· ∈ [(⟨g.goal, 0⟩ : Item)]) g.initial :=
      isClosure_close fun i hi => List.mem_singleton.mp hi ▸ start_mem_items (Nat.le_refl _)
    simpa using hclosure
  · intro state hstate
    obtain ⟨kernel, rfl, -⟩ := hcollected.states state hstate
    exact fun i j p hi hp hafter => close_closed hi hafter hp
  · intro q hpos hq
    exact ⟨hpreceded q hpos hq, hpreceded.reachable hq⟩
  · intro q state transitions hstate htransitions s
    obtain ⟨state', hstate', hleads⟩ := hcollected.visited q transitions htransitions
    obtain rfl : state' = state := Option.some.inj (hstate'.symm.trans hstate)
    have hitems := (hcollected.states state' (List.mem_of_getElem? hstate)).mem_items
    refine ⟨exists_target_iff hleads s, fun target htarget => ?_⟩
    exact ⟨_, (hleads.target s target htarget).2, isClosure_kernelAfter hitems s⟩

/-- After a comparison the parser of queries awaits a term or a number: this is a state that is entered
    from one with a smaller number, and it leads to the two productions with these operands. -/
theorem collection_exact_comparison :
    query.collection.states[16]? = some [⟨12, 1⟩, ⟨13, 1⟩] ∧
      query.collection.transitions[16]? =
        some [(.terminal .searchTerm, 24), (.terminal .number, 25)] ∧
      (∃ p < 16, query.collection.Step p 16) ∧
      ∃ state, query.collection.states[25]? = some state ∧
        query.IsClosure (fun i => ∃ j ∈ ([⟨12, 1⟩, ⟨13, 1⟩] : List Item),
          query.afterDot j = some (.terminal .number) ∧ j.advance = i) state := by
  have hstate : query.collection.states[16]? = some [⟨12, 1⟩, ⟨13, 1⟩] ∧
      query.collection.transitions[16]? =
        some [(.terminal .searchTerm, 24), (.terminal .number, 25)] := by decide +kernel
  obtain ⟨-, -, -, -, -, -, hreached, htransitions⟩ := collection_exact query
  have hlt : 16 < query.collection.states.length := (List.getElem?_eq_some_iff.mp hstate.1).1
  refine ⟨hstate.1, hstate.2, (hreached 16 (by decide) hlt).1, ?_⟩
  exact (htransitions 16 _ _ hstate.1 hstate.2 (.terminal .number)).2 25 (by simp)

end Grammar

end RecordSearch.Query
