import Mathlib.Data.List.Sublists
import RecordSearch.Proofs.Automaton.State

/-! The collection of states is complete. Going on with one state at a time keeps an invariant: the
    states are different from each other, each is the closure of a kernel, and the transitions found
    so far lead from a state to the closures of its advanced items. States are sublists of the list
    of all items, so there is a bound on how many can differ, and `collect` gets to the end
    (`collection_complete`). -/

namespace RecordSearch.Query

namespace Grammar

variable {g : Grammar}

/-! ### Numbering -/

theorem number_spec (states : List (List Item)) (state : List Item) :
    states <+: (number states state).1 ∧
      (number states state).1[(number states state).2]? = some state := by
  rw [number]
  cases h : states.idxOf? state with
  | none => exact ⟨List.prefix_append _ _, by simp⟩
  | some n =>
    rw [List.idxOf?, List.findIdx?_eq_some_iff_getElem] at h
    obtain ⟨hlt, heq, -⟩ := h
    exact ⟨List.prefix_rfl, by rw [List.getElem?_eq_getElem hlt, eq_of_beq heq]⟩

theorem mem_number {states : List (List Item)} {state s : List Item}
    (h : s ∈ (number states state).1) : s ∈ states ∨ s = state := by
  rw [number] at h
  split at h
  · exact Or.inl h
  · simpa using h

theorem number_nodup {states : List (List Item)} (state : List Item) (h : states.Nodup) :
    (number states state).1.Nodup := by
  rw [number]
  split
  · exact h
  · rename_i hnone
    rw [List.idxOf?, List.findIdx?_eq_none_iff] at hnone
    have hnew : state ∉ states := fun hmem => by simpa using hnone state hmem
    simpa [List.nodup_append] using ⟨h, fun a ha heq => hnew (heq ▸ ha)⟩

/-! ### Transitions of one state -/

/-- Transitions over some symbols lead from a state to the closures of its advanced items. -/
structure Leads (g : Grammar) (states : List (List Item)) (state : List Item)
    (symbols : List Symbol) (transitions : List (Symbol × Nat)) : Prop where
  target : ∀ s q, (s, q) ∈ transitions →
    g.kernelAfter state s ≠ [] ∧ states[q]? = some (g.close (g.kernelAfter state s))
  all : ∀ s ∈ symbols, g.kernelAfter state s ≠ [] → ∃ q, (s, q) ∈ transitions

theorem getElem?_of_isPrefix {states states' : List (List Item)} {q : Nat} {s : List Item}
    (h : states <+: states') (hq : states[q]? = some s) : states'[q]? = some s := by
  obtain ⟨more, rfl⟩ := h
  rw [List.getElem?_append_left (List.getElem?_eq_some_iff.mp hq).1, hq]

theorem Leads.mono {states states' : List (List Item)} {state : List Item} {symbols : List Symbol}
    {transitions : List (Symbol × Nat)} (h : g.Leads states state symbols transitions)
    (hp : states <+: states') : g.Leads states' state symbols transitions where
  target s q hmem := ⟨(h.target s q hmem).1, getElem?_of_isPrefix hp (h.target s q hmem).2⟩
  all := h.all

/-- A state is the closure of a kernel, which is the first one or has moved every dot. -/
def IsState (g : Grammar) (state : List Item) : Prop :=
  ∃ kernel, state = g.close kernel ∧
    ∀ i ∈ kernel, i ∈ g.items ∧ (i.dot = 0 → i = ⟨g.goal, 0⟩ ∧ state = g.initial)

theorem isState_close_kernelAfter {state : List Item} (h : ∀ i ∈ state, i ∈ g.items)
    (s : Symbol) : g.IsState (g.close (g.kernelAfter state s)) := by
  refine ⟨_, rfl, fun i hi => ?_⟩
  obtain ⟨j, hj, hafter, rfl⟩ := mem_kernelAfter.mp hi
  exact ⟨advance_mem_items (h j hj) hafter, fun h0 => by simp [Item.advance] at h0⟩

theorem isState_initial : g.IsState g.initial := by
  refine ⟨_, rfl, fun i hi => ?_⟩
  rw [List.mem_singleton] at hi
  subst hi
  exact ⟨start_mem_items (Nat.le_refl _), fun _ => ⟨rfl, rfl⟩⟩

theorem IsState.mem_items {state : List Item} (h : g.IsState state) :
    ∀ i ∈ state, i ∈ g.items := by
  obtain ⟨kernel, rfl, -⟩ := h
  exact fun i hi => (mem_close.mp hi).1

/-- What visiting the symbols in turn does to the known states. -/
theorem successors_spec {state : List Item} (hstate : ∀ i ∈ state, i ∈ g.items) :
    ∀ (symbols : List Symbol) (states : List (List Item)),
      states <+: (g.successors state symbols states).1 ∧
      (states.Nodup → (g.successors state symbols states).1.Nodup) ∧
      (∀ s ∈ (g.successors state symbols states).1, s ∈ states ∨ g.IsState s) ∧
      g.Leads (g.successors state symbols states).1 state symbols
        (g.successors state symbols states).2
  | [], states => ⟨List.prefix_rfl, id, fun s hs => Or.inl hs, by simp [successors],
      by simp⟩
  | symbol :: rest, states => by
      rw [successors]
      by_cases hempty : (g.kernelAfter state symbol).isEmpty
      · obtain ⟨hinitial, hnodup, hnew, hleads⟩ := successors_spec hstate rest states
        rw [if_pos hempty]
        refine ⟨hinitial, hnodup, hnew, hleads.target, fun s hs hne => ?_⟩
        rcases List.mem_cons.mp hs with rfl | hs
        · exact absurd (List.isEmpty_iff.mp hempty) hne
        · exact hleads.all s hs hne
      · rw [if_neg hempty]
        have hnumber := number_spec states (g.close (g.kernelAfter state symbol))
        obtain ⟨hinitial, hnodup, hnew, hleads⟩ := successors_spec hstate rest
          (number states (g.close (g.kernelAfter state symbol))).1
        refine ⟨hnumber.1.trans hinitial, fun h => hnodup (number_nodup _ h), fun s hs => ?_,
          fun s q hmem => ?_, fun s hs hne => ?_⟩
        · rcases hnew s hs with h | h
          · rcases mem_number h with h | rfl
            · exact Or.inl h
            · exact Or.inr (isState_close_kernelAfter hstate symbol)
          · exact Or.inr h
        · rcases List.mem_cons.mp hmem with heq | hmem
          · obtain ⟨rfl, rfl⟩ := Prod.mk.inj heq
            exact ⟨fun h => hempty (by simp [h]), getElem?_of_isPrefix hinitial hnumber.2⟩
          · exact hleads.target s q hmem
        · rcases List.mem_cons.mp hs with rfl | hs
          · exact ⟨_, List.mem_cons_self⟩
          · obtain ⟨q, hq⟩ := hleads.all s hs hne
            exact ⟨q, List.mem_cons_of_mem _ hq⟩

/-! ### All states -/

/-- What holds of the states and transitions at any time. -/
structure Collected (g : Grammar) (c : Collection) : Prop where
  first : c.states[0]? = some g.initial
  nodup : c.states.Nodup
  states : ∀ s ∈ c.states, g.IsState s
  visited : ∀ (q : Nat) ts, c.transitions[q]? = some ts →
    ∃ s, c.states[q]? = some s ∧ g.Leads c.states s Symbol.all ts

theorem Collected.initial : g.Collected ⟨[g.initial], []⟩ where
  first := rfl
  nodup := List.nodup_singleton _
  states s hs := by
    rw [List.mem_singleton] at hs
    exact hs ▸ isState_initial
  visited q ts h := by simp at h

/-- No more states differ than there are sublists of the items. -/
theorem Collected.length_states_le {c : Collection} (h : g.Collected c) :
    c.states.length ≤ g.items.sublists.length := by
  have hsub : c.states ⊆ g.items.sublists := fun s hs => by
    obtain ⟨kernel, rfl, -⟩ := h.states s hs
    exact List.mem_sublists.mpr (close_sublist kernel)
  exact (h.nodup.subperm hsub).length_le

theorem Collected.length_transitions_le {c : Collection} (h : g.Collected c) :
    c.transitions.length ≤ c.states.length := by
  by_contra hlt
  obtain ⟨s, hs, -⟩ := h.visited c.states.length _
    (List.getElem?_eq_getElem (Nat.lt_of_not_le hlt))
  simp at hs

theorem Collected.visit {c : Collection} {state : List Item} (h : g.Collected c)
    (hstate : c.states[c.transitions.length]? = some state) :
    g.Collected ⟨(g.successors state Symbol.all c.states).1,
      c.transitions ++ [(g.successors state Symbol.all c.states).2]⟩ := by
  have hitems := (h.states state (List.mem_of_getElem? hstate)).mem_items
  obtain ⟨hinitial, hnodup, hnew, hleads⟩ := successors_spec hitems Symbol.all c.states
  refine ⟨getElem?_of_isPrefix hinitial h.first, hnodup h.nodup, fun s hs => ?_, fun q ts hq => ?_⟩
  · exact (hnew s hs).elim (h.states s) id
  · rcases Nat.lt_trichotomy q c.transitions.length with hlt | rfl | hgt
    · rw [List.getElem?_append_left hlt] at hq
      obtain ⟨s, hs, hl⟩ := h.visited q ts hq
      exact ⟨s, getElem?_of_isPrefix hinitial hs, hl.mono hinitial⟩
    · rw [List.getElem?_concat_length, Option.some.injEq] at hq
      exact ⟨state, getElem?_of_isPrefix hinitial hstate, hq ▸ hleads⟩
    · rw [List.getElem?_eq_none (by simp; omega)] at hq
      simp at hq

/-- With enough rounds every state is visited. -/
theorem collect_spec : ∀ (fuel : Nat) {c : Collection}, g.Collected c →
    g.items.sublists.length < fuel + c.transitions.length →
    g.Collected (g.collect fuel c) ∧
      (g.collect fuel c).transitions.length = (g.collect fuel c).states.length
  | 0, c, h, hlt => by
      have hstates := h.length_states_le
      have htransitions := h.length_transitions_le
      omega
  | fuel + 1, c, h, hlt => by
      rw [collect]
      cases hstate : c.states[c.transitions.length]? with
      | none =>
        have hge := List.getElem?_eq_none_iff.mp hstate
        exact ⟨h, Nat.le_antisymm h.length_transitions_le hge⟩
      | some state =>
        refine collect_spec fuel (h.visit hstate) ?_
        rw [List.length_append, List.length_singleton]
        omega

theorem collection_complete (g : Grammar) : g.Collected g.collection ∧
    g.collection.transitions.length = g.collection.states.length := by
  have hrounds : g.items.sublists.length < Nat.pow 2 g.items.length + 1 :=
    Nat.lt_succ_of_le (Nat.le_of_eq (List.length_sublists g.items))
  exact collect_spec _ .initial hrounds

end Grammar

end RecordSearch.Query
