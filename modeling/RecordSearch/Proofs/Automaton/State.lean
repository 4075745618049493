import RecordSearch.Proofs.Grammar.Closure
import RecordSearch.Query.Grammar.Items

/-! The sets of items that are states. Closing a kernel adds the productions of every nonterminal
    after a dot (`close_closed`) and no others: an item with its dot at the start comes from the
    kernel or stands for a nonterminal after the dot of some item (`close_expands`). A state is the
    least set that holds its kernel and is closed in this way (`close_induction`). -/

namespace RecordSearch.Query

namespace Grammar

variable {g : Grammar}

/-! ### Items -/

theorem rhsOf_eq {j : Nat} {p : Production} (h : g.productions[j]? = some p) :
    g.rhsOf j = p.rhs := by rw [rhsOf, h]

theorem rhsOf_goal : g.rhsOf g.goal = [.nonterminal g.start] := by
  rw [rhsOf, goal, List.getElem?_eq_none (Nat.le_refl _)]

theorem mem_items {i : Item} :
    i ∈ g.items ↔ i.production ≤ g.goal ∧ i.dot ≤ (g.rhsOf i.production).length := by
  simp only [items, List.mem_flatMap, List.mem_range, List.mem_map, goal]
  constructor
  · rintro ⟨p, hp, d, hd, rfl⟩
    exact ⟨Nat.le_of_lt_succ hp, Nat.le_of_lt_succ hd⟩
  · rintro ⟨hp, hd⟩
    exact ⟨i.production, Nat.lt_succ_of_le hp, i.dot, Nat.lt_succ_of_le hd, rfl⟩

theorem start_mem_items {j : Nat} (h : j ≤ g.goal) : (⟨j, 0⟩ : Item) ∈ g.items :=
  mem_items.mpr ⟨h, Nat.zero_le _⟩

theorem dot_lt_of_afterDot {i : Item} {s : Symbol} (h : g.afterDot i = some s) :
    i.dot < (g.rhsOf i.production).length := (List.getElem?_eq_some_iff.mp h).1

theorem advance_mem_items {i : Item} {s : Symbol} (hi : i ∈ g.items) (h : g.afterDot i = some s) :
    i.advance ∈ g.items := mem_items.mpr ⟨(mem_items.mp hi).1, dot_lt_of_afterDot h⟩

theorem nonterminalAfterDot_eq_some {i : Item} {n : Nonterminal} :
    g.nonterminalAfterDot i = some n ↔ g.afterDot i = some (.nonterminal n) := by
  unfold nonterminalAfterDot
  split <;> simp_all

theorem afterDot_start {j : Nat} {p : Production} (h : g.productions[j]? = some p) :
    g.afterDot ⟨j, 0⟩ = p.rhs.head? := by
  rw [afterDot, rhsOf_eq h, List.head?_eq_getElem?]

theorem production_lt {j : Nat} {p : Production} (h : g.productions[j]? = some p) : j < g.goal :=
  (List.getElem?_eq_some_iff.mp h).1

theorem mem_kernelAfter {state : List Item} {s : Symbol} {j : Item} :
    j ∈ g.kernelAfter state s ↔ ∃ i ∈ state, g.afterDot i = some s ∧ i.advance = j := by
  simp [kernelAfter, and_assoc]

/-! ### Closing -/

/-- The nonterminals whose productions closing a kernel adds. -/
def expandedBy (g : Grammar) (kernel : List Item) : List Nonterminal :=
  g.expanded (kernel.filterMap g.nonterminalAfterDot)

theorem mem_close {kernel : List Item} {i : Item} :
    i ∈ g.close kernel ↔ i ∈ g.items ∧ (i ∈ kernel ∨ i.dot = 0 ∧
      ∃ p, g.productions[i.production]? = some p ∧ p.lhs ∈ g.expandedBy kernel) := by
  simp only [close, List.mem_filter, Bool.or_eq_true, Bool.and_eq_true, List.contains_iff_mem,
    decide_eq_true_eq, Option.any_eq_true]
  rfl

theorem close_sublist (kernel : List Item) : (g.close kernel).Sublist g.items :=
  List.filter_sublist

theorem mem_close_of_expanded {kernel : List Item} {j : Nat} {p : Production}
    (hp : g.productions[j]? = some p) (h : p.lhs ∈ g.expandedBy kernel) :
    (⟨j, 0⟩ : Item) ∈ g.close kernel :=
  mem_close.mpr ⟨start_mem_items (Nat.le_of_lt (production_lt hp)), Or.inr ⟨rfl, p, hp, h⟩⟩

theorem expanded_of_afterDot {kernel : List Item} {i : Item} {n : Nonterminal}
    (hi : i ∈ kernel ∨ i ∈ g.close kernel) (h : g.afterDot i = some (.nonterminal n)) :
    n ∈ g.expandedBy kernel := by
  rw [expandedBy, expanded]
  rcases hi.elim .inl fun hclose => (mem_close.mp hclose).2 with hk | ⟨hdot, p, hp, hlhs⟩
  · refine mem_closureOf_of_seed (Nonterminal.mem_all n) ?_
    exact List.mem_filterMap.mpr ⟨i, hk, nonterminalAfterDot_eq_some.mpr h⟩
  · refine mem_closureOf_of_rule (Nonterminal.mem_all n) ?_
    have hhead : p.rhs.head? = some (.nonterminal n) := by
      rw [← afterDot_start hp, ← h, ← hdot]
    simp only [List.any_eq_true, Bool.and_eq_true, List.contains_iff_mem, decide_eq_true_eq]
    exact ⟨p, List.mem_of_getElem? hp, hlhs, hhead⟩

/-- With a dot before a nonterminal a state holds every production of it. -/
theorem close_closed {kernel : List Item} {i : Item} {j : Nat} {p : Production}
    (hi : i ∈ g.close kernel) (h : g.afterDot i = some (.nonterminal p.lhs))
    (hp : g.productions[j]? = some p) : (⟨j, 0⟩ : Item) ∈ g.close kernel :=
  mem_close_of_expanded hp (expanded_of_afterDot (.inr hi) h)

/-- With a dot before a nonterminal the set holds every production of it. -/
def Closed (g : Grammar) (P : Item → Prop) : Prop :=
  ∀ i j p, P i → g.productions[j]? = some p → g.afterDot i = some (.nonterminal p.lhs) → P ⟨j, 0⟩

section Induction

variable {kernel : List Item} {P : Item → Prop} (hkernel : ∀ i ∈ kernel, P i) (hclosed : g.Closed P)

include hkernel hclosed

/-- Every expanded nonterminal stands after the dot of an item of any closed set that holds the
    kernel. The induction is on the rounds of the closure: items may expand each other in a circle. -/
theorem exists_afterDot_of_expanded :
    ∀ n ∈ g.expandedBy kernel, ∃ i, P i ∧ g.afterDot i = some (.nonterminal n) := by
  rw [expandedBy, expanded]
  refine closureOf_induction ?_ ?_
  · intro n hn
    obtain ⟨i, hi, h⟩ := List.mem_filterMap.mp hn
    exact ⟨i, hkernel i hi, nonterminalAfterDot_eq_some.mp h⟩
  · intro ns n hns h
    simp only [List.any_eq_true, Bool.and_eq_true, List.contains_iff_mem,
      decide_eq_true_eq] at h
    obtain ⟨p, hp, hlhs, hhead⟩ := h
    obtain ⟨j, hj⟩ := List.mem_iff_getElem?.mp hp
    obtain ⟨i, hi, hafter⟩ := hns p.lhs hlhs
    exact ⟨⟨j, 0⟩, hclosed i j p hi hj hafter, by rw [afterDot_start hj, hhead]⟩

/-- A closed set that holds the kernel holds the whole state. -/
theorem close_induction : ∀ i ∈ g.close kernel, P i := by
  intro i hi
  rcases (mem_close.mp hi).2 with hmem | ⟨hdot, p, hp, hlhs⟩
  · exact hkernel i hmem
  · obtain ⟨j, hj, hafter⟩ := exists_afterDot_of_expanded hkernel hclosed p.lhs hlhs
    have hi : i = ⟨i.production, 0⟩ := by rw [← hdot]
    exact hi ▸ hclosed j i.production p hj hp hafter

end Induction

/-- A production that closing has added is one of a nonterminal after a dot. -/
theorem close_expands {kernel : List Item} {j : Nat} {p : Production}
    (hkernel : ∀ i ∈ kernel, i ∈ g.items) (hj : (⟨j, 0⟩ : Item) ∈ g.close kernel)
    (hnew : (⟨j, 0⟩ : Item) ∉ kernel) (hp : g.productions[j]? = some p) :
    ∃ i ∈ g.close kernel, g.afterDot i = some (.nonterminal p.lhs) := by
  rcases (mem_close.mp hj).2 with hk | ⟨-, p', hp', hlhs⟩
  · exact absurd hk hnew
  · rw [hp, Option.some.injEq] at hp'
    refine exists_afterDot_of_expanded (P := (· ∈ g.close kernel)) ?_ ?_ p.lhs (hp' ▸ hlhs)
    · exact fun i hi => mem_close.mpr ⟨hkernel i hi, Or.inl hi⟩
    · exact fun i j p hi hp hafter => close_closed hi hafter hp

end Grammar

end RecordSearch.Query
