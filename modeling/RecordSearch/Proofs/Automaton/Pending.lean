import Mathlib.Data.List.Nodup
import Mathlib.Data.List.Perm.Subperm
import RecordSearch.Proofs.Automaton.State

/-! Closing a kernel with a stack of pending items. Whatever is known comes from the kernel or belongs to
    its closure, and an item that is not pending any more has been expanded (`Expanding`); when nothing is
    pending the known items are closed, and so they are the whole state. Every item is put on the stack
    once, so the stack is empty after as many steps as there are items (`expandKernel_eq`). -/

namespace RecordSearch.Query

namespace Grammar

variable {g : Grammar}

/-! ### What an item adds -/

theorem mem_openings {n : Nonterminal} {i : Item} : i ∈ g.openings n ↔
    ∃ j p, g.productions[j]? = some p ∧ p.lhs = n ∧ i = ⟨j, 0⟩ := by
  simp only [openings, List.mem_map, List.mem_filter, List.mem_range, Option.any_eq_true,
    decide_eq_true_eq]
  constructor
  · rintro ⟨j, ⟨-, p, hp, hlhs⟩, rfl⟩
    exact ⟨j, p, hp, hlhs, rfl⟩
  · rintro ⟨j, p, hp, hlhs, rfl⟩
    exact ⟨j, ⟨production_lt hp, p, hp, hlhs⟩, rfl⟩

theorem mem_added {items : List Item} {i k : Item} : k ∈ g.added items i ↔ k ∉ items ∧
    ∃ j p, g.productions[j]? = some p ∧ g.afterDot i = some (.nonterminal p.lhs) ∧ k = ⟨j, 0⟩ := by
  rw [added]
  cases hafter : g.nonterminalAfterDot i with
  | none =>
    have hnone : ∀ n, g.afterDot i ≠ some (.nonterminal n) := fun n h => by
      rw [nonterminalAfterDot_eq_some.mpr h] at hafter
      cases hafter
    simp [hnone]
  | some n =>
    rw [nonterminalAfterDot_eq_some] at hafter
    simp only [List.mem_filter, mem_openings, hafter, Bool.not_eq_true', List.contains_eq_mem,
      decide_eq_false_iff_not, Option.some.injEq, Symbol.nonterminal.injEq, eq_comm (a := n)]
    exact and_comm

theorem nodup_added (items : List Item) (i : Item) : (g.added items i).Nodup := by
  rw [added]
  split
  · refine List.Nodup.filter _ (List.Nodup.map (fun j k h => ?_) (List.nodup_range.filter _))
    exact congrArg Item.production h
  · exact List.nodup_nil

/-! ### How long it takes -/

/-- The items that are not known yet. -/
def unknown (g : Grammar) (items : List Item) : List Item := g.items.filter fun i => !items.contains i

theorem mem_unknown {items : List Item} {i : Item} : i ∈ g.unknown items ↔ i ∈ g.items ∧ i ∉ items := by
  simp [unknown]

/-- What is added was unknown and is not any more. -/
theorem length_unknown_added (items : List Item) (i : Item) :
    (g.added items i).length + (g.unknown (items ++ g.added items i)).length ≤
      (g.unknown items).length := by
  have hnew : g.added items i ⊆
      (g.unknown items).filter fun k => (g.added items i).contains k := by
    intro k hk
    obtain ⟨hunknown, j, p, hp, -, rfl⟩ := mem_added.mp hk
    have hitem := start_mem_items (Nat.le_of_lt (production_lt hp))
    exact List.mem_filter.mpr ⟨mem_unknown.mpr ⟨hitem, hunknown⟩, List.contains_iff_mem.mpr hk⟩
  have hrest : g.unknown (items ++ g.added items i) =
      (g.unknown items).filter fun k => !(g.added items i).contains k := by
    rw [unknown, unknown, List.filter_filter]
    refine List.filter_congr fun k _ => ?_
    simp [Bool.and_comm]
  have hsplit := List.length_eq_length_filter_add (l := g.unknown items) (g.added items i).contains
  rw [hrest, hsplit]
  exact Nat.add_le_add_right ((nodup_added items i).subperm hnew).length_le _

/-! ### Known and pending items -/

/-- Some items with those among them that are still to be expanded, on the way from a kernel to its
    closure. -/
structure Expanding (g : Grammar) (kernel pending items : List Item) : Prop where
  holds : ∀ i ∈ kernel, i ∈ items
  sound : ∀ i ∈ items, i ∈ kernel ∨ i ∈ g.close kernel
  known : ∀ i ∈ pending, i ∈ items
  expanded : ∀ i ∈ items, i ∈ pending ∨ ∀ j p, g.productions[j]? = some p →
    g.afterDot i = some (.nonterminal p.lhs) → (⟨j, 0⟩ : Item) ∈ items

theorem expanding_start (kernel : List Item) : g.Expanding kernel kernel.reverse kernel where
  holds _ hi := hi
  sound _ hi := .inl hi
  known _ hi := List.mem_reverse.mp hi
  expanded _ hi := .inl (List.mem_reverse.mpr hi)

/-- Expanding the item on top of the stack. -/
theorem Expanding.step {kernel pending items : List Item} {i : Item}
    (h : g.Expanding kernel (i :: pending) items) :
    g.Expanding kernel ((g.added items i).reverse ++ pending) (items ++ g.added items i) where
  holds k hk := List.mem_append_left _ (h.holds k hk)
  sound k hk := by
    rcases List.mem_append.mp hk with hold | hnew
    · exact h.sound k hold
    · obtain ⟨-, j, p, hp, hafter, rfl⟩ := mem_added.mp hnew
      have hi := h.sound i (h.known i List.mem_cons_self)
      exact .inr (mem_close_of_expanded hp (expanded_of_afterDot hi hafter))
  known k hk := by
    rcases List.mem_append.mp hk with hnew | hold
    · exact List.mem_append_right _ (List.mem_reverse.mp hnew)
    · exact List.mem_append_left _ (h.known k (List.mem_cons_of_mem i hold))
  expanded k hk := by
    rcases List.mem_append.mp hk with hold | hnew
    · rcases h.expanded k hold with hpending | hexpanded
      · rcases List.mem_cons.mp hpending with rfl | hpending
        · -- the item that is expanded now
          refine .inr fun j p hp hafter => ?_
          by_cases hknown : (⟨j, 0⟩ : Item) ∈ items
          · exact List.mem_append_left _ hknown
          · exact List.mem_append_right _ (mem_added.mpr ⟨hknown, j, p, hp, hafter, rfl⟩)
        · exact .inl (List.mem_append_right _ hpending)
      · exact .inr fun j p hp hafter => List.mem_append_left _ (hexpanded j p hp hafter)
    · exact .inl (List.mem_append_left _ (List.mem_reverse.mpr hnew))

/-- With enough fuel nothing is pending in the end. -/
theorem Expanding.expandAll {kernel : List Item} : ∀ {fuel : Nat} {pending items : List Item},
    g.Expanding kernel pending items → pending.length + (g.unknown items).length ≤ fuel →
    g.Expanding kernel [] (g.expandAll fuel pending items)
  | 0, [], _, h, _ => h
  | 0, _ :: _, _, _, hfuel => by simp at hfuel
  | _ + 1, [], _, h, _ => h
  | fuel + 1, i :: pending, items, h, hfuel => by
      have hlength := length_unknown_added (g := g) items i
      rw [List.length_cons] at hfuel
      rw [Grammar.expandAll]
      refine h.step.expandAll ?_
      rw [List.length_append, List.length_reverse]
      omega

/-- Where nothing is pending the known items are the closure, but for those of the kernel that are no
    items of the grammar. -/
theorem Expanding.mem_iff {kernel items : List Item} (h : g.Expanding kernel [] items) {i : Item}
    (hi : i ∈ g.items) : i ∈ items ↔ i ∈ g.close kernel := by
  constructor
  · intro hmem
    exact (h.sound i hmem).elim (fun hk => mem_close.mpr ⟨hi, .inl hk⟩) id
  · refine close_induction h.holds ?_ i
    intro k j p hk hp hafter
    exact (h.expanded k hk).elim nofun fun hexpanded => hexpanded j p hp hafter

/-- The stack is empty after a while, and then the state is the closure of the kernel. -/
theorem expandKernel_eq (kernel : List Item) {fuel : Nat}
    (hfuel : kernel.length + g.items.length ≤ fuel) : g.expandKernel fuel kernel = g.close kernel := by
  have hunknown : (g.unknown kernel).length ≤ g.items.length := List.length_filter_le _ _
  have hend : g.Expanding kernel [] (g.expandAll fuel kernel.reverse kernel) := by
    refine (expanding_start kernel).expandAll ?_
    rw [List.length_reverse]
    omega
  refine (isSelection_filter _).ext (isSelection_filter _) fun i => ?_
  rw [List.mem_filter, List.contains_iff_mem]
  exact ⟨fun hi => (hend.mem_iff hi.1).mp hi.2, fun hi =>
    ⟨(mem_close.mp hi).1, (hend.mem_iff (mem_close.mp hi).1).mpr hi⟩⟩

end Grammar

end RecordSearch.Query
