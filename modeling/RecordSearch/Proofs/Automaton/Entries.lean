import RecordSearch.Proofs.Automaton.Collection
import RecordSearch.Proofs.Grammar.Lookahead
import RecordSearch.Query.Table

/-! What stands in the rows of a table. A table is built only if no two actions compete for a place,
    so after `place` has put every entry in turn, looking one up gives what was asked for and
    nothing else (`foldlM_place`); `buildRows_ok` says so of the row of every state. -/

namespace RecordSearch.Query

theorem mem_of_lookup {α β : Type} [BEq α] [LawfulBEq α] {entries : List (α × β)} {a : α} {b : β}
    (h : entries.lookup a = some b) : (a, b) ∈ entries := by
  obtain ⟨before, after, rfl, -⟩ := List.lookup_eq_some_iff.mp h
  simp

theorem exists_lookup_of_mem {α β : Type} [BEq α] [LawfulBEq α] {entries : List (α × β)} {a : α}
    {b : β} (h : (a, b) ∈ entries) : ∃ b', entries.lookup a = some b' :=
  Option.isSome_iff_exists.mp (List.lookup_isSome_iff.mpr ⟨(a, b), h, by simp⟩)

theorem Except.exists_of_bind_ok {ε α β : Type} {x : Except ε α} {f : α → Except ε β} {b : β}
    (h : x >>= f = .ok b) : ∃ a, x = .ok a ∧ f a = .ok b := by
  cases x with
  | error e => simp [bind, Except.bind] at h
  | ok a => exact ⟨a, rfl, h⟩

namespace Table

/-! ### Placing actions -/

theorem place_ok {n : Nat} {actions actions' : List (Lookahead × Action)} {l : Lookahead}
    {a : Action} (h : place n actions (l, a) = .ok actions') :
    actions'.lookup l = some a ∧ (∀ k b, actions.lookup k = some b → actions'.lookup k = some b) ∧
      ∀ k b, actions'.lookup k = some b → actions.lookup k = some b ∨ (k, b) = (l, a) := by
  rw [place] at h
  cases hl : actions.lookup l with
  | none =>
    simp only [hl, Except.ok.injEq] at h
    subst h
    refine ⟨by simp [List.lookup_append, hl], fun k b hk => by simp [List.lookup_append, hk],
      fun k b hk => ?_⟩
    rw [List.lookup_append, Option.or_eq_some_iff] at hk
    rcases hk with hk | ⟨-, hk⟩
    · exact Or.inl hk
    · exact Or.inr (List.mem_singleton.mp (mem_of_lookup hk))
  | some existing =>
    simp only [hl] at h
    split at h
    · rename_i heq
      rw [Except.ok.injEq] at h
      subst h heq
      exact ⟨hl, fun _ _ => id, fun _ _ => Or.inl⟩
    · simp at h

/-- Once all entries are placed, looking one up gives what was asked for and nothing else. -/
theorem foldlM_place {n : Nat} : ∀ {entries actions actions' : List (Lookahead × Action)},
    entries.foldlM (place n) actions = .ok actions' →
    (∀ l a, actions.lookup l = some a ∨ (l, a) ∈ entries → actions'.lookup l = some a) ∧
      ∀ l a, actions'.lookup l = some a → actions.lookup l = some a ∨ (l, a) ∈ entries
  | [], actions, actions', h => by
      rw [List.foldlM_nil] at h
      obtain rfl : actions = actions' := Except.ok.inj h
      simp
  | (k, b) :: entries, actions, actions', h => by
      rw [List.foldlM_cons] at h
      obtain ⟨mid, hplace, hrest⟩ := Except.exists_of_bind_ok h
      obtain ⟨hself, hkeep, honly⟩ := place_ok hplace
      obtain ⟨hall, hnone⟩ := foldlM_place hrest
      refine ⟨fun l a hla => ?_, fun l a hla => ?_⟩
      · rcases hla with hla | hla
        · exact hall l a (Or.inl (hkeep l a hla))
        · rcases List.mem_cons.mp hla with heq | hla
          · obtain ⟨rfl, rfl⟩ := Prod.mk.inj heq
            exact hall _ _ (Or.inl hself)
          · exact hall l a (Or.inr hla)
      · rcases hnone l a hla with hla | hla
        · rcases honly l a hla with hla | heq
          · exact Or.inl hla
          · exact Or.inr (heq ▸ List.mem_cons_self)
        · exact Or.inr (List.mem_cons_of_mem _ hla)

/-! ### Rows -/

/-- A row that holds what a state and its transitions ask for. -/
structure RowOf (g : Grammar) (state : List Item) (transitions : List (Symbol × Nat))
    (row : Row) : Prop where
  gotos : row.gotos = Table.gotos transitions
  action : ∀ l a, row.actions.lookup l = some a ↔
    (l, a) ∈ shifts transitions ++ reductions g g.follow state

theorem buildRows_ok {g : Grammar} : ∀ {n : Nat}
    {pairs : List (List Item × List (Symbol × Nat))} {rows : List Row},
    buildRows g g.follow n pairs = .ok rows →
    List.Forall₂ (fun pair row => RowOf g pair.1 pair.2 row) pairs rows
  | n, [], rows, h => by
      rw [buildRows, Except.ok.injEq] at h
      subst h
      exact .nil
  | n, (state, transitions) :: pairs, rows, h => by
      rw [buildRows] at h
      obtain ⟨actions, hactions, h⟩ := Except.exists_of_bind_ok h
      obtain ⟨rest, hrest, h⟩ := Except.exists_of_bind_ok h
      obtain rfl : _ :: rest = rows := Except.ok.inj h
      obtain ⟨hall, honly⟩ := foldlM_place hactions
      refine .cons ⟨rfl, fun l a => ⟨fun h => ?_, fun h => hall l a (Or.inr h)⟩⟩
        (buildRows_ok hrest)
      simpa using honly l a h

theorem mem_shifts {transitions : List (Symbol × Nat)} {l : Lookahead} {a : Action} :
    (l, a) ∈ shifts transitions ↔
      ∃ k q, l = .token k ∧ a = .shift q ∧ (Symbol.terminal k, q) ∈ transitions := by
  rw [shifts, List.mem_filterMap]
  constructor
  · rintro ⟨⟨s, q⟩, hmem, h⟩
    cases s with
    | terminal k =>
      simp only [Option.some.injEq, Prod.mk.injEq] at h
      exact ⟨k, q, h.1.symm, h.2.symm, hmem⟩
    | nonterminal n => simp at h
  · rintro ⟨k, q, rfl, rfl, hmem⟩
    exact ⟨(.terminal k, q), hmem, rfl⟩

theorem mem_gotos {transitions : List (Symbol × Nat)} {n : Nonterminal} {q : Nat} :
    (n, q) ∈ gotos transitions ↔ (Symbol.nonterminal n, q) ∈ transitions := by
  rw [gotos, List.mem_filterMap]
  constructor
  · rintro ⟨⟨s, q'⟩, hmem, h⟩
    cases s with
    | terminal k => simp at h
    | nonterminal m =>
      simp only [Option.some.injEq, Prod.mk.injEq] at h
      exact h.1 ▸ h.2 ▸ hmem
  · exact fun h => ⟨_, h, rfl⟩

theorem mem_reductions {g : Grammar} {state : List Item} {l : Lookahead} {a : Action} :
    (l, a) ∈ reductions g g.follow state ↔ ∃ i ∈ state, g.isComplete i = true ∧
      ((∃ p, g.productions[i.production]? = some p ∧ (p.lhs, l) ∈ g.follow ∧
          a = .reduce i.production) ∨
        g.productions[i.production]? = none ∧ l = .endOfInput ∧ a = .accept) := by
  rw [reductions, List.mem_flatMap]
  constructor
  · rintro ⟨i, hi, h⟩
    obtain ⟨hi, hcomplete⟩ := List.mem_filter.mp hi
    refine ⟨i, hi, hcomplete, ?_⟩
    cases hp : g.productions[i.production]? with
    | none =>
      rw [hp] at h
      exact Or.inr ⟨rfl, Prod.mk.inj (List.mem_singleton.mp h)⟩
    | some p =>
      rw [hp] at h
      obtain ⟨l', hl', heq⟩ := List.mem_map.mp h
      obtain ⟨rfl, rfl⟩ := Prod.mk.inj heq
      exact Or.inl ⟨p, rfl, Grammar.mem_followOf.mp hl', rfl⟩
  · rintro ⟨i, hi, hcomplete, h⟩
    refine ⟨i, List.mem_filter.mpr ⟨hi, hcomplete⟩, ?_⟩
    rcases h with ⟨p, hp, hl, rfl⟩ | ⟨hp, rfl, rfl⟩
    · rw [hp]
      exact List.mem_map.mpr ⟨l, Grammar.mem_followOf.mpr hl, rfl⟩
    · rw [hp]
      exact List.mem_singleton_self _

end Table

end RecordSearch.Query
