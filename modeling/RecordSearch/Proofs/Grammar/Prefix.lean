import RecordSearch.Proofs.Grammar.Derivation

/-! Beginnings of sentences. What the start symbol derives can be finished once every symbol in it
    derives some tokens (`isPrefix_of_derives`), and in the grammar of queries every symbol does. -/

namespace RecordSearch.Query

namespace Grammar

variable {g : Grammar}

/-- A sequence of kinds that some sentence begins with. -/
def IsPrefix (g : Grammar) (kinds : List Kind) : Prop := ∃ more, g.IsSentence (kinds ++ more)

/-- Some tokens are derived from a symbol. -/
def Yields (g : Grammar) (s : Symbol) : Prop :=
  ∃ kinds : List Kind, g.Derives [s] (kinds.map .terminal)

theorem yields_terminal (k : Kind) : g.Yields (.terminal k) := ⟨[k], .refl _⟩

/-- A sequence of symbols derives tokens if each of them does. -/
theorem exists_derives_of_yields {α : List Symbol} (h : ∀ s ∈ α, g.Yields s) :
    ∃ kinds : List Kind, g.Derives α (kinds.map .terminal) := by
  induction α with
  | nil => exact ⟨[], .refl _⟩
  | cons s α ih =>
    obtain ⟨first, hfirst⟩ := h s List.mem_cons_self
    obtain ⟨rest, hrest⟩ := ih fun u hu => h u (List.mem_cons_of_mem s hu)
    refine ⟨first ++ rest, ?_⟩
    rw [List.map_append]
    exact hfirst.append hrest

theorem yields_of_production {p : Production} (hp : p ∈ g.productions)
    (h : ∀ s ∈ p.rhs, g.Yields s) : g.Yields (.nonterminal p.lhs) := by
  obtain ⟨kinds, hkinds⟩ := exists_derives_of_yields h
  refine ⟨kinds, (Rewrites.expand hp [] []).head ?_⟩
  simpa using hkinds

/-- What stands at the beginning of a sentential form begins a sentence. -/
theorem isPrefix_of_derives (hg : ∀ s, g.Yields s) {α β : List Symbol} {kinds : List Kind}
    (hstart : g.Derives [.nonterminal g.start] (α ++ β)) (hα : g.Derives α (kinds.map .terminal)) :
    g.IsPrefix kinds := by
  obtain ⟨more, hmore⟩ := exists_derives_of_yields fun s (_ : s ∈ β) => hg s
  refine ⟨more, ?_⟩
  rw [IsSentence, List.map_append]
  exact hstart.trans (hα.append hmore)

/-! ### The grammar of queries -/

theorem yields_query (s : Symbol) : query.Yields s := by
  have hterm := yields_terminal (g := query)
  have hlist : query.Yields (.nonterminal .list) :=
    yields_of_production (p := ⟨.list, []⟩) (by decide) (by simp)
  have hword : query.Yields (.nonterminal .searchTerm) :=
    yields_of_production (p := ⟨.searchTerm, [.terminal .searchTerm]⟩) (by decide) (by simp [hterm])
  have hoperand : query.Yields (.nonterminal .term) :=
    yields_of_production (p := ⟨.term, [.nonterminal .searchTerm]⟩) (by decide) (by simp [hword])
  have hsingle : query.Yields (.nonterminal .searchType) :=
    yields_of_production (p := ⟨.searchType, [.nonterminal .term]⟩) (by decide) (by simp [hoperand])
  have hsearch : query.Yields (.nonterminal .search) :=
    yields_of_production (p := ⟨.search, [.nonterminal .searchType]⟩) (by decide) (by simp [hsingle])
  cases s with
  | terminal k => exact hterm k
  | nonterminal n =>
    cases n with
    | list => exact hlist
    | search => exact hsearch
    | searchType => exact hsingle
    | term => exact hoperand
    | searchTerm => exact hword
    | and =>
      exact yields_of_production
        (p := ⟨.and, [.nonterminal .searchType, .terminal .and, .nonterminal .search]⟩) (by decide)
        (by simp [hterm, hsingle, hsearch])
    | or =>
      exact yields_of_production
        (p := ⟨.or, [.nonterminal .searchType, .terminal .or, .nonterminal .search]⟩) (by decide)
        (by simp [hterm, hsingle, hsearch])
    | group =>
      exact yields_of_production
        (p := ⟨.group, [.terminal .searchTerm, .terminal .groupTerminator, .nonterminal .term]⟩)
        (by decide) (by simp [hterm, hoperand])
    | comparison =>
      exact yields_of_production (p := ⟨.comparison, [.terminal .gt]⟩) (by decide) (by simp [hterm])

end Grammar

end RecordSearch.Query
