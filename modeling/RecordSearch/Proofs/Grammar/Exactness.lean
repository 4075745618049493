import RecordSearch.Proofs.Grammar.Passes

/-! The analysis of a grammar is exact. What it finds is true of derivations, by induction on the rounds
    of each closure. Conversely a closure that knows of a sentential form knows of the form before it
    was rewritten, so it is enough to look at the end of a derivation for what is nullable or comes
    first (`Derives.allAmong`, `Derives.begins`); and for what follows, the invariant of a derivation is
    that everything that may come after a nonterminal of the form is known (`Covered`). -/

namespace RecordSearch.Query

/-- A member of two lists put together stands in one of them. -/
theorem exists_split {α : Type} {a : α} {x y u v : List α} (h : x ++ y = u ++ a :: v) :
    (∃ w, x = u ++ a :: w ∧ v = w ++ y) ∨ ∃ w, u = x ++ w ∧ y = w ++ a :: v := by
  rcases List.append_eq_append_iff.mp h with ⟨w, hu, hy⟩ | ⟨w, hx, hv⟩
  · exact .inr ⟨w, hu, hy⟩
  · cases w with
    | nil => exact .inr ⟨[], by simpa using hx.symm, by simpa using hv.symm⟩
    | cons b w =>
      obtain ⟨rfl, rfl⟩ := List.cons.inj hv
      exact .inl ⟨w, hx, rfl⟩

namespace Grammar

variable {g : Grammar}

theorem derives_of_production {p : Production} (hp : p ∈ g.productions) {α : List Symbol}
    (h : g.Derives p.rhs α) : g.Derives [.nonterminal p.lhs] α := by
  have hstep : g.Rewrites [.nonterminal p.lhs] p.rhs := by simpa using Rewrites.expand hp [] []
  exact hstep.head h

/-! ### What derives nothing -/

theorem allAmong_append (ns : List Nonterminal) (u v : List Symbol) :
    allAmong ns (u ++ v) = (allAmong ns u && allAmong ns v) := List.all_append

theorem derives_nil_of_allAmong {ns : List Nonterminal}
    (h : ∀ n ∈ ns, g.Derives [.nonterminal n] []) :
    ∀ {α : List Symbol}, allAmong ns α = true → g.Derives α []
  | [], _ => Derives.refl []
  | .terminal _ :: _, hα => by cases hα
  | .nonterminal n :: α, hα => by
      rw [allAmong_cons, Bool.and_eq_true, List.contains_iff_mem] at hα
      exact (h n hα.1).append (derives_nil_of_allAmong h hα.2)

theorem derives_nil_of_nullable : ∀ n ∈ g.nullable, g.Derives [.nonterminal n] [] := by
  rw [nullable_eq]
  refine closureOf_induction (by simp) fun ns n hns h => ?_
  obtain ⟨p, hp, h⟩ := List.any_eq_true.mp h
  rw [Bool.and_eq_true, decide_eq_true_eq] at h
  obtain ⟨rfl, hrhs⟩ := h
  exact derives_of_production hp (derives_nil_of_allAmong hns hrhs)

theorem Rewrites.allAmong {α β : List Symbol} (h : g.Rewrites α β)
    (hβ : allAmong g.nullable β = true) : allAmong g.nullable α = true := by
  cases h with
  | expand hp u v =>
    simp only [allAmong_append, allAmong_cons, Bool.and_eq_true, List.contains_iff_mem] at hβ ⊢
    exact ⟨hβ.1.1, nullable_of_production hp hβ.1.2, hβ.2⟩

theorem Derives.allAmong {α β : List Symbol} (h : g.Derives α β)
    (hβ : allAmong g.nullable β = true) : allAmong g.nullable α = true := by
  induction h using Relation.ReflTransGen.head_induction_on with
  | refl => exact hβ
  | head hstep _ ih => exact hstep.allAmong ih

/-- The nullable nonterminals are those that derive nothing at all. -/
theorem mem_nullable_iff {n : Nonterminal} : n ∈ g.nullable ↔ g.Derives [.nonterminal n] [] := by
  refine ⟨derives_nil_of_nullable n, fun h => ?_⟩
  have hn := h.allAmong rfl
  rw [allAmong_cons, Bool.and_eq_true, List.contains_iff_mem] at hn
  exact hn.1

/-! ### What comes first -/

theorem begins_append {nullable : List Nonterminal} {first : List (Nonterminal × Kind)} {k : Kind}
    (u v : List Symbol) :
    begins nullable first k (u ++ v) = true ↔ begins nullable first k u = true ∨
      allAmong nullable u = true ∧ begins nullable first k v = true := by
  induction u with
  | nil => simp [begins, allAmong]
  | cons s u ih =>
    cases s with
    | terminal j => simp [begins, allAmong]
    | nonterminal n =>
      rw [List.cons_append, begins_cons, begins_cons, ih, allAmong_cons, Bool.and_eq_true,
        List.contains_iff_mem]
      tauto

theorem exists_derives_of_begins {s : List (Nonterminal × Kind)} {k : Kind}
    (h : ∀ b ∈ s, ∃ γ, g.Derives [.nonterminal b.1] (.terminal b.2 :: γ)) :
    ∀ {α : List Symbol}, begins g.nullable s k α = true → ∃ γ, g.Derives α (.terminal k :: γ)
  | .terminal j :: α, hα => by
      obtain rfl : j = k := of_decide_eq_true hα
      exact ⟨α, .refl _⟩
  | .nonterminal n :: α, hα => by
      rcases begins_cons.mp hα with hfirst | ⟨hnullable, hrest⟩
      · obtain ⟨γ, hγ⟩ := h _ hfirst
        exact ⟨γ ++ α, hγ.append (.refl α)⟩
      · obtain ⟨γ, hγ⟩ := exists_derives_of_begins h hrest
        exact ⟨γ, (derives_nil_of_nullable n hnullable).append hγ⟩

theorem exists_derives_of_first :
    ∀ b ∈ g.first, ∃ γ, g.Derives [.nonterminal b.1] (.terminal b.2 :: γ) := by
  rw [first_eq]
  refine closureOf_induction (by simp) ?_
  rintro s ⟨n, k⟩ hs h
  obtain ⟨p, hp, h⟩ := List.any_eq_true.mp h
  rw [Bool.and_eq_true, decide_eq_true_eq] at h
  obtain ⟨rfl, hrhs⟩ := h
  obtain ⟨γ, hγ⟩ := exists_derives_of_begins hs hrhs
  exact ⟨γ, derives_of_production hp hγ⟩

theorem Rewrites.begins {α β : List Symbol} {k : Kind} (h : g.Rewrites α β)
    (hβ : begins g.nullable g.first k β = true) : begins g.nullable g.first k α = true := by
  cases h with
  | expand hp u v =>
    rw [List.append_assoc, begins_append, begins_append] at hβ
    rw [begins_append, begins_cons]
    refine hβ.imp_right (And.imp_right ?_)
    exact Or.imp (first_of_production hp) (And.imp_left (nullable_of_production hp))

theorem Derives.begins {α β : List Symbol} {k : Kind} (h : g.Derives α β)
    (hβ : begins g.nullable g.first k β = true) : begins g.nullable g.first k α = true := by
  induction h using Relation.ReflTransGen.head_induction_on with
  | refl => exact hβ
  | head hstep _ ih => exact hstep.begins ih

/-- A token may begin a nonterminal if it begins a form that this derives. -/
theorem mem_first_iff {n : Nonterminal} {k : Kind} :
    (n, k) ∈ g.first ↔ ∃ γ, g.Derives [.nonterminal n] (.terminal k :: γ) := by
  refine ⟨exists_derives_of_first _, ?_⟩
  rintro ⟨γ, h⟩
  have hn := h.begins (begins_of_head (k := k) (s := .terminal k) rfl γ)
  exact (begins_cons.mp hn).resolve_right fun hrest => Bool.false_ne_true hrest.2

/-! ### What follows -/

/-- A lookahead comes right after the nonterminal in a form that some nonterminal derives; the end of
    the input comes after the forms of the start symbol. -/
def Follows (g : Grammar) (n : Nonterminal) : Lookahead → Prop
  | .token k => ∃ m α β, g.Derives [.nonterminal m] (α ++ .nonterminal n :: .terminal k :: β)
  | .endOfInput => ∃ α, g.Derives [.nonterminal g.start] (α ++ [.nonterminal n])

section Production

variable {p : Production} {n : Nonterminal} {u v : List Symbol}
  (hp : p ∈ g.productions) (hrhs : p.rhs = u ++ .nonterminal n :: v)

include hp hrhs

theorem Follows.of_heads {k : Kind} {γ : List Symbol} (hv : g.Derives v (.terminal k :: γ)) :
    g.Follows n (.token k) := by
  refine ⟨p.lhs, u, γ, derives_of_production hp ?_⟩
  rw [hrhs]
  exact (Derives.refl u).append ((Derives.refl [.nonterminal n]).append hv)

/-- Before symbols that derive nothing the last nonterminal takes the place of the production. -/
theorem derives_last (hv : g.Derives v []) {δ α β : List Symbol}
    (h : g.Derives δ (α ++ .nonterminal p.lhs :: β)) :
    g.Derives δ ((α ++ u) ++ .nonterminal n :: β) := by
  have hrewrite : g.Derives (α ++ .nonterminal p.lhs :: β) (α ++ (u ++ .nonterminal n :: v) ++ β) :=
    (hrhs ▸ Rewrites.expand hp α β).head (.refl _)
  have hvanish := hv.within (α ++ u ++ [.nonterminal n]) β
  simp only [List.append_assoc, List.nil_append, List.cons_append]
    at hrewrite hvanish ⊢
  exact (h.trans hrewrite).trans hvanish

theorem Follows.of_last (hv : g.Derives v []) {l : Lookahead} (h : g.Follows p.lhs l) :
    g.Follows n l := by
  cases l with
  | token k =>
    obtain ⟨m, α, β, h⟩ := h
    exact ⟨m, α ++ u, β, derives_last hp hrhs hv h⟩
  | endOfInput =>
    obtain ⟨α, h⟩ := h
    exact ⟨α ++ u, derives_last hp hrhs hv h⟩

end Production

theorem follows_of_follow : ∀ b ∈ g.follow, g.Follows b.1 b.2 := by
  rw [follow_eq]
  refine closureOf_induction ?_ fun s b hs h => ?_
  · intro b hb
    rw [List.mem_singleton.mp hb]
    exact ⟨[], .refl _⟩
  · obtain ⟨n, l⟩ := b
    obtain ⟨p, hp, h⟩ := List.any_eq_true.mp h
    obtain ⟨u, v, hrhs, h⟩ := followsIn_iff.mp h
    rcases h with hheads | ⟨hnullable, hafter⟩
    · cases l with
      | token k =>
        obtain ⟨γ, hγ⟩ := exists_derives_of_begins exists_derives_of_first hheads
        exact .of_heads hp hrhs hγ
      | endOfInput => cases hheads
    · exact .of_last hp hrhs (derives_nil_of_allAmong derives_nil_of_nullable hnullable)
        (hs _ (List.contains_iff_mem.mp hafter))

/-- Whether the lookahead may come next where the given symbols are left of a form, after which the
    input may have ended. -/
def Next (g : Grammar) (ended : Prop) (l : Lookahead) (rest : List Symbol) : Prop :=
  match l with
  | .token k => begins g.nullable g.first k rest = true
  | .endOfInput => allAmong g.nullable rest = true ∧ ended

theorem next_append {ended : Prop} {l : Lookahead} (u v : List Symbol) :
    g.Next ended l (u ++ v) ↔ g.Heads l u ∨ allAmong g.nullable u = true ∧ g.Next ended l v := by
  cases l with
  | token k => exact begins_append u v
  | endOfInput => simp [Next, Heads, allAmong_append, and_assoc]

theorem Rewrites.next {ended : Prop} {l : Lookahead} {α β : List Symbol} (h : g.Rewrites α β)
    (hβ : g.Next ended l β) : g.Next ended l α := by
  cases l with
  | token k => exact h.begins hβ
  | endOfInput => exact hβ.imp_left h.allAmong

/-- Whatever may come next after a nonterminal of the form is known to follow it. -/
def Covered (g : Grammar) (ended : Prop) (form : List Symbol) : Prop :=
  ∀ u n v l, form = u ++ .nonterminal n :: v → g.Next ended l v → (n, l) ∈ g.follow

/-- A nonterminal of the new form stands before the part that was rewritten, in it or after it. -/
theorem Covered.rewrites {ended : Prop} {α β : List Symbol} (hα : g.Covered ended α)
    (h : g.Rewrites α β) : g.Covered ended β := by
  cases h with
  | @expand p hp x y =>
    intro u n v l hsplit hnext
    rw [List.append_assoc] at hsplit
    rcases exists_split hsplit with ⟨w, rfl, rfl⟩ | ⟨w, rfl, hrest⟩
    · -- what comes next may begin the rest of the old form just as well
      have hbefore : g.Rewrites (w ++ .nonterminal p.lhs :: y) (w ++ (p.rhs ++ y)) := by
        simpa using Rewrites.expand hp w y
      exact hα u n (w ++ .nonterminal p.lhs :: y) l (by simp) (hbefore.next hnext)
    · rcases exists_split hrest with ⟨z, hrhs, rfl⟩ | ⟨z, rfl, rfl⟩
      · -- past nullable symbols it is what came after the nonterminal that was rewritten
        refine follow_of_production hp (followsIn_iff.mpr ⟨w, z, hrhs, ?_⟩)
        refine ((next_append z y).mp hnext).imp_right (And.imp_right fun hy => ?_)
        exact List.contains_iff_mem.mpr (hα x p.lhs y l rfl hy)
      · exact hα (x ++ .nonterminal p.lhs :: z) n v l (by simp) hnext

theorem covered_of_derives {m : Nonterminal} {form : List Symbol}
    (h : g.Derives [.nonterminal m] form) : g.Covered (m = g.start) form := by
  induction h with
  | tail _ hstep ih => exact ih.rewrites hstep
  | refl =>
    intro u n v l hsplit hnext
    obtain ⟨rfl, hcons⟩ | ⟨w, -, hnil⟩ := List.cons_eq_append_iff.mp hsplit
    · obtain ⟨hn, rfl⟩ := List.cons.inj hcons
      obtain rfl := Symbol.nonterminal.inj hn
      cases l with
      | token k => cases hnext
      | endOfInput => exact hnext.2 ▸ follow_start
    · simp at hnil

/-- The lookaheads found for a nonterminal are those that follow it. -/
theorem mem_follow_iff {n : Nonterminal} {l : Lookahead} : (n, l) ∈ g.follow ↔ g.Follows n l := by
  refine ⟨follows_of_follow _, fun h => ?_⟩
  cases l with
  | token k =>
    obtain ⟨m, α, β, h⟩ := h
    exact covered_of_derives h α n (.terminal k :: β) _ rfl (begins_of_head (s := .terminal k) rfl β)
  | endOfInput =>
    obtain ⟨α, h⟩ := h
    exact covered_of_derives h α n [] _ rfl ⟨rfl, rfl⟩

/-! ### The analysis -/

/-- For every start symbol and list of productions the rounds of the analysis come to an end, and the
    passes that go through the productions in order end with the same selections. Then a nonterminal is
    nullable if and only if it derives nothing at all, a token may begin it if and only if it begins a
    form that it derives, a token may follow it if and only if some nonterminal derives a form with the
    token right after it, and the end of the input may follow it if and only if the start symbol derives
    a form that ends in it. -/
theorem analysis_exact (g : Grammar) :
    (∀ more,
      saturate Nonterminal.all g.nullableRule (Nonterminal.all.length + 1 + more) [] = g.nullable ∧
      saturate firstDomain g.firstRule (firstDomain.length + 1 + more) [] = g.first ∧
      saturate followDomain g.followRule (followDomain.length + 1 + more)
        [(g.start, .endOfInput)] = g.follow) ∧
    (∀ more, g.analyse (Nonterminal.all.length + firstDomain.length + followDomain.length + more) =
      (⟨g.nullable, g.first⟩, g.follow)) ∧
    (∀ n, n ∈ g.nullable ↔ g.Derives [.nonterminal n] []) ∧
    (∀ n k, (n, k) ∈ g.first ↔ ∃ γ, g.Derives [.nonterminal n] (.terminal k :: γ)) ∧
    (∀ n k, (n, .token k) ∈ g.follow ↔
      ∃ m α β, g.Derives [.nonterminal m] (α ++ .nonterminal n :: .terminal k :: β)) ∧
    ∀ n, (n, .endOfInput) ∈ g.follow ↔
      ∃ α, g.Derives [.nonterminal g.start] (α ++ [.nonterminal n]) :=
  ⟨fun more => ⟨saturate_eq_closureOf [] more, saturate_eq_closureOf [] more,
      saturate_eq_closureOf _ more⟩,
    fun more => analyse_eq (Nat.le_add_right _ more), fun _ => mem_nullable_iff,
    fun _ _ => mem_first_iff, fun _ _ => mem_follow_iff, fun _ => mem_follow_iff⟩

end Grammar

end RecordSearch.Query
