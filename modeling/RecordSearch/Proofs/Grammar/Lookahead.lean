import RecordSearch.Proofs.Grammar.Closure
import RecordSearch.Proofs.Grammar.Derivation

/-! What the analysis of a grammar promises about its trees. A conforming tree over nothing has a
    nullable root, the first token of any other may begin its root, and wherever a tree stands
    among the children of a production the next token is a lookahead that may follow its root
    (`follow_of_siblings`). -/

namespace RecordSearch.Query

namespace Grammar

variable {g : Grammar}

theorem mem_firstDomain (n : Nonterminal) (k : Kind) : (n, k) ∈ firstDomain := by
  simp [firstDomain, Nonterminal.mem_all, Kind.mem_all]

theorem mem_followDomain (n : Nonterminal) (l : Lookahead) : (n, l) ∈ followDomain := by
  simp [followDomain, Nonterminal.mem_all, Lookahead.mem_all]

theorem mem_followOf {follow : List (Nonterminal × Lookahead)} {n : Nonterminal} {l : Lookahead} :
    l ∈ followOf follow n ↔ (n, l) ∈ follow := by
  simp [followOf, Lookahead.mem_all]

/-! ### The rules of the three selections -/

/-- A nonterminal is nullable if all symbols of a production of it are. -/
def nullableRule (g : Grammar) (ns : List Nonterminal) (n : Nonterminal) : Bool :=
  g.productions.any fun p => p.lhs = n && allAmong ns p.rhs

/-- A token begins a nonterminal if it begins a production of it. -/
def firstRule (g : Grammar) (s : List (Nonterminal × Kind)) : Nonterminal × Kind → Bool
  | (n, k) => g.productions.any fun p => p.lhs = n && begins g.nullable s k p.rhs

/-- A lookahead follows a nonterminal if it comes after it in a production. -/
def followRule (g : Grammar) (s : List (Nonterminal × Lookahead)) : Nonterminal × Lookahead → Bool
  | (n, l) => g.productions.any fun p =>
      followsIn g.nullable g.first (s.contains (p.lhs, l)) n l p.rhs

theorem nullable_eq : g.nullable = closureOf Nonterminal.all g.nullableRule [] := rfl

theorem first_eq : g.first = closureOf firstDomain g.firstRule [] := rfl

theorem follow_eq : g.follow = closureOf followDomain g.followRule [(g.start, .endOfInput)] := rfl

theorem nullable_of_production {p : Production} (hp : p ∈ g.productions)
    (h : allAmong g.nullable p.rhs = true) : p.lhs ∈ g.nullable := by
  refine mem_closureOf_of_rule (Nonterminal.mem_all _) ?_
  simp only [List.any_eq_true, Bool.and_eq_true, decide_eq_true_eq]
  exact ⟨p, hp, rfl, h⟩

theorem first_of_production {p : Production} {k : Kind} (hp : p ∈ g.productions)
    (h : begins g.nullable g.first k p.rhs = true) : (p.lhs, k) ∈ g.first := by
  refine mem_closureOf_of_rule (mem_firstDomain _ _) ?_
  simp only [List.any_eq_true, Bool.and_eq_true, decide_eq_true_eq]
  exact ⟨p, hp, rfl, h⟩

theorem follow_of_production {p : Production} {n : Nonterminal} {l : Lookahead}
    (hp : p ∈ g.productions)
    (h : followsIn g.nullable g.first (g.follow.contains (p.lhs, l)) n l p.rhs = true) :
    (n, l) ∈ g.follow := by
  refine mem_closureOf_of_rule (mem_followDomain _ _) ?_
  simp only [List.any_eq_true]
  exact ⟨p, hp, h⟩

theorem follow_start : (g.start, .endOfInput) ∈ g.follow :=
  mem_closureOf_of_seed (mem_followDomain _ _) (by simp)

/-! ### Trees over nothing -/

theorem allAmong_cons (ns : List Nonterminal) (n : Nonterminal) (rest : List Symbol) :
    allAmong ns (.nonterminal n :: rest) = (ns.contains n && allAmong ns rest) := rfl

theorem allAmong_of_leavesOf_nil : ∀ {ts : List Tree},
    (∀ t ∈ ts, t.leaves = [] → ∃ n ∈ g.nullable, t.symbol = .nonterminal n) →
    Tree.leavesOf ts = [] → allAmong g.nullable (ts.map Tree.symbol) = true
  | [], _, _ => rfl
  | t :: ts, h, hnil => by
      rw [Tree.leavesOf_cons, List.append_eq_nil_iff] at hnil
      obtain ⟨n, hn, hsymbol⟩ := h t List.mem_cons_self hnil.1
      have hts := allAmong_of_leavesOf_nil (fun u hu => h u (List.mem_cons_of_mem t hu)) hnil.2
      rw [List.map_cons, hsymbol, allAmong_cons, hts]
      simpa using hn

theorem nullable_of_leaves_nil {t : Tree} (h : t.Conforms g) (hnil : t.leaves = []) :
    ∃ n ∈ g.nullable, t.symbol = .nonterminal n := by
  induction h with
  | leaf token => simp at hnil
  | node production _ ih =>
    rw [Tree.leaves_node] at hnil
    have hrhs := allAmong_of_leavesOf_nil (fun t ht => ih t ht) hnil
    exact ⟨_, nullable_of_production production hrhs, rfl⟩

theorem allAmong_nullable {ts : List Tree} (h : ∀ t ∈ ts, t.Conforms g)
    (hnil : Tree.leavesOf ts = []) : allAmong g.nullable (ts.map Tree.symbol) = true :=
  allAmong_of_leavesOf_nil (fun t ht => nullable_of_leaves_nil (h t ht)) hnil

/-! ### The first token of a tree -/

/-- Whether a token of kind `k` may begin what one symbol derives. -/
def Begins (g : Grammar) (k : Kind) : Symbol → Prop
  | .terminal j => j = k
  | .nonterminal n => (n, k) ∈ g.first

theorem begins_cons {nullable : List Nonterminal} {first : List (Nonterminal × Kind)} {k : Kind}
    {n : Nonterminal} {rest : List Symbol} :
    begins nullable first k (.nonterminal n :: rest) = true ↔
      (n, k) ∈ first ∨ n ∈ nullable ∧ begins nullable first k rest = true := by
  simp [begins]

theorem begins_of_head {k : Kind} {s : Symbol} (h : g.Begins k s) (rest : List Symbol) :
    begins g.nullable g.first k (s :: rest) = true := by
  cases s with
  | terminal j => simpa [begins, Begins] using h
  | nonterminal n => exact begins_cons.mpr (Or.inl h)

theorem begins_of_leavesOf : ∀ {ts : List Tree} {token : Token} {rest : List Token},
    (∀ t ∈ ts, t.Conforms g) →
    (∀ t ∈ ts, ∀ rest, t.leaves = token :: rest → g.Begins token.kind t.symbol) →
    Tree.leavesOf ts = token :: rest →
    begins g.nullable g.first token.kind (ts.map Tree.symbol) = true
  | [], _, _, _, _, hcons => by simp at hcons
  | t :: ts, token, rest, hconforms, h, hcons => by
      rw [Tree.leavesOf_cons] at hcons
      rw [List.map_cons]
      cases hleaves : t.leaves with
      | cons x xs =>
        rw [hleaves, List.cons_append, List.cons.injEq] at hcons
        obtain ⟨rfl, -⟩ := hcons
        exact begins_of_head (h t List.mem_cons_self xs hleaves) _
      | nil =>
        obtain ⟨n, hn, hsymbol⟩ := nullable_of_leaves_nil (hconforms t List.mem_cons_self) hleaves
        rw [hleaves, List.nil_append] at hcons
        rw [hsymbol]
        refine begins_cons.mpr (Or.inr ⟨hn, ?_⟩)
        exact begins_of_leavesOf (fun u hu => hconforms u (List.mem_cons_of_mem t hu))
          (fun u hu => h u (List.mem_cons_of_mem t hu)) hcons

theorem begins_of_leaves {t : Tree} (h : t.Conforms g) : ∀ {token : Token} {rest : List Token},
    t.leaves = token :: rest → g.Begins token.kind t.symbol := by
  induction h with
  | leaf x =>
    intro token rest hcons
    rw [Tree.leaves_leaf, List.cons.injEq] at hcons
    rw [Tree.symbol, Begins, hcons.1]
  | node production below ih =>
    intro token rest hcons
    rw [Tree.leaves_node] at hcons
    exact first_of_production production
      (begins_of_leavesOf below (fun t ht _ hleaves => ih t ht hleaves) hcons)

/-! ### The token after a tree -/

/-- Whether the lookahead may begin what a sequence derives; the end of the input never does. -/
def Heads (g : Grammar) (l : Lookahead) (rest : List Symbol) : Prop :=
  match l with
  | .token k => begins g.nullable g.first k rest = true
  | .endOfInput => False

/-- The beginnings that the analysis finds. -/
def beginnings (g : Grammar) : Beginnings := ⟨g.nullable, g.first⟩

theorem comesNext_iff {after : Bool} {l : Lookahead} {rest : List Symbol} :
    g.beginnings.comesNext after l rest = true ↔
      g.Heads l rest ∨ allAmong g.nullable rest = true ∧ after = true := by
  cases l <;> simp [Beginnings.comesNext, Heads, beginnings, and_comm, or_comm]

theorem followsIn_cons {after : Bool} {n : Nonterminal} {l : Lookahead} (s : Symbol)
    (rest : List Symbol) : followsIn g.nullable g.first after n l (s :: rest) =
      (followsIn g.nullable g.first after n l rest ||
        s = .nonterminal n && g.beginnings.comesNext after l rest) := rfl

/-- What comes after a nonterminal in a production comes from the symbols after it, or if these are
    nullable from after the production. -/
theorem followsIn_iff {after : Bool} {n : Nonterminal} {l : Lookahead} {rhs : List Symbol} :
    followsIn g.nullable g.first after n l rhs = true ↔ ∃ u v, rhs = u ++ .nonterminal n :: v ∧
      (g.Heads l v ∨ allAmong g.nullable v = true ∧ after = true) := by
  constructor
  · intro h
    induction rhs with
    | nil => cases h
    | cons s rhs ih =>
      rw [followsIn_cons, Bool.or_eq_true, Bool.and_eq_true, decide_eq_true_eq, comesNext_iff] at h
      rcases h with hlater | ⟨rfl, hhere⟩
      · obtain ⟨u, v, rfl, h⟩ := ih hlater
        exact ⟨s :: u, v, rfl, h⟩
      · exact ⟨[], rhs, rfl, hhere⟩
  · rintro ⟨u, v, rfl, h⟩
    induction u with
    | nil =>
      rw [List.nil_append, followsIn_cons, comesNext_iff.mpr h, decide_eq_true rfl, Bool.and_self,
        Bool.or_true]
    | cons s u ih => rw [List.cons_append, followsIn_cons, ih, Bool.true_or]

/-- Among the children of a production, the next token may follow the tree before it; past the
    last child that is the token after the production. -/
theorem follow_of_siblings {p : Production} {n : Nonterminal} {u : List Symbol} {ts : List Tree}
    {rest : List Token} (hp : p ∈ g.productions)
    (hrhs : p.rhs = u ++ .nonterminal n :: ts.map Tree.symbol) (hts : ∀ t ∈ ts, t.Conforms g)
    (hrest : (p.lhs, Lookahead.of rest.head?) ∈ g.follow) :
    (n, Lookahead.of (Tree.leavesOf ts ++ rest).head?) ∈ g.follow := by
  refine follow_of_production hp (followsIn_iff.mpr ⟨u, _, hrhs, ?_⟩)
  cases hleaves : Tree.leavesOf ts with
  | nil => exact .inr ⟨allAmong_nullable hts hleaves, List.contains_iff_mem.mpr hrest⟩
  | cons token tokens =>
    exact .inl (begins_of_leavesOf hts
      (fun t ht _ hcons => begins_of_leaves (hts t ht) hcons) hleaves)

end Grammar

end RecordSearch.Query
