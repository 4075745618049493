import Mathlib.Logic.Relation
import RecordSearch.Query.Tree

/-! What a grammar derives. A sentential form is rewritten by replacing one nonterminal with the
    right side of one of its productions; a sentence is a sequence of kinds that the start symbol
    derives in this way. A tree conforms to a grammar when each inner node was made by a production.
    Both views agree: `isSentence_iff` says that the sentences are what stands below the conforming
    trees of the start symbol. -/

namespace RecordSearch.Query

namespace Grammar

/-- One nonterminal of a sentential form gives way to the right side of a production of it. -/
inductive Rewrites (g : Grammar) : List Symbol → List Symbol → Prop
  | expand {p : Production} (hp : p ∈ g.productions) (u v : List Symbol) :
      Rewrites g (u ++ .nonterminal p.lhs :: v) (u ++ p.rhs ++ v)

/-- Any number of rewritings. -/
def Derives (g : Grammar) : List Symbol → List Symbol → Prop := Relation.ReflTransGen g.Rewrites

/-- The start symbol derives a sequence of kinds. -/
def IsSentence (g : Grammar) (kinds : List Kind) : Prop :=
  g.Derives [.nonterminal g.start] (kinds.map .terminal)

end Grammar

/-- Every inner node of the tree is a production of the grammar. -/
inductive Tree.Conforms (g : Grammar) : Tree → Prop
  | leaf (token : Token) : Conforms g (.leaf token)
  | node {label : Nonterminal} {children : List Tree}
      (production : ⟨label, children.map Tree.symbol⟩ ∈ g.productions)
      (below : ∀ t ∈ children, Conforms g t) : Conforms g (.node label children)

@[simp] theorem Tree.conforms_leaf {g : Grammar} (token : Token) :
    (Tree.leaf token).Conforms g := .leaf token

@[simp] theorem Tree.conforms_node {g : Grammar} {label : Nonterminal} {children : List Tree} :
    (Tree.node label children).Conforms g ↔
      ⟨label, children.map Tree.symbol⟩ ∈ g.productions ∧ ∀ t ∈ children, t.Conforms g := by
  constructor
  · intro h
    cases h with
    | node production below => exact ⟨production, below⟩
  · rintro ⟨production, below⟩
    exact .node production below

/-- A tree of the start symbol over the given tokens that conforms to the grammar. -/
structure Grammar.IsDerivation (g : Grammar) (tokens : List Token) (t : Tree) : Prop where
  root : t.symbol = .nonterminal g.start
  conforms : t.Conforms g
  leaves : t.leaves = tokens

/-! ### Leaves of several trees -/

@[simp] theorem Tree.leavesOf_nil : Tree.leavesOf [] = [] := by simp [Tree.leavesOf]

@[simp] theorem Tree.leavesOf_cons (t : Tree) (ts : List Tree) :
    Tree.leavesOf (t :: ts) = t.leaves ++ Tree.leavesOf ts := by simp [Tree.leavesOf]

@[simp] theorem Tree.leavesOf_append (ts us : List Tree) :
    Tree.leavesOf (ts ++ us) = Tree.leavesOf ts ++ Tree.leavesOf us := by
  induction ts with
  | nil => simp
  | cons t ts ih => simp [ih]

@[simp] theorem Tree.leaves_leaf (token : Token) : (Tree.leaf token).leaves = [token] := by
  simp [Tree.leaves]

@[simp] theorem Tree.leaves_node (label : Nonterminal) (children : List Tree) :
    (Tree.node label children).leaves = Tree.leavesOf children := by simp [Tree.leaves]

/-- The leaves of each of several trees stand together among those of all. -/
theorem Tree.leaves_infix_leavesOf {t : Tree} {ts : List Tree} (h : t ∈ ts) :
    t.leaves <:+: Tree.leavesOf ts := by
  obtain ⟨before, after, rfl⟩ := List.append_of_mem h
  rw [Tree.leavesOf_append, Tree.leavesOf_cons, ← List.append_assoc]
  exact List.infix_append _ _ _

theorem Tree.leavesOf_map_leaf (tokens : List Token) :
    Tree.leavesOf (tokens.map .leaf) = tokens := by
  induction tokens with
  | nil => simp
  | cons token tokens ih => simp [ih]

namespace Grammar

variable {g : Grammar}

/-! ### Derivations under a context -/

theorem Derives.refl (α : List Symbol) : g.Derives α α := Relation.ReflTransGen.refl

theorem Rewrites.head {α β γ : List Symbol} (h : g.Rewrites α β) (h' : g.Derives β γ) :
    g.Derives α γ := Relation.ReflTransGen.head h h'

theorem Rewrites.within {α β : List Symbol} (h : g.Rewrites α β) (u v : List Symbol) :
    g.Rewrites (u ++ α ++ v) (u ++ β ++ v) := by
  cases h with
  | expand hp u' v' =>
    have := Rewrites.expand hp (u ++ u') (v' ++ v)
    simpa only [List.append_assoc, List.cons_append] using this

theorem Derives.within {α β : List Symbol} (h : g.Derives α β) (u v : List Symbol) :
    g.Derives (u ++ α ++ v) (u ++ β ++ v) := by
  induction h with
  | refl => exact .refl _
  | tail _ hs ih => exact ih.tail (hs.within u v)

theorem Derives.append {α α' β β' : List Symbol} (h : g.Derives α α') (h' : g.Derives β β') :
    g.Derives (α ++ β) (α' ++ β') := by
  have hl : g.Derives (α ++ β) (α' ++ β) := by simpa using h.within [] β
  have hr : g.Derives (α' ++ β) (α' ++ β') := by simpa using h'.within α' []
  exact hl.trans hr

/-! ### Trees and derivations -/

/-- Trees that each derive what stands below them do so together. -/
theorem derives_leavesOf : ∀ {ts : List Tree},
    (∀ t ∈ ts, g.Derives [t.symbol] (t.leaves.map fun x => .terminal x.kind)) →
    g.Derives (ts.map Tree.symbol) ((Tree.leavesOf ts).map fun x => .terminal x.kind)
  | [], _ => Derives.refl []
  | t :: ts, h => by
      have ht := h t List.mem_cons_self
      have hts := derives_leavesOf fun u hu => h u (List.mem_cons_of_mem t hu)
      simpa using ht.append hts

/-- A conforming tree derives what stands below it from its root. -/
theorem derives_leaves {t : Tree} (h : t.Conforms g) :
    g.Derives [t.symbol] (t.leaves.map fun x => .terminal x.kind) := by
  induction h with
  | leaf token => simpa [Tree.symbol] using Derives.refl _
  | node production _ ih =>
    have hstep : g.Rewrites [.nonterminal _] _ := Rewrites.expand production [] []
    have hbelow := derives_leavesOf ih
    rw [Tree.leaves_node]
    exact hstep.head (by simpa using hbelow)

/-- What derives a sequence of tokens is the row of roots of conforming trees over them. -/
theorem exists_trees {α : List Symbol} {tokens : List Token}
    (h : g.Derives α (tokens.map fun x => .terminal x.kind)) :
    ∃ ts : List Tree, ts.map Tree.symbol = α ∧ (∀ t ∈ ts, t.Conforms g) ∧
      Tree.leavesOf ts = tokens := by
  induction h using Relation.ReflTransGen.head_induction_on with
  | refl =>
    refine ⟨tokens.map .leaf, ?_, ?_, Tree.leavesOf_map_leaf tokens⟩
    · simp [Tree.symbol]
    · intro t ht
      obtain ⟨token, -, rfl⟩ := List.mem_map.mp ht
      exact .leaf token
  | head hstep _ ih =>
    obtain ⟨ts, hsymbols, hconforms, hleaves⟩ := ih
    obtain @⟨p, hp, u, v⟩ := hstep
    -- the trees of the production become the children of one node
    obtain ⟨us, vs, rfl, hus, rfl⟩ := List.map_eq_append_iff.mp hsymbols
    obtain ⟨as, bs, rfl, rfl, hbs⟩ := List.map_eq_append_iff.mp hus
    refine ⟨as ++ .node p.lhs bs :: vs, by simp [Tree.symbol], ?_, by simpa using hleaves⟩
    intro t ht
    rcases List.mem_append.mp ht with ha | hnv
    · exact hconforms t (by simp [ha])
    · rcases List.mem_cons.mp hnv with rfl | hv
      · exact .node (hbs ▸ hp) fun c hc => hconforms c (by simp [hc])
      · exact hconforms t (by simp [hv])

/-- The sentences are what stands below the derivation trees. -/
theorem isSentence_iff {tokens : List Token} :
    g.IsSentence (tokens.map Token.kind) ↔ ∃ t, g.IsDerivation tokens t := by
  have hkinds : (tokens.map Token.kind).map Symbol.terminal =
      tokens.map fun x => .terminal x.kind := by simp
  constructor
  · intro h
    rw [IsSentence, hkinds] at h
    obtain ⟨ts, hsymbols, hconforms, hleaves⟩ := exists_trees h
    obtain ⟨t, rfl, hroot⟩ := List.map_eq_singleton_iff.mp hsymbols
    exact ⟨t, hroot, hconforms t (by simp), by simpa using hleaves⟩
  · rintro ⟨t, hroot, hconforms, rfl⟩
    rw [IsSentence, hkinds, ← hroot]
    exact derives_leaves hconforms

end Grammar

end RecordSearch.Query
