import Mathlib.Logic.Relation
import RecordSearch.Proofs.Canonical
import RecordSearch.Proofs.Search.Evaluation
import RecordSearch.Proofs.Search.Meaning

/-! What the evaluator comes to. The evaluation of a tree is put together from the evaluations of a few
    of its children, each under flags of its own (`evaluate_eq`); where there are too few of them, data
    is cleared or left alone instead. In a compiled query there never are, and nothing but its
    operands is searched: terms without a comparison, and numbers under the one before them
    (`searches_of_compile`). -/

namespace RecordSearch.Search

open RecordSearch.Query (Tree Token Nonterminal Grammar compile compile_atMostFive suits_of_compile)
open RecordSearch.Query.Nonterminal

variable {δ : Type} {c c' : Comparator δ} {flags : Flags}

/-! ### The parts of a node -/

/-- The child of a node that wraps one, parentheses left out. -/
def wrapped : List Tree → Option Tree
  | [] => none
  | child :: rest => if child.isToken .lparen then rest.head? else some child

/-- The flags for what stands after a comparison. -/
def Flags.bound (flags : Flags) (comparison : Option Comparison) (operand : Tree) : Flags :=
  match comparison with
  | some op => if operand.isToken .number then flags.comparing op else flags
  | none => flags

/-- What is evaluated in a term, and under which flags. -/
def termPart (flags : Flags) : List Tree → Option (Flags × Tree)
  | [] => none
  | first :: rest =>
    if first.isToken .exclude then (wrapped rest).map (flags.negated, ·)
    else if first.label? = some comparison ∧ !rest.isEmpty then
      rest.head?.map fun operand => (flags.bound (comparisonOf first) operand, operand)
    else (wrapped (first :: rest)).map (flags, ·)

/-- What is evaluated in a tree, and under which flags; nothing if the tree is malformed. -/
def parts (flags : Flags) : Tree → Option (List (Flags × Tree))
  | .leaf token =>
    match token.kind with
    | .searchTerm | .number => some []
    | _ => none
  | .node label children =>
    match label with
    | .list => some ((children.filter fun t => !t.isEmpty).map (flags, ·))
    | .and | .or =>
      match children with
      | [lhs, _, rhs] => some [(flags, lhs), (flags, rhs)]
      | _ => none
    | .group =>
      match children with
      | [.leaf segment, _, below] => some [(flags.within segment.lexeme, below)]
      | _ => none
    | .term => (termPart flags children).map ([·])
    | .search | .searchType | .searchTerm | .comparison => (wrapped children).map fun t => [(flags, t)]

/-- What a tree does, put together from what its parts do. -/
def assemble (c : Comparator δ) (flags : Flags) : Tree → List (δ → δ) → δ → δ
  | .leaf token, _ => c.search flags token
  | .node .or _, [f, g] => c.join (Connective.or.under flags.exclude) f g
  | .node _ _, fs => conjoin c flags fs

/-- What a malformed tree does. -/
def giveUp (c : Comparator δ) : Tree → δ → δ
  | .leaf _ => c.clear
  | .node _ _ => id

theorem evaluateWrapper_eq (children : List Tree) :
    evaluateWrapper c flags children = ((wrapped children).map (evaluate c flags)).getD id := by
  cases children with
  | nil => rfl
  | cons child rest =>
    rw [evaluateWrapper_cons, wrapped]
    split
    · cases rest <;> rfl
    · rfl

theorem evaluateTerm_eq (children : List Tree) : evaluateTerm c flags children =
    ((termPart flags children).map fun p => evaluate c p.1 p.2).getD id := by
  cases children with
  | nil => rfl
  | cons first rest =>
    rw [evaluateTerm_cons, termPart]
    split
    · rw [evaluateWrapper_eq, Option.map_map]
      rfl
    · split
      · cases rest with
        | nil => rfl
        | cons operand others => cases comparisonOf first <;> rfl
      · rw [← evaluateWrapper_cons, evaluateWrapper_eq, Option.map_map]
        rfl

theorem evaluateItems_eq (children : List Tree) : evaluateItems c flags children =
    (children.filter fun t => !t.isEmpty).map (evaluate c flags) := by
  induction children with
  | nil => rfl
  | cons t ts ih => rw [evaluateItems_cons, ih, List.filter_cons]; cases t.isEmpty <;> rfl

/-- A tree is evaluated by its parts, and a malformed one not at all. -/
theorem evaluate_eq (c : Comparator δ) (flags : Flags) (t : Tree) : evaluate c flags t =
    match parts flags t with
    | some ps => assemble c flags t (ps.map fun p => evaluate c p.1 p.2)
    | none => giveUp c t := by
  cases t with
  | leaf token =>
    obtain ⟨kind, content, position⟩ := token
    cases kind <;> rfl
  | node label children =>
    cases label with
    | list =>
      change conjoin c flags (evaluateItems c flags children) = _
      rw [evaluateItems_eq]
      simp only [parts, assemble, List.map_map, Function.comp_def]
    | and | or => rcases children with _ | ⟨lhs, _ | ⟨_, _ | ⟨rhs, _ | _⟩⟩⟩ <;> rfl
    | group => rcases children with _ | ⟨_ | _, _ | ⟨_, _ | ⟨below, _ | _⟩⟩⟩ <;> rfl
    | term =>
      rw [evaluate_term, evaluateTerm_eq, parts]
      cases termPart flags children <;> rfl
    | search | searchType | searchTerm | comparison =>
      change evaluateWrapper c flags children = _
      rw [evaluateWrapper_eq, parts]
      cases wrapped children <;> rfl

theorem evaluate_eq_assemble {t : Tree} {ps : List (Flags × Tree)} (h : parts flags t = some ps) :
    evaluate c flags t = assemble c flags t (ps.map fun p => evaluate c p.1 p.2) := by
  rw [evaluate_eq, h]

/-! ### What is visited -/

/-- One tree is evaluated, under its flags, in the evaluation of another. -/
def Visits : Flags × Tree → Flags × Tree → Prop :=
  Relation.ReflTransGen fun a b => ∃ ps, parts a.1 a.2 = some ps ∧ b ∈ ps

/-- A token of a query that is to be searched, with the comparison that it is searched under. -/
inductive IsOperand (tokens : List Token) : Option Comparison → Token → Prop
  | term {token : Token} (present : token ∈ tokens) (token_is : token.kind = .searchTerm) :
      IsOperand tokens none token
  | number {sign token : Token} {op : Comparison} (adjacent : [sign, token] <:+: tokens)
      (sign_is : Comparison.ofKind sign.kind = some op) (token_is : token.kind = .number) :
      IsOperand tokens (some op) token

/-- What the evaluator may come to in a query: a phrase that is no comparison, before any is in
    force, or an operand. -/
inductive Expects (tokens : List Token) (flags : Flags) : Tree → Prop
  | phrase {t : Tree} {n : Nonterminal} (conforms : t.Conforms Grammar.query)
      (symbol_is : t.symbol = .nonterminal n) (no_comparison : n ≠ comparison)
      (unbound : flags.operator = none) (written : t.leaves <:+: tokens) : Expects tokens flags t
  | operand {token : Token} (h : IsOperand tokens flags.operator token) :
      Expects tokens flags (.leaf token)

section Steps

variable {tokens : List Token} {t : Tree} {children : List Tree}

theorem parts_operand {token : Token} (h : token.kind = .number ∨ token.kind = .searchTerm) :
    parts flags (.leaf token) = some [] := by
  rcases h with h | h <;> simp only [parts, h]

theorem IsOperand.kind_eq {operator : Option Comparison} {token : Token}
    (h : IsOperand tokens operator token) : token.kind = .number ∨ token.kind = .searchTerm := by
  cases h with
  | term _ token_is => exact .inr token_is
  | number _ _ token_is => exact .inl token_is

section Children

variable (below : ∀ t ∈ children, t.Conforms Grammar.query) (unbound : flags.operator = none)
  (written : Tree.leavesOf children <:+: tokens)

include below unbound written

theorem expects_child {n : Nonterminal} (ht : t ∈ children) (hsymbol : t.symbol = .nonterminal n)
    (hn : n ≠ comparison) : Expects tokens flags t :=
  .phrase (below t ht) hsymbol hn unbound ((Tree.leaves_infix_leavesOf ht).trans written)

omit below in
theorem expects_word {token : Token} (htoken : .leaf token ∈ children)
    (hkind : token.kind = .searchTerm) : Expects tokens flags (.leaf token) := by
  have hpresent : token ∈ (Tree.leaf token).leaves := by simp
  refine .operand (unbound ▸ .term ?_ hkind)
  exact ((Tree.leaves_infix_leavesOf htoken).trans written).subset hpresent

omit below in
/-- After a comparison an operand is evaluated, and a number under it. -/
theorem parts_compare {sign operand : Token} (hchildren : children =
      [.node comparison [.leaf sign], .leaf operand]) (hsign : sign.kind.isComparison = true)
    (hoperand : operand.kind = .number ∨ operand.kind = .searchTerm) :
    ∃ ps, parts flags (.node term children) = some ps ∧ ∀ p ∈ ps, Expects tokens p.1 p.2 := by
  subst hchildren
  obtain ⟨op, hop⟩ := exists_comparison_of_kind hsign
  have hcomparison : comparisonOf (.node comparison [.leaf sign]) = some op := hop
  refine ⟨[(flags.bound (some op) (.leaf operand), .leaf operand)], ?_, ?_⟩
  · rw [← hcomparison]
    rfl
  · rw [List.forall_mem_singleton]
    rcases hoperand with hnumber | hword
    · have htoken : (Tree.leaf operand).isToken .number = true := decide_eq_true hnumber
      rw [Flags.bound, htoken, if_pos rfl]
      exact .operand (.number (by simpa using written) hop hnumber)
    · have htoken : (Tree.leaf operand).isToken .number = false := by
        simp [isToken_leaf, hword]
      rw [Flags.bound, htoken, if_neg Bool.false_ne_true]
      exact expects_word unbound written (by simp) hword

/-- In a node of any form there is something to evaluate, and it is expected. -/
theorem parts_of_form {label : Nonterminal} (form : Tree.Form label children)
    (hlabel : label ≠ comparison) :
    ∃ ps, parts flags (.node label children) = some ps ∧ ∀ p ∈ ps, Expects tokens p.1 p.2 := by
  have hchild {u : Tree} {n : Nonterminal} (hu : u ∈ children) (hsymbol : u.symbol = .nonterminal n)
      (hn : n ≠ comparison) : Expects tokens flags u :=
    expects_child below unbound written hu hsymbol hn
  cases form with
  | none => exact ⟨[], rfl, by simp⟩
  | @more first rest first_is rest_is =>
    -- an empty rest is left out, but then nothing is to be shown of it
    refine ⟨_, rfl, fun p hp => ?_⟩
    obtain ⟨u, hu, rfl⟩ := List.mem_map.mp hp
    rcases List.mem_pair.mp (List.mem_of_mem_filter hu) with rfl | rfl
    · exact hchild (by simp) first_is (by decide)
    · exact hchild (by simp) rest_is (by decide)
  | @only _ _ child label_is child_is no_list no_comparison =>
    have hpart : parts flags (.node label [child]) = some [(flags, child)] := by
      have htoken := isToken_of_symbol child_is
      rcases label_is with rfl | rfl | rfl <;> simp [parts, termPart, wrapped, htoken]
    exact ⟨_, hpart, List.forall_mem_singleton.mpr (hchild (by simp) child_is no_comparison)⟩
  | @and lhs rhs keyword lhs_is rhs_is | @or lhs rhs keyword lhs_is rhs_is =>
    refine ⟨[(flags, lhs), (flags, rhs)], rfl, fun p hp => ?_⟩
    rcases List.mem_pair.mp hp with rfl | rfl
    · exact hchild (by simp) lhs_is (by decide)
    · exact hchild (by simp) rhs_is (by decide)
  | @group segment colon inner inner_is =>
    refine ⟨[(flags.within segment.lexeme, inner)], rfl, List.forall_mem_singleton.mpr ?_⟩
    exact expects_child below unbound written (by simp) inner_is (by decide)
  | @exclude mark operand mark_is operand_is =>
    have hpart : parts flags (.node term [.leaf mark, operand]) = some [(flags.negated, operand)] := by
      have hmark : (Tree.leaf mark).isToken .exclude = true := decide_eq_true mark_is
      simp [parts, termPart, wrapped, hmark, isToken_of_symbol operand_is]
    refine ⟨_, hpart, List.forall_mem_singleton.mpr ?_⟩
    exact expects_child below unbound written (by simp) operand_is (by decide)
  | @compare operator operand operator_is operand_is =>
    obtain ⟨signs, rfl⟩ := Tree.exists_node_of_symbol operator_is
    cases (below _ List.mem_cons_self).form with
    | only label_is => simp at label_is
    | @operator sign sign_is => exact parts_compare unbound written rfl sign_is operand_is
  | @word token token_is =>
    have hpart : parts flags (.node searchTerm [.leaf token]) = some [(flags, .leaf token)] := by
      have hparen : (Tree.leaf token).isToken .lparen = false := by
        simp [isToken_leaf, token_is]
      simp [parts, wrapped, hparen]
    exact ⟨_, hpart, List.forall_mem_singleton.mpr (expects_word unbound written (by simp) token_is)⟩
  | @parens opening closing inner opening_is inner_is =>
    have hpart : parts flags (.node searchTerm [.leaf opening, inner, .leaf closing]) =
        some [(flags, inner)] := by
      have hparen : (Tree.leaf opening).isToken .lparen = true := decide_eq_true opening_is
      simp [parts, wrapped, hparen]
    exact ⟨_, hpart, List.forall_mem_singleton.mpr (hchild (by simp) inner_is (by decide))⟩
  | operator => exact absurd rfl hlabel

end Children

/-- What is expected has parts, and they are expected. -/
theorem Expects.parts (h : Expects tokens flags t) :
    ∃ ps, parts flags t = some ps ∧ ∀ p ∈ ps, Expects tokens p.1 p.2 := by
  cases h with
  | operand h => exact ⟨[], parts_operand h.kind_eq, by simp⟩
  | phrase conforms symbol_is no_comparison unbound written =>
    obtain ⟨children, rfl⟩ := Tree.exists_node_of_symbol symbol_is
    cases conforms with
    | node production below =>
      rw [Tree.leaves_node] at written
      exact parts_of_form below unbound written (Tree.form_of_production production) no_comparison

/-- So is everything that the evaluator comes to. -/
theorem Expects.visits {a b : Flags × Tree} (h : Expects tokens a.1 a.2) (hvisits : Visits a b) :
    Expects tokens b.1 b.2 := by
  induction hvisits with
  | refl => exact h
  | tail _ hstep ih =>
    obtain ⟨ps, hps, hmem⟩ := hstep
    obtain ⟨qs, hqs, hexpects⟩ := ih.parts
    obtain rfl : ps = qs := Option.some.inj (hps.symm.trans hqs)
    exact hexpects _ hmem

theorem Expects.isOperand {token : Token} (h : Expects tokens flags (.leaf token)) :
    IsOperand tokens flags.operator token := by
  cases h with
  | phrase _ symbol_is => cases symbol_is
  | operand h => exact h

end Steps

/-! ### Comparators that differ elsewhere -/

theorem mem_of_wrapped {children : List Tree} {t : Tree} (h : wrapped children = some t) :
    t ∈ children := by
  cases children with
  | nil => cases h
  | cons child rest =>
    rw [wrapped] at h
    split at h
    · exact List.mem_cons_of_mem child (List.mem_of_mem_head? h)
    · exact Option.some.inj h ▸ List.mem_cons_self

theorem mem_of_termPart {children : List Tree} {p : Flags × Tree}
    (h : termPart flags children = some p) : p.2 ∈ children := by
  cases children with
  | nil => cases h
  | cons first rest =>
    rw [termPart] at h
    split at h
    · obtain ⟨t, ht, rfl⟩ := Option.map_eq_some_iff.mp h
      exact List.mem_cons_of_mem first (mem_of_wrapped ht)
    · split at h
      · obtain ⟨t, ht, rfl⟩ := Option.map_eq_some_iff.mp h
        exact List.mem_cons_of_mem first (List.mem_of_mem_head? ht)
      · obtain ⟨t, ht, rfl⟩ := Option.map_eq_some_iff.mp h
        exact mem_of_wrapped ht

/-- The parts of a tree are some of its children. -/
theorem mem_of_parts {t : Tree} {ps : List (Flags × Tree)} {p : Flags × Tree}
    (h : parts flags t = some ps) (hp : p ∈ ps) : p.2 ∈ t.children := by
  cases t with
  | leaf token =>
    rw [parts] at h
    split at h <;> cases h <;> cases hp
  | node label children =>
    cases label with
    | list =>
      cases h
      obtain ⟨t, ht, rfl⟩ := List.mem_map.mp hp
      exact List.mem_of_mem_filter ht
    | and | or =>
      simp only [parts] at h
      split at h <;> cases h
      rcases List.mem_pair.mp hp with rfl | rfl <;> simp [Tree.children]
    | group =>
      simp only [parts] at h
      split at h <;> cases h
      obtain rfl := List.mem_singleton.mp hp
      simp [Tree.children]
    | term =>
      obtain ⟨q, hq, rfl⟩ := Option.map_eq_some_iff.mp h
      exact List.mem_singleton.mp hp ▸ mem_of_termPart hq
    | search | searchType | searchTerm | comparison =>
      obtain ⟨t, ht, rfl⟩ := Option.map_eq_some_iff.mp h
      exact List.mem_singleton.mp hp ▸ mem_of_wrapped ht

theorem conjoin_congr (hjoin : c.join = c'.join) (fs : List (δ → δ)) :
    conjoin c flags fs = conjoin c' flags fs := by
  induction fs with
  | nil => rfl
  | cons f fs ih =>
    cases fs with
    | nil => rfl
    | cons g gs =>
      change c.join _ f (conjoin c flags (g :: gs)) = c'.join _ f (conjoin c' flags (g :: gs))
      rw [ih, hjoin]

theorem assemble_node_congr (hjoin : c.join = c'.join) (label : Nonterminal) (children : List Tree)
    (fs : List (δ → δ)) :
    assemble c flags (.node label children) fs = assemble c' flags (.node label children) fs := by
  unfold assemble
  split
  · contradiction
  · rw [hjoin]
  · exact conjoin_congr hjoin _

/-- Two comparators that join alike and search operands alike do the same with what is expected. -/
theorem Expects.evaluate_congr {tokens : List Token} (hjoin : c.join = c'.join)
    (hsearch : ∀ flags token, IsOperand tokens flags.operator token →
      c.search flags token = c'.search flags token) :
    ∀ {t : Tree} {flags : Flags}, Expects tokens flags t → evaluate c flags t = evaluate c' flags t
  | .leaf token, flags, h => by
      have hps : Search.parts flags (.leaf token) = some [] := parts_operand h.isOperand.kind_eq
      rw [evaluate_eq_assemble hps, evaluate_eq_assemble hps]
      exact hsearch flags token h.isOperand
  | .node label children, flags, h => by
      -- the parts are children, so the induction is on the size of the tree
      obtain ⟨ps, hps, hexpects⟩ := h.parts
      have hsame : ps.map (fun p => evaluate c p.1 p.2) = ps.map fun p => evaluate c' p.1 p.2 := by
        refine List.map_congr_left fun p hp => ?_
        have hchild : p.2 ∈ children := mem_of_parts hps hp
        exact (hexpects p hp).evaluate_congr hjoin hsearch
      rw [evaluate_eq_assemble hps, evaluate_eq_assemble hps, hsame]
      exact assemble_node_congr hjoin label children _
termination_by t => sizeOf t
decreasing_by
  have := List.sizeOf_lt_of_mem hchild
  simp only [Tree.node.sizeOf_spec]
  omega

/-! ### What operands keep -/

/-- There is something to evaluate in a node, unless it is a list of empty items. -/
theorem isEmpty_of_parts {label : Nonterminal} {children : List Tree}
    (h : parts flags (.node label children) = some []) :
    label = list ∧ ∀ t ∈ children, t.isEmpty = true := by
  cases label with
  | list =>
    have hnone := List.map_eq_nil_iff.mp (Option.some.inj h)
    exact ⟨rfl, fun t ht => by simpa using List.filter_eq_nil_iff.mp hnone t ht⟩
  | and | or | group =>
    simp only [parts] at h
    split at h <;> cases h
  | term | search | searchType | searchTerm | comparison =>
    obtain ⟨_, _, hsome⟩ := Option.map_eq_some_iff.mp h
    cases hsome

/-- In a query only an empty list has nothing to evaluate. -/
theorem Expects.eq_nil_of_parts {tokens : List Token} {label : Nonterminal} {children : List Tree}
    (h : Expects tokens flags (.node label children))
    (hparts : Search.parts flags (.node label children) = some []) : label = list ∧ children = [] := by
  obtain ⟨rfl, hempty⟩ := isEmpty_of_parts hparts
  cases h with
  | phrase conforms =>
    cases conforms.form with
    | none => exact ⟨rfl, rfl⟩
    | @more first _ first_is =>
      -- the first item of a list is a search, and no production leaves that empty
      obtain ⟨children, rfl⟩ := Tree.exists_node_of_symbol first_is
      obtain rfl : children = [] := List.isEmpty_iff.mp (hempty _ List.mem_cons_self)
      cases conforms with
      | node _ below => cases (below _ List.mem_cons_self).form
    | only label_is => simp at label_is

section Keeps

variable {P : (δ → δ) → Prop} (hjoin : ∀ connective f g, P f → P g → P (c.join connective f g))

include hjoin

theorem conjoin_keeps : ∀ {fs : List (δ → δ)}, fs ≠ [] → (∀ f ∈ fs, P f) → P (conjoin c flags fs)
  | [f], _, hfs => hfs f (List.mem_singleton_self f)
  | f :: g :: fs, _, hfs =>
    hjoin _ f _ (hfs f List.mem_cons_self) (conjoin_keeps (List.cons_ne_nil g fs)
      fun h hmem => hfs h (List.mem_cons_of_mem f hmem))

theorem assemble_node_keeps {label : Nonterminal} {children : List Tree} {fs : List (δ → δ)}
    (hne : fs ≠ []) (hfs : ∀ f ∈ fs, P f) : P (assemble c flags (.node label children) fs) := by
  unfold assemble
  split
  · contradiction
  · exact hjoin _ _ _ (hfs _ (by simp)) (hfs _ (by simp))
  · exact conjoin_keeps hjoin hne hfs

/-- What connectives keep, and each operand and each empty list that is come to, a query keeps. -/
theorem Expects.evaluate_keeps {tokens : List Token} : ∀ {t : Tree} {flags : Flags},
    Expects tokens flags t →
    (∀ flags' token, Visits (flags, t) (flags', .leaf token) →
      IsOperand tokens flags'.operator token → P (c.search flags' token)) →
    (∀ flags', Visits (flags, t) (flags', .node list []) → P id) → P (evaluate c flags t)
  | .leaf token, flags, h, hsearch, _ => by
      rw [evaluate_eq_assemble (parts_operand h.isOperand.kind_eq)]
      exact hsearch flags token .refl h.isOperand
  | .node label children, flags, h, hsearch, hrest => by
      obtain ⟨ps, hps, hexpects⟩ := h.parts
      rw [evaluate_eq_assemble hps]
      by_cases hnil : ps = []
      · obtain ⟨rfl, rfl⟩ := h.eq_nil_of_parts (hnil ▸ hps)
        rw [hnil]
        exact hrest flags .refl
      · refine assemble_node_keeps hjoin (mt List.map_eq_nil_iff.mp hnil) fun f hf => ?_
        obtain ⟨p, hp, rfl⟩ := List.mem_map.mp hf
        have hchild : p.2 ∈ children := mem_of_parts hps hp
        have hstep {q : Flags × Tree} (hq : Visits (p.1, p.2) q) :
            Visits (flags, .node label children) q := .head ⟨ps, hps, hp⟩ hq
        exact (hexpects p hp).evaluate_keeps (fun flags' token hq => hsearch flags' token (hstep hq))
          fun flags' hq => hrest flags' (hstep hq)
termination_by t => sizeOf t
decreasing_by
  have := List.sizeOf_lt_of_mem hchild
  simp only [Tree.node.sizeOf_spec]
  omega

end Keeps

/-! ### Compiled queries -/

/-- Nothing malformed is come to in a compiled query, and the leaves that are come to are its
    operands: a term is searched without a comparison, a number under the one right before it. What
    else a comparator would find does not matter. -/
theorem searches_of_compile {recovery : Bool} {query : String} {tree : Tree}
    (h : compile recovery query = .ok tree) {flags : Flags} (hflags : flags.operator = none) :
    (∀ flags' t, Visits (flags, tree) (flags', t) → ∃ ps, parts flags' t = some ps ∧
      ∀ {δ : Type} (c : Comparator δ),
        evaluate c flags' t = assemble c flags' t (ps.map fun p => evaluate c p.1 p.2)) ∧
    (∀ flags' token, Visits (flags, tree) (flags', .leaf token) →
      IsOperand tree.leaves flags'.operator token) ∧
    ∀ {δ : Type} (c c' : Comparator δ), c.join = c'.join →
      (∀ flags' token, IsOperand tree.leaves flags'.operator token →
        c.search flags' token = c'.search flags' token) →
      evaluate c flags tree = evaluate c' flags tree := by
  obtain ⟨hroot, hconforms, -⟩ := (suits_of_compile h).1
  have hexpects : Expects tree.leaves flags tree :=
    .phrase hconforms hroot (by decide) hflags List.infix_rfl
  refine ⟨fun flags' t hvisits => ?_, fun flags' token hvisits => ?_, fun c c' hjoin hsearch => ?_⟩
  · obtain ⟨ps, hps, -⟩ := (hexpects.visits hvisits).parts
    exact ⟨ps, hps, fun c => evaluate_eq_assemble hps⟩
  · exact (hexpects.visits hvisits).isOperand
  · exact hexpects.evaluate_congr hjoin hsearch

/-- The number in `!(n:>5)` is searched below `n`, under the comparison `>` before it. -/
theorem searches_of_compile_atMostFive : compile false "!(n:>5)" = .ok Tree.atMostFive ∧
    Flags.root.operator = none ∧
    ∃ flags token, Visits (Flags.root, Tree.atMostFive) (flags, .leaf token) ∧
      token.kind = .number ∧ flags = ⟨some "n", true, some .gt⟩ ∧
      IsOperand Tree.atMostFive.leaves flags.operator token := by
  have hvisits : Visits (Flags.root, Tree.atMostFive)
      (⟨some "n", true, some .gt⟩, .leaf ⟨.number, .number 5, 5⟩) := by
    iterate 10 refine .head ⟨_, rfl, .head _⟩ ?_
    exact .refl
  exact ⟨compile_atMostFive, rfl, _, _, hvisits, rfl, rfl,
    (searches_of_compile compile_atMostFive rfl).2.1 _ _ hvisits⟩

end RecordSearch.Search
