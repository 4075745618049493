import RecordSearch.Proofs.Search.Evaluation
import RecordSearch.Proofs.Search.Meaning
import RecordSearch.Proofs.Search.Writing
import RecordSearch.Search.Engine

/-! Phrases replaced in a query. Whatever a phrase stands in, be it scopes, negations or connectives, the
    evaluator knows it only by what it does to data and by a look at its root (`Replaced.alike`). So a
    term in parentheses may be negated twice anywhere in a query (`evaluate_negated_twice`). -/

namespace RecordSearch.Search

open RecordSearch.Query (Tree Token Kind Nonterminal Grammar parseStrict
  isDerivation_of_parseStrict parseStrict_of_isDerivation)
open RecordSearch.Query.Nonterminal

/-! ### Trees that differ at one place -/

/-- One tree with an occurrence of `s` in it replaced by `s'` is the other. -/
inductive Replaced (s s' : Tree) : Tree → Tree → Prop
  | here : Replaced s s' s s'
  | inside {label : Nonterminal} {child child' : Tree} {after : List Tree} (before : List Tree)
      (replaced : Replaced s s' child child') :
      Replaced s s' (.node label (before ++ child :: after)) (.node label (before ++ child' :: after))

theorem Comparator.relates_self {δ : Type} (c : Comparator δ) : c.Relates c Eq where
  rest := rfl
  clear := rfl
  search _ _ := rfl
  join _ _ _ _ _ hf hg := by rw [hf, hg]

namespace Replaced

variable {s s' t t' : Tree} (h : Replaced s s' t t')

include h

theorem symbol_eq (hs : s.symbol = s'.symbol) : t.symbol = t'.symbol := by
  cases h with
  | here => exact hs
  | inside => rfl

/-- A phrase may be replaced by another of its category. -/
theorem conforms {g : Grammar} (hs : s.symbol = s'.symbol) (ht : t.Conforms g)
    (hconforms : s.Conforms g → s'.Conforms g) : t'.Conforms g := by
  induction h with
  | here => exact hconforms ht
  | @inside label child child' after before hchild ih =>
    obtain ⟨production, below⟩ := Tree.conforms_node.mp ht
    rw [List.map_append, List.map_cons, hchild.symbol_eq hs, ← List.map_cons, ← List.map_append]
      at production
    refine Tree.conforms_node.mpr ⟨production, fun u hu => ?_⟩
    rcases List.mem_append.mp hu with hu | hu
    · exact below u (List.mem_append_left _ hu)
    · rcases List.mem_cons.mp hu with rfl | hu
      · exact ih (below child (List.mem_append_right _ List.mem_cons_self))
      · exact below u (List.mem_append_right _ (List.mem_cons_of_mem child hu))

theorem leaves : ∃ before after, t.leaves = before ++ s.leaves ++ after ∧
    t'.leaves = before ++ s'.leaves ++ after := by
  induction h with
  | here => exact ⟨[], [], by simp, by simp⟩
  | @inside _ _ _ right left _ ih =>
    obtain ⟨before, after, hleaves, hleaves'⟩ := ih
    refine ⟨Tree.leavesOf left ++ before, after ++ Tree.leavesOf right, ?_, ?_⟩
    · simp [hleaves]
    · simp [hleaves']

/-- Trees that differ at one place, by phrases that are alike, are alike. -/
theorem alike {δ δ' : Type} {c : Comparator δ} {c' : Comparator δ'} {R : (δ → δ) → (δ' → δ') → Prop}
    (hc : c.Relates c' R) (hs : Alike c c' R s s') : Alike c c' R t t' := by
  induction h with
  | here => exact hs
  | @inside label child child' after before _ ih =>
    have hchildren : List.Forall₂ (Alike c c' R) (before ++ child :: after) (before ++ child' :: after) :=
      List.rel_append (forall₂_alike hc before) (.cons ih (forall₂_alike hc after))
    have hnode := fun flags => evaluate_node_relates hc hchildren flags label
    cases before with
    | cons => exact ⟨hnode, rfl, rfl, rfl, rfl⟩
    | nil =>
      refine ⟨hnode, rfl, rfl, rfl, ?_⟩
      exact congrArg (Option.bind · fun token => Comparison.ofKind token.kind) ih.token_eq

end Replaced

/-! ### Negations -/

/-- A pair of parentheses. -/
structure Parens where
  opening : Token
  closing : Token
  opening_is : opening.kind = .lparen
  closing_is : closing.kind = .rparen

/-- A mark of negation. -/
structure Exclusion where
  mark : Token
  mark_is : mark.kind = .exclude

/-- A query in parentheses. -/
def Parens.around (p : Parens) (query : Tree) : Tree :=
  .node searchTerm [.leaf p.opening, query, .leaf p.closing]

/-- The term `( query )`. -/
def Parens.term (p : Parens) (query : Tree) : Tree := .node .term [p.around query]

/-- The term `!( query )`. -/
def Parens.negated (p : Parens) (mark : Exclusion) (query : Tree) : Tree :=
  .node .term [.leaf mark.mark, p.around query]

/-- The query that consists of a single term or group. -/
def alone (t : Tree) : Tree := listOf (some (.node search [.node searchType [t]]))

section Terms

variable {δ : Type} {c : Comparator δ} {flags : Flags} {p : Parens} {mark : Exclusion} {t : Tree}

theorem evaluate_around : evaluate c flags (p.around t) = evaluate c flags t :=
  evaluate_parens p.opening_is

theorem evaluate_term_around : evaluate c flags (p.term t) = evaluate c flags t := by
  rw [Parens.term, evaluate_only (.inr (.inr rfl)) rfl, evaluate_around]

theorem evaluate_negated : evaluate c flags (p.negated mark t) = evaluate c flags.negated t := by
  rw [Parens.negated, evaluate_exclude mark.mark_is rfl, evaluate_around]

theorem evaluate_alone {n : Nonterminal} (ht : t.symbol = .nonterminal n) :
    evaluate c flags (alone t) = evaluate c flags t := by
  rw [alone, listOf, evaluate_more rfl, evaluate_only (.inl rfl) rfl,
    evaluate_only (.inr (.inl rfl)) ht]
  rfl

theorem isPhrase_leaf {token : Token} {k : Kind} (h : token.kind = k) :
    IsPhrase (.terminal k) (.leaf token) := ⟨congrArg Query.Symbol.terminal h, .leaf token⟩

theorem isPhrase_around (h : IsPhrase (.nonterminal list) t) :
    IsPhrase (.nonterminal searchTerm) (p.around t) :=
  isPhrase_node (by decide)
    (.cons (isPhrase_leaf p.opening_is) (.cons h (.cons (isPhrase_leaf p.closing_is) .nil)))

theorem isPhrase_negated (h : IsPhrase (.nonterminal list) t) :
    IsPhrase (.nonterminal term) (p.negated mark t) :=
  isPhrase_node (by decide) (.cons (isPhrase_leaf mark.mark_is) (.cons (isPhrase_around h) .nil))

theorem isPhrase_alone {n : Nonterminal} (hn : n = term ∨ n = group)
    (h : IsPhrase (.nonterminal n) t) : IsPhrase (.nonterminal list) (alone t) := by
  have hsearchType : IsPhrase (.nonterminal searchType) (.node searchType [t]) := by
    rcases hn with rfl | rfl <;> exact isPhrase_node (by decide) (.cons h .nil)
  exact isPhrase_listOf (isPhrase_node (by decide) (.cons hsearchType .nil))

/-- What is in parentheses in a query is a query. -/
theorem isPhrase_of_around (h : (p.around t).Conforms Grammar.query) :
    IsPhrase (.nonterminal list) t := by
  have hinner := (Tree.conforms_node.mp h).2 t (by simp)
  cases h.form with
  | parens _ inner_is => exact ⟨inner_is, hinner⟩

/-- The term `!(!( query ))`. -/
def negatedTwice (outer inner : Parens) (first second : Exclusion) (query : Tree) : Tree :=
  outer.negated first (alone (inner.negated second query))

theorem Flags.negated_negated (flags : Flags) : flags.negated.negated = flags := by
  rw [Flags.negated, Flags.negated, Bool.not_not]

/-- A term that is negated twice does what the term does, and neither of them is a comparison. -/
theorem alike_negatedTwice {outer inner : Parens} {first second : Exclusion} :
    Alike c c Eq (p.term t) (negatedTwice outer inner first second t) where
  relates flags := by
    rw [evaluate_term_around, negatedTwice, evaluate_negated, evaluate_alone rfl, evaluate_negated,
      Flags.negated_negated]
  isEmpty_eq := rfl
  token_eq := rfl
  label_eq := rfl
  comparison_eq := (congrArg Comparison.ofKind first.mark_is).symm

end Terms

/-- A term `( query )`, wherever it stands in a tree, may be replaced by `!(!( query ))`: whatever the
    comparator and the flags are, and with any indexes and from any working set, the members and the scores
    that result are the same. If the tree is that of some tokens, the other one is that of the tokens
    with those of the term replaced. -/
theorem evaluate_negated_twice {p outer inner : Parens} {first second : Exclusion} {query t t' : Tree}
    (h : Replaced (p.term query) (negatedTwice outer inner first second query) t t') :
    (∀ {α : Type} [Arithmetic α] (s : Setup) (indexes : Indexes) (records : List Record)
      (flags : Flags) (w : WorkingSet α),
      evaluate (s.comparator indexes records) flags t' w =
        evaluate (s.comparator indexes records) flags t w) ∧
    ∀ tokens, parseStrict tokens = .ok t → ∃ before after,
      tokens = before ++ (p.term query).leaves ++ after ∧
      parseStrict (before ++ (negatedTwice outer inner first second query).leaves ++ after) = .ok t' := by
  constructor
  · intro α _ s indexes records flags w
    generalize (s.comparator indexes records : Comparator (WorkingSet α)) = c
    exact congrFun ((h.alike c.relates_self alike_negatedTwice).relates flags).symm w
  · intro tokens htokens
    obtain ⟨hroot, hconforms, hleaves⟩ := isDerivation_of_parseStrict htokens
    obtain ⟨before, after, hbefore, hafter⟩ := h.leaves
    refine ⟨before, after, hleaves ▸ hbefore, hafter ▸ parseStrict_of_isDerivation ⟨?_, ?_, rfl⟩⟩
    · exact (h.symbol_eq rfl).symm.trans hroot
    · refine h.conforms rfl hconforms fun hterm => ?_
      have haround := (Tree.conforms_node.mp hterm).2 _ (List.mem_singleton_self _)
      have hinner : IsPhrase (.nonterminal list) (alone (inner.negated second query)) :=
        isPhrase_alone (.inl rfl) (isPhrase_negated (isPhrase_of_around haround))
      exact (isPhrase_negated hinner).conforms

/-- In `!(n:(>5))` what stands below `n` may be negated twice, which gives `!(n:!(!(>5)))`. -/
theorem evaluate_negated_twice_large :
    let p : Parens := ⟨.ofKind .lparen 4, .ofKind .rparen 7, rfl, rfl⟩
    let mark : Exclusion := ⟨.ofKind .exclude 0, rfl⟩
    let large := alone (.node .term [.node comparison [.leaf (.ofKind .gt 5)],
      .leaf ⟨.number, .number 5, 6⟩])
    let around (t : Tree) : Tree := alone (p.negated mark (alone (.node group
      [.leaf (.ofText .searchTerm "n" 2), .leaf (.ofKind .groupTerminator 3), t])))
    let once := around (p.term large)
    let thrice := around (negatedTwice p p mark mark large)
    let records : List Record := [.object [("n", .number (.integer 7))]]
    Replaced (p.term large) (negatedTwice p p mark mark large) once thrice ∧
      parseStrict once.leaves = .ok once ∧
      evaluate (.binary records) .root thrice (.full 1 : WorkingSet Rat) =
        evaluate (.binary records) .root once (.full 1) ∧
      ∃ before after, once.leaves = before ++ (p.term large).leaves ++ after ∧
        parseStrict (before ++ (negatedTwice p p mark mark large).leaves ++ after) = .ok thrice := by
  intro p mark large around once thrice records
  have hreplaced : Replaced (p.term large) (negatedTwice p p mark mark large) once thrice := by
    refine .inside [] (.inside [] (.inside [] (.inside [.leaf mark.mark] (.inside [.leaf p.opening] ?_))))
    exact .inside [] (.inside [] (.inside [] (.inside [_, _] .here)))
  have honce : parseStrict once.leaves = .ok once := by
    refine parseStrict_of_isDerivation ⟨rfl, ?_, rfl⟩
    simp [once, around, large, alone, listOf, Parens.negated, Parens.term, Parens.around, p, mark,
      Grammar.query, Tree.symbol, Token.ofKind, Token.ofText]
  obtain ⟨hsame, hparse⟩ := evaluate_negated_twice hreplaced
  exact ⟨hreplaced, honce, hsame ⟨.binary, [], false, .reset⟩ [] records .root (.full 1),
    hparse once.leaves honce⟩

end RecordSearch.Search
