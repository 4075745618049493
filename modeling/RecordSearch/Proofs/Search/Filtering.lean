import RecordSearch.Proofs.Search.Evaluation
import RecordSearch.Proofs.Search.Meaning

/-! Filtering agrees with the plain meaning. The evaluator never forms a complement: under an odd
    number of negations it turns connectives round and lets each term drop what matches. Still a tree
    keeps the members that satisfy it, or under odd negation those that do not
    (`agrees_of_conforms`), and `evaluate_binary` says so for whole queries. -/

namespace RecordSearch.Search

open RecordSearch.Query (Tree Token Nonterminal Grammar)
open RecordSearch.Query.Nonterminal

variable {α : Type}

/-- A working set over some records. -/
structure WorkingSet.Over (records : List Record) (w : WorkingSet α) : Prop where
  scores_length : w.scores.length = records.length
  members_lt : ∀ id ∈ w.members, id < records.length

/-- Keeps the members whose record passes a test, or with `exclude` those whose record does not. -/
def select (records : List Record) (exclude : Bool) (test : Record → Bool) (w : WorkingSet α) :
    WorkingSet α := w.retain fun id => (records[id]?).any test != exclude

variable {records : List Record} {w : WorkingSet α}

theorem over_full [Arithmetic α] (records : List Record) :
    (.full records.length : WorkingSet α).Over records where
  scores_length := List.length_replicate
  members_lt _ hid := List.mem_range.mp hid

theorem over_retain (hw : w.Over records) (keep : Nat → Bool) : (w.retain keep).Over records where
  scores_length := hw.scores_length
  members_lt id hid := hw.members_lt id (List.mem_of_mem_filter hid)

/-! ### Members that are retained -/

theorem retain_congr {keep keep' : Nat → Bool} (h : ∀ id ∈ w.members, keep id = keep' id) :
    w.retain keep = w.retain keep' := by
  rw [WorkingSet.retain, WorkingSet.retain, List.filter_congr h]

theorem retain_retain (keep keep' : Nat → Bool) :
    (w.retain keep).retain keep' = w.retain fun id => keep id && keep' id := by
  simp only [WorkingSet.retain, List.filter_filter, Bool.and_comm]

theorem any_of_member (hw : w.Over records) {id : Nat} (hid : id ∈ w.members) :
    ∃ record, ∀ test : Record → Bool, (records[id]?).any test = test record := by
  have hlt := hw.members_lt id hid
  refine ⟨records[id], fun test => ?_⟩
  rw [List.getElem?_eq_getElem hlt, Option.any_some]

/-- Selections agree when the tests do on every record. -/
theorem select_congr (hw : w.Over records) {exclude exclude' : Bool} {test test' : Record → Bool}
    (h : ∀ record, (test record != exclude) = (test' record != exclude')) :
    select records exclude test w = select records exclude' test' w := by
  refine retain_congr fun id hid => ?_
  obtain ⟨record, hrecord⟩ := any_of_member hw hid
  rw [hrecord, hrecord, h]

/-- To drop what passes a test is to keep what does not. -/
theorem select_eq_kept (hw : w.Over records) (exclude : Bool) (test : Record → Bool) :
    select records exclude test w = select records false (fun record => test record != exclude) w :=
  select_congr hw fun _ => (Bool.bne_false _).symm

theorem hasMember_retain (hw : w.Over records) {keep : Nat → Bool} {id : Nat}
    (hid : id ∈ w.members) : (w.retain keep).hasMember id = keep id := by
  have hlt : id < w.scores.length := hw.scores_length ▸ hw.members_lt id hid
  rw [Bool.eq_iff_iff, WorkingSet.hasMember, Bool.and_eq_true, decide_eq_true_iff,
    List.contains_iff_mem, WorkingSet.retain, List.mem_filter]
  exact ⟨fun h => h.2.2, fun h => ⟨hlt, hid, h⟩⟩

/-! ### Operands joined -/

/-- What is done to every working set over the records is a selection. -/
def Selects (records : List Record) (exclude : Bool) (test : Record → Bool)
    (f : WorkingSet α → WorkingSet α) : Prop :=
  ∀ w : WorkingSet α, w.Over records → f w = select records exclude test w

/-- Turning a connective round under a negation negates what it joins. -/
theorem keeps_under (connective : Connective) (exclude l r : Bool) :
    Comparator.keeps (connective.under exclude) (l != exclude) (r != exclude) =
      (Comparator.keeps connective l r != exclude) := by
  cases connective <;> cases exclude <;> cases l <;> cases r <;> rfl

/-- Operands one after the other keep what both keep, and side by side what either keeps. -/
theorem joinMembers_eq_retain {exclude : Bool} {p q : Record → Bool}
    {f g : WorkingSet α → WorkingSet α} (hf : Selects records exclude p f)
    (hg : Selects records exclude q g) (hw : w.Over records) :
    ∀ connective, Comparator.joinMembers connective f g w =
      w.retain fun id => Comparator.keeps connective ((records[id]?).any p != exclude)
        ((records[id]?).any q != exclude)
  | .and => by
      rw [Comparator.joinMembers, hf w hw, select, hg _ (over_retain hw _), select, retain_retain]
      rfl
  | .or => by
      refine retain_congr fun id hid => ?_
      rw [hf w hw, hg w hw, select, select, hasMember_retain hw hid, hasMember_retain hw hid]
      rfl

/-- What every working set passes unchanged keeps what passes any test that all records do. -/
theorem selects_id {exclude : Bool} {test : Record → Bool}
    (htest : ∀ record, (test record != exclude) = true) : Selects (α := α) records exclude test id := by
  intro w hw
  have hall : ∀ id ∈ w.members, ((records[id]?).any test != exclude) = true := fun id hid => by
    obtain ⟨record, hrecord⟩ := any_of_member hw hid
    rw [hrecord, htest]
  rw [select, WorkingSet.retain, List.filter_eq_self.mpr hall]
  rfl

theorem selects_join {exclude : Bool} {p q : Record → Bool} {f g : WorkingSet α → WorkingSet α}
    (hf : Selects records exclude p f) (hg : Selects records exclude q g)
    (connective : Connective) :
    Selects records exclude (fun record => Comparator.keeps connective (p record) (q record))
      (Comparator.joinMembers (connective.under exclude) f g) := by
  intro w hw
  rw [joinMembers_eq_retain hf hg hw, select]
  refine retain_congr fun id hid => ?_
  obtain ⟨record, hrecord⟩ := any_of_member hw hid
  rw [hrecord, hrecord, hrecord, keeps_under]

/-! ### Trees -/

/-- What a tree does to the records is what it means, under either parity of negations. -/
def Agrees (α : Type) (records : List Record) (t : Tree) : Prop :=
  ∀ scope exclude, Selects (α := α) records exclude (satisfies t scope)
    (evaluate (Comparator.binary records) ⟨scope, exclude, none⟩ t)

/-- A term keeps the members that pass its test. -/
theorem selects_search (scope : Option String) (exclude : Bool) (operator : Option Comparison)
    (term : Token) :
    Selects (α := α) records exclude (atScope (TermTest.of term operator).value scope)
      ((Comparator.binary records).search ⟨scope, exclude, operator⟩ term) := by
  intro w _
  rw [← record_eq_atScope]
  rfl

/-- Only lists may be empty. -/
theorem isEmpty_of_conforms {t : Tree} {n : Nonterminal} (ht : t.Conforms Grammar.query)
    (hsymbol : t.symbol = .nonterminal n) (hn : n ≠ list) : t.isEmpty = false := by
  obtain ⟨children, rfl⟩ := Tree.exists_node_of_symbol hsymbol
  have hform := ht.form
  cases hform with
  | none => exact absurd rfl hn
  | _ => rfl

theorem agrees_compare {operator : Tree} {operand : Token}
    (hconforms : operator.Conforms Grammar.query)
    (hoperator : operator.symbol = .nonterminal comparison)
    (hoperand : operand.kind = .number ∨ operand.kind = .searchTerm)
    (hplain : IsPlain (.node term [operator, .leaf operand])) :
    Agrees α records (.node term [operator, .leaf operand]) := by
  obtain ⟨children, rfl⟩ := Tree.exists_node_of_symbol hoperator
  cases hconforms.form with
  | only label_is => simp at label_is
  | @operator token token_is =>
    obtain ⟨order, horder⟩ := exists_comparison_of_kind token_is
    intro scope exclude
    rw [satisfies_compare]
    rcases hoperand with hnumber | hword
    · obtain ⟨x, hcontent, hx⟩ := hplain.numbers operand (.inside (by simp) .here) hnumber
      have hpasses : passes token operand = stands order x := by
        simp only [passes, hnumber, horder, Token.number, hcontent]
      rw [evaluate_number horder hnumber, hpasses, ← value_of_number hcontent hx]
      exact selects_search scope exclude (some order) operand
    · have hpasses : passes token operand = mentions operand.lexeme := by
        simp only [passes, hword]
      rw [evaluate_compared_word horder hword, hpasses, ← value_of_term]
      exact selects_search scope exclude none operand

theorem agrees_more {first rest : Tree} (hne : first.isEmpty = false)
    (hrest : rest.symbol = .nonterminal list) (hfirst : Agrees α records first)
    (hmore : rest.isEmpty = false → Agrees α records rest) :
    Agrees α records (.node list [first, rest]) := by
  intro scope exclude
  rw [evaluate_more hne, satisfies_more]
  cases hempty : rest.isEmpty with
  | false => exact selects_join (hfirst scope exclude) (hmore hempty scope exclude) .and
  | true =>
    obtain ⟨children, rfl⟩ := Tree.exists_node_of_symbol hrest
    obtain rfl : children = [] := List.isEmpty_iff.mp hempty
    simp only [satisfies_none, Bool.and_true]
    exact hfirst scope exclude

/-- Every phrase of a plain query agrees with its meaning under either parity of negations, except
    that nothing is dropped for an empty list under an odd one. -/
theorem agrees_of_conforms {t : Tree} (ht : t.Conforms Grammar.query) :
    ∀ {n : Nonterminal}, t.symbol = .nonterminal n → n ≠ comparison → IsPlain t →
      t.isEmpty = false → Agrees α records t := by
  induction ht with
  | leaf token => intro n hsymbol; cases hsymbol
  | @node label children production conforms ih =>
    intro n hsymbol hcomparison hplain hempty
    obtain rfl := Query.Symbol.nonterminal.inj hsymbol
    -- a child that is not a list is never empty, so it agrees by induction
    have hchild : ∀ {child : Tree} {m : Nonterminal}, child ∈ children →
        child.symbol = .nonterminal m → m ≠ list → m ≠ comparison → Agrees α records child :=
      fun hmem hm hlist hcmp => ih _ hmem hm hcmp (hplain.child hmem)
        (isEmpty_of_conforms (conforms _ hmem) hm hlist)
    cases Tree.form_of_production production with
    | none => cases hempty
    | @more first rest first_is rest_is =>
      have hne := isEmpty_of_conforms (conforms first (by simp)) first_is (by decide)
      have hfirst := hchild (by simp) first_is (by decide) (by decide)
      exact agrees_more hne rest_is hfirst fun hrest =>
        ih rest (by simp) rest_is (by decide) (hplain.child (by simp)) hrest
    | only label_is child_is no_list no_comparison =>
      intro scope exclude
      rw [evaluate_only label_is child_is, satisfies_only label_is child_is]
      exact hchild (by simp) child_is no_list no_comparison scope exclude
    | and lhs_is rhs_is =>
      intro scope exclude
      have hlhs := hchild (by simp) lhs_is (by decide) (by decide) scope exclude
      have hrhs := hchild (by simp) rhs_is (by decide) (by decide) scope exclude
      rw [evaluate_and, satisfies_and]
      exact selects_join hlhs hrhs .and
    | or lhs_is rhs_is =>
      intro scope exclude
      have hlhs := hchild (by simp) lhs_is (by decide) (by decide) scope exclude
      have hrhs := hchild (by simp) rhs_is (by decide) (by decide) scope exclude
      rw [evaluate_or, satisfies_or]
      exact selects_join hlhs hrhs .or
    | @group segment colon body body_is =>
      intro scope exclude
      have hwithin : Flags.within segment.lexeme ⟨scope, exclude, none⟩ =
          ⟨some (extend scope segment.lexeme), exclude, none⟩ := by cases scope <;> rfl
      rw [evaluate_group, hwithin, satisfies_group]
      exact hchild (by simp) body_is (by decide) (by decide) _ exclude
    | exclude mark_is operand_is =>
      intro scope exclude w hw
      have hoperand := hchild (by simp) operand_is (by decide) (by decide) scope (!exclude) w hw
      rw [evaluate_exclude mark_is operand_is, satisfies_exclude]
      refine hoperand.trans (select_congr hw fun record => ?_)
      rw [Bool.bne_not, Bool.not_bne]
    | compare operator_is operand_is =>
      exact agrees_compare (conforms _ (by simp)) operator_is operand_is hplain
    | @word token token_is =>
      intro scope exclude
      rw [evaluate_word token_is, satisfies_word, ← value_of_term]
      exact selects_search scope exclude none token
    | @parens opening closing inner opening_is inner_is =>
      intro scope exclude
      have hinner : inner.isEmpty = false := hplain.parens _ _ _ .here
      rw [evaluate_parens opening_is, satisfies_parens]
      exact ih inner (by simp) inner_is (by decide) (hplain.child (by simp)) hinner scope exclude
    | operator => exact absurd rfl hcomparison

/-! ### Whole queries -/

/-- The empty query keeps every member. -/
theorem select_none (hw : w.Over records) (scope : Option String) :
    select records false (satisfies (.node list []) scope) w = w := by
  rw [satisfies_none]
  exact (selects_id (fun _ => rfl) w hw).symm

/-- Evaluating a query with the binary comparator keeps the members that satisfy it, in their order,
    and leaves the scores alone. -/
theorem evaluate_binary {tokens : List Token} {t : Tree}
    (ht : Grammar.query.IsDerivation tokens t) (hplain : IsPlain t) (hw : w.Over records)
    (scope : Option String) :
    evaluate (Comparator.binary records) ⟨scope, false, none⟩ t w =
      ⟨w.members.filter fun id => (records[id]?).any (satisfies t scope), w.scores⟩ := by
  have hselect : evaluate (Comparator.binary records) ⟨scope, false, none⟩ t w =
      select records false (satisfies t scope) w := by
    cases hempty : t.isEmpty with
    | false => exact agrees_of_conforms ht.conforms ht.root (by decide) hplain hempty scope false w hw
    | true =>
      obtain ⟨children, rfl⟩ := Tree.exists_node_of_symbol ht.root
      obtain rfl : children = [] := List.isEmpty_iff.mp hempty
      exact (congrFun evaluate_none w).trans (select_none hw scope).symm
  rw [hselect, select, WorkingSet.retain]
  simp only [Bool.bne_false]

theorem isPlain_atMostFive : IsPlain Tree.atMostFive where
  parens opening inner closing h := by
    simp only [Tree.atMostFive, occurs_leaf, occurs_node, List.mem_cons, List.not_mem_nil, or_false,
      exists_eq_or_imp, exists_eq_left, Tree.node.injEq, List.cons.injEq, reduceCtorEq, false_and,
      and_false, false_or, true_and, and_true, exists_false] at h
    rw [h.2.1]
    rfl
  numbers token h hkind := by
    simp [Tree.atMostFive, occurs_leaf, occurs_node] at h
    rcases h with rfl | rfl | (rfl | rfl | rfl | rfl) | rfl
    all_goals first | exact ⟨5, rfl, by decide⟩ | cases hkind

theorem evaluate_binary_atMostFive :
    evaluate (Comparator.binary
        [.object [("n", .number (.integer 7))], .object [("n", .number (.integer 3))]])
      ⟨none, false, none⟩ Tree.atMostFive (⟨[0, 1], [0, 0]⟩ : WorkingSet Nat) = ⟨[1], [0, 0]⟩ := by
  have hover : (⟨[0, 1], [0, 0]⟩ : WorkingSet Nat).Over
      [.object [("n", .number (.integer 7))], .object [("n", .number (.integer 3))]] :=
    ⟨rfl, by decide⟩
  rw [evaluate_binary Tree.isDerivation_atMostFive isPlain_atMostFive hover]
  exact congrArg (WorkingSet.mk · [0, 0]) (by decide +kernel)

end RecordSearch.Search
