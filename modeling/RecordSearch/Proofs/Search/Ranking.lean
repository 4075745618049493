import RecordSearch.Proofs.Search.Filtering
import RecordSearch.Proofs.Search.Scores

/-! Which records a ranking keeps. Scores and indexes have no say in it: `stays` decides it of one record
    by the numeric comparisons of a tree, and by the connectives that join them, turned round under an
    odd number of negations (`members_evaluate_fuzzy`). -/

namespace RecordSearch.Search

open RecordSearch.Query (Tree Token Nonterminal Grammar)
open RecordSearch.Query.Nonterminal

/-- Whether a record stays when it is ranked by a tree at a scope, under an odd number of negations if
    `exclude` says so. -/
def stays : Tree → Option String → Bool → Record → Bool
  | .node .list [first, rest], scope, exclude, record =>
    if rest.isEmpty then stays first scope exclude record
    else if exclude then stays first scope exclude record || stays rest scope exclude record
    else stays first scope exclude record && stays rest scope exclude record
  | .node .and [lhs, _, rhs], scope, exclude, record =>
    if exclude then stays lhs scope exclude record || stays rhs scope exclude record
    else stays lhs scope exclude record && stays rhs scope exclude record
  | .node .or [lhs, _, rhs], scope, exclude, record =>
    if exclude then stays lhs scope exclude record && stays rhs scope exclude record
    else stays lhs scope exclude record || stays rhs scope exclude record
  | .node .group [.leaf segment, _, below], scope, exclude, record =>
    stays below (some (extend scope segment.lexeme)) exclude record
  | .node .term [.leaf _, operand], scope, exclude, record => stays operand scope (!exclude) record
  | .node .term [.node _ [.leaf operator], .leaf operand], scope, exclude, record =>
    match operand.kind, Comparison.ofKind operator.kind with
    | .number, some order => isMatch operand ⟨scope, exclude, some order⟩ record != exclude
    | _, _ => true
  | .node .searchTerm [_, inner, _], scope, exclude, record => stays inner scope exclude record
  | .node _ [child], scope, exclude, record => stays child scope exclude record
  | _, _, _, _ => true

/-! ### Nodes -/

section Nodes

variable {scope : Option String} {exclude : Bool}

theorem stays_more {first rest : Tree} : stays (.node list [first, rest]) scope exclude =
    if rest.isEmpty then stays first scope exclude else fun record =>
      Comparator.keeps (Connective.and.under exclude) (stays first scope exclude record)
        (stays rest scope exclude record) := by
  funext record
  rw [stays]
  cases rest.isEmpty <;> cases exclude <;> rfl

theorem stays_and {lhs keyword rhs : Tree} : stays (.node .and [lhs, keyword, rhs]) scope exclude =
    fun record => Comparator.keeps (Connective.and.under exclude) (stays lhs scope exclude record)
      (stays rhs scope exclude record) := by
  funext record
  cases exclude <;> rfl

theorem stays_or {lhs keyword rhs : Tree} : stays (.node .or [lhs, keyword, rhs]) scope exclude =
    fun record => Comparator.keeps (Connective.or.under exclude) (stays lhs scope exclude record)
      (stays rhs scope exclude record) := by
  funext record
  cases exclude <;> rfl

theorem stays_only {label below : Nonterminal} {child : Tree}
    (hlabel : label = search ∨ label = searchType ∨ label = term)
    (hchild : child.symbol = .nonterminal below) :
    stays (.node label [child]) scope exclude = stays child scope exclude := by
  obtain ⟨_, rfl⟩ := Tree.exists_node_of_symbol hchild
  funext record
  rcases hlabel with rfl | rfl | rfl <;> simp only [stays]

theorem stays_number {label : Nonterminal} {operator operand : Token} {order : Comparison}
    (hoperand : operand.kind = .number) (horder : Comparison.ofKind operator.kind = some order) :
    stays (.node term [.node label [.leaf operator], .leaf operand]) scope exclude =
      fun record => isMatch operand ⟨scope, exclude, some order⟩ record != exclude := by
  funext record
  simp only [stays, hoperand, horder]

theorem stays_compared_word {label : Nonterminal} {operator operand : Token}
    (hoperand : operand.kind = .searchTerm) :
    stays (.node term [.node label [.leaf operator], .leaf operand]) scope exclude =
      fun _ => true := by
  funext record
  simp only [stays, hoperand]

end Nodes

/-- Without numbers every record stays. -/
theorem stays_of_no_number {t : Tree} (h : ∀ token ∈ t.leaves, token.kind ≠ .number)
    (scope : Option String) (exclude : Bool) (record : Record) : stays t scope exclude record = true := by
  fun_induction stays t scope exclude record <;> simp_all [Tree.leaves_node, Tree.leavesOf_cons]

/-! ### Members that are kept -/

variable {α : Type} {records : List Record} {w : WorkingSet α}

/-- What is done to a working set keeps the members whose record passes a test, and a score for every
    record. -/
structure Retains (records : List Record) (w : WorkingSet α) (test : Record → Bool)
    (f : WorkingSet α → WorkingSet α) : Prop where
  capacity_eq : (f w).capacity = w.capacity
  members_eq : (f w).members = w.members.filter fun id => (records[id]?).any test

namespace Retains

variable {p q : Record → Bool} {f g : WorkingSet α → WorkingSet α}

theorem hasMember (h : Retains records w p f) (hw : w.Over records) {id : Nat}
    (hid : id ∈ w.members) : (f w).hasMember id = (records[id]?).any p := by
  have hlt : id < (f w).capacity := by
    rw [h.capacity_eq, WorkingSet.capacity, hw.scores_length]
    exact hw.members_lt id hid
  rw [Bool.eq_iff_iff, WorkingSet.hasMember_iff hlt, h.members_eq, List.mem_filter]
  exact and_iff_right hid

/-- A connective keeps what its operands keep, joined. -/
theorem join [Arithmetic α] (hf : Retains records w p f) (hg : Retains records w q g) (hw : w.Over records)
    (connective : Connective) :
    Retains records w (fun record => Comparator.keeps connective (p record) (q record))
      (Comparator.joinScores connective f g) where
  capacity_eq := Comparator.keepsCapacity_joinScores connective w
  members_eq := by
    rw [Comparator.members_joinScores]
    refine List.filter_congr fun id hid => ?_
    obtain ⟨record, hrecord⟩ := any_of_member hw hid
    rw [hf.hasMember hw hid, hg.hasMember hw hid, hrecord, hrecord, hrecord]

/-- What leaves the members alone passes any test that all records pass. -/
theorem of_members_eq (hw : w.Over records) (hcapacity : (f w).capacity = w.capacity)
    (hmembers : (f w).members = w.members) : Retains records w (fun _ => true) f where
  capacity_eq := hcapacity
  members_eq := by
    refine hmembers.trans (List.filter_eq_self.mpr fun id hid => ?_).symm
    obtain ⟨record, hrecord⟩ := any_of_member hw hid
    rw [hrecord]

end Retains

/-! ### Trees -/

variable [Arithmetic α] {measure : Measure} {indexFields : List String} {indexes : Indexes}

/-- A text term keeps every record. -/
theorem retains_word (hw : w.Over records) (scope : Option String) (exclude : Bool) (word : Token) :
    Retains records w (fun _ => true)
      ((Comparator.fuzzy measure indexFields indexes records).search ⟨scope, exclude, none⟩ word) :=
  .of_members_eq hw (Comparator.keepsCapacity_rankMatches _ word w)
    (Comparator.members_rankMatches rfl word w)

/-- A number under a comparison keeps the records that match, or under odd negation the others. -/
theorem retains_number (hw : w.Over records) (scope : Option String) (exclude : Bool)
    (order : Comparison) (number : Token) :
    Retains records w (fun record => isMatch number ⟨scope, exclude, some order⟩ record != exclude)
      ((Comparator.fuzzy measure indexFields indexes records).search
        (Flags.comparing order ⟨scope, exclude, none⟩) number) where
  capacity_eq := Comparator.keepsCapacity_rankMatches _ number w
  members_eq := by
    have hfilter : Comparator.rankMatches measure indexFields indexes records
        (Flags.comparing order ⟨scope, exclude, none⟩) number w =
          Comparator.filterMatches records (Flags.comparing order ⟨scope, exclude, none⟩) number w :=
      Comparator.rankMatches_of_isSome rfl number w
    refine (congrArg WorkingSet.members hfilter).trans ?_
    refine List.filter_congr fun id hid => ?_
    obtain ⟨record, hrecord⟩ := any_of_member hw hid
    rw [hrecord, hrecord]
    rfl

theorem retains_compare (hw : w.Over records) {operator : Tree} {operand : Token}
    (hconforms : operator.Conforms Grammar.query)
    (hoperator : operator.symbol = .nonterminal comparison)
    (hoperand : operand.kind = .number ∨ operand.kind = .searchTerm) (scope : Option String)
    (exclude : Bool) :
    Retains records w (stays (.node term [operator, .leaf operand]) scope exclude)
      (evaluate (.fuzzy measure indexFields indexes records) ⟨scope, exclude, none⟩
        (.node term [operator, .leaf operand])) := by
  obtain ⟨children, rfl⟩ := Tree.exists_node_of_symbol hoperator
  cases hconforms.form with
  | only label_is => simp at label_is
  | @operator token token_is =>
    obtain ⟨order, horder⟩ := exists_comparison_of_kind token_is
    rcases hoperand with hnumber | hword
    · rw [stays_number hnumber horder, evaluate_number horder hnumber]
      exact retains_number hw scope exclude order operand
    · rw [stays_compared_word hword, evaluate_compared_word horder hword]
      exact retains_word hw scope exclude operand

/-- Every phrase of a query keeps the records that stay, under either parity of negations. -/
theorem retains_of_conforms (hw : w.Over records) {t : Tree} (ht : t.Conforms Grammar.query) :
    ∀ {n : Nonterminal}, t.symbol = .nonterminal n → n ≠ comparison → ∀ scope exclude,
      Retains records w (stays t scope exclude)
        (evaluate (.fuzzy measure indexFields indexes records) ⟨scope, exclude, none⟩ t) := by
  induction ht with
  | leaf token => intro n hsymbol; cases hsymbol
  | @node label children production conforms ih =>
    intro n hsymbol hcomparison scope exclude
    obtain rfl := Query.Symbol.nonterminal.inj hsymbol
    cases Tree.form_of_production production with
    | none =>
      rw [evaluate_none]
      exact .of_members_eq hw rfl rfl
    | @more first rest first_is rest_is =>
      have hne := isEmpty_of_conforms (conforms first (by simp)) first_is (by decide)
      have hfirst := ih first (by simp) first_is (by decide) scope exclude
      have hrest := ih rest (by simp) rest_is (by decide) scope exclude
      rw [evaluate_more hne, stays_more]
      split
      · exact hfirst
      · exact hfirst.join hrest hw _
    | only label_is child_is _ no_comparison =>
      rw [evaluate_only label_is child_is, stays_only label_is child_is]
      exact ih _ (by simp) child_is no_comparison scope exclude
    | and lhs_is rhs_is =>
      have hlhs := ih _ (by simp) lhs_is (by decide) scope exclude
      have hrhs := ih _ (by simp) rhs_is (by decide) scope exclude
      rw [evaluate_and, stays_and]
      exact hlhs.join hrhs hw _
    | or lhs_is rhs_is =>
      have hlhs := ih _ (by simp) lhs_is (by decide) scope exclude
      have hrhs := ih _ (by simp) rhs_is (by decide) scope exclude
      rw [evaluate_or, stays_or]
      exact hlhs.join hrhs hw _
    | @group segment _ below below_is =>
      have hwithin : Flags.within segment.lexeme ⟨scope, exclude, none⟩ =
          ⟨some (extend scope segment.lexeme), exclude, none⟩ := by cases scope <;> rfl
      rw [evaluate_group, hwithin]
      exact ih below (by simp) below_is (by decide) _ exclude
    | exclude mark_is operand_is =>
      rw [evaluate_exclude mark_is operand_is]
      exact ih _ (by simp) operand_is (by decide) scope (!exclude)
    | compare operator_is operand_is =>
      exact retains_compare hw (conforms _ (by simp)) operator_is operand_is scope exclude
    | @word token token_is =>
      rw [evaluate_word token_is]
      exact retains_word hw scope exclude token
    | parens opening_is inner_is =>
      rw [evaluate_parens opening_is]
      exact ih _ (by simp) inner_is (by decide) scope exclude
    | operator => exact absurd rfl hcomparison

/-- Ranking by a query keeps the members that its numeric comparisons let stay, in their order, whatever
    the similarities, the indexes and the scores are; without such a comparison it keeps them all. -/
theorem members_evaluate_fuzzy {tokens : List Token} {t : Tree}
    (ht : Grammar.query.IsDerivation tokens t) (hw : w.Over records) (measure : Measure)
    (indexFields : List String) (indexes : Indexes) (scope : Option String) (exclude : Bool) :
    (evaluate (.fuzzy measure indexFields indexes records) ⟨scope, exclude, none⟩ t w).members =
        w.members.filter (fun id => (records[id]?).any (stays t scope exclude)) ∧
      ((∀ token ∈ tokens, token.kind ≠ .number) →
        (evaluate (.fuzzy measure indexFields indexes records) ⟨scope, exclude, none⟩ t w).members =
          w.members) := by
  have hretains : Retains records w (stays t scope exclude)
      (evaluate (.fuzzy measure indexFields indexes records) ⟨scope, exclude, none⟩ t) :=
    retains_of_conforms hw ht.conforms ht.root (by decide) scope exclude
  refine ⟨hretains.members_eq, fun hnumbers => ?_⟩
  rw [hretains.members_eq]
  refine List.filter_eq_self.mpr fun id hid => ?_
  obtain ⟨record, hrecord⟩ := any_of_member hw hid
  rw [hrecord]
  exact stays_of_no_number (ht.leaves ▸ hnumbers) scope exclude record

theorem members_evaluate_fuzzy_atMostFive :
    let records : List Record :=
      [.object [("n", .number (.integer 7))], .object [("n", .number (.integer 3))]]
    (evaluate (.fuzzy (.edits 2 true) ["n"] (.build ["n"] records) records) ⟨none, false, none⟩
      Tree.atMostFive (⟨[0, 1], [1, 2]⟩ : WorkingSet Float)).members = [1] := by
  intro records
  have hover : (⟨[0, 1], [1, 2]⟩ : WorkingSet Float).Over records := ⟨rfl, by decide⟩
  refine (members_evaluate_fuzzy Tree.isDerivation_atMostFive hover (.edits 2 true) ["n"]
    (.build ["n"] records) none false).1.trans ?_
  decide

end RecordSearch.Search
