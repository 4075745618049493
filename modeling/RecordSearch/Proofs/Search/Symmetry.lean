import RecordSearch.Proofs.Search.Adjacent
import RecordSearch.Proofs.Search.Dropping
import RecordSearch.Proofs.Search.Indexing
import RecordSearch.Proofs.Search.Ranking
import RecordSearch.Proofs.Search.Weights

/-! The order of operands, and an operand that is repeated. A filter goes through its operands one after
    the other, but what each of them keeps is decided for every record alone; a ranking gives the same
    data to both operands, and weighs what they make of it in a way that does not tell them apart. So a
    connective does not depend on the order of its operands, and one operand twice does what it does
    once (`evaluate_joined`). Scores are exact here. -/

namespace RecordSearch.Search

open RecordSearch.Query (Tree Token parseStrict isDerivation_of_parseStrict
  parseStrict_of_isDerivation)
open RecordSearch.Query.Nonterminal

theorem keeps_comm (connective : Connective) (l r : Bool) :
    Comparator.keeps connective l r = Comparator.keeps connective r l := by
  cases connective with
  | and => exact Bool.and_comm l r
  | or => exact Bool.or_comm l r

theorem keeps_self (connective : Connective) (kept : Bool) :
    Comparator.keeps connective kept kept = kept := by
  cases connective with
  | and => exact Bool.and_self kept
  | or => exact Bool.or_self kept

namespace Comparator

variable {records : List Record}

/-! ### Filtering -/

section Filtering

variable {α : Type} {f g : WorkingSet α → WorkingSet α} {w : WorkingSet α}

/-- Whatever form a tree has, filtering by it is a selection. -/
theorem selects_binary (records : List Record) :
    (binary (α := α) records).Keeps fun f => ∃ test, Selects records false test f where
  rest := ⟨fun _ => true, selects_id fun _ => rfl⟩
  clear := by
    refine ⟨fun _ => false, fun w hw => ?_⟩
    have hnone : w.members.filter (fun id => (records[id]?).any (fun _ => false) != false) = [] := by
      simp
    exact congrArg (WorkingSet.mk · w.scores) hnone.symm
  search flags term :=
    ⟨_, fun _ hw => select_eq_kept hw flags.exclude ((TermTest.of term flags.operator).record flags.scope)⟩
  join connective _ _ hf hg := by
    obtain ⟨p, hp⟩ := hf
    obtain ⟨q, hq⟩ := hg
    have hjoin := selects_join hp hq connective
    refine ⟨fun record => keeps connective (p record) (q record), ?_⟩
    cases connective <;> exact hjoin

variable {p q : Record → Bool} (hf : Selects records false p f) (hw : w.Over records)

include hf hw

theorem joinMembers_comm (hg : Selects records false q g) (connective : Connective) :
    joinMembers connective f g w = joinMembers connective g f w := by
  rw [joinMembers_eq_retain hf hg hw, joinMembers_eq_retain hg hf hw]
  exact retain_congr fun id _ => keeps_comm connective _ _

theorem joinMembers_self (connective : Connective) : joinMembers connective f f w = f w := by
  rw [joinMembers_eq_retain hf hf hw, hf w hw]
  exact retain_congr fun id _ => keeps_self connective _

end Filtering

/-! ### Ranking -/

section Ranking

variable {α : Type} [Arithmetic α] {measure : Measure} {indexFields : List String} {indexes : Indexes}

/-- Whatever form a tree has, ranking by it keeps the members that pass a test. -/
theorem retains_fuzzy {w : WorkingSet α} (hw : w.Over records) :
    (fuzzy measure indexFields indexes records).Keeps fun f => ∃ test, Retains records w test f where
  rest := ⟨_, .of_members_eq hw rfl rfl⟩
  clear := ⟨fun _ => false, rfl, by simp [fuzzy, WorkingSet.cleared]⟩
  search flags term := by
    have hcapacity : (rankMatches measure indexFields indexes records flags term w).capacity =
        w.capacity := keepsCapacity_rankMatches flags term w
    cases hoperator : flags.operator with
    | none => exact ⟨_, .of_members_eq hw hcapacity (members_rankMatches hoperator term w)⟩
    | some order =>
      let test := (TermTest.of term flags.operator).record flags.scope
      have hselect : rankMatches measure indexFields indexes records flags term w =
          select records flags.exclude test w :=
        rankMatches_of_isSome (by rw [hoperator]; rfl) term w
      rw [select_eq_kept hw] at hselect
      refine ⟨fun record => test record != flags.exclude, hcapacity, ?_⟩
      refine (congrArg WorkingSet.members hselect).trans ?_
      simp only [select, WorkingSet.retain, Bool.bne_false]
  join connective _ _ hf hg := by
    obtain ⟨p, hp⟩ := hf
    obtain ⟨q, hq⟩ := hg
    exact ⟨_, hp.join hq hw connective⟩

end Ranking

section Exact

variable {f g : WorkingSet Rat → WorkingSet Rat} {w : WorkingSet Rat}

/-- A connective gives both operands the same data, so it does not matter which comes first. -/
theorem joinScores_comm (connective : Connective) :
    joinScores connective f g w = joinScores connective g f w := by
  refine WorkingSet.eq_of_getElem? ?_ fun id => ?_
  · rw [members_joinScores, members_joinScores]
    exact List.filter_congr fun id _ => keeps_comm connective _ _
  · rw [getElem?_joinScores, getElem?_joinScores, jointScore_comm]
    simp only [or_comm]

/-- An operand twice keeps what it keeps once, and gives it the same scores. -/
theorem joinScores_self {test : Record → Bool} (hf : Retains records w test f) (hw : w.Over records)
    (connective : Connective) :
    (joinScores connective f f w).members = (f w).members ∧
      ∀ id ∈ (f w).members, (joinScores connective f f w).score id = (f w).score id := by
  constructor
  · rw [(hf.join hf hw connective).members_eq, hf.members_eq]
    simp only [keeps_self]
  · intro id hid
    have hmem : id ∈ w.members := List.mem_of_mem_filter (hf.members_eq ▸ hid)
    have hlt : id < w.capacity := (hw.members_lt id hmem).trans_eq hw.scores_length.symm
    rw [score_joinScores_of_mem hlt (.inl hid), jointScore_self]

end Exact

end Comparator

/-! ### Queries -/

/-- The tokens of a query in parentheses. -/
def parenthesised (tokens : List Token) : List Token :=
  .ofKind .lparen 0 :: tokens ++ [.ofKind .rparen 0]

/-- The tokens of two queries in parentheses around a keyword. -/
def aroundKeyword (connective : Connective) (p q : List Token) : List Token :=
  parenthesised p ++ .ofKind connective.kind 0 :: parenthesised q

/-- A query in parentheses as a search of its own. -/
def asSearch (t : Tree) : Tree := searchTree ⟨none, none⟩ (inParens t)

section Trees

variable {δ : Type} {c : Comparator δ} {flags : Flags} {t u : Tree}

theorem isPhrase_asSearch (h : IsPhrase (.nonterminal list) t) :
    IsPhrase (.nonterminal search) (asSearch t) :=
  isPhrase_searchTree (isPhrase_node (by decide) (.cons (isPhrase_inParens h) .nil))

theorem leaves_asSearch : (asSearch t).leaves = parenthesised t.leaves := by
  simp [asSearch, searchTree, atPath, underOperator, inParens, mark, parenthesised]

theorem leftOperand_asSearch :
    leftOperand (asSearch t) = atPath none (underOperator none (inParens t)) := rfl

theorem evaluate_asSearch : evaluate c flags (asSearch t) = evaluate c flags t := by
  rw [asSearch, searchTree, atPath, underOperator, evaluate_only (.inl rfl) rfl,
    evaluate_only (.inr (.inl rfl)) rfl, evaluate_only (.inr (.inr rfl)) rfl, inParens, mark, mark,
    evaluate_parens rfl]

/-- The operands of a connective do what the queries in the parentheses do. -/
theorem evaluate_joined_asSearch (connective : Connective) :
    evaluate c flags (listOf (some (joined (asSearch t) connective (asSearch u)))) =
      c.join (connective.under flags.exclude) (evaluate c flags t) (evaluate c flags u) := by
  have hleft : evaluate c flags (leftOperand (asSearch t)) = evaluate c flags (asSearch t) :=
    (evaluate_only (.inl rfl) rfl).symm
  rw [evaluate_listOf c flags rfl, joined, evaluate_only (.inl rfl) rfl, ← evaluate_asSearch (t := t),
    ← evaluate_asSearch (t := u), ← hleft]
  cases connective with
  | and => exact evaluate_and
  | or => exact evaluate_or

theorem leaves_joined_asSearch (connective : Connective) :
    (listOf (some (joined (asSearch t) connective (asSearch u)))).leaves =
      aroundKeyword connective t.leaves u.leaves := by
  have hleft : (leftOperand (asSearch t)).leaves = (asSearch t).leaves := by
    rw [leftOperand_asSearch]
    simp [asSearch, searchTree]
  rw [listOf, Tree.leaves_node, Tree.leavesOf_cons, joined]
  simp [hleft, leaves_asSearch, aroundKeyword, mark]

end Trees

/-- Two queries in parentheses around a keyword are parsed, and joined by the connective. -/
theorem exists_parseStrict_joined (connective : Connective) {p q tokens : List Token} {t u : Tree}
    (ht : parseStrict p = .ok t) (hu : parseStrict q = .ok u)
    (htokens : tokens.map Token.unplaced = (aroundKeyword connective p q).map Token.unplaced) :
    ∃ both, parseStrict tokens = .ok both ∧ ∀ {δ : Type} (c : Comparator δ) (flags : Flags),
      (∀ flags token, c.search flags token.unplaced = c.search flags token) →
      evaluate c flags both =
        c.join (connective.under flags.exclude) (evaluate c flags t) (evaluate c flags u) := by
  obtain ⟨htroot, htconforms, rfl⟩ := isDerivation_of_parseStrict ht
  obtain ⟨huroot, huconforms, rfl⟩ := isDerivation_of_parseStrict hu
  have hphrase : IsPhrase (.nonterminal list)
      (listOf (some (joined (asSearch t) connective (asSearch u)))) :=
    isPhrase_listOf (isPhrase_joined connective (isPhrase_asSearch ⟨htroot, htconforms⟩)
      (isPhrase_asSearch ⟨huroot, huconforms⟩))
  rw [← leaves_joined_asSearch] at htokens
  obtain ⟨both, hboth, hsame⟩ := exists_parseStrict_of_leaves hphrase htokens
  refine ⟨both, hboth, fun c flags hplaces => ?_⟩
  rw [hsame c flags hplaces, evaluate_joined_asSearch]

/-- No comparator looks at the places of terms. -/
theorem search_unplaced {α : Type} [Arithmetic α] (s : Setup) (indexes : Indexes)
    (records : List Record) (flags : Flags) (token : Token) :
    (s.comparator indexes records : Comparator (WorkingSet α)).search flags token.unplaced =
      (s.comparator indexes records).search flags token := by
  rw [Setup.comparator]
  cases s.strategy <;> rfl

section Setups

variable {records : List Record} {w : WorkingSet Rat} (hw : w.Over records) (s : Setup)
  (indexes : Indexes) (connective : Connective) (flags : Flags) (t u : Tree)

include hw

/-- Operands that trees are may change places. -/
theorem join_comm : (s.comparator indexes records).join connective
      (evaluate (s.comparator indexes records) flags t)
      (evaluate (s.comparator indexes records) flags u) w =
    (s.comparator indexes records).join connective
      (evaluate (s.comparator indexes records) flags u)
      (evaluate (s.comparator indexes records) flags t) w := by
  rw [Setup.comparator]
  cases s.strategy with
  | binary =>
    obtain ⟨p, hp⟩ := evaluate_keeps (Comparator.selects_binary records) t flags
    obtain ⟨q, hq⟩ := evaluate_keeps (Comparator.selects_binary records) u flags
    exact Comparator.joinMembers_comm hp hw hq connective
  | fuzzy measure => exact Comparator.joinScores_comm connective

/-- An operand twice does to what it keeps what it does once. -/
theorem join_self :
    let once := evaluate (s.comparator indexes records) flags t
    ((s.comparator indexes records).join connective once once w).members = (once w).members ∧
      ∀ id ∈ (once w).members,
        ((s.comparator indexes records).join connective once once w).score id = (once w).score id := by
  rw [Setup.comparator]
  cases s.strategy with
  | binary =>
    obtain ⟨p, hp⟩ := evaluate_keeps (Comparator.selects_binary records) t flags
    have hsame := Comparator.joinMembers_self hp hw connective
    exact ⟨congrArg WorkingSet.members hsame, fun id _ => congrArg (WorkingSet.score · id) hsame⟩
  | fuzzy measure =>
    obtain ⟨test, htest⟩ := evaluate_keeps (Comparator.retains_fuzzy hw) t flags
    exact Comparator.joinScores_self htest hw connective

end Setups

/-- For two queries in parentheses around `AND` or `OR`, in either order, and for one of them twice: all
    of these are parsed; the order matters neither to members nor to scores, and one query twice has the
    members of the query, with its scores. This holds whether an engine filters or ranks, with any
    indexes, under any flags, and from any working set over the records, such as that of all of them. -/
theorem evaluate_joined (connective : Connective) {p q : List Token} {t u : Tree}
    (ht : parseStrict p = .ok t) (hu : parseStrict q = .ok u) {inOrder swapped twice : List Token}
    (hinOrder : inOrder.map Token.unplaced = (aroundKeyword connective p q).map Token.unplaced)
    (hswapped : swapped.map Token.unplaced = (aroundKeyword connective q p).map Token.unplaced)
    (htwice : twice.map Token.unplaced = (aroundKeyword connective p p).map Token.unplaced) :
    ∃ tu ut tt, parseStrict inOrder = .ok tu ∧ parseStrict swapped = .ok ut ∧
      parseStrict twice = .ok tt ∧
      ∀ (s : Setup) (indexes : Indexes) (records : List Record) (flags : Flags) (w : WorkingSet Rat),
        w.Over records →
        let result := fun tree => evaluate (s.comparator indexes records) flags tree w
        result tu = result ut ∧ (result tt).members = (result t).members ∧
          ∀ id ∈ (result t).members, (result tt).score id = (result t).score id := by
  obtain ⟨tu, htu, hevaluate_tu⟩ := exists_parseStrict_joined connective ht hu hinOrder
  obtain ⟨ut, hut, hevaluate_ut⟩ := exists_parseStrict_joined connective hu ht hswapped
  obtain ⟨tt, htt, hevaluate_tt⟩ := exists_parseStrict_joined connective ht ht htwice
  refine ⟨tu, ut, tt, htu, hut, htt, fun s indexes records flags w hw => ?_⟩
  have hplaces := search_unplaced (α := Rat) s indexes records
  simp only [hevaluate_tu _ flags hplaces, hevaluate_ut _ flags hplaces, hevaluate_tt _ flags hplaces]
  exact ⟨join_comm hw s indexes _ flags t u, join_self hw s indexes _ flags t⟩

/-- `(!(n:>5)) AND (name:starshp OR n:>5)`, the same with the operands exchanged, and `!(n:>5)` twice. -/
theorem evaluate_joined_atMostFive :
    let p := Tree.atMostFive.leaves
    let q := starshipOrLarge.leaves
    parseStrict p = .ok Tree.atMostFive ∧ parseStrict q = .ok starshipOrLarge ∧
      ∃ tu ut tt, parseStrict (aroundKeyword .and p q) = .ok tu ∧
        parseStrict (aroundKeyword .and q p) = .ok ut ∧
        parseStrict (aroundKeyword .and p p) = .ok tt ∧
        let records : List Record := [.object [("name", .string "Starship")],
          .object [("n", .number (.integer 7)), ("name", .null)]]
        let result (tree : Tree) : WorkingSet Rat :=
          evaluate (.fuzzy (.edits 2 true) ["name"] (.build ["name"] records) records) .root tree (.full 2)
        result tu = result ut ∧ (result tt).members = (result Tree.atMostFive).members := by
  intro p q
  have hp : parseStrict p = .ok Tree.atMostFive :=
    parseStrict_of_isDerivation Tree.isDerivation_atMostFive
  have hq : parseStrict q = .ok starshipOrLarge :=
    parseStrict_of_isDerivation isDerivation_starshipOrLarge
  obtain ⟨tu, ut, tt, htu, hut, htt, hresults⟩ := evaluate_joined .and hp hq rfl rfl rfl
  refine ⟨hp, hq, tu, ut, tt, htu, hut, htt, ?_⟩
  intro records
  obtain ⟨hsame, hmembers, -⟩ := hresults ⟨.fuzzy (.edits 2 true), ["name"], true, .reset⟩
    (.build ["name"] records) records .root (.full 2) (over_full records)
  exact ⟨hsame, hmembers⟩

end RecordSearch.Search
