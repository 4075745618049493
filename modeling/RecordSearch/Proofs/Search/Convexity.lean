import RecordSearch.Proofs.Search.Dropping
import RecordSearch.Proofs.Search.Hits
import RecordSearch.Proofs.Search.Indexing
import RecordSearch.Proofs.Search.Operands
import RecordSearch.Proofs.Search.Weights

/-! Scores between those of single terms. A connective gives a mean of what its operands give, or leaves a
    record alone that neither of them keeps, and only a comparison makes an operand drop one. So from
    scores of zero no query scores a record outside what its text terms give it one at a time, and zero
    if it compares something or holds an empty list (`score_evaluate_between`). Scores are exact here. -/

namespace RecordSearch.Search

open RecordSearch.Query (Tree Token Grammar)
open RecordSearch.Query.Nonterminal (list)

/-- What an operand of a query adds to the score of a record: a text term what it adds if nothing else is
    searched for, at the scope and with the parity of negations that it has in the query, from scores of
    zero. A comparison adds nothing, and neither does an empty list; the end of a longer list is not
    come to and does not count. -/
inductive Amount (c : Comparator (WorkingSet Rat)) (size id : Nat) (query : Flags × Tree) : Rat → Prop
  | term {scope : Option String} {exclude : Bool} {token : Token}
      (visited : Visits query (⟨scope, exclude, none⟩, .leaf token))
      (token_is : token.kind = .searchTerm) :
      Amount c size id query ((c.search ⟨scope, exclude, none⟩ token (.full size)).score id)
  | comparison {flags : Flags} {token : Token} (visited : Visits query (flags, .leaf token))
      (token_is : token.kind = .number) : Amount c size id query 0
  | nothing {flags : Flags} (visited : Visits query (flags, .node list [])) :
      Amount c size id query 0

/-! ### Means -/

/-- A score is not below the least of some amounts, and not above the greatest. -/
def Between (amount : Rat → Prop) (score : Rat) : Prop :=
  ∃ least greatest, amount least ∧ amount greatest ∧ least ≤ score ∧ score ≤ greatest

theorem Between.of_amount {amount : Rat → Prop} {score : Rat} (h : amount score) :
    Between amount score := ⟨score, score, h, h, le_rfl, le_rfl⟩

/-- A joint score is between the amounts around the lesser score and those around the greater. -/
theorem Between.joint {amount : Rat → Prop} {l r : Rat} (hl : Between amount l) (hr : Between amount r)
    (connective : Connective) : Between amount (Comparator.jointScore connective l r) := by
  obtain ⟨a, b, ha, hb, hal, hlb⟩ := hl
  obtain ⟨a', b', ha', hb', har, hrb⟩ := hr
  have hlow := Comparator.min_le_jointScore connective l r
  have hhigh := Comparator.jointScore_le_max connective l r
  rcases le_total l r with h | h
  · rw [min_eq_left h] at hlow
    rw [max_eq_right h] at hhigh
    exact ⟨a, b', ha, hb', hal.trans hlow, hhigh.trans hrb⟩
  · rw [min_eq_right h] at hlow
    rw [max_eq_left h] at hhigh
    exact ⟨a', b, ha', hb, har.trans hlow, hhigh.trans hlb⟩

/-- From scores of zero, a record is scored between some amounts; and if it is dropped, zero is one. -/
structure Averages (amount : Rat → Prop) (size id : Nat) (f : WorkingSet Rat → WorkingSet Rat) :
    Prop where
  capacity_eq : (f (.full size)).capacity = size
  between : Between amount ((f (.full size)).score id)
  zero_of_dropped : id ∉ (f (.full size)).members → amount 0

namespace Averages

variable {amount : Rat → Prop} {size id : Nat} {f g : WorkingSet Rat → WorkingSet Rat}

/-- Scores that stay as they are, are zero. -/
theorem of_scores_eq (hscores : (f (.full size)).scores = (WorkingSet.full size).scores)
    (hzero : amount 0) : Averages amount size id f where
  capacity_eq := (congrArg List.length hscores).trans (whole_full size).capacity_eq
  between := by
    have hscore : (f (.full size)).score id = 0 :=
      ((WorkingSet.unscored_full size).of_scores_eq hscores).score_eq_zero id
    exact hscore ▸ .of_amount hzero
  zero_of_dropped _ := hzero

/-- A record that is kept may be given any one amount. -/
theorem of_members_eq (hcapacity : (f (.full size)).capacity = size)
    (hmem : id ∈ (f (.full size)).members) (hamount : amount ((f (.full size)).score id)) :
    Averages amount size id f where
  capacity_eq := hcapacity
  between := .of_amount hamount
  zero_of_dropped hdropped := absurd hmem hdropped

theorem hasMember (h : Averages amount size id f) (hid : id < size) (hzero : ¬ amount 0) :
    (f (.full size)).hasMember id = true :=
  (WorkingSet.hasMember_iff (hid.trans_eq h.capacity_eq.symm)).mpr
    (not_not.mp (mt h.zero_of_dropped hzero))

theorem join (hid : id < size) (hf : Averages amount size id f) (hg : Averages amount size id g)
    (connective : Connective) : Averages amount size id (Comparator.joinScores connective f g) where
  capacity_eq := (Comparator.keepsCapacity_joinScores connective _).trans (whole_full size).capacity_eq
  between := by
    have hlt : id < (WorkingSet.full size : WorkingSet Rat).capacity :=
      hid.trans_eq (whole_full size).capacity_eq.symm
    by_cases hmem : id ∈ (f (.full size)).members ∨ id ∈ (g (.full size)).members
    · rw [score_joinScores_of_mem hlt hmem]
      exact hf.between.joint hg.between connective
    · -- neither operand keeps the record, so its score is still zero, and zero is an amount
      have hscore : (Comparator.joinScores connective f g (.full size)).score id = 0 := by
        rw [WorkingSet.score_eq, Comparator.getElem?_joinScores, if_neg hmem, ← WorkingSet.score_eq]
        exact (WorkingSet.unscored_full size).score_eq_zero id
      exact hscore ▸ .of_amount (hf.zero_of_dropped (not_or.mp hmem).1)
  zero_of_dropped hdropped := by
    by_contra hzero
    rw [Comparator.members_joinScores, List.mem_filter, hf.hasMember hid hzero,
      hg.hasMember hid hzero] at hdropped
    refine hdropped ⟨List.mem_range.mpr hid, ?_⟩
    cases connective <;> rfl

end Averages

/-! ### Queries -/

section Queries

variable {measure : Measure} {indexFields : List String} {indexes : Indexes} {records : List Record}
  {size id : Nat} {query : Flags × Tree}

/-- An operand that is come to gives a record its own amount, and drops it only by a comparison. -/
theorem averages_search {tokens : List Token} {flags : Flags} {token : Token}
    (hvisits : Visits query (flags, .leaf token)) (h : IsOperand tokens flags.operator token)
    (hid : id < size) :
    Averages (Amount (.fuzzy measure indexFields indexes records) size id query) size id
      (Comparator.rankMatches measure indexFields indexes records flags token) := by
  obtain ⟨scope, exclude, operator⟩ := flags
  cases h with
  | term _ token_is =>
    have hcapacity : KeepsCapacity (α := Rat) (Comparator.rankMatches measure indexFields indexes records
        ⟨scope, exclude, none⟩ token) := Comparator.keepsCapacity_rankMatches _ token
    refine .of_members_eq ((hcapacity _).trans (whole_full size).capacity_eq) ?_ (.term hvisits token_is)
    rw [Comparator.members_rankMatches rfl]
    exact List.mem_range.mpr hid
  | number _ _ token_is =>
    refine .of_scores_eq ?_ (.comparison hvisits token_is)
    rw [Comparator.rankMatches_of_isSome rfl]
    rfl

/-- From scores of zero, and with any indexes, a query gives every record a score between the least and
    the greatest of the amounts that its operands add to the record, whether it keeps the record or
    not. -/
theorem score_evaluate_between (measure : Measure) (indexFields : List String) (indexes : Indexes)
    (records : List Record) {tokens : List Token} {t : Tree}
    (ht : Grammar.query.IsDerivation tokens t) (scope : Option String) (exclude : Bool)
    (hid : id < records.length) :
    let c := Comparator.fuzzy measure indexFields indexes records
    let flags : Flags := ⟨scope, exclude, none⟩
    Between (Amount c records.length id (flags, t))
      ((evaluate c flags t (.full records.length)).score id) := by
  intro c flags
  have hexpects : Expects t.leaves flags t :=
    .phrase ht.conforms ht.root (by decide) rfl List.infix_rfl
  have haverages : Averages (Amount c records.length id (flags, t)) records.length id
      (evaluate c flags t) := by
    refine hexpects.evaluate_keeps ?_ (fun _ _ hvisits h => averages_search hvisits h hid)
      fun _ hvisits => .of_scores_eq rfl (.nothing hvisits)
    exact fun connective _ _ hf hg => hf.join hid hg connective
  exact haverages.between

/-- For `name:starshp OR n:>5` a record that is named so and has no `n` is scored between what its name
    gives it and zero. -/
theorem score_evaluate_between_starshipOrLarge :
    let records : List Record := [.object [("name", .string "Starship")],
      .object [("n", .number (.integer 7)), ("name", .null)]]
    let c := Comparator.fuzzy (.edits 2 true) ["name"] (.build ["name"] records) records
    let score := (evaluate c .root starshipOrLarge (.full 2)).score 0
    Grammar.query.IsDerivation starshipOrLarge.leaves starshipOrLarge ∧ 0 < records.length ∧
      score = 105 / 4 ∧ Between (Amount c 2 0 (.root, starshipOrLarge)) score := by
  intro records c score
  refine ⟨isDerivation_starshipOrLarge, by decide, by decide +kernel, ?_⟩
  exact score_evaluate_between (.edits 2 true) ["name"] (.build ["name"] records) records
    isDerivation_starshipOrLarge none false (by decide)

end Queries

end RecordSearch.Search
