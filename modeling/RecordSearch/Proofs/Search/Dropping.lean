import RecordSearch.Proofs.Search.Scores

/-! Scores of records that a ranking drops. A comparison drops a record and leaves its score alone, and a
    connective leaves the score of a record alone if neither operand keeps it. But a conjunction of which
    exactly one operand keeps a record drops it after giving it a joint score (`score_evaluate_torn`).
    Every other record that is dropped has the score it came in with, and brings it into the connective
    that its tree is an operand of (`score_evaluate_fuzzy_of_dropped`). -/

namespace RecordSearch.Search

open RecordSearch.Query (Tree Token)
open RecordSearch.Query.Nonterminal (list search searchType term searchTerm group comparison)

/-- What becomes of one record. -/
structure Fate where
  /-- Whether it is kept. -/
  kept : Bool
  /-- Whether it was dropped by a conjunction of which exactly one operand keeps it. -/
  torn : Bool
  deriving DecidableEq, Repr

/-- A record that nothing has dropped. -/
def Fate.start : Fate := ⟨true, false⟩

namespace Comparator

/-- What terms and connectives do to one record: only comparisons and connectives can drop it. -/
def fates (record : Option Record) : Comparator Fate where
  search flags term fate :=
    if flags.operator.isSome then
      ⟨record.any ((TermTest.of term flags.operator).record flags.scope) != flags.exclude, false⟩
    else fate
  join connective left right fate :=
    let l := left fate
    let r := right fate
    ⟨keeps connective l.kept r.kept, connective = .and && l.kept != r.kept⟩
  clear _ := ⟨false, false⟩

end Comparator

variable {α : Type} [Arithmetic α]

/-- The fate of a member of a working set is told by what has become of the set. -/
structure Meets (w : WorkingSet α) (id : Nat) (result : WorkingSet α) (fate : Fate) : Prop where
  capacity_eq : result.capacity = w.capacity
  mem_iff : id ∈ result.members ↔ fate.kept = true
  score_eq : fate.kept = false → fate.torn = false → result.score id = w.score id

namespace Meets

variable {w l r : WorkingSet α} {id : Nat} {left right : Fate}

theorem hasMember (h : Meets w id l left) (hlt : id < w.capacity) : l.hasMember id = left.kept := by
  rw [Bool.eq_iff_iff, WorkingSet.hasMember_iff (hlt.trans_eq h.capacity_eq.symm), h.mem_iff]

variable {records : List Record} {measure : Measure} {indexFields : List String} {indexes : Indexes}

/-- A term drops a record only by a comparison, and then leaves its score alone. -/
theorem search (hid : id ∈ w.members) (flags : Flags) (term : Token) :
    Meets w id ((Comparator.fuzzy measure indexFields indexes records).search flags term w)
      ((Comparator.fates records[id]?).search flags term .start) where
  capacity_eq := Comparator.keepsCapacity_rankMatches flags term w
  mem_iff := by
    change id ∈ (Comparator.rankMatches measure indexFields indexes records flags term w).members ↔ _
    cases hoperator : flags.operator with
    | none =>
      rw [Comparator.members_rankMatches hoperator]
      simpa [Comparator.fates, hoperator, Fate.start] using hid
    | some order =>
      rw [Comparator.rankMatches_of_isSome (by rw [hoperator]; rfl)]
      simp [Comparator.fates, Comparator.filterMatches, WorkingSet.retain, hoperator, hid]
  score_eq hkept _ := by
    change (Comparator.rankMatches measure indexFields indexes records flags term w).score id = _
    cases hoperator : flags.operator with
    | none => simp [Comparator.fates, hoperator, Fate.start] at hkept
    | some order =>
      rw [Comparator.rankMatches_of_isSome (by rw [hoperator]; rfl)]
      rfl

/-- A record that a connective drops, and that is not torn, is dropped by both operands. -/
theorem dropped_of_join {connective : Connective}
    (hkept : Comparator.keeps connective left.kept right.kept = false)
    (htorn : (connective = .and && left.kept != right.kept) = false) :
    left.kept = false ∧ right.kept = false := by
  cases connective <;> cases hl : left.kept <;> cases hr : right.kept <;>
    simp_all [Comparator.keeps]

theorem join {f g : WorkingSet α → WorkingSet α} (hid : id ∈ w.members) (hlt : id < w.capacity)
    (hf : Meets w id (f w) left) (hg : Meets w id (g w) right) (connective : Connective) :
    Meets w id (Comparator.joinScores connective f g w)
      ⟨Comparator.keeps connective left.kept right.kept,
        connective = .and && left.kept != right.kept⟩ where
  capacity_eq := Comparator.keepsCapacity_joinScores connective w
  mem_iff := by
    rw [Comparator.members_joinScores, List.mem_filter, hf.hasMember hlt, hg.hasMember hlt]
    exact and_iff_right hid
  score_eq hkept htorn := by
    obtain ⟨hl, hr⟩ := dropped_of_join hkept htorn
    have hneither : ¬ (id ∈ (f w).members ∨ id ∈ (g w).members) := by
      rw [hf.mem_iff, hg.mem_iff, hl, hr]
      decide
    rw [WorkingSet.score_eq, WorkingSet.score_eq, Comparator.getElem?_joinScores, if_neg hneither]

/-- What ranking by any tree makes of a working set tells the fate of each of its members. -/
theorem evaluate (hid : id ∈ w.members) (hlt : id < w.capacity) (t : Tree) (flags : Flags) :
    Meets w id (evaluate (.fuzzy measure indexFields indexes records) flags t w)
      (Search.evaluate (.fates records[id]?) flags t .start) := by
  refine evaluate_relates (R := fun f g => Meets w id (f w) (g .start)) ⟨?_, ?_, ?_, ?_⟩ t flags
  · exact ⟨rfl, iff_of_true hid rfl, nofun⟩
  · exact ⟨rfl, iff_of_false List.not_mem_nil nofun, fun _ _ => rfl⟩
  · exact search hid
  · exact fun connective f g _ _ hf hg => join hid hlt hf hg connective

end Meets

/-- A connective gives a record that an operand keeps the joint score of what both make of it. -/
theorem score_joinScores_of_mem {f g : WorkingSet α → WorkingSet α} {w : WorkingSet α} {id : Nat}
    (hlt : id < w.capacity) (hmem : id ∈ (f w).members ∨ id ∈ (g w).members)
    (connective : Connective) : (Comparator.joinScores connective f g w).score id =
      Comparator.jointScore connective ((f w).score id) ((g w).score id) := by
  rw [WorkingSet.score_eq, Comparator.getElem?_joinScores, if_pos hmem,
    List.getElem?_eq_getElem hlt, Option.map_some, Option.getD_some]

/-- A record that ranking by a tree drops has the score it came in with, unless it is torn by a
    conjunction that the tree comes to; and with this score it enters any connective of the tree and
    another one that keeps it. -/
theorem score_evaluate_fuzzy_of_dropped (measure : Measure) (indexFields : List String)
    (indexes : Indexes) (records : List Record) (t : Tree) (flags : Flags) {w : WorkingSet α}
    {id : Nat} (hid : id ∈ w.members) (hlt : id < w.capacity)
    (hdropped : id ∉ (evaluate (.fuzzy measure indexFields indexes records) flags t w).members)
    (htorn : (evaluate (.fates records[id]?) flags t .start).torn = false) :
    let c := Comparator.fuzzy measure indexFields indexes records
    (evaluate c flags t w).score id = w.score id ∧
      ∀ (connective : Connective) (other : Tree), id ∈ (evaluate c flags other w).members →
        (c.join connective (evaluate c flags t) (evaluate c flags other) w).score id =
            Comparator.jointScore connective (w.score id) ((evaluate c flags other w).score id) ∧
          (c.join connective (evaluate c flags other) (evaluate c flags t) w).score id =
            Comparator.jointScore connective ((evaluate c flags other w).score id) (w.score id) := by
  intro c
  have hmeets : Meets w id (evaluate c flags t w) (evaluate (.fates records[id]?) flags t .start) :=
    Meets.evaluate hid hlt t flags
  have hscore : (evaluate c flags t w).score id = w.score id :=
    hmeets.score_eq (Bool.eq_false_iff.mpr (mt hmeets.mem_iff.mpr hdropped)) htorn
  refine ⟨hscore, fun connective other hother => ⟨?_, ?_⟩⟩
  · exact (score_joinScores_of_mem hlt (.inr hother) connective).trans (by rw [hscore])
  · exact (score_joinScores_of_mem hlt (.inl hother) connective).trans (by rw [hscore])

theorem score_evaluate_fuzzy_of_dropped_atMostFive :
    let records : List Record :=
      [.object [("n", .number (.integer 7))], .object [("n", .number (.integer 3))]]
    let w : WorkingSet Float := ⟨[0, 1], [1, 2]⟩
    let result := evaluate (.fuzzy (.edits 2 true) ["n"] (.build ["n"] records) records) .root
      Tree.atMostFive w
    0 ∉ result.members ∧ result.score 0 = w.score 0 := by
  intro records w result
  have hdropped : 0 ∉ result.members := by decide
  exact ⟨hdropped, (score_evaluate_fuzzy_of_dropped (.edits 2 true) ["n"] (.build ["n"] records) records
    Tree.atMostFive .root (by decide) (by decide) hdropped (by decide)).1⟩

/-- The tree of the query `n:>5 name:x`. -/
def largeAndNamed : Tree :=
  .node list [
    .node search [.node searchType [.node group [
      .leaf (.ofText .searchTerm "n" 0),
      .leaf (.ofKind .groupTerminator 1),
      .node term [
        .node comparison [.leaf (.ofKind .gt 2)],
        .leaf ⟨.number, .number 5, 3⟩]]]],
    .node list [
      .node search [.node searchType [.node group [
        .leaf (.ofText .searchTerm "name" 5),
        .leaf (.ofKind .groupTerminator 9),
        .node term [.node searchTerm [.leaf (.ofText .searchTerm "x" 10)]]]]],
      .node list []]]

/-- A record that is named but not large is dropped, and has a score for its name. -/
theorem score_evaluate_torn :
    let records : List Record := [.object [("n", .number (.integer 3)), ("name", .string "x")]]
    let w : WorkingSet Float := .full 1
    let result := evaluate (.fuzzy (.edits 2 true) [] [] records) .root largeAndNamed w
    0 ∈ w.members ∧ 0 ∉ result.members ∧ result.score 0 ≠ w.score 0 := by
  decide +kernel

end RecordSearch.Search
