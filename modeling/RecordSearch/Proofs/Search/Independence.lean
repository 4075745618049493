import Mathlib.Data.List.Nodup
import Mathlib.Data.List.Sort
import RecordSearch.Proofs.Search.Dropping
import RecordSearch.Proofs.Search.Narrowing

/-! Records have no influence on each other where no index is used. What becomes of a record, and its score,
    are decided by that record alone, in whatever list and at whatever place it stands
    (`sameAt_evaluateAll`). So a query makes of two lists of records together what it makes of each, put side
    by side (`evaluate_append`). -/

namespace RecordSearch.Search

open RecordSearch.Query (Tree Token)
open WorkingSet (creditsTo)

variable {α : Type}

/-! ### Places -/

/-- Two working sets are the same at a place in each: as often a member, and with the same score. -/
structure WorkingSet.SameAt (i j : Nat) (w w' : WorkingSet α) : Prop where
  count_eq : w.members.count i = w'.members.count j
  scores_eq : w.scores[i]? = w'.scores[j]?

namespace WorkingSet.SameAt

variable {i j : Nat} {w w' : WorkingSet α}

theorem mem_iff (h : SameAt i j w w') : i ∈ w.members ↔ j ∈ w'.members := by
  rw [← List.count_pos_iff, h.count_eq, List.count_pos_iff]

theorem hasMember_eq (h : SameAt i j w w') : w.hasMember i = w'.hasMember j := by
  have hlength : i < w.scores.length ↔ j < w'.scores.length := by
    rw [← not_iff_not, Nat.not_lt, Nat.not_lt, ← List.getElem?_eq_none_iff, h.scores_eq,
      List.getElem?_eq_none_iff]
  rw [Bool.eq_iff_iff]
  simp only [hasMember, Bool.and_eq_true, decide_eq_true_iff, List.contains_iff_mem, hlength,
    h.mem_iff]

theorem retain {keep keep' : Nat → Bool} (h : SameAt i j w w') (hkeep : keep i = keep' j) :
    SameAt i j (w.retain keep) (w'.retain keep') where
  count_eq := by
    rw [WorkingSet.retain, WorkingSet.retain]
    cases hkept : keep' j with
    | true => rw [List.count_filter (hkeep.trans hkept), List.count_filter hkept, h.count_eq]
    | false =>
      have hout : i ∉ w.members.filter keep := fun hmem =>
        Bool.false_ne_true ((hkeep.trans hkept).symm.trans (List.mem_filter.mp hmem).2)
      have hout' : j ∉ w'.members.filter keep' := fun hmem =>
        Bool.false_ne_true (hkept.symm.trans (List.mem_filter.mp hmem).2)
      rw [List.count_eq_zero.mpr hout, List.count_eq_zero.mpr hout']
  scores_eq := h.scores_eq

theorem cleared (h : SameAt i j w w') : SameAt i j w.cleared w'.cleared where
  count_eq := rfl
  scores_eq := h.scores_eq

variable [Arithmetic α]

theorem score_eq (h : SameAt i j w w') : w.score i = w'.score j := by
  rw [WorkingSet.score_eq, WorkingSet.score_eq, h.scores_eq]

theorem full {size size' : Nat} (h : i < size ↔ j < size') :
    SameAt i j (.full size : WorkingSet α) (.full size') where
  count_eq := by
    simp only [WorkingSet.full, List.nodup_range.count, List.mem_range, h]
  scores_eq := by
    simp only [WorkingSet.full, List.getElem?_replicate, h]

theorem addScores {credits credits' : List (Nat × α)} (h : SameAt i j w w')
    (hcredits : creditsTo i credits = creditsTo j credits') :
    SameAt i j (w.addScores credits) (w'.addScores credits') where
  count_eq := by
    rw [members_addScores, members_addScores, h.count_eq]
  scores_eq := by
    rw [getElem?_addScores, getElem?_addScores, h.scores_eq, hcredits]

theorem joinScores {f g f' g' : WorkingSet α → WorkingSet α} (h : SameAt i j w w')
    (hf : SameAt i j (f w) (f' w')) (hg : SameAt i j (g w) (g' w')) (connective : Connective) :
    SameAt i j (Comparator.joinScores connective f g w)
      (Comparator.joinScores connective f' g' w') where
  count_eq := by
    rw [Comparator.members_joinScores, Comparator.members_joinScores]
    exact (h.retain (by rw [hf.hasMember_eq, hg.hasMember_eq])).count_eq
  scores_eq := by
    simp only [Comparator.getElem?_joinScores, hf.mem_iff, hg.mem_iff, hf.score_eq, hg.score_eq,
      h.scores_eq]

end WorkingSet.SameAt

/-! ### Terms and connectives -/

/-- What is done to two working sets leaves them the same at two places. -/
def SameAfter (i j : Nat) (f f' : WorkingSet α → WorkingSet α) : Prop :=
  ∀ w w', WorkingSet.SameAt i j w w' → WorkingSet.SameAt i j (f w) (f' w')

namespace Comparator

section Filtering

variable {i j : Nat} {records records' : List Record}

theorem sameAfter_joinMembers {f g f' g' : WorkingSet α → WorkingSet α} (hf : SameAfter i j f f')
    (hg : SameAfter i j g g') :
    ∀ connective, SameAfter i j (joinMembers connective f g) (joinMembers connective f' g')
  | .and, w, w', h => hg _ _ (hf w w' h)
  | .or, w, w', h => h.retain (by rw [(hf w w' h).hasMember_eq, (hg w w' h).hasMember_eq])

variable (hrecord : records[i]? = records'[j]?)

include hrecord

theorem sameAfter_filterMatches (flags : Flags) (term : Token) :
    SameAfter (α := α) i j (filterMatches records flags term) (filterMatches records' flags term) :=
  fun _ _ h => h.retain (by rw [hrecord])

/-- A filter does the same to a record in two lists. -/
theorem relates_binary :
    (binary (α := α) records).Relates (binary records') (SameAfter i j) where
  rest _ _ h := h
  clear _ _ h := h.cleared
  search flags term := sameAfter_filterMatches hrecord flags term
  join connective _ _ _ _ hf hg := sameAfter_joinMembers hf hg connective

end Filtering

section Ranking

variable [Arithmetic α] {measure : Measure} {indexFields : List String} {indexes : Indexes}
  {i j : Nat} {records records' : List Record}

theorem usableIndexes_eq_nil (hindexes : ∀ path ∈ indexFields, indexes.lookup path = none)
    (scope : Option String) : usableIndexes indexFields indexes scope = [] := by
  rw [usableIndexes_eq, List.flatMap_eq_nil_iff]
  intro path hpath
  rw [hindexes path (mem_indexedPaths hpath), Option.toList_none]

/-- A scan adds to a record as often as it is a member. -/
theorem creditsTo_scanCredits_eq (hrecord : records[i]? = records'[j]?) {members members' : List Nat}
    (hcount : members.count i = members'.count j) (scorer : TermScorer) (scope : Option String)
    (sign : α) : creditsTo i (scanCredits records scorer scope sign members) =
      creditsTo j (scanCredits records' scorer scope sign members') := by
  rw [creditsTo_scanCredits, creditsTo_scanCredits, List.filter_beq, List.filter_beq, hcount,
    List.filterMap_replicate, List.filterMap_replicate, hrecord]

variable (hindexes : ∀ path ∈ indexFields, indexes.lookup path = none)
  (hrecord : records[i]? = records'[j]?)

include hindexes hrecord

theorem sameAfter_rankMatches (flags : Flags) (term : Token) :
    SameAfter (α := α) i j (rankMatches measure indexFields indexes records flags term)
      (rankMatches measure indexFields indexes records' flags term) := by
  intro w w' h
  cases hoperator : flags.operator with
  | none =>
    rw [rankMatches_eq_addScores hoperator, rankMatches_eq_addScores hoperator]
    refine h.addScores ?_
    rw [termCredits, termCredits, usableIndexes_eq_nil hindexes]
    exact creditsTo_scanCredits_eq hrecord h.count_eq _ _ _
  | some order =>
    have hsome : flags.operator.isSome = true := by rw [hoperator]; rfl
    rw [rankMatches_of_isSome hsome, rankMatches_of_isSome hsome]
    exact sameAfter_filterMatches hrecord flags term w w' h

/-- A ranking without indexes does the same to a record in two lists. -/
theorem relates_fuzzy : (fuzzy (α := α) measure indexFields indexes records).Relates
    (fuzzy measure indexFields indexes records') (SameAfter i j) where
  rest _ _ h := h
  clear _ _ h := h.cleared
  search flags term := sameAfter_rankMatches hindexes hrecord flags term
  join connective _ _ _ _ hf hg w w' h := h.joinScores (hf w w' h) (hg w w' h) connective

end Ranking

end Comparator

/-! ### Trees -/

variable [Arithmetic α]

/-- What a tree makes of every record of a list, from scores of zero. -/
def evaluateAll (s : Setup) (indexes : Indexes) (t : Tree) (flags : Flags) (records : List Record) :
    WorkingSet α :=
  evaluate (s.comparator indexes records) flags t (.full records.length)

section Lists

variable {s : Setup} {indexes : Indexes} {t : Tree} {flags : Flags} {records : List Record}

theorem members_evaluateAll_sublist :
    (evaluateAll s indexes t flags records : WorkingSet α).members.Sublist
      (List.range records.length) :=
  evaluate_keeps (Comparator.narrows_comparator s indexes records) t flags
    (.full records.length : WorkingSet α)

theorem lt_of_mem_evaluateAll {id : Nat}
    (hid : id ∈ (evaluateAll s indexes t flags records : WorkingSet α).members) :
    id < records.length := List.mem_range.mp (members_evaluateAll_sublist.subset hid)

theorem pairwise_evaluateAll :
    (evaluateAll s indexes t flags records : WorkingSet α).members.Pairwise (· < ·) :=
  List.pairwise_lt_range.sublist members_evaluateAll_sublist

theorem length_scores_evaluateAll :
    (evaluateAll s indexes t flags records : WorkingSet α).scores.length = records.length := by
  have hkeeps := evaluate_keeps (Comparator.keepsCapacity_comparator s indexes records) t flags
    (.full records.length : WorkingSet α)
  exact hkeeps.trans List.length_replicate

end Lists

section Together

variable {s : Setup} {indexes : Indexes}
  (hindexes : s.strategy = .binary ∨ ∀ path ∈ s.indexFields, indexes.lookup path = none)

include hindexes

/-- What becomes of a record does not depend on the records around it or on its place. -/
theorem sameAt_evaluateAll {i j : Nat} {records records' : List Record}
    (hrecord : records[i]? = records'[j]?) (t : Tree) (flags : Flags) :
    WorkingSet.SameAt (α := α) i j (evaluateAll s indexes t flags records)
      (evaluateAll s indexes t flags records') := by
  have hplace : i < records.length ↔ j < records'.length := by
    rw [← not_iff_not, Nat.not_lt, Nat.not_lt, ← List.getElem?_eq_none_iff, hrecord,
      List.getElem?_eq_none_iff]
  rw [evaluateAll, evaluateAll, Setup.comparator, Setup.comparator]
  cases hstrategy : s.strategy with
  | binary =>
    exact evaluate_relates (Comparator.relates_binary hrecord) t flags _ _ (.full hplace)
  | fuzzy measure =>
    have hnone := hindexes.resolve_left fun hbinary => by
      cases hstrategy.symm.trans hbinary
    exact evaluate_relates (Comparator.relates_fuzzy hnone hrecord) t flags _ _ (.full hplace)

variable (t : Tree) (flags : Flags) (first second : List Record)

theorem sameAt_first {id : Nat} (hid : id < first.length) :
    WorkingSet.SameAt (α := α) id id (evaluateAll s indexes t flags (first ++ second))
      (evaluateAll s indexes t flags first) :=
  sameAt_evaluateAll hindexes (List.getElem?_append_left hid) t flags

theorem sameAt_second (id : Nat) :
    WorkingSet.SameAt (α := α) (first.length + id) id
      (evaluateAll s indexes t flags (first ++ second)) (evaluateAll s indexes t flags second) := by
  refine sameAt_evaluateAll hindexes ?_ t flags
  rw [List.getElem?_append_right (Nat.le_add_right _ _), Nat.add_sub_cancel_left]

theorem members_evaluateAll_append :
    (evaluateAll s indexes t flags (first ++ second) : WorkingSet α).members =
      (evaluateAll s indexes t flags first : WorkingSet α).members ++
        (evaluateAll s indexes t flags second : WorkingSet α).members.map (first.length + ·) := by
  refine pairwise_evaluateAll.eq_of_mem_iff ?_ fun id => ?_
  · refine List.pairwise_append.mpr ⟨pairwise_evaluateAll, ?_, fun id hid id' hid' => ?_⟩
    · exact List.pairwise_map.mpr (pairwise_evaluateAll.imp fun hlt => Nat.add_lt_add_left hlt _)
    · obtain ⟨place, -, rfl⟩ := List.mem_map.mp hid'
      exact Nat.lt_add_right place (lt_of_mem_evaluateAll hid)
  · rw [List.mem_append, List.mem_map]
    by_cases hid : id < first.length
    · rw [(sameAt_first hindexes t flags first second hid).mem_iff]
      refine (or_iff_left ?_).symm
      rintro ⟨place, -, rfl⟩
      exact Nat.not_lt.mpr (Nat.le_add_right _ _) hid
    · obtain ⟨place, rfl⟩ := Nat.exists_eq_add_of_le (Nat.not_lt.mp hid)
      rw [(sameAt_second hindexes t flags first second place).mem_iff]
      constructor
      · exact fun hmem => .inr ⟨place, hmem, rfl⟩
      · rintro (hmem | ⟨other, hmem, heq⟩)
        · exact absurd (lt_of_mem_evaluateAll hmem) hid
        · rwa [← Nat.add_left_cancel heq]

theorem scores_evaluateAll_append :
    (evaluateAll s indexes t flags (first ++ second) : WorkingSet α).scores =
      (evaluateAll s indexes t flags first : WorkingSet α).scores ++
        (evaluateAll s indexes t flags second : WorkingSet α).scores := by
  have hlength : (evaluateAll s indexes t flags first : WorkingSet α).scores.length = first.length :=
    length_scores_evaluateAll
  refine List.ext_getElem? fun id => ?_
  by_cases hid : id < first.length
  · rw [(sameAt_first hindexes t flags first second hid).scores_eq,
      List.getElem?_append_left (hid.trans_eq hlength.symm)]
  · obtain ⟨place, rfl⟩ := Nat.exists_eq_add_of_le (Nat.not_lt.mp hid)
    rw [(sameAt_second hindexes t flags first second place).scores_eq,
      List.getElem?_append_right (hlength.trans_le (Nat.le_add_right _ _)), hlength,
      Nat.add_sub_cancel_left]

end Together

/-- A tree makes of two lists of records together what it makes of the first, followed by what it makes
    of the second at the places after it, if it filters, or ranks and no path has an index. -/
theorem evaluate_append (s : Setup) (indexes : Indexes)
    (hindexes : s.strategy = .binary ∨ ∀ path ∈ s.indexFields, indexes.lookup path = none)
    (t : Tree) (flags : Flags) (first second : List Record) :
    let result : List Record → WorkingSet α := evaluateAll s indexes t flags
    (result (first ++ second)).members =
        (result first).members ++ (result second).members.map (first.length + ·) ∧
      (result (first ++ second)).scores = (result first).scores ++ (result second).scores :=
  ⟨members_evaluateAll_append hindexes t flags first second,
    scores_evaluateAll_append hindexes t flags first second⟩

theorem evaluate_append_largeAndNamed :
    let small : Record := .object [("n", .number (.integer 3)), ("name", .string "x")]
    let large : Record := .object [("n", .number (.integer 7)), ("name", .string "x")]
    let result : List Record → WorkingSet Float :=
      evaluateAll ⟨.fuzzy (.edits 2 true), ["name"], true, .reset⟩ [] largeAndNamed .root
    (result [small]).members = [] ∧ (result [small, large]).members = [1] ∧
      (result [small, small, large]).members = [2] ∧
      (result [small, small, large]).scores = (result [small]).scores ++ (result [small, large]).scores := by
  intro small large result
  have hsmall : (result [small]).members = [] := by decide +kernel
  have hboth : (result [small, large]).members = [1] := by decide +kernel
  obtain ⟨hmembers, hscores⟩ := evaluate_append (α := Float)
    ⟨.fuzzy (.edits 2 true), ["name"], true, .reset⟩ [] (.inr fun _ _ => rfl) largeAndNamed .root [small]
    [small, large]
  refine ⟨hsmall, hboth, hmembers.trans ?_, hscores⟩
  rw [hsmall, hboth]
  rfl

end RecordSearch.Search
