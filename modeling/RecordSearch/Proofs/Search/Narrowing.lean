import RecordSearch.Proofs.Search.Scores

/-! Evaluation only narrows. Terms and connectives take members away and never bring one in or move one,
    whatever form a tree has and whatever records an index names; and they leave a score for every record
    of the dataset (`evaluate_narrows`). Filtering leaves the scores themselves as they are. -/

namespace RecordSearch.Search

open RecordSearch.Query (Tree Token)

variable {α : Type}

/-- What is done to a working set leaves some of its members, in their order. -/
def Narrows (f : WorkingSet α → WorkingSet α) : Prop := ∀ w, (f w).members.Sublist w.members

/-- What is done to a working set leaves the scores as they are. -/
def LeavesScores (f : WorkingSet α → WorkingSet α) : Prop := ∀ w, (f w).scores = w.scores

namespace Comparator

/-! ### Filtering -/

theorem narrows_joinMembers {f g : WorkingSet α → WorkingSet α} (hf : Narrows f) (hg : Narrows g) :
    ∀ connective, Narrows (joinMembers connective f g)
  | .and, w => (hg (f w)).trans (hf w)
  | .or, _ => List.filter_sublist

theorem leavesScores_joinMembers {f g : WorkingSet α → WorkingSet α} (hf : LeavesScores f)
    (hg : LeavesScores g) : ∀ connective, LeavesScores (joinMembers connective f g)
  | .and, w => (hg (f w)).trans (hf w)
  | .or, _ => rfl

theorem narrows_binary (records : List Record) : (binary (α := α) records).Keeps Narrows where
  rest w := List.Sublist.refl w.members
  clear w := List.nil_sublist w.members
  search _ _ _ := List.filter_sublist
  join connective _ _ hf hg := narrows_joinMembers hf hg connective

theorem leavesScores_binary (records : List Record) :
    (binary (α := α) records).Keeps LeavesScores where
  rest _ := rfl
  clear _ := rfl
  search _ _ _ := rfl
  join connective _ _ hf hg := leavesScores_joinMembers hf hg connective

/-! ### Ranking -/

variable [Arithmetic α] {measure : Measure} {indexFields : List String} {indexes : Indexes}
  {records : List Record}

theorem narrows_rankMatches (flags : Flags) (term : Token) :
    Narrows (α := α) (rankMatches measure indexFields indexes records flags term) := by
  intro w
  cases hoperator : flags.operator with
  | none => rw [members_rankMatches hoperator]
  | some order =>
    rw [rankMatches_of_isSome (by rw [hoperator]; rfl)]
    exact List.filter_sublist

/-- A connective takes its members from the data and not from its operands, so it narrows whatever these
    do. -/
theorem narrows_joinScores (connective : Connective) (f g : WorkingSet α → WorkingSet α) :
    Narrows (joinScores connective f g) := by
  intro w
  rw [members_joinScores]
  exact List.filter_sublist

theorem narrows_fuzzy : (fuzzy (α := α) measure indexFields indexes records).Keeps Narrows where
  rest w := List.Sublist.refl w.members
  clear w := List.nil_sublist w.members
  search := narrows_rankMatches
  join connective f g _ _ := narrows_joinScores connective f g

/-- The comparator of any setup narrows. -/
theorem narrows_comparator (s : Setup) (indexes : Indexes) (records : List Record) :
    (s.comparator indexes records : Comparator (WorkingSet α)).Keeps Narrows := by
  rw [Setup.comparator]
  cases s.strategy with
  | binary => exact narrows_binary records
  | fuzzy measure => exact narrows_fuzzy

end Comparator

/-- Evaluating any tree leaves some of the members, in their order, and a score for every record; the
    scores are the same as before if it filters. -/
theorem evaluate_narrows [Arithmetic α] (measure : Measure) (indexFields : List String)
    (indexes : Indexes) (records : List Record) (t : Tree) (flags : Flags) (w : WorkingSet α) :
    let filtered := evaluate (.binary records) flags t w
    let ranked := evaluate (.fuzzy measure indexFields indexes records) flags t w
    (filtered.members.Sublist w.members ∧ filtered.capacity = w.capacity ∧ filtered.scores = w.scores) ∧
      ranked.members.Sublist w.members ∧ ranked.capacity = w.capacity := by
  intro filtered ranked
  refine ⟨⟨?_, ?_, ?_⟩, ?_, ?_⟩
  · exact evaluate_keeps (Comparator.narrows_binary records) t flags w
  · exact evaluate_keeps (Comparator.keeps_binary records) t flags w
  · exact evaluate_keeps (Comparator.leavesScores_binary records) t flags w
  · exact evaluate_keeps Comparator.narrows_fuzzy t flags w
  · exact evaluate_keeps Comparator.keeps_fuzzy t flags w

end RecordSearch.Search
