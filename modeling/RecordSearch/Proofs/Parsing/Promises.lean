import RecordSearch.Proofs.Parsing.Reserve
import RecordSearch.Proofs.Parsing.Steering

/-! What the table of the query grammar promises to every parse. The table is evaluated once, for the
    promises of the credits, of the steering and of the reserves together (`checked_query`). -/

namespace RecordSearch.Query.Table

/-- Whether a grammar has a table and the actions of it keep the promises. -/
def checkGrammar (g : Grammar) : Bool :=
  match build g with
  | .ok t => t.checkActions
  | .error _ => false

/-- Whether a grammar has a table and the states of it keep the promises. -/
def steersGrammar (g : Grammar) : Bool :=
  match build g with
  | .ok t => t.steersStates
  | .error _ => false

/-- Whether a grammar has a table and the reserves of it keep the promises. -/
def reservesGrammar (g : Grammar) : Bool :=
  match build g with
  | .ok t => t.reservesActions
  | .error _ => false

theorem exists_of_checkGrammar {g : Grammar} (h : checkGrammar g = true) :
    ∃ t, build g = .ok t ∧ t.checkActions = true := by
  rw [checkGrammar] at h
  split at h
  · next t hbuild => exact ⟨t, hbuild, h⟩
  · exact absurd h Bool.false_ne_true

/-- All checks at once, as most of the evaluation is to build the table. -/
theorem checked_query : (checkGrammar Grammar.query && steersGrammar Grammar.query &&
    reservesGrammar Grammar.query) = true := by
  decide +kernel

theorem checkGrammar_query : checkGrammar Grammar.query = true :=
  (Bool.and_eq_true_iff.mp (Bool.and_eq_true_iff.mp checked_query).1).1

theorem steersGrammar_query : steersGrammar Grammar.query = true :=
  (Bool.and_eq_true_iff.mp (Bool.and_eq_true_iff.mp checked_query).1).2

theorem reservesGrammar_query : reservesGrammar Grammar.query = true :=
  (Bool.and_eq_true_iff.mp checked_query).2

theorem query_eq {t : Table} (hbuild : build Grammar.query = .ok t) : query = t := by
  rw [query, hbuild, built]

theorem query_spec : build Grammar.query = .ok query ∧ query.Credited := by
  obtain ⟨t, hbuild, hchecked⟩ := exists_of_checkGrammar checkGrammar_query
  rw [query_eq hbuild]
  exact ⟨hbuild, credited_of_checked hchecked⟩

theorem credited_query : query.Credited := query_spec.2

theorem automaton_query : Grammar.query.Automaton query :=
  Grammar.automaton_of_build query_spec.1

theorem steered_query : query.Steered := by
  have hchecked := steersGrammar_query
  rw [steersGrammar, query_spec.1] at hchecked
  exact steered_of_checked hchecked

theorem reserved_query : query.Reserved := by
  have hchecked := reservesGrammar_query
  rw [reservesGrammar, query_spec.1] at hchecked
  exact reserved_of_checked hchecked

end RecordSearch.Query.Table
