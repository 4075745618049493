import RecordSearch.Search.Score

/-! The records still in play during a search, by their position in the dataset, and a score for
    every record of the dataset. A record that one branch of a query drops keeps the score it came
    in with. -/

namespace RecordSearch.Search

/-- Members in order, and the scores of the whole dataset. -/
structure WorkingSet (α : Type) where
  members : List Nat
  scores : List α

namespace WorkingSet

variable {α : Type} [Arithmetic α]

open Arithmetic (zero)

/-- Every record of a dataset, with scores of zero. -/
def full (size : Nat) : WorkingSet α := ⟨List.range size, List.replicate size zero⟩

/-- The number of records in the dataset. -/
def capacity (w : WorkingSet α) : Nat := w.scores.length

/-- The score of a record; records outside the dataset score zero. -/
def score (w : WorkingSet α) (id : Nat) : α := w.scores.getD id zero

/-- Replaces the score of a record. -/
def setScore (id : Nat) (score : α) (w : WorkingSet α) : WorkingSet α :=
  { w with scores := w.scores.set id score }

/-- Adds to the score of a record. -/
def addScore (id : Nat) (delta : α) (w : WorkingSet α) : WorkingSet α :=
  { w with scores := w.scores.modify id (· + delta) }

/-- Sets every score to zero. -/
def resetScores (w : WorkingSet α) : WorkingSet α :=
  { w with scores := w.scores.map fun _ => zero }

/-- Keeps the members that pass a test. -/
def retain (keep : Nat → Bool) (w : WorkingSet α) : WorkingSet α :=
  { w with members := w.members.filter keep }

/-- Drops every member. -/
def cleared (w : WorkingSet α) : WorkingSet α := { w with members := [] }

/-- Adds a record to the dataset and to the members. -/
def push (w : WorkingSet α) : WorkingSet α :=
  ⟨w.members ++ [w.scores.length], w.scores ++ [zero]⟩

/-- Whether a record of the dataset is a member. -/
def hasMember (w : WorkingSet α) (id : Nat) : Bool :=
  decide (id < w.scores.length) && w.members.contains id

/-- Whether each record of the dataset is a member. -/
def membership (w : WorkingSet α) : List Bool :=
  (List.range w.scores.length).map w.hasMember

/-- Takes over the scores of another set. -/
def absorbScores (w other : WorkingSet α) : WorkingSet α := { w with scores := other.scores }

end WorkingSet

end RecordSearch.Search
