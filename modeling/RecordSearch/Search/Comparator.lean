import RecordSearch.Search.Index
import RecordSearch.Search.Matching
import RecordSearch.Search.WorkingSet

/-! A comparator says what a term does to the records in play and how the two operands of a
    connective are joined. The binary one keeps the records that match and leaves the scores alone.
    The fuzzy one keeps every record and adds to its score how similar it is; only comparisons drop
    records, as in the binary one, and a connective weighs the weaker operand more. -/

namespace RecordSearch.Search

open RecordSearch.Query (Token)

/-- What terms and connectives do to some data. -/
structure Comparator (δ : Type) where
  /-- Applies a term under the flags that hold for it. -/
  search : Flags → Token → δ → δ
  /-- Joins two operands, given as what each does to the data. -/
  join : Connective → (δ → δ) → (δ → δ) → δ → δ
  /-- Drops every record. -/
  clear : δ → δ

namespace Comparator

open Arithmetic

variable {α : Type} [Arithmetic α]

/-- Keeps the members that match a term, or under odd negation those that do not. -/
def filterMatches (records : List Record) (flags : Flags) (term : Token) (w : WorkingSet α) :
    WorkingSet α :=
  let test := TermTest.of term flags.operator
  w.retain fun id => (records[id]?).any (test.record flags.scope) != flags.exclude

/-- Both operands one after the other, or the members that either of them keeps. -/
def joinMembers : Connective → (WorkingSet α → WorkingSet α) → (WorkingSet α → WorkingSet α) →
    WorkingSet α → WorkingSet α
  | .and, left, right, w => right (left w)
  | .or, left, right, w =>
    let l := left w
    let r := right w
    w.retain fun id => l.hasMember id || r.hasMember id

/-- The comparator that filters records. -/
def binary (records : List Record) : Comparator (WorkingSet α) where
  search := filterMatches records
  join := joinMembers
  clear := WorkingSet.cleared

/-- The score that stands for a path that a record does not have. -/
def missing : α := -ofNat 9007199254740991

/-- How similar a value is to a term, in percent; values without a text score nothing. -/
def valueScore (scorer : TermScorer) (value : Record) : α :=
  match atomicText value with
  | some text => ofNat 100 * scorer.score text
  | none => zero

/-- The score of a record at a scope, or else of all its fields together. -/
def recordScore (scorer : TermScorer) (scope : Option String) (record : Record) : α :=
  match scope with
  | some path =>
    match resolve record path with
    | some value => valueScore scorer value
    | none => missing
  | none => sum ((fieldValues record).map (valueScore scorer))

/-- The indexes that a search may use: at a scope the index of that path, else all of them. Only
    paths that are to be indexed count, and only indexes that have been built. -/
def usableIndexes (indexFields : List String) (indexes : Indexes) (scope : Option String) :
    List Index :=
  match scope with
  | some path => if indexFields.contains path then (indexes.lookup path).toList else []
  | none => indexFields.filterMap fun path => indexes.lookup path

/-- Adds to every member how similar it is to a term. -/
def scoreMembers (records : List Record) (scorer : TermScorer) (scope : Option String) (sign : α)
    (w : WorkingSet α) : WorkingSet α :=
  w.members.foldl (fun scored id =>
    match records[id]? with
    | some record => scored.addScore id (sign * recordScore scorer scope record)
    | none => scored) w

/-- Adds to every record of an index how similar it is to a term. -/
def scoreIndexed (scorer : TermScorer) (sign : α) (w : WorkingSet α) (index : Index) :
    WorkingSet α :=
  (index.hits scorer).foldl (fun scored (id, similarity) =>
    scored.addScore id (sign * ofNat 100 * similarity)) w

/-- Adds to the scores how similar records are to a term, or takes it off under odd negation. A
    comparison filters instead. -/
def rankMatches (measure : Measure) (indexFields : List String) (indexes : Indexes)
    (records : List Record) (flags : Flags) (term : Token) (w : WorkingSet α) : WorkingSet α :=
  if flags.operator.isSome then filterMatches records flags term w
  else
    let sign : α := if flags.exclude then -one else one
    let scorer := TermScorer.of measure term.lexeme
    match usableIndexes indexFields indexes flags.scope with
    | [] => scoreMembers records scorer flags.scope sign w
    | usable => usable.foldl (scoreIndexed scorer sign) w

/-- Whether a record stays, by whether each operand keeps it. -/
def keeps : Connective → Bool → Bool → Bool
  | .and, l, r => l && r
  | .or, l, r => l || r

/-- The joint score of two operands. -/
def jointScore : Connective → α → α → α
  | .and, l, r => tenths 6 * least l r + tenths 4 * greatest l r
  | .or, l, r => tenths 3 * greatest l r + tenths 7 * least l r

/-- Both operands from the same data; the joint score is given to every record that one of them
    keeps. -/
def joinScores (connective : Connective) (left right : WorkingSet α → WorkingSet α)
    (w : WorkingSet α) : WorkingSet α :=
  let l := left w
  let r := right w
  let kept := w.retain fun id => keeps connective (l.hasMember id) (r.hasMember id)
  (l.members ++ r.members).foldl (fun joined id =>
    joined.setScore id (jointScore connective (l.score id) (r.score id))) kept

/-- The comparator that ranks records. -/
def fuzzy (measure : Measure) (indexFields : List String) (indexes : Indexes)
    (records : List Record) : Comparator (WorkingSet α) where
  search := rankMatches measure indexFields indexes records
  join := joinScores
  clear := WorkingSet.cleared

end Comparator

end RecordSearch.Search
