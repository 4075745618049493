import RecordSearch.Search.Score
import RecordSearch.Text.EditDistance
import RecordSearch.Text.Lowercase

/-! How similar a value is to a term. A value that contains the term is as similar as can be. Else
    each word of the term takes the best of the words of the value, counted as the share of
    characters that need no edit, and the average of the words is taken; a word that needs more
    edits than allowed counts nothing. Letter case never counts. -/

namespace RecordSearch.Search

/-- How many edits per word are allowed, whether a swap of neighbours is one edit, and what counts the
    edits from a word to another. -/
structure Measure where
  maxDistance : Nat
  transpositions : Bool
  /-- The number of edits, if there are no more than allowed. -/
  distance : (word candidate : List Char) → Option Nat

/-- The most edits per word that a measure allows. -/
def Measure.limit : Nat := 3

/-- The measure with so many edits per word, or the most that are possible, which `count` counts when it
    knows how many are allowed and whether a swap is one. -/
def Measure.clamped (count : Nat → Bool → (word candidate : List Char) → Option Nat)
    (maxDistance : Nat) (transpositions : Bool) : Measure :=
  let allowed := min maxDistance limit
  ⟨allowed, transpositions, count allowed transpositions⟩

/-- The measure that computes the distance of two words. -/
def Measure.edits : (maxDistance : Nat) → (transpositions : Bool) → Measure :=
  .clamped Text.distanceUpTo

/-- A term made ready to be scored many times. -/
structure TermScorer where
  measure : Measure
  /-- The term in lower case, without blanks around it. -/
  term : List Char
  /-- The words of the term. -/
  words : List (List Char)

namespace TermScorer

open Arithmetic

variable {α : Type} [Arithmetic α]

/-- The scorer of a term. -/
def of (measure : Measure) (term : String) : TermScorer :=
  let term := Text.lower (Text.trim term.toList)
  ⟨measure, term, Text.words term⟩

/-- How similar a word of a value is to a word of the term. -/
def wordScore (measure : Measure) (word candidate : List Char) : α :=
  match measure.distance word candidate with
  | some distance =>
    let longest := max (max word.length candidate.length) 1
    greatest (one - ofNat distance / ofNat longest) zero
  | none => zero

/-- The score of the best of some candidates for a word of the term. -/
def bestWord (measure : Measure) (candidates : List (List Char)) (word : List Char) : α :=
  candidates.foldl (fun best candidate => greatest best (wordScore measure word candidate)) zero

/-- How similar a value is to the term. -/
def score (t : TermScorer) (value : String) : α :=
  if t.words.isEmpty then one
  else
    let value := Text.lower value.toList
    if Text.contains t.term value then one
    else sum (t.words.map (bestWord t.measure (Text.words value))) / ofNat t.words.length

end TermScorer

end RecordSearch.Search
