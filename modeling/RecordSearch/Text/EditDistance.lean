/-! How many edits turn one text into another: insertions, deletions and replacements of a
    character and, if asked for, swaps of two neighbours, no part of the text being edited twice.
    The distances from one text to every end piece of another form a row, and each row comes from
    the one or two before it. -/

namespace RecordSearch.Text

/-- The lengths of the end pieces of a text, from the whole of it to nothing. -/
def lengths : List Char → List Nat
  | [] => [0]
  | _ :: cs => (cs.length + 1) :: lengths cs

/-- The row of a text with one more character `c` in front, over the end pieces of another text.
    `row` is the row without that character; `swap` is the next character and the row without
    both. -/
def nextRow (c : Char) (swap : Option (Char × List Nat)) : List Char → List Nat → List Nat
  | [], row => [row.headD 0 + 1]
  | d :: ds, row =>
    let rest := nextRow c (swap.map fun (next, before) => (next, before.tail)) ds row.tail
    let replaced := row.tail.headD 0 + (if c = d then 0 else 1)
    let best := min replaced (min (row.headD 0 + 1) (rest.headD 0 + 1))
    let best := match swap, ds with
      | some (next, before), e :: _ =>
        if c = e ∧ next = d then min best (before.tail.tail.headD 0 + 1) else best
      | _, _ => best
    best :: rest

/-- The distances from a text to every end piece of `other`, and the same for the text without its
    first character. -/
def distanceRows (transpositions : Bool) (other : List Char) : List Char → List Nat × List Nat
  | [] => (lengths other, [])
  | c :: cs =>
    let (row, before) := distanceRows transpositions other cs
    let swap := if transpositions then cs.head?.map fun next => (next, before) else none
    (nextRow c swap other row, row)

/-- The number of edits between two texts. -/
def editDistance (transpositions : Bool) (a b : List Char) : Nat :=
  (distanceRows transpositions b a).1.headD 0

/-- The number of edits between two texts, if there are no more than `most`. -/
def distanceUpTo (most : Nat) (transpositions : Bool) (a b : List Char) : Option Nat :=
  let distance := editDistance transpositions a b
  if distance ≤ most then some distance else none

end RecordSearch.Text
