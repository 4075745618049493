import RecordSearch.Decimal.Binary

/-! The arithmetic of scores. Scores are computed in doubles; the same computations make sense in
    any numbers with the operations of `Arithmetic`, and exact rationals are such numbers, so what
    is true of scores up to rounding can be said of them. -/

namespace RecordSearch.Search

/-- Numbers that scores can be computed in. -/
class Arithmetic (α : Type) extends Add α, Sub α, Mul α, Div α, Neg α where
  /-- A natural number. -/
  ofNat : Nat → α
  /-- A number of tenths. -/
  tenths : Nat → α
  /-- The smaller of two numbers, the first if they are equal. -/
  least : α → α → α
  /-- The greater of two numbers, the first if they are equal. -/
  greatest : α → α → α
  /-- Whether a number is above zero. -/
  isPositive : α → Bool
  /-- Whether a hit with the first score may rank before one with the second. -/
  ranksBefore : α → α → Bool

namespace Arithmetic

variable {α : Type} [Arithmetic α]

/-- The number zero. -/
def zero : α := ofNat 0

/-- The number one. -/
def one : α := ofNat 1

/-- The sum of numbers from the left. It starts from the negated zero, which changes no number it is
    added to. -/
def sum (xs : List α) : α := xs.foldl (· + ·) (-zero)

end Arithmetic

instance : Arithmetic Float where
  ofNat := Float.ofNat
  tenths n := Float.ofScientific n true 1
  least a b := if b < a || a.isNaN then b else a
  greatest a b := if a < b || a.isNaN then b else a
  isPositive a := 0 < a
  ranksBefore a b := Decimal.ranking b ≤ Decimal.ranking a

instance : Arithmetic Rat where
  ofNat n := n
  tenths n := n / 10
  least a b := if b < a then b else a
  greatest a b := if a < b then b else a
  isPositive a := 0 < a
  ranksBefore a b := b ≤ a

end RecordSearch.Search
