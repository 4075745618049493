import RecordSearch.Decimal.Binary

/-! The fewest decimal digits that read back as a double. The reals that round to
    `significand * 2 ^ exponent` form an interval, whose ends belong to it exactly when the
    significand is even. The decimal grids `10 ^ k` are tried from coarse to fine; the first that
    has a point in the interval has one next to the value, and of two such points the nearer is
    taken. -/

namespace RecordSearch.Decimal

/-- A natural number of units of a power of ten. -/
structure Digits where
  significand : Nat
  exponent : Int
  deriving DecidableEq, Repr

/-- Which of two equally near numbers is taken. -/
inductive Tie where
  | up
  | toEven
  deriving DecidableEq, Repr

/-- Whether to go up between two neighbours, given how far the value is from the lower one and from
    the upper one. -/
def Tie.goesUp (tie : Tie) (lower below above : Nat) : Bool :=
  if below = above then
    match tie with
    | .up => true
    | .toEven => lower % 2 == 1
  else above < below

/-- The ends of the interval of reals that round to a double, in quarters of its last binary
    place. Below a power of two the doubles lie twice as close. -/
def roundingInterval (significand : Nat) (exponent : Int) : Nat × Nat :=
  let lo := if significand = Nat.pow 2 52 ∧ exponent > -1074 then 4 * significand - 1
    else 4 * significand - 2
  (lo, 4 * significand + 2)

/-- The neighbour of the double on the grid `10 ^ k` that reads back as it, if there is one. -/
def onGrid (tie : Tie) (significand : Nat) (exponent k : Int) : Option Nat :=
  let quarter := exponent - 2
  let binary := Nat.pow 2 quarter.toNat * Nat.pow 10 (-k).toNat
  let unit := Nat.pow 10 k.toNat * Nat.pow 2 (-quarter).toNat
  let (lo, hi) := roundingInterval significand exponent
  let value := 4 * significand * binary
  let fits (c : Nat) : Bool :=
    if significand % 2 = 0 then lo * binary ≤ c * unit && c * unit ≤ hi * binary
    else lo * binary < c * unit && c * unit < hi * binary
  let c := value / unit
  match fits c, fits (c + 1) with
  | false, false => none
  | true, false => some c
  | false, true => some (c + 1)
  | true, true =>
    some (if tie.goesUp c (value - c * unit) ((c + 1) * unit - value) then c + 1 else c)

/-- The first grid, from `10 ^ k` towards finer ones, with a point that reads back. -/
def searchGrids (tie : Tie) (significand : Nat) (exponent : Int) : Nat → Int → Digits
  | 0, _ => ⟨significand * Nat.pow 2 exponent.toNat, 0⟩
  | fuel + 1, k =>
    match onGrid tie significand exponent k with
    | some c => ⟨c, k⟩
    | none => searchGrids tie significand exponent fuel (k - 1)

/-- The fewest digits that read back as `significand * 2 ^ exponent`. The search starts above the
    value, so twenty grids hold the seventeen digits that always suffice. -/
def shortest (tie : Tie) (significand : Nat) (exponent : Int) : Digits :=
  if significand = 0 then ⟨0, 0⟩
  else
    let top := (Nat.log2 significand + exponent + 1) * 30103 / 100000 + 1
    searchGrids tie significand exponent 20 top

end RecordSearch.Decimal
