import RecordSearch.Decimal.Shortest

/-! How a number is written down. The digits come from `shortest`; a `Layout` says when the point is
    written in place and when a power of ten is split off. Numbers of queries are always written in
    place, numbers of records as JSON has them. `fixed` writes a given count of places instead. -/

namespace RecordSearch.Decimal

/-- The decisions of a number format. -/
structure Layout where
  tie : Tie
  /-- The exponents of the leading digit that are written in place; all of them if not given. -/
  inPlace : Option (Int × Int)
  /-- What follows a number without a fraction. -/
  wholeEnd : String

/-- Numbers in queries: always in place, whole numbers without a point. -/
def Layout.query : Layout := ⟨.up, none, ""⟩

/-- Numbers in records: in place from `1e-5` up to below `1e16`, and never without a point. -/
def Layout.json : Layout := ⟨.toEven, some (-5, 15), ".0"⟩

/-- The decimal digits of a natural number. -/
def digitsOf (n : Nat) : List Char := Nat.toDigits 10 n

/-- Digits with the point written in place. -/
def positional (wholeEnd : String) (d : Digits) : String :=
  let digits := digitsOf d.significand
  if 0 ≤ d.exponent then
    String.ofList (digits ++ List.replicate d.exponent.toNat '0') ++ wholeEnd
  else
    let places := (-d.exponent).toNat
    let padded := List.replicate (places + 1 - digits.length) '0' ++ digits
    let whole := padded.length - places
    String.ofList (padded.take whole) ++ "." ++ String.ofList (padded.drop whole)

/-- Digits with one of them before the point and the power of ten split off. -/
def scientific (digits : List Char) (exponent : Int) : String :=
  let fraction := if digits.length ≤ 1 then "" else "." ++ String.ofList digits.tail
  let sign := if exponent < 0 then "-" else "+"
  String.ofList (digits.take 1) ++ fraction ++ "e" ++ sign
    ++ String.ofList (digitsOf exponent.natAbs)

/-- Writes decimal digits in a layout. -/
def Layout.write (layout : Layout) (d : Digits) : String :=
  let digits := digitsOf d.significand
  let leading := d.exponent + digits.length - 1
  match layout.inPlace with
  | none => positional layout.wholeEnd d
  | some (lo, hi) =>
    if d.significand = 0 ∨ lo ≤ leading ∧ leading ≤ hi then positional layout.wholeEnd d
    else scientific digits leading

/-- Puts a minus before a negative number. -/
def signed (negative : Bool) (text : String) : String := if negative then "-" ++ text else text

/-- The text of a double in a layout. -/
def Layout.text (layout : Layout) (x : Float) : String :=
  match magnitude x with
  | .notANumber => "NaN"
  | .infinite => signed (isNegative x) "inf"
  | .finite m q => signed (isNegative x) (layout.write (shortest layout.tie m q))

/-- The quotient of two natural numbers rounded to the nearest, a half going to the even one. -/
def roundDiv (num den : Nat) : Nat :=
  let q := num / den
  if Tie.toEven.goesUp q (num - q * den) ((q + 1) * den - num) then q + 1 else q

/-- The text of a double with exactly `places` digits after the point, which are rounded on its
    exact value. -/
def fixed (places : Nat) (x : Float) : String :=
  match magnitude x with
  | .notANumber => "NaN"
  | .infinite => signed (isNegative x) "inf"
  | .finite m q =>
    let units := roundDiv (m * Nat.pow 2 q.toNat * Nat.pow 10 places) (Nat.pow 2 (-q).toNat)
    signed (isNegative x) (positional "" ⟨units, -places⟩)

end RecordSearch.Decimal
