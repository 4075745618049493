/-! A double is read off its 64 bits: a sign, and for a finite magnitude a natural significand times
    a power of two. Everything that prints a number starts from this exact value, and `ranking` is
    the total order on doubles in which they are sorted. -/

namespace RecordSearch.Decimal

/-- What the bits of a double stand for, its sign apart. -/
inductive Magnitude where
  | finite (significand : Nat) (exponent : Int)
  | infinite
  | notANumber
  deriving DecidableEq, Repr

/-- The sign bit. -/
def isNegative (x : Float) : Bool := x.toBits.toNat / Nat.pow 2 63 == 1

/-- The exact magnitude, `significand * 2 ^ exponent` when finite. -/
def magnitude (x : Float) : Magnitude :=
  let bits : Nat := x.toBits.toNat
  let exponent : Nat := bits / Nat.pow 2 52 % Nat.pow 2 11
  let fraction : Nat := bits % Nat.pow 2 52
  if exponent = 2047 then if fraction = 0 then .infinite else .notANumber
  else if exponent = 0 then .finite fraction (-1074)
  else .finite (Nat.pow 2 52 + fraction) (exponent - 1075)

/-- Whether a double is a number other than the infinities. -/
def isFinite (x : Float) : Bool :=
  match magnitude x with
  | .finite .. => true
  | _ => false

/-- The place of a double in the total order that goes from the negative infinity up, with the
    negative zero below the positive one. -/
def ranking (x : Float) : Int :=
  let bits : Nat := x.toBits.toNat
  if bits < Nat.pow 2 63 then bits else Nat.pow 2 63 - 1 - bits

end RecordSearch.Decimal
