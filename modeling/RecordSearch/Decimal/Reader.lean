import RecordSearch.Decimal.Binary

/-! Reading a number from text. The text is an optional sign and then either `inf`, `infinity` or
    `nan` in any case, or digits with an optional point and an optional power of ten; nothing may
    follow. The value is the double nearest to the decimal. -/

namespace RecordSearch.Decimal

/-- The value of a run of decimal digits. -/
def natOfDigits (cs : List Char) : Nat := cs.foldl (fun n c => 10 * n + (c.toNat - '0'.toNat)) 0

/-- The digits at the head of the text, and the rest. -/
def spanDigits (cs : List Char) : List Char × List Char :=
  (cs.takeWhile Char.isDigit, cs.dropWhile Char.isDigit)

/-- The double nearest to `significand * 10 ^ exponent`. Decimals far outside the range of doubles
    are settled by their order of magnitude. -/
def nearest (significand : Nat) (exponent : Int) : Float :=
  let order := exponent + (Nat.toDigits 10 significand).length
  if significand = 0 ∨ order < -330 then Float.ofScientific 0 false 0
  else if order > 310 then Float.ofBits 0x7ff0000000000000
  else Float.ofScientific significand (exponent < 0) exponent.natAbs

/-- An optional sign, and the rest. -/
def spanSign : List Char → Bool × List Char
  | '-' :: cs => (true, cs)
  | '+' :: cs => (false, cs)
  | cs => (false, cs)

/-- A power of ten: nothing, or `e` and an optionally signed run of digits to the end. -/
def readExponent : List Char → Option Int
  | [] => some 0
  | c :: cs =>
    if c = 'e' ∨ c = 'E' then
      let (negative, digits) := spanSign cs
      if digits.isEmpty ∨ !digits.all Char.isDigit then none
      else
        let n := natOfDigits digits
        some (if negative then -n else n)
    else none

/-- An unsigned decimal: digits with an optional point among or beside them, then a power of ten. -/
def readUnsigned (cs : List Char) : Option Float :=
  let (whole, rest) := spanDigits cs
  let (fraction, rest) := match rest with
    | '.' :: rest => spanDigits rest
    | rest => ([], rest)
  if whole.isEmpty ∧ fraction.isEmpty then none
  else (readExponent rest).map fun exponent =>
    nearest (natOfDigits (whole ++ fraction)) (exponent - fraction.length)

/-- The names of the numbers that have no digits. -/
def readName (cs : List Char) : Option Float :=
  let name := cs.map Char.toLower
  if name = "inf".toList ∨ name = "infinity".toList then some (Float.ofBits 0x7ff0000000000000)
  else if name = "nan".toList then some (Float.ofBits 0x7ff8000000000000)
  else none

/-- The number that the text spells, if it spells one. -/
def read (cs : List Char) : Option Float :=
  let (negative, rest) := spanSign cs
  ((readName rest).or (readUnsigned rest)).map fun x => if negative then -x else x

/-- The finite number that the text spells, if it spells one. -/
def readFinite (cs : List Char) : Option Float := (read cs).filter isFinite

end RecordSearch.Decimal
