import RecordSearch.Decimal.Binary
import RecordSearch.Decimal.Reader
import RecordSearch.Text.Hexadecimal
import RecordSearch.Toml.Value

/-! Words of a TOML document that stand without quotation marks: truth values, integers, floats,
    dates and times. An underscore may stand between two digits of a number. -/

namespace RecordSearch.Toml

/-! ### Numbers -/

/-- The digits of a number without the single underscores between them. -/
def ungroup (isDigit : Char → Bool) : List Char → Option (List Char)
  | [] => none
  | [c] => if isDigit c then some [c] else none
  | c :: '_' :: cs => if isDigit c then (ungroup isDigit cs).map (c :: ·) else none
  | c :: cs => if isDigit c then (ungroup isDigit cs).map (c :: ·) else none

/-- The digits of a whole number, which begin with a zero only if they are no more than that. -/
def wholeDigits (cs : List Char) : Option (List Char) :=
  (ungroup Char.isDigit cs).filter fun ds => ds.length = 1 ∨ ds.head? ≠ some '0'

/-- The value of digits in base eight or two. -/
def valueIn (base : Nat) (ds : List Char) : Nat :=
  ds.foldl (fun n c => base * n + (c.toNat - '0'.toNat)) 0

/-- A digit in base eight. -/
def isOctal (c : Char) : Bool := '0' ≤ c && c ≤ '7'

/-- A digit in base two. -/
def isBinary (c : Char) : Bool := c = '0' || c = '1'

/-- A digit in base sixteen. -/
def isHexadecimal (c : Char) : Bool := (Text.hexDigit c).isSome

/-- The integers that can be read. -/
def inRange (n : Int) : Bool := -(Nat.pow 2 127 : Int) ≤ n && n < (Nat.pow 2 128 : Int)

/-- The integer that a word spells. Only a decimal one has a sign. -/
def readInteger (cs : List Char) : Option Int :=
  let n? : Option Int := match cs with
    | '0' :: 'x' :: ds => (ungroup isHexadecimal ds).bind fun ds => (Text.hexValue ds).map Int.ofNat
    | '0' :: 'o' :: ds => (ungroup isOctal ds).map fun ds => (valueIn 8 ds : Int)
    | '0' :: 'b' :: ds => (ungroup isBinary ds).map fun ds => (valueIn 2 ds : Int)
    | cs =>
      let (negative, ds) := Decimal.spanSign cs
      (wholeDigits ds).map fun ds =>
        let n := Decimal.natOfDigits ds
        if negative then -n else n
  n?.filter inRange

/-- A digit or an underscore. -/
def isGrouped (c : Char) : Bool := c.isDigit || c = '_'

/-- The digits after the point, and what follows them; without a point there are none. -/
def readFraction : List Char → Option (List Char × List Char)
  | '.' :: cs =>
    (ungroup Char.isDigit (cs.takeWhile isGrouped)).map fun ds => (ds, cs.dropWhile isGrouped)
  | cs => some ([], cs)

/-- The power of ten to the end of the word; without one it is zero. -/
def readPower : List Char → Option Int
  | [] => some 0
  | c :: cs =>
    if c = 'e' ∨ c = 'E' then
      let (negative, ds) := Decimal.spanSign cs
      (ungroup Char.isDigit ds).map fun ds =>
        let n := Decimal.natOfDigits ds
        if negative then -n else n
    else none

/-- The finite float that an unsigned word spells; it has a fraction or a power of ten. -/
def readUnsigned (cs : List Char) : Option Float :=
  match wholeDigits (cs.takeWhile isGrouped), readFraction (cs.dropWhile isGrouped) with
  | some whole, some (fraction, rest) =>
    if fraction.isEmpty ∧ rest.isEmpty then none
    else (readPower rest).bind fun power =>
      let x := Decimal.nearest (Decimal.natOfDigits (whole ++ fraction)) (power - fraction.length)
      if Decimal.isFinite x then some x else none
  | _, _ => none

/-- The float that a word spells. -/
def readFloat (cs : List Char) : Option Float :=
  let (negative, rest) := Decimal.spanSign cs
  let x? :=
    if rest = ['i', 'n', 'f'] then some (Float.ofBits 0x7ff0000000000000)
    else if rest = ['n', 'a', 'n'] then some (Float.ofBits 0x7ff8000000000000)
    else readUnsigned rest
  x?.map fun x => if negative then -x else x

/-! ### Dates and times -/

/-- The number that two digits spell, and what follows them. -/
def twoDigits : List Char → Option (Nat × List Char)
  | a :: b :: cs =>
    if a.isDigit ∧ b.isDigit then some (Decimal.natOfDigits [a, b], cs) else none
  | _ => none

/-- Two digits after a given character, and what follows them. -/
def twoDigitsAfter (separator : Char) : List Char → Option (Nat × List Char)
  | c :: cs => if c = separator then twoDigits cs else none
  | [] => none

/-- The number of days of a month. -/
def daysIn (year month : Nat) : Nat :=
  if month = 2 then
    if year % 4 = 0 ∧ (year % 100 ≠ 0 ∨ year % 400 = 0) then 29 else 28
  else if month = 4 ∨ month = 6 ∨ month = 9 ∨ month = 11 then 30
  else 31

/-- What follows a date. -/
def afterDate (cs : List Char) : Option (List Char) := do
  let (century, cs) ← twoDigits cs
  let (year, cs) ← twoDigits cs
  let (month, cs) ← twoDigitsAfter '-' cs
  let (day, cs) ← twoDigitsAfter '-' cs
  if 1 ≤ month ∧ month ≤ 12 ∧ 1 ≤ day ∧ day ≤ daysIn (100 * century + year) month then some cs
  else none

/-- What follows the fraction of a second, if there is one. -/
def afterFraction : List Char → Option (List Char)
  | '.' :: cs => if (cs.takeWhile Char.isDigit).isEmpty then none else cs.dropWhile Char.isDigit
  | cs => some cs

/-- What follows a time. The seconds may be left out. -/
def afterTime (cs : List Char) : Option (List Char) := do
  let (hour, cs) ← twoDigits cs
  let (minute, cs) ← twoDigitsAfter ':' cs
  if 23 < hour ∨ 59 < minute then none
  else match twoDigitsAfter ':' cs with
    | some (second, cs) => if 60 < second then none else afterFraction cs
    | none => if cs.head? = some ':' then none else some cs

/-- Whether the text is a distance from universal time, or nothing. -/
def isOffset : List Char → Bool
  | [] => true
  | sign :: cs =>
    if sign = 'Z' ∨ sign = 'z' then cs.isEmpty
    else if sign = '+' ∨ sign = '-' then
      match twoDigits cs with
      | some (hours, cs) =>
        match twoDigitsAfter ':' cs with
        | some (minutes, cs) => cs.isEmpty && hours ≤ 23 && minutes ≤ 59
        | none => false
      | none => false
    else false

/-- Whether the text is a date, a time, or both. -/
def isMoment (cs : List Char) : Bool :=
  match afterDate cs with
  | some [] => true
  | some (separator :: cs) =>
    (separator = 'T' || separator = 't' || separator = ' ')
      && ((afterTime cs).map isOffset).getD false
  | none => (afterTime cs).any List.isEmpty

/-! ### Words -/

/-- A character of a word without quotation marks. -/
def isWordChar (c : Char) : Bool := c.isAlphanum || "_+-.:".toList.contains c

/-- The word at the head of the text, and what follows it. A blank may stand between a date and a
    time. -/
def spanWord (cs : List Char) : List Char × List Char :=
  let word := cs.takeWhile isWordChar
  let rest := cs.dropWhile isWordChar
  match rest with
  | ' ' :: c :: more =>
    if afterDate word = some [] ∧ c.isDigit then
      (word ++ ' ' :: (c :: more).takeWhile isWordChar, (c :: more).dropWhile isWordChar)
    else (word, rest)
  | rest => (word, rest)

/-- The value that a word without quotation marks spells. -/
def readWord (word : List Char) : Option Value :=
  if word = ['t', 'r', 'u', 'e'] then some (.bool true)
  else if word = ['f', 'a', 'l', 's', 'e'] then some (.bool false)
  else match readInteger word with
    | some n => some (.integer n)
    | none =>
      match readFloat word with
      | some x => some (.float x)
      | none => if isMoment word then some (.moment (String.ofList word)) else none

end RecordSearch.Toml
