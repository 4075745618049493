import RecordSearch.Json.Value
import RecordSearch.Decimal.Reader
import RecordSearch.Text.Hexadecimal

/-! Reading JSON text. Arrays and objects may be nested 127 deep. A number keeps as many digits as
    fit 64 bits; digits after those count only by their place, and the double is that integer
    scaled by a power of ten, with one rounding per operation. -/

namespace RecordSearch.Json

/-! ### Numbers -/

/-- Takes digits into a number as long as it fits 64 bits: the number, how many digits it took and
    how many were left. -/
def takeDigits (n : Nat) : List Char → Nat × Nat × Nat
  | [] => (n, 0, 0)
  | c :: cs =>
    let m := 10 * n + (c.toNat - '0'.toNat)
    if m < Nat.pow 2 64 then
      let (total, taken, left) := takeDigits m cs
      (total, taken + 1, left)
    else (n, 0, cs.length + 1)

/-- A power of ten that is a double. -/
def powerOfTen (exponent : Nat) : Float := Float.ofScientific 1 false exponent

/-- A 64-bit number scaled by a power of ten, unless that is out of range. -/
def scale (significand : Nat) (exponent : Int) : Option Float :=
  let x := Float.ofNat significand
  if exponent > 308 then if significand = 0 then some x else none
  else if 0 ≤ exponent then
    let y := x * powerOfTen exponent.toNat
    if Decimal.isFinite y then some y else none
  else if -308 ≤ exponent then some (x / powerOfTen exponent.natAbs)
  else if -616 ≤ exponent then some (x / powerOfTen 308 / powerOfTen (exponent.natAbs - 308))
  else some (Float.ofNat 0)

/-- The power of ten after `e`: its value, or its sign alone if it has too many digits. -/
def exponentPart (cs : List Char) : Option ((Int ⊕ Bool) × List Char) :=
  let (negative, cs) := Decimal.spanSign cs
  let (digits, rest) := Decimal.spanDigits cs
  if digits.isEmpty then none
  else
    let n := Decimal.natOfDigits digits
    if n < Nat.pow 2 31 then some (.inl (if negative then -n else n), rest)
    else some (.inr negative, rest)

/-- A number after its sign. -/
def unsigned (negative : Bool) (cs : List Char) : Option (Number × List Char) :=
  let (whole, rest) := Decimal.spanDigits cs
  let double (x : Float) : Number := .double (if negative then -x else x)
  if whole.isEmpty ∨ whole.length > 1 ∧ whole.head? = some '0' then none
  else
    let (n, _, dropped) := takeDigits 0 whole
    let finish (n : Nat) (exponent : Int) (rest : List Char) : Option (Number × List Char) :=
      match rest with
      | 'e' :: rest | 'E' :: rest =>
        match exponentPart rest with
        | none => none
        | some (.inl e, rest) => (scale n (exponent + e)).map fun x => (double x, rest)
        | some (.inr below, rest) =>
          if n = 0 ∨ below then some (double (Float.ofNat 0), rest) else none
      | rest => (scale n exponent).map fun x => (double x, rest)
    match rest with
    | '.' :: rest =>
      let (fraction, rest) := Decimal.spanDigits rest
      if fraction.isEmpty then none
      else
        let (n, taken, _) := takeDigits n fraction
        finish n (dropped - taken) rest
    | 'e' :: _ | 'E' :: _ => finish n dropped rest
    | _ =>
      if dropped > 0 then finish n dropped rest
      else if !negative then some (.integer n, rest)
      else if 0 < n ∧ n ≤ Nat.pow 2 63 then some (.integer (-n), rest)
      else some (double (Float.ofNat n), rest)

/-! ### Strings -/

/-- The character that an escape stands for, and how many characters the escape has after its
    backslash. A character past the basic plane is written as two halves. -/
def escapedAt : List Char → Option (Char × Nat)
  | '"' :: _ => some ('"', 1)
  | '\\' :: _ => some ('\\', 1)
  | '/' :: _ => some ('/', 1)
  | 'b' :: _ => some ('\x08', 1)
  | 'f' :: _ => some ('\x0c', 1)
  | 'n' :: _ => some ('\n', 1)
  | 'r' :: _ => some ('\r', 1)
  | 't' :: _ => some ('\t', 1)
  | 'u' :: a :: b :: c :: d :: rest =>
    match Text.hexValue [a, b, c, d] with
    | none => none
    | some high =>
      if 0xD800 ≤ high ∧ high < 0xDC00 then
        match rest with
        | '\\' :: 'u' :: a :: b :: c :: d :: _ =>
          match Text.hexValue [a, b, c, d] with
          | some low =>
            if 0xDC00 ≤ low ∧ low < 0xE000 then
              some (Char.ofNat (0x10000 + (high - 0xD800) * 0x400 + (low - 0xDC00)), 11)
            else none
          | none => none
        | _ => none
      else if 0xDC00 ≤ high ∧ high < 0xE000 then none
      else some (Char.ofNat high, 5)
  | _ => none

/-- The rest of a string after its first `skip` characters, up to the closing quote, and what
    follows it. -/
def stringRest : (skip : Nat) → List Char → Option (List Char × List Char)
  | _, [] => none
  | skip + 1, _ :: cs => stringRest skip cs
  | 0, c :: cs =>
    if c = '"' then some ([], cs)
    else if c = '\\' then
      match escapedAt cs with
      | some (escaped, length) =>
        (stringRest length cs).map fun (text, rest) => (escaped :: text, rest)
      | none => none
    else if c.toNat < 0x20 then none
    else (stringRest 0 cs).map fun (text, rest) => (c :: text, rest)

/-! ### Values -/

/-- Drops the white space of JSON. -/
def skipSpace (cs : List Char) : List Char :=
  cs.dropWhile fun c => c = ' ' || c = '\n' || c = '\t' || c = '\r'

/-- What follows a word that the text must begin with. -/
def afterWord : List Char → List Char → Option (List Char)
  | [], cs => some cs
  | w :: ws, c :: cs => if w = c then afterWord ws cs else none
  | _ :: _, [] => none

mutual

/-- A value nested less than `depth` deep, and what follows it. -/
def valueAt : (fuel depth : Nat) → List Char → Option (Value × List Char)
  | 0, _, _ => none
  | fuel + 1, depth, cs =>
    match skipSpace cs with
    | 'n' :: rest => (afterWord ['u', 'l', 'l'] rest).map fun rest => (.null, rest)
    | 't' :: rest => (afterWord ['r', 'u', 'e'] rest).map fun rest => (.bool true, rest)
    | 'f' :: rest => (afterWord ['a', 'l', 's', 'e'] rest).map fun rest => (.bool false, rest)
    | '"' :: rest =>
      (stringRest 0 rest).map fun (text, rest) => (.string (String.ofList text), rest)
    | '[' :: rest =>
      if depth ≤ 1 then none
      else match skipSpace rest with
        | ']' :: rest => some (.array [], rest)
        | rest => (itemsAt fuel (depth - 1) rest).map fun (items, rest) => (.array items, rest)
    | '\x7b' :: rest =>
      if depth ≤ 1 then none
      else match skipSpace rest with
        | '\x7d' :: rest => some (.object [], rest)
        | rest => (fieldsAt fuel (depth - 1) rest).map fun (fields, rest) =>
            (Value.ofFields fields, rest)
    | '-' :: rest => (unsigned true rest).map fun (n, rest) => (.number n, rest)
    | rest => (unsigned false rest).map fun (n, rest) => (.number n, rest)

/-- The items of an array up to its closing bracket. -/
def itemsAt : (fuel depth : Nat) → List Char → Option (List Value × List Char)
  | 0, _, _ => none
  | fuel + 1, depth, cs =>
    match valueAt fuel depth cs with
    | none => none
    | some (item, rest) =>
      match skipSpace rest with
      | ',' :: rest => (itemsAt fuel depth rest).map fun (items, rest) => (item :: items, rest)
      | ']' :: rest => some ([item], rest)
      | _ => none

/-- The fields of an object up to its closing brace. -/
def fieldsAt : (fuel depth : Nat) → List Char → Option (List (String × Value) × List Char)
  | 0, _, _ => none
  | fuel + 1, depth, cs =>
    match skipSpace cs with
    | '"' :: rest =>
      match stringRest 0 rest with
      | none => none
      | some (name, rest) =>
        match skipSpace rest with
        | ':' :: rest =>
          match valueAt fuel depth rest with
          | none => none
          | some (value, rest) =>
            match skipSpace rest with
            | ',' :: rest => (fieldsAt fuel depth rest).map fun (fields, rest) =>
                ((String.ofList name, value) :: fields, rest)
            | '\x7d' :: rest => some ([(String.ofList name, value)], rest)
            | _ => none
        | _ => none
    | _ => none

end

/-- The value that a text spells, if it spells one and nothing else. -/
def read (text : String) : Option Value :=
  let cs := text.toList
  match valueAt (2 * cs.length + 2) 128 cs with
  | some (value, rest) => if (skipSpace rest).isEmpty then some value else none
  | none => none

end RecordSearch.Json
