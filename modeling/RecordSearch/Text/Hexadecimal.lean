/-! Numbers written in base sixteen, with small or capital letters, and the characters they stand
    for. -/

namespace RecordSearch.Text

/-- The value of a hexadecimal digit. -/
def hexDigit (c : Char) : Option Nat :=
  if '0' ≤ c ∧ c ≤ '9' then some (c.toNat - '0'.toNat)
  else if 'a' ≤ c ∧ c ≤ 'f' then some (c.toNat - 'a'.toNat + 10)
  else if 'A' ≤ c ∧ c ≤ 'F' then some (c.toNat - 'A'.toNat + 10)
  else none

/-- The number that digits spell, if all of them are hexadecimal. -/
def hexValue (cs : List Char) : Option Nat :=
  cs.foldlM (fun n c => (hexDigit c).map (16 * n + ·)) 0

/-- The character of a code point, unless it is half of a pair or out of range. -/
def charOf (n : Nat) : Option Char := if n.isValidChar then some (Char.ofNat n) else none

end RecordSearch.Text
