import RecordSearch.Text.EscapeTable
import RecordSearch.Text.Blank

/-! A quoted form of text that shows every character: quotes and backslashes are escaped, line ends,
    tabs and the null have short escapes, and characters that could not be seen are written by
    number. Distinct texts have distinct quoted forms. -/

namespace RecordSearch.Text

/-- Whether a character is shown by number. -/
def isEscaped (c : Char) : Bool := inRanges escapedRanges c

/-- The number of a character in hexadecimal, as it stands between the braces. -/
def hexOf (c : Char) : List Char := Nat.toDigits 16 c.toNat

/-- One character of a quoted text. -/
def escapeChar (c : Char) : List Char :=
  if c = '"' then ['\\', '"']
  else if c = '\\' then ['\\', '\\']
  else if c = '\n' then ['\\', 'n']
  else if c = '\r' then ['\\', 'r']
  else if c = '\t' then ['\\', 't']
  else if c.toNat = 0 then ['\\', '0']
  else if isEscaped c then '\\' :: 'u' :: '\x7b' :: hexOf c ++ ['\x7d']
  else [c]

/-- The text between double quotes, with escapes. -/
def escape (s : String) : String :=
  String.ofList ('"' :: s.toList.flatMap escapeChar ++ ['"'])

end RecordSearch.Text
