/-! What stands between the words of a TOML document: blanks, comments and line ends. A line ends at
    a line feed, which one carriage return may precede; a carriage return stands nowhere else, and
    no other control character than a tab stands anywhere. -/

namespace RecordSearch.Toml

/-- A blank within a line. -/
def isBlank (c : Char) : Bool := c = ' ' || c = '\t'

/-- A control character other than a tab. -/
def isControl (c : Char) : Bool := c.toNat < 0x20 && c != '\t' || c.toNat = 0x7f

/-- The text without the blanks it begins with. -/
def skipBlanks (cs : List Char) : List Char := cs.dropWhile isBlank

/-- The text without the blanks, line ends and comments it begins with. -/
def skipLines (inComment : Bool) : List Char → Option (List Char)
  | [] => some []
  | c :: cs =>
    if c = '\n' then skipLines false cs
    else if c = '\r' then if cs.head? = some '\n' then skipLines inComment cs else none
    else if inComment then if isControl c then none else skipLines true cs
    else if isBlank c then skipLines false cs
    else if c = '#' then skipLines true cs
    else some (c :: cs)

/-- The next line, if this one holds no more than blanks and a comment. -/
def nextLine (inComment : Bool) : List Char → Option (List Char)
  | [] => some []
  | c :: cs =>
    if c = '\n' then some cs
    else if c = '\r' then if cs.head? = some '\n' then nextLine inComment cs else none
    else if inComment then if isControl c then none else nextLine true cs
    else if isBlank c then nextLine false cs
    else if c = '#' then nextLine true cs
    else none

end RecordSearch.Toml
