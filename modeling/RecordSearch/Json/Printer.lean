import RecordSearch.Json.Value

/-! Writing JSON text, without white space or with one item per line, indented by two blanks per
    level. Strings keep every character but quotes, backslashes and control characters. -/

namespace RecordSearch.Json

/-- One character of a string. -/
def escapeChar (c : Char) : List Char :=
  if c = '"' then ['\\', '"']
  else if c = '\\' then ['\\', '\\']
  else if c = '\x08' then ['\\', 'b']
  else if c = '\x0c' then ['\\', 'f']
  else if c = '\n' then ['\\', 'n']
  else if c = '\r' then ['\\', 'r']
  else if c = '\t' then ['\\', 't']
  else if c.toNat < 0x20 then
    ['\\', 'u', '0', '0', Nat.digitChar (c.toNat / 16), Nat.digitChar (c.toNat % 16)]
  else [c]

/-- A string with its quotes. -/
def quote (s : String) : String := String.ofList ('"' :: s.toList.flatMap escapeChar ++ ['"'])

namespace Value

mutual

/-- The text of a value without white space. -/
def compact : Value → String
  | .null => "null"
  | .bool b => if b then "true" else "false"
  | .number n => n.text
  | .string s => quote s
  | .array items => "[" ++ ",".intercalate (compactItems items) ++ "]"
  | .object fields => "\x7b" ++ ",".intercalate (compactFields fields) ++ "\x7d"

/-- The texts of several values. -/
def compactItems : List Value → List String
  | [] => []
  | v :: vs => v.compact :: compactItems vs

/-- The texts of several fields. -/
def compactFields : List (String × Value) → List String
  | [] => []
  | (name, v) :: rest => (quote name ++ ":" ++ v.compact) :: compactFields rest

end

/-- A line end and the indentation of a level. -/
def newline (level : Nat) : String := String.ofList ('\n' :: List.replicate (2 * level) ' ')

/-- Items between brackets, one per line. -/
def bracketed (opening closing : String) (level : Nat) (items : List String) : String :=
  if items.isEmpty then opening ++ closing
  else opening ++ newline (level + 1) ++ ("," ++ newline (level + 1)).intercalate items
    ++ newline level ++ closing

mutual

/-- The text of a value with one item per line. -/
def pretty (level : Nat) : Value → String
  | .null => "null"
  | .bool b => if b then "true" else "false"
  | .number n => n.text
  | .string s => quote s
  | .array items => bracketed "[" "]" level (prettyItems (level + 1) items)
  | .object fields => bracketed "\x7b" "\x7d" level (prettyFields (level + 1) fields)

/-- The texts of several values. -/
def prettyItems (level : Nat) : List Value → List String
  | [] => []
  | v :: vs => v.pretty level :: prettyItems level vs

/-- The texts of several fields. -/
def prettyFields (level : Nat) : List (String × Value) → List String
  | [] => []
  | (name, v) :: rest => (quote name ++ ": " ++ v.pretty level) :: prettyFields level rest

end

end Value

end RecordSearch.Json
