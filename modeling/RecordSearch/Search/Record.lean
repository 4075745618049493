import RecordSearch.Json.Value
import RecordSearch.Text.Blank

/-! Records are JSON values. A search looks either at the immediate fields of a record or at what a
    dotted path leads to; only texts, numbers and truth values can match. -/

namespace RecordSearch.Search

/-- A record. -/
abbrev Record := Json.Value

/-- The names that a dotted path passes through; empty ones are left out. -/
def pathNames (path : String) : List String :=
  (Text.segments (· = '.') path.toList).map String.ofList

/-- The field of an object. -/
def fieldOf (value : Record) (name : String) : Option Record :=
  value.fields?.bind fun fields => fields.lookup name

/-- What a dotted path leads to; nothing if it passes through anything but objects. -/
def resolve (record : Record) (path : String) : Option Record :=
  (pathNames path).foldlM fieldOf record

/-- The values of the immediate fields, by the order of names. -/
def fieldValues (record : Record) : List Record := (record.fields?.getD []).map Prod.snd

/-- The text of a string, a number or a truth value. -/
def atomicText : Record → Option String
  | .string s => some s
  | .number n => some n.text
  | .bool b => some (if b then "true" else "false")
  | .null => none
  | .array _ => none
  | .object _ => none

end RecordSearch.Search
