/-! The values of a TOML document. Tables keep their keys in the order of their appearance; a date
    or a time is kept as it is written. -/

namespace RecordSearch.Toml

/-- A value. -/
inductive Value where
  | string (text : String)
  | integer (n : Int)
  | float (x : Float)
  | bool (b : Bool)
  | moment (text : String)
  | array (items : List Value)
  | table (fields : List (String × Value))

/-- The text of a value, if it is a text. -/
def Value.asText : Value → Option String
  | .string text => some text
  | _ => none

end RecordSearch.Toml
