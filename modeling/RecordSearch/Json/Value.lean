import RecordSearch.Decimal.Layout

/-! JSON values. A number is an integer if it was written as one and fits 64 bits, else a double.
    The fields of an object are kept in the order of their names, and a name occurs once. -/

namespace RecordSearch.Json

/-- A JSON number. -/
inductive Number where
  | integer (value : Int)
  | double (value : Float)

/-- The double nearest to a number. -/
def Number.toFloat : Number → Float
  | integer value => Float.ofInt value
  | double value => value

/-- The text of a number. -/
def Number.text : Number → String
  | integer value => toString value
  | double value =>
    if Decimal.isFinite value then Decimal.Layout.json.text value else "null"

/-- A JSON value. -/
inductive Value where
  | null
  | bool (value : Bool)
  | number (value : Number)
  | string (value : String)
  | array (items : List Value)
  | object (fields : List (String × Value))

namespace Value

/-- Puts a field into its place by name; a field of that name is replaced. -/
def insertField (name : String) (value : Value) : List (String × Value) → List (String × Value)
  | [] => [(name, value)]
  | (other, old) :: rest =>
    if name < other then (name, value) :: (other, old) :: rest
    else if name = other then (name, value) :: rest
    else (other, old) :: insertField name value rest

/-- The object with the given fields, of which later ones replace earlier ones of that name. -/
def ofFields (fields : List (String × Value)) : Value :=
  .object (fields.foldl (fun sorted field => insertField field.1 field.2 sorted) [])

/-- The fields of an object. -/
def fields? : Value → Option (List (String × Value))
  | .object fields => some fields
  | _ => none

end Value

end RecordSearch.Json
