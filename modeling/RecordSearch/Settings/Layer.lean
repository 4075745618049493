import RecordSearch.Toml.Format

/-! The settings that one configuration file gives. All of them are optional, and keys that have no
    meaning are ignored. A section is a table, or an array that gives its settings in order; a date
    in its place gives none of them. -/

namespace RecordSearch.Settings

open RecordSearch.Toml (Value)

/-- The search settings of a file. -/
structure SearchLayer where
  comparator : Option String
  recovery : Option Bool
  scoreMode : Option String
  limit : Option Nat
  index : Option (List String)
  deriving DecidableEq, Repr

/-- The fuzzy settings of a file. -/
structure FuzzyLayer where
  maxDistance : Option Nat
  transpositions : Option Bool
  deriving DecidableEq, Repr

/-- The settings of a file. -/
structure Layer where
  /-- Whether files further up are left aside. -/
  root : Option Bool
  search : Option SearchLayer
  fuzzy : Option FuzzyLayer
  deriving DecidableEq, Repr

/-! ### Single settings -/

/-- A truth value. -/
def asBool : Value → Option Bool
  | .bool b => some b
  | _ => none

/-- A natural number below a bound. -/
def asNatBelow (bound : Nat) : Value → Option Nat
  | .integer n => if 0 ≤ n ∧ n < bound then some n.toNat else none
  | _ => none

/-- One text or a list of them. -/
def asTexts : Value → Option (List String)
  | .string text => some [text]
  | .array items => items.mapM Value.asText
  | _ => none

/-- A setting that may be left out, but must be of its kind if it is there. -/
def optional {α : Type} (read : Value → Option α) : Option Value → Option (Option α)
  | none => some none
  | some v => (read v).map some

/-! ### Sections -/

/-- The settings of a section, by name and by place. -/
def section? : Value → Option (String → Nat → Option Value)
  | .table fields => some fun name _ => fields.lookup name
  | .array items => some fun _ place => items[place]?
  | .moment _ => some fun _ _ => none
  | _ => none

/-- The section `[search]`. -/
def SearchLayer.ofValue? (v : Value) : Option SearchLayer := do
  let get ← section? v
  let comparator ← optional Value.asText (get "comparator" 0)
  let recovery ← optional asBool (get "error_recovery" 1)
  let scoreMode ← optional Value.asText (get "score_mode" 2)
  let limit ← optional (asNatBelow (Nat.pow 2 64)) (get "limit" 3)
  let index ← optional asTexts (get "index" 4)
  some ⟨comparator, recovery, scoreMode, limit, index⟩

/-- The section `[fuzzy]`. -/
def FuzzyLayer.ofValue? (v : Value) : Option FuzzyLayer := do
  let get ← section? v
  let maxDistance ← optional (asNatBelow (Nat.pow 2 8)) (get "max_distance" 0)
  let transpositions ← optional asBool (get "transpositions" 1)
  some ⟨maxDistance, transpositions⟩

/-- The settings of a document. -/
def Layer.ofFields? (fields : List (String × Value)) : Option Layer := do
  let root ← optional asBool (fields.lookup "root")
  let search ← optional SearchLayer.ofValue? (fields.lookup "search")
  let fuzzy ← optional FuzzyLayer.ofValue? (fields.lookup "fuzzy")
  some ⟨root, search, fuzzy⟩

/-- The settings that the text of a file gives, if it is well formed. -/
def Layer.read (toml : Toml.Format) (text : String) : Option Layer :=
  (toml.read text).bind Layer.ofFields?

end RecordSearch.Settings
