import RecordSearch.Settings.Basic

/-! Settings that load but do not do what they seem to. -/

namespace RecordSearch.Settings

open RecordSearch.Search (Measure)

/-- A warning about the settings. -/
inductive Warning where
  /-- Paths to index, which the binary comparator does not use. -/
  | indexIgnored (paths : List String)
  /-- More edits per word than are possible. -/
  | distanceClamped (configured : Nat)
  /-- A limit that lets no result through. -/
  | zeroLimit
  deriving DecidableEq, Repr

/-- The text of a warning. -/
def Warning.message : Warning → String
  | indexIgnored paths =>
    "search.index (" ++ ", ".intercalate paths ++ ") is ignored by the binary comparator"
  | distanceClamped configured =>
    "fuzzy.max_distance " ++ toString configured ++ " exceeds the supported maximum; using "
      ++ toString Measure.limit
  | zeroLimit => "search.limit is 0; searches will print no results"

/-- What to do about a warning. -/
def Warning.hint : Warning → Option String
  | indexIgnored _ => some "Hint: set search.comparator = \"fuzzy\" or remove search.index"
  | distanceClamped _ => some "Hint: fuzzy.max_distance accepts 0 to 3"
  | zeroLimit => none

/-- The warnings about some settings. -/
def Values.warnings (values : Values) : List Warning :=
  let index := values.search.index
  let distance := values.fuzzy.maxDistance
  (if values.search.comparator = .binary ∧ index ≠ [] then [.indexIgnored index] else [])
    ++ (if Measure.limit < distance then [.distanceClamped distance] else [])
    ++ (if values.search.limit = 0 then [.zeroLimit] else [])

end RecordSearch.Settings
