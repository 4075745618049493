import RecordSearch.Search.Engine

/-! The settings of the program and their defaults. Two of them are chosen from a few names, written
    in small or capital letters. -/

namespace RecordSearch.Settings

open RecordSearch.Search (ScoreMode)

/-- The comparator that searches use. -/
inductive ComparatorKind where
  | binary
  | fuzzy
  deriving DecidableEq, Repr

/-- The name of a comparator. -/
def ComparatorKind.name : ComparatorKind → String
  | binary => "binary"
  | fuzzy => "fuzzy"

/-- The name of a score mode. -/
def scoreModeName : ScoreMode → String
  | .reset => "reset"
  | .accumulate => "accumulate"

/-- The name with small letters for the capital ones among `A` to `Z`. -/
def lowerAscii (name : String) : String := String.ofList (name.toList.map Char.toLower)

/-- The comparator of a name. -/
def ComparatorKind.ofName? (name : String) : Option ComparatorKind :=
  [binary, fuzzy].find? fun kind => kind.name == lowerAscii name

/-- The score mode of a name. -/
def scoreModeOfName? (name : String) : Option ScoreMode :=
  [.reset, .accumulate].find? fun mode => scoreModeName mode == lowerAscii name

/-- The settings of searches. -/
structure SearchSettings where
  comparator : ComparatorKind
  /-- Whether malformed queries are repaired. -/
  recovery : Bool
  scoreMode : ScoreMode
  /-- How many results are printed at most. -/
  limit : Nat
  /-- The paths to index. -/
  index : List String
  deriving DecidableEq, Repr

/-- The settings of the fuzzy comparator. -/
structure FuzzySettings where
  maxDistance : Nat
  transpositions : Bool
  deriving DecidableEq, Repr

/-- All settings. -/
structure Values where
  search : SearchSettings
  fuzzy : FuzzySettings
  deriving DecidableEq, Repr

/-- The settings where nothing is configured. -/
def Values.default : Values := ⟨⟨.binary, true, .reset, 20, []⟩, ⟨2, true⟩⟩

end RecordSearch.Settings
