import RecordSearch.Settings.Basic
import RecordSearch.Toml.Format

/-! The settings written as a configuration file. It has a section for searches and one for the fuzzy
    comparator, with every setting under its own key. -/

namespace RecordSearch.Settings

/-- The search settings as a section. -/
def SearchSettings.toSection (s : SearchSettings) : Toml.Section :=
  ("search", [("comparator", .string s.comparator.name), ("error_recovery", .bool s.recovery),
    ("score_mode", .string (scoreModeName s.scoreMode)), ("limit", .integer s.limit),
    ("index", .array (s.index.map .string))])

/-- The fuzzy settings as a section. -/
def FuzzySettings.toSection (s : FuzzySettings) : Toml.Section :=
  ("fuzzy", [("max_distance", .integer s.maxDistance), ("transpositions", .bool s.transpositions)])

/-- All settings as sections. -/
def Values.toSections (values : Values) : List Toml.Section :=
  [values.search.toSection, values.fuzzy.toSection]

/-- The text of all settings. -/
def Values.text (toml : Toml.Format) (values : Values) : Option String :=
  toml.write (Toml.document values.toSections)

end RecordSearch.Settings
