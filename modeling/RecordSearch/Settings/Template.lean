import RecordSearch.Text.Lines

/-! Configuration files to begin with. They show every setting with its explanation, but have the
    settings themselves commented out. -/

namespace RecordSearch.Settings

/-- The settings of a project, explained. -/
def projectExample : String :=
  Text.unlines
    ["# lexico project configuration",
      "#",
      "# Settings here apply to `lexico` runs in this directory and below. Closer files take",
      "# precedence over parent directories and the global ~/.lexico.toml.",
      "",
      "# Stop looking for configuration in parent directories.",
      "root = true",
      "",
      "[search]",
      "# \"binary\" filters records by substring; \"fuzzy\" ranks them by similarity.",
      "comparator = \"binary\"",
      "",
      "# Repair malformed queries instead of rejecting them.",
      "error_recovery = true",
      "",
      "# \"reset\" starts every run from zero; \"accumulate\" carries scores across runs.",
      "score_mode = \"reset\"",
      "",
      "# Maximum results to print.",
      "limit = 20",
      "",
      "# Record paths to index for the fuzzy comparator. A single string or a list.",
      "index = [\"name\"]",
      "",
      "[fuzzy]",
      "# Maximum edits per word, from 0 to 3.",
      "max_distance = 2",
      "",
      "# Count a swap of adjacent letters as a single edit.",
      "transpositions = true"]

/-- The settings for all projects, explained. -/
def globalExample : String :=
  Text.unlines
    ["# lexico global configuration",
      "#",
      "# Defaults for every directory. Project .lexico.toml files override these.",
      "",
      "[search]",
      "comparator = \"fuzzy\"",
      "limit = 20",
      "",
      "[fuzzy]",
      "max_distance = 2",
      "transpositions = true"]

/-- A line made a comment, unless it is one or is empty. -/
def commentLine (line : List Char) : List Char :=
  match line with
  | [] | '#' :: _ => line
  | line => '#' :: ' ' :: line

/-- The text with all of its lines made comments. -/
def commentOut (text : String) : String :=
  String.ofList ((Text.lines text.toList).flatMap fun line => commentLine line ++ ['\n'])

/-- The file to begin with in a project. -/
def projectTemplate : String := commentOut projectExample

/-- The file to begin with for all projects. -/
def globalTemplate : String := commentOut globalExample

end RecordSearch.Settings
