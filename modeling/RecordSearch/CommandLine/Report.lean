import RecordSearch.Decimal.Layout
import RecordSearch.Json.Printer
import RecordSearch.Query.Highlight
import RecordSearch.Search.Engine
import RecordSearch.Settings.Merge
import RecordSearch.Settings.Warning
import RecordSearch.Text.Table

/-! What the commands print: the results of a search as a table or as JSON, a query with its parse
    tree or its tokens, and the state of the configuration. -/

namespace RecordSearch.CommandLine

open RecordSearch.Json (Value)
open RecordSearch.Query (QueryError Token Tree)
open RecordSearch.Search (Hit)

/-- A line with its end. -/
def line (text : String) : String := text ++ "\n"

/-! ### Results of a search -/

/-- What a search found. -/
structure SearchReport where
  query : String
  /-- The query as it was understood. -/
  parsed : String
  comparator : String
  /-- Whether scores are of interest. -/
  ranked : Bool
  hits : List (Hit Float)
  /-- How many hits are shown at most. -/
  limit : Nat

/-- The most characters of a record that are shown in a table. -/
def longestRecord : Nat := 80

/-- The text, cut to so many characters with a mark where it is cut. -/
def shorten (longest : Nat) (text : String) : String :=
  let cs := text.toList
  if cs.length ≤ longest then text else String.ofList (cs.take (longest - 1) ++ ['…'])

namespace SearchReport

/-- The hits that are shown. -/
def shown (r : SearchReport) : List (Hit Float) := r.hits.take r.limit

/-- A score as JSON; one that is no number is written as nothing. -/
def scoreValue (score : Float) : Value :=
  if Decimal.isFinite score then .number (.double score) else .null

/-- A hit as JSON. -/
def hitValue (hit : Hit Float) : Value :=
  .object [("position", .number (.integer hit.position)), ("score", scoreValue hit.score),
    ("record", hit.record)]

/-- The report as JSON. -/
def json (r : SearchReport) : String :=
  line <| Value.pretty 0 <| .object
    [("query", .string r.query), ("parsed", .string r.parsed), ("comparator", .string r.comparator),
      ("total_matches", .number (.integer r.hits.length)),
      ("results", .array (r.shown.map hitValue))]

/-- The columns of the table of hits. -/
def columns (r : SearchReport) : List Text.Column :=
  ⟨"#", .right⟩ :: (if r.ranked then [⟨"Score", .right⟩] else []) ++ [⟨"Record", .left⟩]

/-- The row of a hit. -/
def row (r : SearchReport) (hit : Hit Float) : List String :=
  toString hit.position :: (if r.ranked then [Decimal.fixed 2 hit.score] else [])
    ++ [shorten longestRecord hit.record.compact]

/-- How many hits there are. -/
def summary (r : SearchReport) : String :=
  let (shown, total) := (r.shown.length, r.hits.length)
  let count := if shown < total then toString shown ++ " of " ++ toString total else toString total
  "─── " ++ count ++ " results (" ++ r.comparator ++ ") ───"

/-- The report as a table, with the query above it if `verbose`. -/
def text (r : SearchReport) (verbose : Bool) : String :=
  (if verbose then line (Text.subheader "Query:" ++ " " ++ r.parsed) else "")
    ++ if r.hits.isEmpty then line (Text.dim "No results found.")
      else line (Text.table r.columns (r.shown.map r.row)) ++ line (Text.dim r.summary)

end SearchReport

/-! ### A query -/

/-- The text indented by three blanks. -/
def indented (text : String) : String := line ("   " ++ text)

/-- A query with what it is understood as and its parse tree. -/
def treeReport (query : String) (tree : Tree) : String :=
  let leaves := tree.leaves
  line (Text.subheader "Query:") ++ indented (Query.highlight query) ++ line ""
    ++ line (Text.subheader "Parsed as:")
    ++ indented (if leaves.isEmpty then Text.dim "(empty query)" else Query.highlightTokens leaves)
    ++ line "" ++ line (Text.subheader "Parse tree:")
    ++ String.join ((Text.lines tree.display.toList).map fun row => indented (String.ofList row))

/-- The tokens of a query as a table. -/
def tokenReport (tokens : List Token) : String :=
  if tokens.isEmpty then line (Text.dim "(no tokens)")
  else line <| Text.table [⟨"Pos", .left⟩, ⟨"Kind", .left⟩, ⟨"Value", .left⟩] <|
    tokens.map fun t => [toString t.position, t.kind.name, t.lexeme]

/-- Why a query is refused. -/
def refusal (e : QueryError) : String :=
  line ("error: " ++ e.error.message) ++ line (Text.indent (Query.errorPointer e.query e.position))
    ++ match e.suggestion with
      | some hint => line (Text.dim ("hint: " ++ hint))
      | none => ""

/-! ### The configuration -/

/-- What is said where there is no configuration. -/
def unconfigured : String :=
  line (Text.dim "No configuration files found.") ++ line ""
    ++ line ("Run " ++ Text.subheader "lexico init" ++ " to create a configuration file.")

/-- The files in effect, the settings that matter most, and the warnings. -/
def checkReport (paths : List String) (settings : Settings.Values) : String :=
  let warnings := settings.warnings
  let index := settings.search.index
  line (Text.subheader "Config files:") ++ String.join (paths.map indented) ++ line ""
    ++ line (Text.subheader "Search:")
    ++ indented ("comparator = " ++ settings.search.comparator.name)
    ++ (if index.isEmpty then "" else indented ("index = " ++ ", ".intercalate index)) ++ line ""
    ++ if warnings.isEmpty then line (Text.success "No issues found.")
      else line (Text.subheader ("Warnings (" ++ toString warnings.length ++ "):"))
        ++ String.join (warnings.map fun w => indented (Text.warning w.message)) ++ line ""
        ++ String.join (warnings.filterMap fun w => w.hint.map fun hint => line (Text.dim hint))

end RecordSearch.CommandLine
