import RecordSearch.CommandLine.Arguments

/-! What is said about the arguments: the help text, and why arguments are refused. -/

namespace RecordSearch.CommandLine

/-- How the program is used. -/
def helpText : String :=
  "Query language for filtering and fuzzy-ranking JSON records

Usage: lexico [-v] <COMMAND>

Commands:
  search <QUERY>  Evaluate a query against JSON records
      -d, --data <DATA>    JSON file holding an array of records; `-` or omitted reads stdin
      -f, --fuzzy          Rank by similarity instead of filtering
      -i, --index <INDEX>  Record path to index for fuzzy search (can be given several times)
          --strict         Reject malformed queries instead of repairing them
      -n, --limit <LIMIT>  Maximum results to print [default: 20]
          --json           Output in JSON format
  parse <QUERY>   Show how a query is tokenized and parsed
          --strict         Reject malformed queries instead of repairing them
          --tokens         List the tokens instead of the parse tree
  init            Initialize lexico configuration in current directory
          --global         Create global ~/.lexico.toml instead
          --force          Overwrite existing configuration file
  config          Show effective configuration settings
  check           Validate configuration and report warnings
  help            Show this text

Options:
  -v, --verbose  Say more
  -h, --help     Show this text
"

/-- Why arguments are refused. -/
def UsageError.message : UsageError → String
  | helpWanted | nothingGiven => helpText
  | missingCommand => "error: a command is missing\n"
  | unknownCommand => "error: there is no such command\n"
  | unknownArgument => "error: unexpected argument\n"
  | missingValue => "error: an option lacks its value\n"
  | malformedValue => "error: a limit must be a natural number\n"
  | unexpectedValue => "error: a flag takes no value\n"
  | repeated => "error: an option cannot be given twice\n"
  | missingQuery => "error: a query is missing\n"

end RecordSearch.CommandLine
