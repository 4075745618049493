import RecordSearch.CommandLine.Arguments
import RecordSearch.CommandLine.Commands
import RecordSearch.CommandLine.Report
import RecordSearch.CommandLine.Usage
import RecordSearch.Decimal.Layout
import RecordSearch.Decimal.Reader
import RecordSearch.Files.Path
import RecordSearch.Files.Store
import RecordSearch.Files.Tree
import RecordSearch.Json.Printer
import RecordSearch.Json.Reader
import RecordSearch.Main
import RecordSearch.Proofs.Automaton.Reachable
import RecordSearch.Proofs.Canonical
import RecordSearch.Proofs.Grammar.Exactness
import RecordSearch.Proofs.Grammar.Prefix
import RecordSearch.Proofs.Highlighting
import RecordSearch.Proofs.Lexing.Account
import RecordSearch.Proofs.Lexing.Pieces
import RecordSearch.Proofs.Lexing.Quoting
import RecordSearch.Proofs.Outline
import RecordSearch.Proofs.Parsing.Ambiguity
import RecordSearch.Proofs.Parsing.Blame
import RecordSearch.Proofs.Parsing.Caret
import RecordSearch.Proofs.Parsing.Closing
import RecordSearch.Proofs.Parsing.Completion
import RecordSearch.Proofs.Parsing.Consulting
import RecordSearch.Proofs.Parsing.Policy
import RecordSearch.Proofs.Parsing.Questions
import RecordSearch.Proofs.Parsing.Termination
import RecordSearch.Proofs.Parsing.Typed
import RecordSearch.Proofs.Search.Accumulating
import RecordSearch.Proofs.Search.Adding
import RecordSearch.Proofs.Search.Adjacent
import RecordSearch.Proofs.Search.Amounts
import RecordSearch.Proofs.Search.Building
import RecordSearch.Proofs.Search.Built
import RecordSearch.Proofs.Search.Comparisons
import RecordSearch.Proofs.Search.Convexity
import RecordSearch.Proofs.Search.Dropping
import RecordSearch.Proofs.Search.Failing
import RecordSearch.Proofs.Search.Fields
import RecordSearch.Proofs.Search.Filtering
import RecordSearch.Proofs.Search.History
import RecordSearch.Proofs.Search.Hits
import RecordSearch.Proofs.Search.Independence
import RecordSearch.Proofs.Search.Index
import RecordSearch.Proofs.Search.Indexing
import RecordSearch.Proofs.Search.Literal
import RecordSearch.Proofs.Search.Missing
import RecordSearch.Proofs.Search.Narrowing
import RecordSearch.Proofs.Search.Negation
import RecordSearch.Proofs.Search.Operands
import RecordSearch.Proofs.Search.Ranking
import RecordSearch.Proofs.Search.Rounds
import RecordSearch.Proofs.Search.Scopes
import RecordSearch.Proofs.Search.Similarity
import RecordSearch.Proofs.Search.Symmetry
import RecordSearch.Proofs.Settings.Discovery
import RecordSearch.Proofs.Settings.Precedence
import RecordSearch.Proofs.Settings.Reloading
import RecordSearch.Proofs.Spelling
import RecordSearch.Proofs.Stability
import RecordSearch.Proofs.Text.Lowercase
import RecordSearch.Proofs.Toml.Documents
import RecordSearch.Query.Compile
import RecordSearch.Query.Highlight
import RecordSearch.Search.Engine
import RecordSearch.Settings.Discovery
import RecordSearch.Settings.Printer
import RecordSearch.Settings.Template
import RecordSearch.Settings.Warning
import RecordSearch.Text.Blank
import RecordSearch.Text.Lowercase
import RecordSearch.Text.Table
import RecordSearch.Toml.Reader
