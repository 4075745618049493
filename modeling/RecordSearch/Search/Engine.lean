import RecordSearch.Search.Builder
import RecordSearch.Search.Evaluate
import RecordSearch.Query.Compile

/-! The engine compiles queries, runs them over its own records or over records supplied with the
    run, and ranks what it finds. Its indexes are built when a run first needs them; they always
    describe the records they were last built for, so a run over supplied records makes those of
    the own records out of date. A failed operation leaves the engine as it was. -/

namespace RecordSearch.Search

open RecordSearch.Query (Tree QueryError)

/-- What scores start from in a run over the own records. -/
inductive ScoreMode where
  /-- Every run starts from zero. -/
  | reset
  /-- Scores carry over from run to run. -/
  | accumulate
  deriving DecidableEq, Repr

/-- Whether records are filtered or ranked. -/
inductive Strategy where
  | binary
  | fuzzy (measure : Measure)

/-- The name of a strategy. -/
def Strategy.name : Strategy → String
  | binary => "binary"
  | fuzzy _ => "fuzzy"

/-- Whether records are ranked. -/
def Strategy.ranks : Strategy → Bool
  | binary => false
  | fuzzy _ => true

/-- The configuration of an engine. -/
structure Setup where
  strategy : Strategy
  /-- The paths to index, in order and each once. -/
  indexFields : List String
  /-- Whether malformed queries are repaired. -/
  recovery : Bool
  scoreMode : ScoreMode

/-- Why an operation of an engine failed. -/
inductive EngineError where
  | query (error : QueryError)
  | indexingUnsupported (comparator : String)
  | unrepresentable (term : Unrepresentable)
  | noDataset

/-- The message of a failed operation; none if the query has no report. -/
def EngineError.message : EngineError → Option String
  | query error => error.report
  | indexingUnsupported comparator =>
    some ("the " ++ comparator ++ " comparator does not support indexing")
  | unrepresentable term => some term.message
  | noDataset => some "no dataset to search; supply records to the engine or to the run"

/-- A parsed query with its text. -/
structure CompiledQuery where
  tree : Tree
  source : String

/-- A record that was found. -/
structure Hit (α : Type) where
  position : Nat
  score : α
  record : Record

/-- The records that an engine owns. -/
structure Dataset (α : Type) where
  records : List Record
  working : WorkingSet α
  /-- Whether the indexes describe these records. -/
  indexed : Bool

/-- An engine. -/
structure Engine (α : Type) where
  setup : Setup
  indexes : Indexes
  dataset : Option (Dataset α)

/-- Puts a path among others in order, unless it is there. -/
def insertPath (path : String) : List String → List String
  | [] => [path]
  | other :: rest =>
    if path < other then path :: other :: rest
    else if path = other then other :: rest
    else other :: insertPath path rest

/-- Paths in order, each once. -/
def orderPaths (paths : List String) : List String :=
  paths.foldl (fun sorted path => insertPath path sorted) []

variable {α : Type} [Arithmetic α]

/-- The members of a result with the records they stand for, the highest score first; equal scores
    stay in order. -/
def rank (records : List Record) (result : WorkingSet α) : List (Hit α) :=
  let hits := result.members.filterMap fun id =>
    (records[id]?).map fun record => ⟨id, result.score id, record⟩
  hits.mergeSort fun a b => Arithmetic.ranksBefore a.score b.score

/-- The comparator of a strategy over some records. -/
def Setup.comparator (s : Setup) (indexes : Indexes) (records : List Record) :
    Comparator (WorkingSet α) :=
  match s.strategy with
  | .binary => .binary records
  | .fuzzy measure => .fuzzy measure s.indexFields indexes records

/-- What a query makes of a working set over some records. -/
def Setup.eval (s : Setup) (indexes : Indexes) (records : List Record) (tree : Tree)
    (working : WorkingSet α) : WorkingSet α :=
  evaluate (s.comparator indexes records) .root tree working

/-- Whether a strategy can keep indexes, as it has to when there are paths to index. -/
def Setup.checkIndexing (s : Setup) : Except EngineError Unit :=
  match s.strategy, s.indexFields with
  | _, [] => .ok ()
  | .fuzzy _, _ => .ok ()
  | .binary, _ => .error (.indexingUnsupported s.strategy.name)

/-- The records as a dataset. -/
def Dataset.ofRecords (records : List Record) : Dataset α :=
  ⟨records, .full records.length, false⟩

namespace Engine

/-- An engine with or without records of its own. -/
def new (setup : Setup) (records : Option (List Record)) : Engine α :=
  ⟨setup, [], records.map .ofRecords⟩

/-- The number of records that the engine owns. -/
def size (e : Engine α) : Nat := (e.dataset.map fun d => d.records.length).getD 0

/-- Parses a query. -/
def compile (e : Engine α) (query : String) : Except EngineError CompiledQuery :=
  match Query.compile e.setup.recovery query with
  | .ok tree => .ok ⟨tree, query⟩
  | .error error => .error (.query error)

/-- Parses a query that was put together, unless something in it cannot be written. -/
def compileBuilt (e : Engine α) (b : Builder) : Except EngineError CompiledQuery :=
  match b.check with
  | .ok () => e.compile b.text
  | .error term => .error (.unrepresentable term)

/-- The engine with its indexes built for the given records, unless no path is to be indexed. -/
def reindexed (e : Engine α) (records : List Record) : Engine α :=
  if e.setup.indexFields.isEmpty then e
  else { e with indexes := .build e.setup.indexFields records }

/-- Runs a query over supplied records. -/
def runSupplied (e : Engine α) (query : CompiledQuery) (records : List Record) :
    Except EngineError (List (Hit α)) × Engine α :=
  match e.setup.checkIndexing with
  | .error error => (.error error, e)
  | .ok () =>
    let indexed := e.reindexed records
    let dataset := if e.setup.indexFields.isEmpty then e.dataset
      else e.dataset.map fun d => { d with indexed := false }
    let result := e.setup.eval indexed.indexes records query.tree (.full records.length)
    (.ok (rank records result), { indexed with dataset := dataset })

/-- The indexes to search the own records with, and whether they are then up to date. -/
def currentIndexes (e : Engine α) (d : Dataset α) : Indexes × Bool :=
  if d.indexed || e.setup.indexFields.isEmpty then (e.indexes, d.indexed)
  else (.build e.setup.indexFields d.records, true)

/-- The working set that a run over the own records starts from. -/
def startingSet (e : Engine α) (d : Dataset α) : WorkingSet α :=
  match e.setup.scoreMode with
  | .reset => d.working.resetScores
  | .accumulate => d.working

/-- Runs a query over the own records. -/
def runOwn (e : Engine α) (query : CompiledQuery) :
    Except EngineError (List (Hit α)) × Engine α :=
  match e.dataset with
  | none => (.error .noDataset, e)
  | some d =>
    match if d.indexed then .ok () else e.setup.checkIndexing with
    | .error error => (.error error, e)
    | .ok () =>
      let (indexes, indexed) := e.currentIndexes d
      let start := e.startingSet d
      let result := e.setup.eval indexes d.records query.tree start
      (.ok (rank d.records result),
        { e with
          indexes := indexes
          dataset := some ⟨d.records, start.absorbScores result, indexed⟩ })

/-- Runs a query over supplied records, or else over the own ones. -/
def run (e : Engine α) (query : CompiledQuery) (records : Option (List Record)) :
    Except EngineError (List (Hit α)) × Engine α :=
  match records with
  | some records => e.runSupplied query records
  | none => e.runOwn query

/-- Parses a query and runs it. -/
def search (e : Engine α) (query : String) (records : Option (List Record)) :
    Except EngineError (List (Hit α)) × Engine α :=
  match e.compile query with
  | .ok compiled => e.run compiled records
  | .error error => (.error error, e)

/-- Adds a record to the own ones; the answer is its position. -/
def addRecord (e : Engine α) (record : Record) : Except EngineError Nat × Engine α :=
  match e.setup.checkIndexing with
  | .error error => (.error error, e)
  | .ok () =>
    let d : Dataset α := e.dataset.getD ⟨[], ⟨[], []⟩, false⟩
    let id := d.working.capacity
    let records := d.records ++ [record]
    let working := d.working.push
    if e.setup.indexFields.isEmpty then
      (.ok id, { e with dataset := some ⟨records, working, d.indexed⟩ })
    else
      let indexes := if d.indexed then e.indexes.addRecord e.setup.indexFields id record
        else .build e.setup.indexFields records
      (.ok id, { e with indexes := indexes, dataset := some ⟨records, working, true⟩ })

end Engine

end RecordSearch.Search
