import RecordSearch.Search.Similarity
import RecordSearch.Search.Record

/-! An index of one path holds its different values, in lower case and in order, with the records
    that have them, so that a value is scored once however many records share it. -/

namespace RecordSearch.Search

/-- The values of a path in order, each with its records in the order they were added. -/
structure Index where
  entries : List (String × List Nat)

namespace Index

/-- The index without values. -/
def empty : Index := ⟨[]⟩

/-- Adds a record to its value, which is put in its place if it is new. -/
def insertEntry (key : String) (id : Nat) : List (String × List Nat) → List (String × List Nat)
  | [] => [(key, [id])]
  | (other, ids) :: rest =>
    if key < other then (key, [id]) :: (other, ids) :: rest
    else if key = other then (other, ids ++ [id]) :: rest
    else (other, ids) :: insertEntry key id rest

/-- Adds a record with the given value. -/
def insert (index : Index) (value : String) (id : Nat) : Index :=
  ⟨insertEntry (String.ofList (Text.lower value.toList)) id index.entries⟩

/-- The records whose value is similar to a term, with the similarity. -/
def hits {α : Type} [Arithmetic α] (index : Index) (scorer : TermScorer) : List (Nat × α) :=
  index.entries.flatMap fun (key, ids) =>
    let score : α := scorer.score key
    if Arithmetic.isPositive score then ids.map fun id => (id, score) else []

end Index

/-- The indexes that have been built, by path. -/
abbrev Indexes := List (String × Index)

namespace Indexes

/-- Adds a record with the given value at a path. -/
def add (path value : String) (id : Nat) : Indexes → Indexes
  | [] => [(path, Index.empty.insert value id)]
  | (other, index) :: rest =>
    if path = other then (other, index.insert value id) :: rest
    else (other, index) :: add path value id rest

/-- Adds a record at every path where it has a text. -/
def addRecord (paths : List String) (id : Nat) (record : Record) (indexes : Indexes) : Indexes :=
  paths.foldl (fun indexes path =>
    match (resolve record path).bind atomicText with
    | some value => indexes.add path value id
    | none => indexes) indexes

/-- The indexes of a dataset. -/
def build (paths : List String) (records : List Record) : Indexes :=
  records.zipIdx.foldl (fun indexes (record, id) => indexes.addRecord paths id record) []

end Indexes

end RecordSearch.Search
