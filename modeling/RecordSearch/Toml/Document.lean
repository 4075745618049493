import RecordSearch.Toml.Value

/-! A TOML document as a sequence of statements, and the tables they build. A table may be written
    once under a header of its own; tables on the way to it come into being unwritten. Keys with
    dots build tables that only further keys with dots can fill. Arrays and tables between brackets
    are closed: no later statement can add to them. -/

namespace RecordSearch.Toml

/-- How a table came into being. -/
inductive Origin where
  /-- By its own header; the document itself and tables between braces count as such. -/
  | header
  /-- On the way to a table with a longer header. -/
  | passage
  /-- On the way to a key with dots. -/
  | dotted
  deriving DecidableEq, Repr

/-- What stands under a key. -/
inductive Node where
  | value (v : Value)
  | table (origin : Origin) (fields : List (String × Node))
  /-- An array of tables, each with its own header. -/
  | tables (elements : List (List (String × Node)))

/-- The content of a table under construction. -/
abbrev Fields := List (String × Node)

/-- Changes what stands under a key, or what a new key shall have. -/
def alter (key : String) (change : Option Node → Option Node) : Fields → Option Fields
  | [] => (change none).map fun node => [(key, node)]
  | (other, node) :: rest =>
    if other = key then (change (some node)).map fun node => (other, node) :: rest
    else (alter key change rest).map ((other, node) :: ·)

/-- Changes the table at the end of a path. Missing tables on the way come into being. An array of
    tables leads into its last element; a table with its own header is closed to keys with dots. -/
def changeAt (way : Origin) (change : Origin → Fields → Option Fields) :
    (path : List String) → Origin → Fields → Option Fields
  | [], origin, fields => change origin fields
  | key :: path, _, fields =>
    alter key (fun found => match found with
      | none => (changeAt way change path way []).map (Node.table way)
      | some (.table origin inner) =>
        if way = .dotted ∧ origin = .header then none
        else (changeAt way change path origin inner).map (Node.table origin)
      | some (.tables elements) =>
        (elements.getLast?).bind fun last =>
          (changeAt way change path .header last).map fun last =>
            Node.tables (elements.dropLast ++ [last])
      | some (.value _) => none) fields

/-- Gives a value to a new key. The key stands in a table built by dots exactly if it has dots. -/
def setEntry (path : List String) (key : String) (v : Value) (fields : Fields) : Option Fields :=
  changeAt .dotted (fun origin inner =>
    if (origin = .dotted) = (path ≠ []) then
      alter key (fun found => match found with
        | none => some (.value v)
        | some _ => none) inner
    else none) path .header fields

/-- Opens a table by its header. -/
def openTable (path : List String) (key : String) (fields : Fields) : Option Fields :=
  changeAt .passage (fun _ => alter key fun found => match found with
    | none => some (.table .header [])
    | some (.table .passage inner) => some (.table .header inner)
    | some _ => none) path .header fields

/-- Opens the next element of an array of tables. -/
def openElement (path : List String) (key : String) (fields : Fields) : Option Fields :=
  changeAt .passage (fun _ => alter key fun found => match found with
    | none => some (.tables [[]])
    | some (.tables elements) => some (.tables (elements ++ [[]]))
    | some _ => none) path .header fields

/-- A path of keys: those on the way, and the last one. -/
structure KeyPath where
  way : List String
  last : String
  deriving DecidableEq, Repr

/-- The keys of a path in order. -/
def KeyPath.keys (p : KeyPath) : List String := p.way ++ [p.last]

/-- A statement of a document. -/
inductive Statement where
  | table (path : KeyPath)
  | element (path : KeyPath)
  | entry (path : KeyPath) (v : Value)

/-- A document under construction: its content, and the header in effect. -/
structure Draft where
  fields : Fields
  header : List String

namespace Draft

/-- The document without a statement. -/
def empty : Draft := ⟨[], []⟩

/-- The document after one more statement, unless that contradicts what it has. -/
def add (d : Draft) : Statement → Option Draft
  | .table path => (openTable path.way path.last d.fields).map (⟨·, path.keys⟩)
  | .element path => (openElement path.way path.last d.fields).map (⟨·, path.keys⟩)
  | .entry path v =>
    (changeAt .passage (fun _ => setEntry path.way path.last v) d.header .header d.fields).map
      (⟨·, d.header⟩)

end Draft

mutual

/-- The finished value under a key. -/
def Node.finish : Node → Value
  | .value v => v
  | .table _ fields => .table (finishFields fields)
  | .tables elements => .array (finishElements elements)

/-- The finished content of a table. -/
def finishFields : List (String × Node) → List (String × Value)
  | [] => []
  | (key, node) :: rest => (key, node.finish) :: finishFields rest

/-- The finished elements of an array of tables. -/
def finishElements : List (List (String × Node)) → List Value
  | [] => []
  | fields :: rest => .table (finishFields fields) :: finishElements rest

end

/-- The table that statements build, unless one of them contradicts those before it. -/
def build (statements : List Statement) : Option (List (String × Value)) :=
  (statements.foldlM Draft.add .empty).map fun d => finishFields d.fields

/-- The table between braces that entries build. -/
def buildInline (entries : List (KeyPath × Value)) : Option Value :=
  (entries.foldlM (fun fields entry => setEntry entry.1.way entry.1.last entry.2 fields) []).map
    fun fields => .table (finishFields fields)

end RecordSearch.Toml
