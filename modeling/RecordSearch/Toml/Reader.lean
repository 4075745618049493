import RecordSearch.Toml.Document
import RecordSearch.Toml.Format
import RecordSearch.Toml.Quoted
import RecordSearch.Toml.Scalar

/-! Reading a TOML document. Each statement has a line of its own; values between brackets and
    braces may run over several lines and have a comma after their last item. They may be nested 80
    deep, and a path may have 80 keys. A byte order mark at the beginning is ignored. -/

namespace RecordSearch.Toml

/-! ### Keys -/

/-- One key, and what follows it. -/
def readKey : List Char → Option (String × List Char)
  | '"' :: cs => (Quoting.basic.textRest 0 cs).map fun (key, rest) => (String.ofList key, rest)
  | '\'' :: cs => (Quoting.literal.textRest 0 cs).map fun (key, rest) => (String.ofList key, rest)
  | cs =>
    let key := cs.takeWhile isKeyChar
    if key.isEmpty then none else some (String.ofList key, cs.dropWhile isKeyChar)

/-- A path of keys with dots between them, and what follows it and the blanks after it. The path has
    no more than `most` keys. -/
def readPath : (most : Nat) → List Char → Option (KeyPath × List Char)
  | 0, _ => none
  | most + 1, cs =>
    match readKey (skipBlanks cs) with
    | none => none
    | some (key, rest) =>
      match skipBlanks rest with
      | '.' :: rest =>
        (readPath most rest).map fun (path, rest) => (⟨key :: path.way, path.last⟩, rest)
      | rest => some (⟨[], key⟩, rest)

/-- The most keys that a path can have. -/
def longestPath : Nat := 80

/-- A path and the sign of equality after it, as they stand between braces, and the text from the
    value on. -/
def readAssigned (cs : List Char) : Option (KeyPath × List Char) :=
  match readPath longestPath cs with
  | none => none
  | some (path, rest) =>
    match skipLines false rest with
    | some ('=' :: rest) => (skipLines false rest).map (path, ·)
    | _ => none

/-! ### Values -/

/-- How deep values can be nested. -/
def deepestValue : Nat := 80

mutual

/-- A value that may be nested `depth` deep, and what follows it. -/
def readValue : (fuel depth : Nat) → List Char → Option (Value × List Char)
  | 0, _, _ => none
  | _ + 1, 0, '[' :: _ => none
  | _ + 1, 0, '\x7b' :: _ => none
  | fuel + 1, depth + 1, '[' :: cs =>
    (readItems fuel depth cs).map fun (items, rest) => (.array items, rest)
  | fuel + 1, depth + 1, '\x7b' :: cs =>
    (readEntries fuel depth cs).bind fun (entries, rest) =>
      (buildInline entries).map fun table => (table, rest)
  | _ + 1, _, cs =>
    match unquote cs with
    | some (text, rest) => some (.string (String.ofList text), rest)
    | none =>
      let (word, rest) := spanWord cs
      (readWord word).map fun v => (v, rest)

/-- The items of an array up to its closing bracket, and what follows it. -/
def readItems : (fuel depth : Nat) → List Char → Option (List Value × List Char)
  | 0, _, _ => none
  | fuel + 1, depth, cs =>
    match skipLines false cs with
    | none => none
    | some (']' :: rest) => some ([], rest)
    | some cs =>
      match readValue fuel depth cs with
      | none => none
      | some (item, rest) =>
        match skipLines false rest with
        | some (',' :: rest) =>
          (readItems fuel depth rest).map fun (items, rest) => (item :: items, rest)
        | some (']' :: rest) => some ([item], rest)
        | _ => none

/-- The entries of a table up to its closing brace, and what follows it. -/
def readEntries : (fuel depth : Nat) → List Char → Option (List (KeyPath × Value) × List Char)
  | 0, _, _ => none
  | fuel + 1, depth, cs =>
    match skipLines false cs with
    | none => none
    | some ('\x7d' :: rest) => some ([], rest)
    | some cs =>
      match readAssigned cs with
      | none => none
      | some (path, rest) =>
        match readValue fuel depth rest with
        | none => none
        | some (v, rest) =>
          match skipLines false rest with
          | some (',' :: rest) =>
            (readEntries fuel depth rest).map fun (entries, rest) => ((path, v) :: entries, rest)
          | some ('\x7d' :: rest) => some ([(path, v)], rest)
          | _ => none

end

/-! ### Statements -/

/-- The statement at the head of a line, and what follows it. -/
def readStatement (cs : List Char) : Option (Statement × List Char) :=
  match cs with
  | '[' :: '[' :: cs =>
    match readPath longestPath cs with
    | some (path, ']' :: ']' :: rest) => some (.element path, rest)
    | _ => none
  | '[' :: cs =>
    match readPath longestPath cs with
    | some (path, ']' :: rest) => some (.table path, rest)
    | _ => none
  | cs =>
    match readPath longestPath cs with
    | some (path, '=' :: rest) =>
      (readValue (2 * rest.length + 2) deepestValue (skipBlanks rest)).map fun (v, rest) =>
        (.entry path v, rest)
    | _ => none

/-- The statements of a document. -/
def readStatements : (fuel : Nat) → List Char → Option (List Statement)
  | 0, _ => none
  | fuel + 1, cs =>
    match skipLines false cs with
    | none => none
    | some [] => some []
    | some cs =>
      match readStatement cs with
      | none => none
      | some (statement, rest) =>
        match nextLine false rest with
        | none => none
        | some rest => (readStatements fuel rest).map (statement :: ·)

/-- The text without a byte order mark at its head. -/
def skipOrderMark : List Char → List Char
  | '\uFEFF' :: cs => cs
  | cs => cs

/-- The table that a document describes, if it is well formed. -/
def read (text : String) : Option (List (String × Value)) :=
  let cs := skipOrderMark text.toList
  (readStatements (cs.length + 1) cs).bind build

end RecordSearch.Toml
