import RecordSearch.Toml.Value

/-! What the settings need of TOML: something that reads documents and something that writes them. A
    document of settings has sections, which are tables with a name, and in them texts, truth values,
    numbers and lists of texts. Tables have no order, so what is read again after it was written has
    the same values under the same keys (`Format.Lawful`). -/

namespace RecordSearch.Toml

/-- A reader and a writer of documents. A text that is no document is not read, and a document with
    something that has no form in TOML is not written. -/
structure Format where
  read : String → Option (List (String × Value))
  write : List (String × Value) → Option String

/-- A character of a key without quotation marks. -/
def isKeyChar (c : Char) : Bool := c.isAlphanum || c = '_' || c = '-'

/-- A key that can stand without quotation marks. -/
def IsName (name : List Char) : Prop := name ≠ [] ∧ ∀ c ∈ name, isKeyChar c = true

/-- A table with its name. -/
abbrev Section := String × List (String × Value)

/-- The document of some sections. -/
def document (sections : List Section) : List (String × Value) :=
  sections.map fun s => (s.1, .table s.2)

/-- What can be written for a setting. Numbers have no sign and no more than 64 bits. -/
inductive Value.IsSetting : Value → Prop
  | text (s : String) : IsSetting (.string s)
  | flag (b : Bool) : IsSetting (.bool b)
  | number {n : Nat} (fits : n < Nat.pow 2 64) : IsSetting (.integer n)
  | texts (list : List String) : IsSetting (.array (list.map .string))

/-- The entries of a section have different keys, and values that can be written for settings. -/
structure Section.WellFormed (s : Section) : Prop where
  name : IsName s.1.toList
  different : (s.2.map Prod.fst).Nodup
  keys : ∀ entry ∈ s.2, IsName entry.1.toList
  values : ∀ entry ∈ s.2, entry.2.IsSetting

/-- A document has these sections and nothing else, in whatever order. -/
structure Describes (fields : List (String × Value)) (sections : List Section) : Prop where
  tables : ∀ s ∈ sections, ∃ entries, fields.lookup s.1 = some (.table entries) ∧
    ∀ key, entries.lookup key = s.2.lookup key
  others : ∀ name, name ∉ sections.map Prod.fst → fields.lookup name = none

/-- A format writes every document of well-formed sections with different names, and reads it again. -/
structure Format.Lawful (f : Format) : Prop where
  writes : ∀ sections : List Section, (sections.map Prod.fst).Nodup →
    (∀ s ∈ sections, s.WellFormed) → ∃ text, f.write (document sections) = some text
  reads : ∀ sections : List Section, (sections.map Prod.fst).Nodup →
    (∀ s ∈ sections, s.WellFormed) → ∀ text, f.write (document sections) = some text →
      ∃ fields, f.read text = some fields ∧ Describes fields sections

end RecordSearch.Toml
