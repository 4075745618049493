import RecordSearch.Text.CaseTables
import RecordSearch.Text.Blank

/-! Full lower-casing. Every character is replaced by its lower-case form, which for one character
    has two letters, and a capital sigma that ends a word becomes a final one: it ends a word when
    a cased letter comes before it and none after it, case-ignorable characters not counted. -/

namespace RecordSearch.Text

/-- Letters with a case. -/
def isCased (c : Char) : Bool := inRanges casedRanges c

/-- Characters that do not end a word for the final sigma. -/
def isCaseIgnorable (c : Char) : Bool := inRanges caseIgnorableRanges c

/-- Whether a run of letters holds a character. -/
def CaseRun.holds (run : CaseRun) (c : Char) : Bool :=
  run.first ≤ c.toNat && c.toNat ≤ run.last && (c.toNat - run.first) % run.step == 0

/-- The lower-case form of a character on its own. -/
def lowerChar (c : Char) : List Char :=
  if c.toNat < 0x80 then [c.toLower]
  else if c = 'İ' then ['i', '\u0307']
  else match lowerRuns.find? (·.holds c) with
    | some run => [Char.ofNat (c.toNat + run.shift).toNat]
    | none => [c]

/-- Whether the next character that counts is a cased letter. -/
def casedNext (cs : List Char) : Bool :=
  match cs.dropWhile isCaseIgnorable with
  | [] => false
  | c :: _ => isCased c

/-- The lower-case form of a character between the text before it, nearest first, and after it. -/
def lowerBetween (before : List Char) (c : Char) (after : List Char) : List Char :=
  if c = 'Σ' then if casedNext before && !casedNext after then ['ς'] else ['σ']
  else lowerChar c

/-- Lower-casing of what follows the text before, which is given nearest first. -/
def lowerFrom (before : List Char) : List Char → List Char
  | [] => []
  | c :: cs => lowerBetween before c cs ++ lowerFrom (c :: before) cs

/-- The text in lower case. -/
def lower (cs : List Char) : List Char := lowerFrom [] cs

end RecordSearch.Text
