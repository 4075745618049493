import RecordSearch.Text.Hexadecimal
import RecordSearch.Toml.Layout

/-! Strings of a TOML document. There are four ways to quote one: a basic string has escapes and a
    literal string has none, and the long forms of both, between three marks, may run over several
    lines. `unquote` reads all of them; `quote` picks the plainest way that leaves the text as it
    is, tabs not counted, and escapes other characters only where no way does. -/

namespace RecordSearch.Toml

/-- The ways to quote a string. -/
inductive Quoting where
  | basic
  | literal
  | longBasic
  | longLiteral
  deriving DecidableEq, Repr

namespace Quoting

/-- The character that encloses the text. -/
def mark : Quoting → Char
  | basic | longBasic => '"'
  | literal | longLiteral => '\''

/-- Whether the text may run over several lines. -/
def isLong : Quoting → Bool
  | basic | literal => false
  | longBasic | longLiteral => true

/-- Whether a backslash begins an escape. -/
def hasEscapes : Quoting → Bool
  | basic | longBasic => true
  | literal | longLiteral => false

/-- The marks at either end. -/
def delimiter (q : Quoting) : List Char := List.replicate (if q.isLong then 3 else 1) q.mark

/-! ### Reading -/

/-- How many marks of the text stand before the closing ones, and what follows those, if the marks
    at the head of `cs` close the text. Up to two marks may stand before three closing ones. -/
def closing (q : Quoting) (cs : List Char) : Option (Nat × List Char) :=
  if q.isLong then
    let marks := (cs.takeWhile (· = q.mark)).length
    if marks < 3 then none
    else
      let inner := min marks 5 - 3
      some (inner, cs.drop (inner + 3))
  else some (0, cs.drop 1)

/-- The character whose code point is spelled by the next `count` digits. -/
def codePoint (count : Nat) (cs : List Char) : Option Char :=
  let digits := cs.take count
  if digits.length = count then (Text.hexValue digits).bind Text.charOf else none

/-- The character that an escape stands for, and how many characters the escape has after its
    backslash. -/
def escapedAt : List Char → Option (Char × Nat)
  | 'b' :: _ => some ('\x08', 1)
  | 't' :: _ => some ('\t', 1)
  | 'n' :: _ => some ('\n', 1)
  | 'f' :: _ => some ('\x0c', 1)
  | 'r' :: _ => some ('\r', 1)
  | 'e' :: _ => some ('\x1b', 1)
  | '"' :: _ => some ('"', 1)
  | '\\' :: _ => some ('\\', 1)
  | 'x' :: cs => (codePoint 2 cs).map (·, 3)
  | 'u' :: cs => (codePoint 4 cs).map (·, 5)
  | 'U' :: cs => (codePoint 8 cs).map (·, 9)
  | _ => none

/-- The number of blanks and line ends at the head of the text. -/
def layoutLength : List Char → Nat
  | [] => 0
  | c :: cs =>
    if isBlank c || c = '\n' || c = '\r' && cs.head? = some '\n' then layoutLength cs + 1 else 0

/-- How much a backslash at the end of a line leaves out: the line end and all blanks and line ends
    after it. -/
def continuation (cs : List Char) : Option Nat :=
  match skipBlanks cs with
  | '\n' :: _ | '\r' :: '\n' :: _ => some (layoutLength cs)
  | _ => none

/-- What the next character of a string means. -/
inductive Piece where
  /-- It closes the string after so many marks of the text, and this follows. -/
  | close (inner : Nat) (rest : List Char)
  /-- It stands for a character, with so many characters after it. -/
  | char (c : Char) (length : Nat)
  /-- It leaves out so many characters after it. -/
  | gap (length : Nat)
  /-- It cannot stand there. -/
  | refused

/-- What a backslash means before the rest of a string. -/
def escapePiece (q : Quoting) (cs : List Char) : Piece :=
  match if q.isLong then continuation cs else none with
  | some length => .gap length
  | none =>
    match escapedAt cs with
    | some (c, length) => .char c length
    | none => .refused

/-- What a character means before the rest of a string. -/
def piece (q : Quoting) (c : Char) (cs : List Char) : Piece :=
  if c = q.mark then
    match q.closing (c :: cs) with
    | some (inner, rest) => .close inner rest
    | none => .char c 0
  else if c = '\\' ∧ q.hasEscapes then q.escapePiece cs
  else if q.isLong ∧ (c = '\n' ∨ c = '\r' ∧ cs.head? = some '\n') then .char c 0
  else if isControl c then .refused
  else .char c 0

/-- The rest of a string after its first `skip` characters, up to the closing marks, and what
    follows them. -/
def textRest (q : Quoting) : (skip : Nat) → List Char → Option (List Char × List Char)
  | _, [] => none
  | skip + 1, _ :: cs => textRest q skip cs
  | 0, c :: cs =>
    match q.piece c cs with
    | .close inner rest => some (List.replicate inner c, rest)
    | .char c length => (textRest q length cs).map fun (text, rest) => (c :: text, rest)
    | .gap length => textRest q length cs
    | .refused => none

end Quoting

/-- The text without a line end at its head. -/
def skipLineEnd : List Char → List Char
  | '\n' :: cs | '\r' :: '\n' :: cs => cs
  | cs => cs

/-- The string at the head of the text, and what follows it. -/
def unquote : List Char → Option (List Char × List Char)
  | '"' :: '"' :: '"' :: cs => Quoting.longBasic.textRest 0 (skipLineEnd cs)
  | '"' :: cs => Quoting.basic.textRest 0 cs
  | '\'' :: '\'' :: '\'' :: cs => Quoting.longLiteral.textRest 0 (skipLineEnd cs)
  | '\'' :: cs => Quoting.literal.textRest 0 cs
  | _ => none

/-! ### Writing -/

/-- A character that no way leaves as it is. A line end is left by the long ways, and a tab is left
    by those without escapes. -/
def needsEscape (c : Char) : Bool := isControl c && c != '\n'

/-- The length of the longest run of a character, the run so far included. -/
def longestRun (mark : Char) : (run : Nat) → List Char → Nat
  | run, [] => run
  | run, c :: cs => max run (longestRun mark (if c = mark then run + 1 else 0) cs)

namespace Quoting

/-- Whether the text can be written this way as it is. -/
def suits (q : Quoting) (cs : List Char) : Bool :=
  !cs.any needsEscape
    && !(q.hasEscapes && cs.contains '\\')
    && (q.isLong || !cs.contains '\n')
    && longestRun q.mark 0 cs ≤ if q.isLong then 2 else 0

/-- The first way that suits the text, or else the one that escapes as little as it can. -/
def choose (cs : List Char) : Quoting :=
  match [basic, literal, longBasic, longLiteral].find? (·.suits cs) with
  | some q => q
  | none => if cs.contains '\n' then longBasic else basic

/-- A hexadecimal digit in capitals. -/
def capitalDigit (n : Nat) : Char := (Nat.digitChar n).toUpper

/-- One character of a string with escapes, where it is no quotation mark. -/
def escapeChar (long : Bool) (c : Char) : List Char :=
  if c = '\x08' then ['\\', 'b']
  else if c = '\t' then ['\\', 't']
  else if c = '\n' then if long then ['\n'] else ['\\', 'n']
  else if c = '\x0c' then ['\\', 'f']
  else if c = '\r' then ['\\', 'r']
  else if c = '\\' then ['\\', '\\']
  else if c.toNat < 0x20 ∨ c.toNat = 0x7f then
    ['\\', 'u', '0', '0', capitalDigit (c.toNat / 16), capitalDigit (c.toNat % 16)]
  else [c]

/-- The text with escapes. At most two quotation marks in a row stand as they are, and in the short
    form none; `run` counts those just written. -/
def escapeText (long : Bool) : (run : Nat) → List Char → List Char
  | _, [] => []
  | run, c :: cs =>
    if c = '"' then
      if run < (if long then 2 else 0) then c :: escapeText long (run + 1) cs
      else '\\' :: c :: escapeText long 0 cs
    else escapeChar long c ++ escapeText long 0 cs

/-- The text between its marks. A long text with several lines begins on a line of its own. -/
def enclose (q : Quoting) (cs : List Char) : List Char :=
  q.delimiter ++ (if q.isLong && cs.contains '\n' then ['\n'] else [])
    ++ (if q.hasEscapes then escapeText q.isLong 0 cs else cs) ++ q.delimiter

end Quoting

/-- A string with its quotation marks. -/
def quote (text : String) : String :=
  let cs := text.toList
  String.ofList ((Quoting.choose cs).enclose cs)

end RecordSearch.Toml
