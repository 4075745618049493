import RecordSearch.Text.Lines

/-! Text for a terminal. A style is switched on before the text and everything is switched off after
    it. -/

namespace RecordSearch.Text

/-- The styles in use. -/
inductive Style where
  | bold
  | dim
  | red
  | green
  | yellow
  | magenta
  | cyan
  deriving DecidableEq, Repr

namespace Style

/-- The number that switches a style on. -/
def code : Style → Nat
  | bold => 1
  | dim => 2
  | red => 31
  | green => 32
  | yellow => 33
  | magenta => 35
  | cyan => 36

/-- The sequence that switches the style of a number on; zero switches everything off. -/
def sequence (code : Nat) : String := "\x1b[" ++ toString code ++ "m"

/-- Text in a style. -/
def paint (style : Style) (text : String) : String :=
  sequence style.code ++ text ++ sequence 0

end Style

/-- A heading. -/
def header (text : String) : String :=
  Style.sequence Style.bold.code ++ Style.cyan.paint text

/-- A heading of lower rank. -/
def subheader (text : String) : String := Style.bold.paint text

/-- Text of little weight. -/
def dim (text : String) : String := Style.dim.paint text

/-- Good news. -/
def success (text : String) : String := Style.green.paint text

/-- A warning. -/
def warning (text : String) : String := Style.yellow.paint text

/-- Bad news. -/
def failure (text : String) : String := Style.red.paint text

/-- A horizontal line. -/
def rule (width : Nat) : String := dim (String.ofList (List.replicate width '─'))

end RecordSearch.Text
