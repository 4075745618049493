import RecordSearch.Text.Ligature

/-! How many columns a text takes on a terminal. Marks take none, wide characters take two and most
    others one, and characters that fuse take fewer than they would apart. A selector after a
    character chooses between its drawings, and with that its width. -/

namespace RecordSearch.Text

/-- The drawing that a selector asks for. -/
inductive Drawing where
  | text
  | emoji
  | wide
  deriving DecidableEq, Repr

/-- The drawing that a character asks for as a selector. -/
def selected (c : Char) : Option Drawing :=
  if c = '\uFE0E' then some .text
  else if c = '\uFE0F' then some .emoji
  else if c = '\uFE01' then some .wide
  else none

/-- Whether a character has a drawing of its own for a selector. -/
def Drawing.appliesTo (c : Char) : Drawing → Bool
  | .text => inRanges textVariantRanges c
  | .emoji => inRanges emojiVariantRanges c
  | .wide => inRanges [(0x2018, 0x2019), (0x201C, 0x201D)] c

/-- The end of a text as the next character to the left sees it: a selector, if one stands there,
    and the shape behind it. -/
structure Ending where
  selector : Option Drawing
  shape : Shape
  deriving DecidableEq, Repr

/-- The end of the empty text. -/
def Ending.empty : Ending := ⟨none, .plain⟩

/-- What a character adds before a shape. -/
def besideShape (c : Char) (shape : Shape) : Int × Ending :=
  match fused c shape with
  | some (columns, shape) => (columns, ⟨none, shape⟩)
  | none => (charWidth c, ⟨none, shapeOf c⟩)

/-- The shape that is left when a selector comes before it. An emoji selector also keeps the
    emoji with a joiner before it. -/
def Shape.behind (drawing : Drawing) (shape : Shape) : Shape :=
  if shape.isLetter || drawing = .emoji && (shape = .joinedEmoji || shape = .joinedKeycap)
  then shape else .plain

/-- What a character adds when it is drawn as the selector after it asks. -/
def Drawing.columns (shape : Shape) : Drawing → Int × Ending
  | .text => (1, .empty)
  | .wide => (2, .empty)
  | .emoji =>
    (if shape = .joinedEmoji || shape = .joinedKeycap then 0 else 2, ⟨none, .emoji⟩)

/-- What a character adds before an ending without a selector. -/
def beforeShape (c : Char) (shape : Shape) : Int × Ending :=
  match selected c with
  | some drawing => (0, ⟨some drawing, shape.behind drawing⟩)
  | none => besideShape c shape

/-- What a character adds before an ending, and the ending that it makes. -/
def before (c : Char) (ending : Ending) : Int × Ending :=
  match ending.selector with
  | none => beforeShape c ending.shape
  | some drawing =>
    if drawing.appliesTo c then drawing.columns ending.shape
    else beforeShape c (if ending.shape.isLetter then ending.shape else .plain)

/-- The columns of a text, with the ending that it shows to text before it. -/
def measured (cs : List Char) : Int × Ending :=
  cs.foldr (fun c (columns, ending) =>
    let (added, ending) := before c ending
    (columns + added, ending)) (0, .empty)

/-- The columns that a text takes. -/
def width (cs : List Char) : Nat := (measured cs).1.toNat

end RecordSearch.Text
