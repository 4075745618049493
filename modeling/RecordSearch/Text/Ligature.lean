import RecordSearch.Text.Blank
import RecordSearch.Text.EmojiTables
import RecordSearch.Text.WidthTables

/-! Characters that fuse with what stands after them and then take fewer columns than they would
    apart: emoji joined into one picture, and the ligatures of some scripts. A text is read from
    its end. `Shape` is what has been read so far, as the next character to the left can see it, and
    `fused` says what that character adds to the width if the two fuse. -/

namespace RecordSearch.Text

/-! ### Characters on their own -/

/-- Characters that take no column of their own. -/
def isZeroWidth (c : Char) : Bool := inRanges zeroWidthRanges c

/-- The columns that a character takes on its own. -/
def charWidth (c : Char) : Nat :=
  if c.toNat ≤ 0xA0 then 1
  else if c = '\u17D8' then 3
  else if isZeroWidth c then 0
  else if inRanges wideRanges c then 2
  else 1

/-- The joiner, which takes no column and fuses its neighbours. -/
def joiner : Char := '\u200D'

/-- The letters two of which make a flag. -/
def isFlagLetter (c : Char) : Bool := inRanges [(0x1F1E6, 0x1F1FF)] c

/-- The skin tones of emoji. -/
def isSkinTone (c : Char) : Bool := inRanges [(0x1F3FB, 0x1F3FF)] c

/-- Characters that ligatures other than the Arabic ones reach across. -/
def isBridged (c : Char) : Bool :=
  inRanges [(0x34F, 0x34F), (0x17B4, 0x17B5), (0x180B, 0x180D), (0x180F, 0x180F), (0x200D, 0x200D),
    (0xFE00, 0xFE0F), (0xE0100, 0xE01EF)] c

/-- Characters that Arabic letters join across. -/
def isTransparent (c : Char) : Bool := isZeroWidth c && !inRanges opaqueRanges c

/-- The Arabic letters of the shape of alef. -/
def isAlef (c : Char) : Bool :=
  inRanges [(0x622, 0x623), (0x625, 0x625), (0x627, 0x627), (0x671, 0x673), (0x675, 0x675),
    (0x773, 0x774), (0x870, 0x882)] c

/-- The Arabic letters of the shape of lam. -/
def isLam (c : Char) : Bool :=
  inRanges [(0x644, 0x644), (0x6B5, 0x6B8), (0x76A, 0x76A), (0x8A6, 0x8A6), (0x8C7, 0x8C7)] c

/-- The Khmer letters that have a form below the letter before them. -/
def isSubscript (c : Char) : Bool :=
  inRanges [(0x1780, 0x1782), (0x1784, 0x1787), (0x1789, 0x178C), (0x178E, 0x1793),
    (0x1795, 0x1798), (0x179B, 0x179D), (0x17A0, 0x17A0), (0x17A2, 0x17A2), (0x17A7, 0x17A7),
    (0x17AB, 0x17AC), (0x17AF, 0x17AF)] c

/-- The Tifinagh consonants. -/
def isTifinagh (c : Char) : Bool := inRanges [(0x2D31, 0x2D65), (0x2D6F, 0x2D6F)] c

/-! ### What the next character to the left can see -/

/-- Letters that fuse with a letter before them. -/
inductive Ligating where
  | lamed
  | ya
  | vowelYa
  | subscript
  | tifinagh
  | tifinaghPair
  | tone
  | orkhonVowel
  deriving DecidableEq, Repr

/-- What has been read of a text from its end, as far as it changes the width of the next
    character. -/
inductive Shape where
  /-- Nothing that fuses. -/
  | plain
  | lineEnd
  | alef
  /-- A letter, and whether a joiner stands before it. -/
  | letter (l : Ligating) (joined : Bool)
  | kiratVowel
  | kiratVowels
  | emoji
  | skinTone
  /-- So many letters of flags. -/
  | flags (count : Nat)
  /-- An emoji with a joiner before it. -/
  | joinedEmoji
  | joinedKeycap
  /-- So many letters of flags, before a joiner. -/
  | joinedFlags (count : Nat)
  /-- So many tag letters and then tag digits, before a tag end and a joiner. -/
  | joinedTags (letters digits : Nat)
  deriving DecidableEq, Repr

/-- Shapes that a selector between the two characters does not break up. -/
def Shape.isLetter : Shape → Bool
  | .alef | .letter _ _ => true
  | _ => false

/-- The shape of a character on its own. -/
def shapeOf (c : Char) : Shape :=
  if c = '\n' then .lineEnd
  else if c.toNat ≤ 0xA0 then .plain
  else if c = '\u05DC' then .letter .lamed false
  else if isAlef c then .alef
  else if isSubscript c then .letter .subscript false
  else if c = '\u1A10' then .letter .ya false
  else if isTifinagh c then .letter .tifinagh false
  else if inRanges [(0xA4FC, 0xA4FD)] c then .letter .tone false
  else if c.toNat = 0x10C03 then .letter .orkhonVowel false
  else if c.toNat = 0x16D67 then .kiratVowel
  else if c.toNat = 0x16D68 then .kiratVowels
  else if isFlagLetter c then .flags 1
  else if isSkinTone c then .skinTone
  else if inRanges emojiRanges c then .emoji
  else .plain

/-! ### Fusing -/

/-- What a character adds before a letter that it fuses with, and the shape that the two have. -/
def Ligating.fused (c : Char) (joined : Bool) : Ligating → Option (Int × Shape)
  | .lamed => if joined && c = '\u05D0' then some (0, .plain) else none
  | .ya => if joined && c = '\u1A17' then some (0, .letter .vowelYa true) else none
  | .vowelYa => if c = '\u1A15' then some (0, .plain) else none
  | .subscript => if c = '\u17D2' then some (-1, .plain) else none
  | .tifinagh =>
    if c = '\u2D7F' then some (1, .letter .tifinaghPair true)
    else if joined && isTifinagh c then some (0, .plain)
    else none
  | .tifinaghPair => if isTifinagh c then some (-1, .plain) else none
  | .tone => if inRanges [(0xA4F8, 0xA4FB)] c then some (0, .plain) else none
  | .orkhonVowel => if joined && c.toNat = 0x10C32 then some (0, .plain) else none

/-- What a character adds before emoji that a joiner stands before. -/
def fusedJoined (c : Char) : Option (Int × Shape) :=
  if c = '\u20E3' then some (0, .joinedKeycap)
  else if isFlagLetter c then some (1, .joinedFlags 1)
  else if isSkinTone c then some (0, .skinTone)
  else if c.toNat = 0xE007F then some (0, .joinedTags 0 0)
  else if inRanges emojiRanges c then some (0, .emoji)
  else none

/-- What a character adds before tags: they end a flag of three to six letters, or of letters after
    three digits, and the black flag begins it. -/
def fusedTags (c : Char) (letters digits : Nat) : Option (Int × Shape) :=
  if inRanges [(0xE0061, 0xE007A)] c && digits == 0 && letters < 6 then
    some (0, .joinedTags (letters + 1) 0)
  else if inRanges [(0xE0030, 0xE0039)] c && letters < 5 && digits < 3 then
    some (0, .joinedTags letters (digits + 1))
  else if c.toNat = 0x1F3F4 && (3 ≤ letters && digits == 0 || digits == 3) then some (0, .emoji)
  else none

/-- What a character adds to the width before the shape that it fuses with, and the shape that the
    two have. -/
def fused (c : Char) : Shape → Option (Int × Shape)
  | .plain | .joinedKeycap => none
  | .lineEnd => if c = '\r' then some (0, .plain) else none
  | .alef =>
    if isLam c then some (0, .plain) else if isTransparent c then some (0, .alef) else none
  | .letter l joined =>
    if c = joiner then some (0, .letter l true)
    else if isBridged c then some (0, .letter l joined)
    else l.fused c joined
  | .kiratVowel =>
    if c.toNat = 0x16D63 || c.toNat = 0x16D69 then some (0, .plain)
    else if c.toNat = 0x16D67 then some (0, .kiratVowels)
    else if c.toNat = 0x16D68 then some (1, .kiratVowel)
    else none
  | .kiratVowels => if c.toNat = 0x16D63 then some (0, .plain) else none
  | .emoji => if c = joiner then some (0, .joinedEmoji) else none
  | .skinTone =>
    if inRanges modifierBaseRanges c then some (0, .emoji)
    else if c = joiner then some (0, .joinedEmoji)
    else none
  | .flags count =>
    if isFlagLetter c then some (1, .flags (count + 1))
    else if c = joiner && 2 ≤ count then some (0, .joinedEmoji)
    else none
  | .joinedEmoji => fusedJoined c
  | .joinedFlags count =>
    if isFlagLetter c then some (if count % 2 = 1 then -1 else 3, .joinedFlags (count + 1))
    else if c = joiner && 2 ≤ count then some (0, .joinedEmoji)
    else none
  | .joinedTags letters digits => fusedTags c letters digits

end RecordSearch.Text
