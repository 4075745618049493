/-! White space is the Unicode property `White_Space`, so a no-break space is blank and a zero-width
    space is not. Text is cut at blanks in two ways: `trim` drops them at both ends, and `words` are
    the nonempty pieces between them. `pieces` is the cut itself, at any separator. -/

namespace RecordSearch.Text

/-- Whether a character lies in one of some closed ranges of code points. -/
def inRanges (ranges : List (Nat × Nat)) (c : Char) : Bool :=
  ranges.any fun (lo, hi) => lo ≤ c.toNat && c.toNat ≤ hi

/-- The code points of white space. -/
def blankRanges : List (Nat × Nat) :=
  [(0x09, 0x0D), (0x20, 0x20), (0x85, 0x85), (0xA0, 0xA0), (0x1680, 0x1680), (0x2000, 0x200A),
    (0x2028, 0x2029), (0x202F, 0x202F), (0x205F, 0x205F), (0x3000, 0x3000)]

/-- White space. -/
def isBlank (c : Char) : Bool := inRanges blankRanges c

/-- The text between separators, empty pieces included; there is always one piece more than there
    are separators. -/
def pieces (isSeparator : Char → Bool) : List Char → List (List Char)
  | [] => [[]]
  | c :: cs =>
    if isSeparator c then [] :: pieces isSeparator cs
    else match pieces isSeparator cs with
      | [] => [[c]]
      | p :: ps => (c :: p) :: ps

/-- The nonempty pieces between separators. -/
def segments (isSeparator : Char → Bool) (cs : List Char) : List (List Char) :=
  (pieces isSeparator cs).filter fun p => !p.isEmpty

/-- The maximal runs without white space. -/
def words (cs : List Char) : List (List Char) := segments isBlank cs

/-- Drops white space at the end. -/
def trimRight (cs : List Char) : List Char := (cs.reverse.dropWhile isBlank).reverse

/-- Drops white space at both ends. -/
def trim (cs : List Char) : List Char := trimRight (cs.dropWhile isBlank)

/-- Text that is empty or all white space. -/
def isBlankText (cs : List Char) : Bool := cs.all isBlank

/-- Whether `needle` stands somewhere in the text, letter by letter. -/
def contains (needle : List Char) : List Char → Bool
  | [] => needle.isEmpty
  | c :: cs => needle.isPrefixOf (c :: cs) || contains needle cs

/-- The number of bytes the text takes in UTF-8. -/
def byteLength (cs : List Char) : Nat := cs.foldl (fun n c => n + c.utf8Size) 0

/-! ### Small laws -/

theorem pieces_ne_nil (isSeparator : Char → Bool) (cs : List Char) :
    pieces isSeparator cs ≠ [] := by
  induction cs with
  | nil => simp [pieces]
  | cons c cs ih =>
    unfold pieces
    split
    · simp
    · split <;> simp

end RecordSearch.Text
