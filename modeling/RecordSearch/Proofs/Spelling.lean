import RecordSearch.Proofs.Lexing.Account
import RecordSearch.Proofs.Stability

/-! The tokens of a query spelled out again. The lexer makes a number only after a comparison
    (`tokenize_placed`) and prints it as it reads, and it makes no empty term, so all its tokens can be
    read back. Hence the tokens of any query, well formed or not, written one blank apart are a text
    with the same tokens, and the tokens of this text spell it out as it stands (`tokenize_spelled`). -/

namespace RecordSearch.Query

section Placed

variable {previous : Option Kind} {position : Nat} {content source rest cs : List Char}
  {token : Token} {tokens : List Token}

theorem ReadsOperand.placed (h : ReadsOperand previous position content token) :
    token.Placed previous := by
  cases h with
  | number compared reads => exact fun _ => compared
  | term wordy => exact nofun

/-- No mark is a number, and an operand is one only after a comparison. -/
theorem StandsFor.placed (h : StandsFor previous position content source rest token) :
    token.Placed previous := by
  cases h with
  | @mark k literal _ spelled parted =>
    intro (hnumber : k = .number)
    rw [hnumber] at spelled
    cases spelled
  | word nonempty run apart unmarked operand => exact operand.placed
  | quoted quoted visible operand => exact operand.placed

theorem CutInto.placed (h : CutInto previous position cs tokens) :
    Sequence Token.Placed previous tokens := by
  induction h with
  | finish => trivial
  | gap gap more ih => exact ih
  | token stands more ih => exact ⟨stands.placed, ih⟩

end Placed

/-- Every number of a query stands after a comparison. -/
theorem tokenize_placed (query : String) : Sequence Token.Placed none (tokenize query) :=
  (tokenize_eq_iff.mp rfl).placed

theorem tokenize_readable (query : String) : Sequence Token.Readable none (tokenize query) :=
  ((tokenize_suits query).and (tokenize_placed query)).imp fun _ _ hmem hboth =>
    readable_of_suits hboth.1 hboth.2 (tokenize_ne_empty hmem) fun _ => hboth.1.readFinite_text

/-- A token is written the same wherever it stands. -/
theorem writeTokens_unplaced (tokens : List Token) :
    writeTokens (tokens.map Token.unplaced) = writeTokens tokens := by
  rw [writeTokens, List.map_map]
  rfl

/-- The tokens of any query, written one blank apart, are a text that is cut into the same tokens,
    places apart; and the tokens of this text are written as the text itself. -/
theorem tokenize_spelled (query : String) :
    (tokenize (writeTokens (tokenize query))).map Token.unplaced =
        (tokenize query).map Token.unplaced ∧
      writeTokens (tokenize (writeTokens (tokenize query))) = writeTokens (tokenize query) := by
  have hsame := tokenize_writeTokens (tokenize_readable query)
  refine ⟨hsame, ?_⟩
  calc writeTokens (tokenize (writeTokens (tokenize query)))
      = writeTokens ((tokenize (writeTokens (tokenize query))).map Token.unplaced) :=
        (writeTokens_unplaced _).symm
    _ = writeTokens ((tokenize query).map Token.unplaced) := by rw [hsame]
    _ = writeTokens (tokenize query) := writeTokens_unplaced _

end RecordSearch.Query
