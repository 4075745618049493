import RecordSearch.Proofs.Spelling
import RecordSearch.Query.Highlight

/-! Colours hide nothing. The sequences that switch styles begin with an escape character and end with
    the first `m` after it, so a scan takes them out and leaves the text between them, as long as there
    is no escape character in it (`unstyled_highlightTokens`). Every character of a token is one of the
    query, of a number or of what a repair adds (`escape_notMem_lexeme`), so what is left of a coloured
    query is its tokens as they are written (`unstyled_highlight`). -/

namespace RecordSearch

namespace Text

/-! ### Taking out sequences -/

/-- The character that a sequence begins with. -/
def escapeCharacter : Char := '\x1b'

/-- What stands outside of sequences, each from an escape character up to the next `m`; `within` tells
    whether the text begins inside of one. -/
def outside : (within : Bool) → List Char → List Char
  | _, [] => []
  | true, c :: cs => outside (c != 'm') cs
  | false, c :: cs => if c = escapeCharacter then outside true cs else c :: outside false cs

/-- A text without its sequences. -/
def unstyled (text : String) : String := String.ofList (outside false text.toList)

/-- A scan reads on to the end of a sequence. -/
theorem outside_true {cs : List Char} (hcs : 'm' ∉ cs) (rest : List Char) :
    outside true (cs ++ 'm' :: rest) = outside false rest := by
  induction cs with
  | nil => rfl
  | cons c cs ih =>
    rw [List.mem_cons, not_or] at hcs
    have hc : (c != 'm') = true := bne_iff_ne.mpr (Ne.symm hcs.1)
    rw [List.cons_append, outside, hc, ih hcs.2]

/-- Text without escape characters is left as it is. -/
theorem outside_append {cs : List Char} (hcs : escapeCharacter ∉ cs) (rest : List Char) :
    outside false (cs ++ rest) = cs ++ outside false rest := by
  induction cs with
  | nil => rfl
  | cons c cs ih =>
    rw [List.mem_cons, not_or] at hcs
    rw [List.cons_append, outside, if_neg (Ne.symm hcs.1), ih hcs.2, List.cons_append]

/-- A sequence is taken out, whatever number it has. -/
theorem outside_sequence (code : Nat) (rest : List Char) :
    outside false ((Style.sequence code).toList ++ rest) = outside false rest := by
  have hsequence : (Style.sequence code).toList =
      escapeCharacter :: ('[' :: (toString code).toList ++ ['m']) := by
    simp [Style.sequence, escapeCharacter]
  have hdigits : 'm' ∉ '[' :: (toString code).toList := by
    rw [List.mem_cons, not_or, Nat.toString_eq_ofList_toDigits, String.toList_ofList]
    refine ⟨by decide, fun hmem => ?_⟩
    have hdigit := Decimal.isDigit_of_mem_digitsOf hmem
    revert hdigit
    decide
  rw [hsequence, List.cons_append, outside, if_pos rfl, List.append_assoc, List.singleton_append,
    outside_true hdigits]

/-- What is left of painted text is the text. -/
theorem outside_paint {text : String} (htext : escapeCharacter ∉ text.toList) (style : Style)
    (rest : List Char) :
    outside false ((style.paint text).toList ++ rest) = text.toList ++ outside false rest := by
  rw [Style.paint, String.toList_append, String.toList_append, List.append_assoc, List.append_assoc,
    outside_sequence, outside_append htext, outside_sequence]

end Text

namespace Query

open Text (escapeCharacter outside unstyled)

/-! ### Tokens in colour -/

theorem outside_highlighted {t : Token} (ht : escapeCharacter ∉ t.written.toList) (namesScope : Bool)
    (rest : List Char) :
    outside false ((t.highlighted namesScope).toList ++ rest) =
      t.written.toList ++ outside false rest := by
  rw [Token.highlighted]
  split
  · next style _ => exact Text.outside_paint ht style rest
  · exact Text.outside_append ht rest

theorem outside_highlightEach : ∀ {ts : List Token},
    (∀ t ∈ ts, escapeCharacter ∉ t.written.toList) →
      outside false (" ".intercalate (highlightEach ts)).toList = (writeTokens ts).toList
  | [], _ => rfl
  | [t], h => by
      have ht := outside_highlighted (h t List.mem_cons_self) false []
      rw [List.append_nil] at ht
      rw [highlightEach, highlightEach, String.intercalate_singleton, writeTokens, List.map_singleton,
        String.intercalate_singleton]
      exact ht.trans (List.append_nil _)
  | t :: u :: ts, h => by
      have ih := outside_highlightEach fun v hv => h v (List.mem_cons_of_mem t hv)
      rw [writeTokens, List.map_cons, highlightEach] at ih
      rw [highlightEach, highlightEach, String.intercalate_cons_cons, String.toList_append,
        String.toList_append, List.append_assoc, outside_highlighted (h t List.mem_cons_self),
        Text.outside_append (by decide), ih, writeTokens, List.map_cons, List.map_cons,
        String.intercalate_cons_cons, String.toList_append, String.toList_append, List.append_assoc]

/-- What is left of tokens in colour is the tokens as they are written. -/
theorem unstyled_highlightTokens {ts : List Token}
    (h : ∀ t ∈ ts, escapeCharacter ∉ t.written.toList) :
    unstyled (highlightTokens ts) = writeTokens ts := by
  rw [unstyled, highlightTokens, outside_highlightEach h, String.ofList_toList]

/-! ### The characters of tokens -/

section Characters

variable {previous : Option Kind} {position : Nat} {content source rest cs : List Char}
  {token : Token} {tokens : List Token} {c : Char}

theorem ReadsOperand.mem_of_mem_lexeme (h : ReadsOperand previous position content token)
    (hc : c ∈ token.lexeme.toList) : c ∈ content ∨ Decimal.isNumeric c = true := by
  cases h with
  | number compared reads =>
    exact .inr (Decimal.isNumeric_of_mem_query_text (isFinite_of_readFinite reads) hc)
  | term wordy =>
    rw [Token.lexeme, String.toList_ofList] at hc
    exact .inl hc

theorem StandsFor.mem_of_mem_lexeme (h : StandsFor previous position content source rest token)
    (hc : c ∈ token.lexeme.toList) : c ∈ source ∨ Decimal.isNumeric c = true := by
  cases h with
  | mark spelled parted =>
    rw [Token.ofKind, spelled] at hc
    exact .inl hc
  | word nonempty run apart unmarked operand => exact operand.mem_of_mem_lexeme hc
  | quoted quoted visible operand =>
    refine (operand.mem_of_mem_lexeme hc).imp_left fun hmem => ?_
    cases quoted with
    | closed unquoted => simp [hmem]
    | unclosed unquoted => simp [hmem]

theorem CutInto.mem_of_mem_lexeme (h : CutInto previous position cs tokens) (htoken : token ∈ tokens)
    (hc : c ∈ token.lexeme.toList) : c ∈ cs ∨ Decimal.isNumeric c = true := by
  induction h with
  | finish => cases htoken
  | gap gap more ih => exact (ih htoken).imp_left (List.mem_append_right _)
  | token stands more ih =>
    rcases List.mem_cons.mp htoken with rfl | htoken
    · exact (stands.mem_of_mem_lexeme hc).imp_left (List.mem_append_left _)
    · exact (ih htoken).imp_left (List.mem_append_right _)

end Characters

/-- The text of a token is made up of characters of the query, but for numbers, which are written in
    a form of their own. -/
theorem mem_of_mem_lexeme {query : String} {token : Token} (htoken : token ∈ tokenize query) {c : Char}
    (hc : c ∈ token.lexeme.toList) : c ∈ query.toList ∨ Decimal.isNumeric c = true :=
  (tokenize_eq_iff.mp rfl).mem_of_mem_lexeme htoken hc

theorem lexeme_of_mem_added {place closings : Nat} {term : Bool} {token : Token}
    (h : token ∈ added place term closings) : token.lexeme = "" ∨ token.lexeme = ")" := by
  rcases List.mem_append.mp h with hterm | hclosing
  · split at hterm
    · rw [List.mem_singleton.mp hterm]
      exact .inl rfl
    · cases hterm
  · obtain ⟨i, -, rfl⟩ := List.mem_map.mp hclosing
    exact .inr rfl

/-- The text of a leaf is that of a token of the query, or the leaf was added. -/
theorem lexeme_of_mem_leaves {recovery : Bool} {query : String} {t : Tree}
    (h : compile recovery query = .ok t) {leaf : Token} (hleaf : leaf ∈ t.leaves) :
    (∃ token ∈ tokenize query, token.lexeme = leaf.lexeme) ∨ leaf.lexeme = "" ∨
      leaf.lexeme = ")" := by
  rcases parse_of_compile h with ⟨-, hparse⟩ | ⟨-, hparse⟩
  · have hrepaired := leaves_of_parseRepaired hparse
    generalize t.leaves = leaves at hrepaired hleaf
    cases hrepaired with
    | complete kept closings =>
      rcases List.mem_append.mp hleaf with hkept | hadded
      · exact .inl (kept.exists_lexeme hkept)
      · exact .inr (lexeme_of_mem_added hadded)
    | cut kept found =>
      obtain ⟨x, hx, hlexeme⟩ := kept.exists_lexeme hleaf
      exact .inl ⟨x, List.mem_of_mem_take hx, hlexeme⟩
  · rw [(isDerivation_of_parseStrict hparse).leaves] at hleaf
    exact .inl ⟨leaf, hleaf, rfl⟩

/-! ### Queries in colour -/

/-- A token is written with the characters of its text and quotes. -/
theorem escape_notMem_written {t : Token} (h : escapeCharacter ∉ t.lexeme.toList) :
    escapeCharacter ∉ t.written.toList := by
  rw [Token.written]
  split
  · rw [quoteTerm]
    split
    · simpa using ⟨by decide, h, by decide⟩
    · exact h
  · exact h

section Colours

variable {query : String} (hquery : escapeCharacter ∉ query.toList)

include hquery

theorem escape_notMem_lexeme {token : Token} (htoken : token ∈ tokenize query) :
    escapeCharacter ∉ token.lexeme.toList := by
  intro hmem
  rcases mem_of_mem_lexeme htoken hmem with hc | hnumeric
  · exact hquery hc
  · revert hnumeric
    decide

theorem escape_notMem_leaf {recovery : Bool} {t : Tree} (h : compile recovery query = .ok t)
    {leaf : Token} (hleaf : leaf ∈ t.leaves) : escapeCharacter ∉ leaf.lexeme.toList := by
  rcases lexeme_of_mem_leaves h hleaf with ⟨token, htoken, hlexeme⟩ | hadded | hadded
  · exact hlexeme ▸ escape_notMem_lexeme hquery htoken
  · rw [hadded]
    decide
  · rw [hadded]
    decide

theorem unstyled_highlight_eq : unstyled (highlight query) = writeTokens (tokenize query) :=
  unstyled_highlightTokens fun _ ht => escape_notMem_written (escape_notMem_lexeme hquery ht)

/-- Without its sequences, a query in colour is a text with the tokens of the query, places apart, and
    the leaves of the tree that a query compiles to, with or without recovery, are the tree as it is
    written; if only there is no escape character in the query. -/
theorem unstyled_highlight :
    (tokenize (unstyled (highlight query))).map Token.unplaced =
        (tokenize query).map Token.unplaced ∧
      ∀ recovery t, compile recovery query = .ok t →
        unstyled (highlightTokens t.leaves) = t.canonical := by
  refine ⟨?_, fun recovery t h => ?_⟩
  · rw [unstyled_highlight_eq hquery]
    exact tokenize_writeTokens (tokenize_readable query)
  · exact unstyled_highlightTokens fun _ hleaf =>
      escape_notMem_written (escape_notMem_leaf hquery h hleaf)

end Colours

/-- Brackets, digits and the letter `m` in the terms of a query are no part of a sequence. -/
theorem unstyled_highlight_brackets :
    escapeCharacter ∉ "m:\"[36m OR\" >05".toList ∧
      highlight "m:\"[36m OR\" >05" =
        "\x1b[36mm\x1b[0m \x1b[2m:\x1b[0m \"[36m OR\" \x1b[32m>\x1b[0m \x1b[35m5\x1b[0m" ∧
      unstyled (highlight "m:\"[36m OR\" >05") = "m : \"[36m OR\" > 5" ∧
      (tokenize (unstyled (highlight "m:\"[36m OR\" >05"))).map Token.unplaced =
        (tokenize "m:\"[36m OR\" >05").map Token.unplaced ∧
      ∃ t, compile true "m:\"[36m OR\" >05" = .ok t ∧
        unstyled (highlightTokens t.leaves) = t.canonical := by
  have hquery : escapeCharacter ∉ "m:\"[36m OR\" >05".toList := by decide
  obtain ⟨htokens, htrees⟩ := unstyled_highlight hquery
  obtain ⟨t, ht⟩ := exists_compile "m:\"[36m OR\" >05"
  exact ⟨hquery, by decide +kernel, by decide +kernel, htokens, t, ht, htrees true t ht⟩

end Query

end RecordSearch
