import RecordSearch.Proofs.Lexing.Written

/-! Pieces of text put together without a separator. What a piece is read as depends on the kind of
    the token before it and on the text after it; under these two it is read as some tokens
    (`Reads`), and two pieces in a row are read as the tokens of both (`Reads.append`). -/

namespace RecordSearch.Query

/-- Between a token of the given kind and the rest of a query a text is read as some tokens. -/
def Reads (previous : Option Kind) (cs : List Char) (tokens : List Token) (rest : List Char) : Prop :=
  ∀ position, ∃ position', unplacedTokens previous position (cs ++ rest) =
    tokens.map Token.unplaced ++ unplacedTokens (lastKind previous tokens) position' rest

variable {previous : Option Kind} {cs ds rest : List Char} {ts us : List Token}

theorem Reads.nil : Reads previous [] [] rest := fun position => ⟨position, rfl⟩

theorem Reads.append (h : Reads previous cs ts (ds ++ rest))
    (h' : Reads (lastKind previous ts) ds us rest) : Reads previous (cs ++ ds) (ts ++ us) rest := by
  intro position
  obtain ⟨between, hfirst⟩ := h position
  obtain ⟨position', hsecond⟩ := h' between
  refine ⟨position', ?_⟩
  rw [List.append_assoc, hfirst, hsecond, lastKind_append, List.map_append, List.append_assoc]

/-- A text that is read to its end is cut into its tokens. -/
theorem Reads.tokenize {query : String} (h : Reads none query.toList ts []) :
    (tokenize query).map Token.unplaced = ts.map Token.unplaced := by
  obtain ⟨position', hread⟩ := h 0
  rw [List.append_nil] at hread
  exact hread.trans (List.append_nil _)

/-! ### Blanks -/

theorem byteLength_cons (c : Char) (cs : List Char) :
    Text.byteLength (c :: cs) = c.utf8Size + Text.byteLength cs := by
  have hshift : ∀ (cs : List Char) (n : Nat),
      cs.foldl (fun n c => n + c.utf8Size) n = n + cs.foldl (fun n c => n + c.utf8Size) 0 := by
    intro cs
    induction cs with
    | nil => intro n; rfl
    | cons d cs ih =>
      intro n
      rw [List.foldl_cons, List.foldl_cons, ih (n + d.utf8Size), ih (0 + d.utf8Size)]
      omega
  rw [Text.byteLength, List.foldl_cons, hshift, Text.byteLength]
  omega

theorem first_blank {c : Char} (h : Text.isBlank c = true) (position : Nat) :
    Lexeme.first previous position c cs = ⟨c :: cs.takeWhile Text.isBlank, none⟩ := by
  unfold Lexeme.first
  rw [if_pos h]

/-- A blank is read as nothing, and so are more blanks after it. -/
theorem Reads.blank : Reads previous [' '] [] rest := by
  intro position
  cases rest with
  | nil => exact ⟨position, rfl⟩
  | cons c cs =>
    cases hc : Text.isBlank c with
    | false => exact ⟨position + 1, unplacedTokens_blank hc⟩
    | true =>
      -- the first blank takes the others along, and without it the second one does
      have hblank : Text.isBlank ' ' = true := by decide
      have hplace : position + Text.byteLength (' ' :: c :: cs.takeWhile Text.isBlank) =
          position + 1 + Text.byteLength (c :: cs.takeWhile Text.isBlank) := by
        have hsize : ' '.utf8Size = 1 := by decide
        rw [byteLength_cons ' ', hsize, Nat.add_assoc]
      refine ⟨position + 1, ?_⟩
      simp only [unplacedTokens, lexemes, List.cons_append, List.nil_append, first_blank hblank,
        first_blank hc, List.takeWhile_cons_of_pos hc, List.length_cons, Nat.add_sub_cancel,
        List.filterMap_cons_none, Option.map_none, Option.none_or, List.map_nil, lastKind, hplace]

/-! ### Tokens -/

theorem Reads.of_readsAs {text : String} {token : Token}
    (h : ∀ position, ∃ c cs token', ReadsAs previous position rest text c cs token' ∧
      token'.unplaced = token.unplaced) : Reads previous text.toList [token] rest := by
  intro position
  obtain ⟨c, cs, token', hreads, hsame⟩ := h position
  have hsameKind := congrArg Token.kind hsame
  have hkind : token'.kind = token.kind := hsameKind
  refine ⟨position + Text.byteLength (c :: cs), ?_⟩
  rw [hreads.written, List.cons_append, unplacedTokens_text hreads, hsame, hkind]
  rfl

/-- A mark is read as itself. -/
theorem Reads.mark {k : Kind} {literal : String} (hspelled : k.literal = some literal)
    (hrest : k.Parted rest) : Reads previous literal.toList [.ofKind k 0] rest := by
  refine .of_readsAs fun position => ?_
  obtain ⟨c, cs, hreads⟩ : ∃ c cs, ReadsAs previous position rest literal c cs (.ofKind k position) :=
    readsAs_mark hspelled hrest
  exact ⟨c, cs, _, hreads, rfl⟩

/-- A text that has no quotes and is not blank is read as an operand. -/
theorem Reads.operand {text : String} (hquote : '"' ∉ text.toList)
    (hvisible : Text.isBlankText text.toList = false)
    (hrest : needsQuoting text = false → Apart rest) :
    Reads previous (quoteTerm text).toList [Lexeme.operand previous 0 text.toList] rest := by
  refine .of_readsAs fun position => ?_
  obtain ⟨c, cs, hreads⟩ : ∃ c cs, ReadsAs previous position rest (quoteTerm text) c cs
      (Lexeme.operand previous position text.toList) := readsAs_quoteTerm hquote hvisible hrest
  refine ⟨c, cs, _, hreads, ?_⟩
  rw [Lexeme.operand, Lexeme.operand]
  split <;> rfl

/-! ### Written tokens -/

theorem apart_append_followers {tokens : List Token} (hrest : Apart rest) :
    Apart (followers tokens ++ rest) := by
  cases tokens with
  | nil => exact hrest
  | cons t tokens => exact .inr ⟨' ', _, rfl, by decide⟩

theorem Reads.written {t : Token} (h : t.Readable previous) (hrest : Apart rest) :
    Reads previous t.written.toList [t] rest := by
  refine .of_readsAs fun position => ?_
  obtain ⟨c, cs, token, hread⟩ := h.rereads position hrest
  exact ⟨c, cs, token, hread.toReadsAs, hread.same⟩

/-- Readable tokens are read back from what follows a token, whatever is written after them. -/
theorem reads_followers : ∀ {tokens : List Token} {previous : Option Kind},
    Sequence Token.Readable previous tokens → Apart rest →
      Reads previous (followers tokens) tokens rest
  | [], _, _, _ => .nil
  | t :: tokens, previous, h, hrest => by
      have htext : followers (t :: tokens) =
          [' '] ++ (t.written.toList ++ followers tokens) := by
        rw [followers, List.flatMap_cons]
        rfl
      rw [htext, ← List.nil_append (t :: tokens)]
      refine Reads.blank.append ?_
      exact (Reads.written h.1 (apart_append_followers hrest)).append (reads_followers h.2 hrest)

/-- Empty quotes are read as nothing. -/
theorem Reads.emptyQuotes : Reads previous ['"', '"'] [] rest := by
  intro position
  exact ⟨position + Text.byteLength ['"', '"'], rfl⟩

theorem followers_empty (place : Nat) (tokens : List Token) :
    followers (.ofText .searchTerm "" place :: tokens) =
      [' '] ++ (['"', '"'] ++ followers tokens) := by
  have hquotes : quoteTerm "" = "\"\"" := by decide
  have hwritten : (Token.ofText .searchTerm "" place).written = "\"\"" := hquotes
  rw [followers, List.flatMap_cons, hwritten]
  rfl

/-- An empty term among written tokens is not read. -/
theorem tokenize_writeTokens_empty {t : Token} {tokens others : List Token} (place : Nat)
    (h : Sequence Token.Readable none (t :: tokens ++ others)) :
    (tokenize (writeTokens (t :: tokens ++ .ofText .searchTerm "" place :: others))).map
      Token.unplaced = (t :: tokens ++ others).map Token.unplaced := by
  obtain ⟨hfirst, htail⟩ := h
  obtain ⟨htokens, hothers⟩ := sequence_append.mp htail
  have htext : (writeTokens (t :: tokens ++ .ofText .searchTerm "" place :: others)).toList =
      t.written.toList ++ (followers tokens ++ ([' '] ++ (['"', '"'] ++ followers others))) := by
    rw [List.cons_append, toList_writeTokens, ← followers_empty place, followers,
      List.flatMap_append]
    rfl
  have hend : Reads (lastKind (some t.kind) tokens)
      ([' '] ++ (['"', '"'] ++ followers others)) others [] :=
    Reads.blank.append (Reads.emptyQuotes.append (reads_followers hothers (.inl rfl)))
  have hapart : Apart (([' '] ++ (['"', '"'] ++ followers others)) ++ []) :=
    .inr ⟨' ', _, rfl, by decide⟩
  have hmiddle := (reads_followers htokens hapart).append hend
  have hall := (Reads.written hfirst (by
    rw [List.append_assoc]
    exact apart_append_followers hapart)).append hmiddle
  rw [← htext] at hall
  exact hall.tokenize

end RecordSearch.Query
