import RecordSearch.Proofs.Lexing.Positions

/-! What every character of a query is there for. A query is cut into gaps, which are white space and
    quotes around blank content, and the sources of its tokens: marks, bare words and quoted segments
    (`CutInto`). There is one such cut of every text, and it is the one that the lexer makes
    (`tokenize_eq_iff`). -/

namespace RecordSearch.Query

/-! ### Gaps and sources -/

/-- A content without quotes that stands in quotes, which the end of the query may close. -/
inductive InQuotes (content : List Char) : (source rest : List Char) → Prop
  | closed {rest : List Char} (unquoted : '"' ∉ content) :
      InQuotes content ('"' :: (content ++ ['"'])) rest
  | unclosed (unquoted : '"' ∉ content) : InQuotes content ('"' :: content) []

/-- Text before the rest of a query that stands for no token. -/
inductive Gap (source rest : List Char) : Prop
  | blank (blank : Text.isBlankText source = true)
  | quotes {content : List Char} (quoted : InQuotes content source rest)
      (blank : Text.isBlankText content = true)

/-- What a word or quoted content is after a token of the given kind: a number if that is a comparison
    and it reads as a finite one, and else a term. -/
inductive ReadsOperand (previous : Option Kind) (position : Nat) (content : List Char) : Token → Prop
  | number {x : Float} (compared : previous.any Kind.isComparison = true)
      (reads : Decimal.readFinite content = some x) :
      ReadsOperand previous position content ⟨.number, .number x, position⟩
  | term (wordy : previous.any Kind.isComparison = true → Decimal.readFinite content = none) :
      ReadsOperand previous position content ⟨.searchTerm, .text (String.ofList content), position⟩

/-- A text with some content that stands before the rest of a query for one token: the spelling of a
    mark, which `=` does not continue and which no word goes on after, a word that ends where words
    do, or quotes around what is not blank. -/
inductive StandsFor (previous : Option Kind) (position : Nat) :
    (content source rest : List Char) → Token → Prop
  | mark {k : Kind} {literal : String} {rest : List Char} (spelled : k.literal = some literal)
      (parted : k.Parted rest) :
      StandsFor previous position literal.toList literal.toList rest (.ofKind k position)
  | word {word rest : List Char} {token : Token} (nonempty : word ≠ [])
      (run : ∀ c ∈ word, endsWord c = false) (apart : Apart rest)
      (unmarked : ∀ k : Kind, k.literal ≠ some (String.ofList word))
      (operand : ReadsOperand previous position word token) :
      StandsFor previous position word word rest token
  | quoted {content source rest : List Char} {token : Token}
      (quoted : InQuotes content source rest) (visible : Text.isBlankText content = false)
      (operand : ReadsOperand previous position content token) :
      StandsFor previous position content source rest token

/-- What follows a token of the given kind in a query is cut, from some byte offset on, into gaps and
    the sources of tokens. -/
inductive CutInto : (previous : Option Kind) → (position : Nat) → List Char → List Token → Prop
  | finish {previous : Option Kind} {position : Nat} : CutInto previous position [] []
  | gap {previous : Option Kind} {position : Nat} {source rest : List Char} {tokens : List Token}
      (gap : Gap source rest)
      (more : CutInto previous (position + Text.byteLength source) rest tokens) :
      CutInto previous position (source ++ rest) tokens
  | token {previous : Option Kind} {position : Nat} {content source rest : List Char} {token : Token}
      {tokens : List Token} (stands : StandsFor previous position content source rest token)
      (more : CutInto (some token.kind) (position + Text.byteLength source) rest tokens) :
      CutInto previous position (source ++ rest) (token :: tokens)

/-! ### The cut of the lexer -/

section Lexer

variable {previous : Option Kind} {position : Nat} {content source rest : List Char} {token : Token}

theorem readsOperand_iff :
    ReadsOperand previous position content token ↔
      Lexeme.operand previous position content = token := by
  constructor
  · rintro (⟨compared, reads⟩ | wordy)
    · exact operand_number compared reads
    · have hterm := @operand_term previous position (String.ofList content)
      rw [String.toList_ofList] at hterm
      exact hterm wordy
  · rintro rfl
    rw [Lexeme.operand]
    split
    · next x hx =>
      split at hx
      · next hcompared => exact .number hcompared hx
      · cases hx
    · next hnone =>
      refine .term fun hcompared => ?_
      rwa [if_pos hcompared] at hnone

/-- A lexeme that is a gap or the source of its token, before the rest of a query. -/
inductive Lexeme.Accounted (previous : Option Kind) (position : Nat) (rest : List Char) :
    Lexeme → Prop
  | gap {source : List Char} (gap : Gap source rest) : Accounted previous position rest ⟨source, none⟩
  | token {content source : List Char} {token : Token}
      (stands : StandsFor previous position content source rest token) :
      Accounted previous position rest ⟨source, some token⟩

theorem accounted_punctuation {k : Kind} {literal : String} (spelled : k.literal = some literal)
    (parted : k.Parted rest) :
    (Lexeme.punctuation k position).Accounted previous position rest := by
  rw [Lexeme.punctuation, spelled, Option.getD_some]
  exact .token (.mark spelled parted)

/-- Where a text has a quote or not, the content and what follows it put the text together again. -/
theorem exists_inQuotes (cs : List Char) : ∃ source rest, '"' :: cs = source ++ rest ∧
    InQuotes (cs.takeWhile (· != '"')) source rest ∧
    source = '"' :: cs.takeWhile (· != '"') ++ (cs.dropWhile (· != '"')).take 1 := by
  have hunquoted : '"' ∉ cs.takeWhile (· != '"') := fun hmem => by
    have hne := List.all_eq_true.mp List.all_takeWhile _ hmem
    simp at hne
  have hsplit := List.takeWhile_append_dropWhile (p := (· != '"')) (l := cs)
  cases hdrop : cs.dropWhile (· != '"') with
  | nil =>
    rw [hdrop, List.append_nil] at hsplit
    refine ⟨_, [], ?_, .unclosed hunquoted, by simp⟩
    rw [List.append_nil, hsplit]
  | cons c rest =>
    obtain rfl : c = '"' := by
      have hhead := List.head_dropWhile_not (p := (· != '"')) (l := cs) (by simp [hdrop])
      simpa [hdrop] using hhead
    rw [hdrop] at hsplit
    refine ⟨_, rest, ?_, .closed hunquoted, by simp⟩
    conv => lhs; rw [← hsplit]
    simp

theorem accounted_quoted (cs : List Char) : ∃ rest,
    '"' :: cs = (Lexeme.quoted previous position cs).source ++ rest ∧
      (Lexeme.quoted previous position cs).Accounted previous position rest := by
  obtain ⟨source, rest, htext, hquotes, hsource⟩ := exists_inQuotes cs
  refine ⟨rest, ?_, ?_⟩
  · rw [htext, hsource]
    rfl
  · simp only [Lexeme.quoted, ← hsource]
    split
    · next hblank => exact .gap (.quotes hquotes hblank)
    · next hblank =>
      have hvisible := Bool.eq_false_iff.mpr hblank
      exact .token (.quoted hquotes hvisible (readsOperand_iff.mpr rfl))

theorem apart_dropWhile (cs : List Char) : Apart (cs.dropWhile fun d => !endsWord d) := by
  cases hdrop : cs.dropWhile fun d => !endsWord d with
  | nil => exact .inl rfl
  | cons c rest =>
    have hhead := List.head_dropWhile_not (p := fun d => !endsWord d) (l := cs) (by simp [hdrop])
    refine .inr ⟨c, rest, rfl, ?_⟩
    simpa [hdrop] using hhead

/-- A mark that is no keyword begins with what ends a word. -/
theorem exists_endsWord_of_literal {k : Kind} {literal : String} (h : k.literal = some literal) :
    k = .and ∨ k = .or ∨ ∃ c ∈ literal.toList, endsWord c = true := by
  cases k <;> cases h
  case and => exact .inl rfl
  case or => exact .inr (.inl rfl)
  all_goals exact .inr (.inr ⟨_, List.mem_cons_self, by decide⟩)

/-- A bare word that is no keyword spells no mark. -/
theorem unmarked_of_word {word : List Char} (run : ∀ c ∈ word, endsWord c = false)
    (hand : word ≠ ['A', 'N', 'D']) (hor : word ≠ ['O', 'R']) (k : Kind) :
    k.literal ≠ some (String.ofList word) := by
  intro hspelled
  have hkeyword : ∀ {literal : String}, k.literal = some literal → word = literal.toList := by
    intro literal hliteral
    rw [hspelled, Option.some.injEq] at hliteral
    rw [← hliteral, String.toList_ofList]
  rcases exists_endsWord_of_literal hspelled with rfl | rfl | ⟨c, hc, hends⟩
  · exact hand (hkeyword rfl)
  · exact hor (hkeyword rfl)
  · rw [String.toList_ofList] at hc
    rw [run c hc] at hends
    cases hends

/-- A bare word stands for a keyword or an operand. -/
theorem standsFor_word {word : List Char} (nonempty : word ≠ [])
    (run : ∀ c ∈ word, endsWord c = false) (apart : Apart rest) :
    StandsFor previous position word word rest
      (if word = ['A', 'N', 'D'] then .ofKind .and position
        else if word = ['O', 'R'] then .ofKind .or position
        else Lexeme.operand previous position word) := by
  have hkeyword : ∀ (k : Kind) (literal : String), k.literal = some literal → k.Parted rest →
      StandsFor previous position literal.toList literal.toList rest (.ofKind k position) :=
    fun _ _ => .mark
  split
  · next hand =>
    rw [hand]
    exact hkeyword .and "AND" rfl apart
  · next hand =>
    split
    · next hor =>
      rw [hor]
      exact hkeyword .or "OR" rfl apart
    · next hor =>
      exact .word nonempty run apart (unmarked_of_word run hand hor) (readsOperand_iff.mpr rfl)

theorem accounted_word {c : Char} {cs : List Char} (hc : endsWord c = false) :
    (Lexeme.word previous position c cs).Accounted previous position
      (cs.dropWhile fun d => !endsWord d) := by
  have hrun : ∀ d ∈ c :: cs.takeWhile (fun d => !endsWord d), endsWord d = false := by
    rintro d (_ | ⟨_, hmem⟩)
    · exact hc
    · simpa using List.all_eq_true.mp List.all_takeWhile d hmem
  exact .token (standsFor_word (List.cons_ne_nil _ _) hrun (apart_dropWhile cs))

/-- Of two marks the one with an equals sign is read where there is one. -/
theorem accounted_ordering {bare equal : Kind} {c : Char} {cs : List Char}
    (hbare : bare.literal = some (String.ofList [c]))
    (hequal : equal.literal = some (String.ofList [c, '=']))
    (hparted : cs.head? ≠ some '=' → bare.Parted cs) (hparted' : ∀ rest, equal.Parted rest) :
    ∃ rest, c :: cs =
        (Lexeme.punctuation (if cs.head? = some '=' then equal else bare) position).source ++ rest ∧
      (Lexeme.punctuation (if cs.head? = some '=' then equal else bare) position).Accounted
        previous position rest := by
  split
  · next hhead =>
    obtain ⟨rest, rfl⟩ := List.head?_eq_some_iff.mp hhead
    refine ⟨rest, ?_, accounted_punctuation hequal (hparted' rest)⟩
    rw [Lexeme.punctuation, hequal, Option.getD_some, String.toList_ofList]
    rfl
  · next hhead =>
    refine ⟨cs, ?_, accounted_punctuation hbare (hparted hhead)⟩
    rw [Lexeme.punctuation, hbare, Option.getD_some, String.toList_ofList]
    rfl

variable (previous position) in
/-- The first lexeme of a text is accounted for before the rest of the text. -/
theorem exists_accounted_first (c : Char) (cs : List Char) : ∃ rest,
    c :: cs = (Lexeme.first previous position c cs).source ++ rest ∧
      (Lexeme.first previous position c cs).Accounted previous position rest := by
  unfold Lexeme.first
  split
  · next hblank =>
    refine ⟨cs.dropWhile Text.isBlank, ?_, .gap (.blank ?_)⟩
    · rw [List.cons_append, List.takeWhile_append_dropWhile]
    · rw [Text.isBlankText, List.all_cons, hblank, List.all_takeWhile]
      rfl
  · next hblank =>
    split
    · exact ⟨cs, rfl, accounted_punctuation rfl trivial⟩
    · exact ⟨cs, rfl, accounted_punctuation rfl trivial⟩
    · exact ⟨cs, rfl, accounted_punctuation rfl trivial⟩
    · exact ⟨cs, rfl, accounted_punctuation rfl trivial⟩
    · exact accounted_ordering rfl rfl id fun _ => trivial
    · exact accounted_ordering rfl rfl id fun _ => trivial
    · exact accounted_quoted cs
    · next hcolon hopen hclose hexclude hless hgreater hquote =>
      have hdelimiter : isDelimiter c = false := by
        simpa [isDelimiter] using ⟨hcolon, hquote, hless, hgreater, hexclude, hopen, hclose⟩
      refine ⟨_, ?_, accounted_word ?_⟩
      · rw [Lexeme.word, List.cons_append, List.takeWhile_append_dropWhile]
      · rw [endsWord, hdelimiter, Bool.eq_false_iff.mpr hblank]
        rfl

/-- The lexemes of a text cut it into gaps and the sources of their tokens. -/
theorem cutInto_lexemes : ∀ (cs : List Char) (previous : Option Kind) (position skip : Nat),
    CutInto previous position (cs.drop skip)
      ((lexemes previous position skip cs).filterMap Lexeme.token)
  | [], _, _, _ => by
      rw [lexemes, List.drop_nil]
      exact .finish
  | _ :: cs, previous, position, skip + 1 => by
      rw [lexemes, List.drop_succ_cons]
      exact cutInto_lexemes cs previous position skip
  | c :: cs, previous, position, 0 => by
      obtain ⟨rest, htext, haccounted⟩ := exists_accounted_first previous position c cs
      obtain ⟨more, hsource, -⟩ := Lexeme.first_source previous position c cs
      have hsplit : c :: cs = c :: (more ++ rest) := by rw [htext, hsource, List.cons_append]
      have hdrop : cs.drop more.length = rest := by rw [(List.cons.inj hsplit).2, List.drop_left]
      have hrest := fun previous => cutInto_lexemes cs previous
        (position + Text.byteLength (c :: more)) more.length
      simp only [lexemes, hsource, List.length_cons, Nat.add_sub_cancel, List.drop_zero]
      simp only [hdrop] at hrest
      rw [htext]
      generalize Lexeme.first previous position c cs = l at hsource haccounted
      rw [hsource]
      cases haccounted with
      | @gap source gap =>
        obtain rfl : source = c :: more := hsource
        exact .gap gap (hrest previous)
      | @token _ source _ stands =>
        obtain rfl : source = c :: more := hsource
        exact .token stands (hrest _)

/-! ### The one cut -/

variable (previous position) in
/-- Text in quotes is one lexeme, closed or not. -/
theorem first_inQuotes (h : InQuotes content source rest) :
    ∃ cs, source = '"' :: cs ∧ Lexeme.first previous position '"' (cs ++ rest) =
      ⟨source, if Text.isBlankText content then none
        else some (Lexeme.operand previous position content)⟩ := by
  have hquoted : ∀ cs, Lexeme.first previous position '"' cs =
      Lexeme.quoted previous position cs := fun _ => rfl
  cases h with
  | closed unquoted =>
    refine ⟨content ++ ['"'], rfl, ?_⟩
    rw [hquoted, Lexeme.quoted, List.append_assoc,
      List.takeWhile_append_of_pos (bne_quote unquoted),
      List.dropWhile_append_of_pos (bne_quote unquoted)]
    simp
  | unclosed unquoted =>
    refine ⟨content, rfl, ?_⟩
    rw [hquoted, Lexeme.quoted, List.takeWhile_append_of_pos (bne_quote unquoted),
      List.dropWhile_append_of_pos (bne_quote unquoted)]
    simp

/-- What stands for a token is the first lexeme of the text that begins with it. -/
theorem StandsFor.first (h : StandsFor previous position content source rest token) :
    ∃ c cs, source = c :: cs ∧
      Lexeme.first previous position c (cs ++ rest) = ⟨source, some token⟩ := by
  cases h with
  | @mark k literal rest spelled parted =>
    obtain ⟨c, cs, hreads⟩ : ∃ c cs, ReadsAs previous position rest literal c cs
        (.ofKind k position) := readsAs_mark spelled parted
    exact ⟨c, cs, hreads.written, hreads.written ▸ hreads.first⟩
  | word nonempty run apart unmarked operand =>
    obtain ⟨c, cs, rfl⟩ := List.exists_cons_of_ne_nil nonempty
    have hand : ¬ c :: cs = ['A', 'N', 'D'] := fun h => unmarked .and (h ▸ rfl)
    have hor : ¬ c :: cs = ['O', 'R'] := fun h => unmarked .or (h ▸ rfl)
    refine ⟨c, cs, rfl, ?_⟩
    rw [first_word run apart, if_neg hand, if_neg hor, readsOperand_iff.mp operand]
  | quoted quoted visible operand =>
    obtain ⟨cs, hsource, hfirst⟩ := first_inQuotes previous position quoted
    refine ⟨'"', cs, hsource, ?_⟩
    rw [hfirst, visible, if_neg Bool.false_ne_true, readsOperand_iff.mp operand]

/-- A blank before a text stands for no token. -/
theorem tokens_blank_cons {c : Char} {cs : List Char} (hc : Text.isBlank c = true) :
    (lexemes previous position 0 (c :: cs)).filterMap Lexeme.token =
      (lexemes previous (position + c.utf8Size) 0 cs).filterMap Lexeme.token := by
  cases cs with
  | nil => simp [lexemes, first_blank hc]
  | cons d ds =>
    cases hd : Text.isBlank d with
    | false =>
      simp [lexemes, first_blank hc, hd, Text.byteLength]
    | true =>
      simp [lexemes, first_blank hc, first_blank hd, hd, byteLength_cons, Nat.add_assoc]

theorem tokens_blank {blanks : List Char} (h : Text.isBlankText blanks = true) :
    (lexemes previous position 0 (blanks ++ rest)).filterMap Lexeme.token =
      (lexemes previous (position + Text.byteLength blanks) 0 rest).filterMap Lexeme.token := by
  induction blanks generalizing position with
  | nil => rfl
  | cons c blanks ih =>
    rw [Text.isBlankText, List.all_cons, Bool.and_eq_true] at h
    rw [List.cons_append, tokens_blank_cons h.1, ih h.2, byteLength_cons, Nat.add_assoc]

/-- A gap in front of a text stands for no token. -/
theorem Gap.tokens_eq (h : Gap source rest) :
    (lexemes previous position 0 (source ++ rest)).filterMap Lexeme.token =
      (lexemes previous (position + Text.byteLength source) 0 rest).filterMap Lexeme.token := by
  cases h with
  | blank blank => exact tokens_blank blank
  | quotes quoted blank =>
    obtain ⟨cs, rfl, hfirst⟩ := first_inQuotes previous position quoted
    rw [blank, if_pos rfl] at hfirst
    rw [List.cons_append, lexemes_of_first hfirst]
    rfl

/-- Whatever cuts a text finds the tokens that the lexer finds. -/
theorem CutInto.tokens_eq {text : List Char} {tokens : List Token}
    (h : CutInto previous position text tokens) :
    (lexemes previous position 0 text).filterMap Lexeme.token = tokens := by
  induction h with
  | finish => rfl
  | gap gap _ ih => rw [gap.tokens_eq, ih]
  | token stands _ ih =>
    obtain ⟨c, cs, rfl, hfirst⟩ := stands.first
    rw [List.cons_append, lexemes_of_first hfirst, ← ih]
    rfl

end Lexer

/-- The lexer accounts for every character: a query is cut into gaps and the sources of its tokens, each
    token is found where its source begins, and the query cannot be cut into any others. -/
theorem tokenize_eq_iff {query : String} {tokens : List Token} :
    tokenize query = tokens ↔ CutInto none 0 query.toList tokens := by
  constructor
  · rintro rfl
    exact cutInto_lexemes query.toList none 0 0
  · exact CutInto.tokens_eq

end RecordSearch.Query
