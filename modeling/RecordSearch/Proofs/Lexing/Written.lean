import RecordSearch.Proofs.Decimal.Layout
import RecordSearch.Proofs.Lexing.Tokens

/-! Written tokens are read back. A token is readable when the lexer could have made it and it is not
    an empty term or a number whose text spells another; such tokens, written one blank apart, are
    cut into the same tokens again, only at other places (`tokenize_writeTokens`). -/

namespace RecordSearch.Query

/-- A token with its place forgotten. -/
def Token.unplaced (t : Token) : Token := { t with position := 0 }

/-- A token that is read back after a token of the given kind. -/
inductive Token.Readable (previous : Option Kind) : Token → Prop
  | term {text : String} {position : Nat} (unquoted : '"' ∉ text.toList)
      (visible : Text.isBlankText text.toList = false)
      (wordy : previous.any Kind.isComparison = true → Decimal.readFinite text.toList = none) :
      Readable previous ⟨.searchTerm, .text text, position⟩
  | number {x : Float} {position : Nat} (compared : previous.any Kind.isComparison = true)
      (reads : Decimal.readFinite (Decimal.Layout.query.text x).toList = some x) :
      Readable previous ⟨.number, .number x, position⟩
  | mark {k : Kind} {literal : String} {position : Nat} (spelled : k.literal = some literal) :
      Readable previous ⟨k, .text literal, position⟩

/-- A text that a word before it is not run together with: if it goes on at all, then with a character
    that ends words. -/
def Apart (rest : List Char) : Prop := rest = [] ∨ ∃ c cs, rest = c :: cs ∧ endsWord c = true

theorem takeWhile_apart {cs rest : List Char} (hcs : ∀ c ∈ cs, endsWord c = false)
    (hrest : Apart rest) : (cs ++ rest).takeWhile (fun d => !endsWord d) = cs := by
  rw [List.takeWhile_append_of_pos fun c hc => by rw [hcs c hc]; rfl]
  rcases hrest with rfl | ⟨c, cs', rfl, hc⟩
  · rw [List.takeWhile_nil, List.append_nil]
  · rw [List.takeWhile_cons_of_neg (by rw [hc]; exact Bool.false_ne_true), List.append_nil]

theorem isBlank_of_endsWord {c : Char} (h : endsWord c = false) : Text.isBlank c = false :=
  (Bool.or_eq_false_iff.mp h).1

theorem endsWord_of_isNumeric {c : Char} (h : Decimal.isNumeric c = true) :
    endsWord c = false := by
  have hdelimiter : isDelimiter c = false := by
    rw [isDelimiter, Bool.eq_false_iff]
    intro hmem
    simp only [List.contains_iff_mem, List.mem_cons, List.not_mem_nil, or_false] at hmem
    rcases hmem with rfl | rfl | rfl | rfl | rfl | rfl | rfl <;> revert h <;> decide
  rw [endsWord, Decimal.isBlank_of_isNumeric h, hdelimiter]
  rfl

/-! ### The lexeme of a written token -/

section First

variable {previous : Option Kind} {position : Nat} {rest : List Char}

theorem endsWord_of_all {cs : List Char} (h : cs.all (fun d => !endsWord d) = true) :
    ∀ d ∈ cs, endsWord d = false := fun d hd => by
  have hd' := List.all_eq_true.mp h d hd
  rwa [Bool.not_eq_true'] at hd'

/-- A bare word is read as a keyword or an operand. -/
theorem first_word {c : Char} {cs : List Char} (hword : ∀ d ∈ c :: cs, endsWord d = false)
    (hrest : Apart rest) : Lexeme.first previous position c (cs ++ rest) =
      ⟨c :: cs, some <|
        if c :: cs = ['A', 'N', 'D'] then .ofKind .and position
        else if c :: cs = ['O', 'R'] then .ofKind .or position
        else Lexeme.operand previous position (c :: cs)⟩ := by
  have hc := hword c List.mem_cons_self
  have hblank : ¬ Text.isBlank c = true := by rw [isBlank_of_endsWord hc]; exact Bool.false_ne_true
  have hcs : (cs ++ rest).takeWhile (fun d => !endsWord d) = cs :=
    takeWhile_apart (fun d hd => hword d (List.mem_cons_of_mem c hd)) hrest
  unfold Lexeme.first
  rw [if_neg hblank]
  split
  all_goals first | exact absurd hc (by decide) | rw [Lexeme.word, hcs]

theorem operand_term {text : String}
    (hwordy : previous.any Kind.isComparison = true → Decimal.readFinite text.toList = none) :
    Lexeme.operand previous position text.toList = ⟨.searchTerm, .text text, position⟩ := by
  have hnone : (if previous.any Kind.isComparison then Decimal.readFinite text.toList else none) =
      none := by
    split
    · next h => exact hwordy h
    · rfl
  simp only [Lexeme.operand, hnone, String.ofList_toList]

theorem operand_number {cs : List Char} {x : Float}
    (hcompared : previous.any Kind.isComparison = true)
    (hreads : Decimal.readFinite cs = some x) :
    Lexeme.operand previous position cs = ⟨.number, .number x, position⟩ := by
  simp only [Lexeme.operand, hcompared, if_true, hreads]

theorem bne_quote {cs : List Char} (hquote : '"' ∉ cs) : ∀ c ∈ cs, (c != '"') = true := by
  intro c hc
  rw [bne_iff_ne]
  rintro rfl
  exact hquote hc

/-- Quoted text is read as an operand. -/
theorem first_quoted {cs : List Char} (hquote : '"' ∉ cs) (hvisible : Text.isBlankText cs = false) :
    Lexeme.first previous position '"' (cs ++ ['"'] ++ rest) =
      ⟨'"' :: (cs ++ ['"']), some (Lexeme.operand previous position cs)⟩ := by
  have hcs := bne_quote hquote
  have htake : (cs ++ ['"'] ++ rest).takeWhile (· != '"') = cs := by
    rw [List.append_assoc, List.takeWhile_append_of_pos hcs]
    simp
  have hdrop : (cs ++ ['"'] ++ rest).dropWhile (· != '"') = '"' :: rest := by
    rw [List.append_assoc, List.dropWhile_append_of_pos hcs]
    simp
  have hquoted : Lexeme.first previous position '"' (cs ++ ['"'] ++ rest) =
      Lexeme.quoted previous position (cs ++ ['"'] ++ rest) := rfl
  rw [hquoted, Lexeme.quoted, htake, hdrop, hvisible]
  rfl

/-- How a text is written before the rest of a query, and that it is read as one token. -/
structure ReadsAs (previous : Option Kind) (position : Nat) (rest : List Char) (text : String)
    (c : Char) (cs : List Char) (token : Token) : Prop where
  written : text.toList = c :: cs
  visible : Text.isBlank c = false
  first : Lexeme.first previous position c (cs ++ rest) = ⟨c :: cs, some token⟩

/-- A text without quotes that is not blank is read as an operand, quoted if need be. -/
theorem readsAs_quoteTerm {text : String} (hquote : '"' ∉ text.toList)
    (hvisible : Text.isBlankText text.toList = false)
    (hrest : needsQuoting text = false → Apart rest) :
    ∃ c cs, ReadsAs previous position rest (quoteTerm text) c cs
      (Lexeme.operand previous position text.toList) := by
  cases hquoting : needsQuoting text with
  | true =>
    refine ⟨'"', text.toList ++ ['"'], ?_, by decide, first_quoted hquote hvisible⟩
    simp [quoteTerm, hquoting, hquote]
  | false =>
    have hbare : quoteTerm text = text := by
      rw [quoteTerm, hquoting, Bool.false_and]
      rfl
    have hspelled := hquoting
    simp only [needsQuoting, Bool.or_eq_false_iff, beq_eq_false_iff_ne, List.any_eq_false,
      Bool.not_eq_true] at hspelled
    obtain ⟨⟨⟨hempty, hand⟩, hor⟩, hword⟩ := hspelled
    cases htext : text.toList with
    | nil => rw [String.toList_eq_nil_iff.mp htext] at hempty; cases hempty
    | cons c cs =>
      rw [htext] at hword
      have hand' : ¬ c :: cs = ['A', 'N', 'D'] := by
        rw [← htext]
        exact fun h => hand (String.toList_inj.mp h)
      have hor' : ¬ c :: cs = ['O', 'R'] := by
        rw [← htext]
        exact fun h => hor (String.toList_inj.mp h)
      have hfirst : Lexeme.first previous position c (cs ++ rest) =
          ⟨c :: cs, some (Lexeme.operand previous position (c :: cs))⟩ := by
        rw [first_word hword (hrest hquoting), if_neg hand', if_neg hor']
      refine ⟨c, cs, ?_, isBlank_of_endsWord (hword c List.mem_cons_self), hfirst⟩
      rw [hbare]
      exact htext

/-- The text of a finite number is a word of its own. -/
theorem needsQuoting_query_text {x : Float} (hx : Decimal.isFinite x = true) :
    needsQuoting (Decimal.Layout.query.text x) = false := by
  have hnumeric : ∀ c ∈ (Decimal.Layout.query.text x).toList, Decimal.isNumeric c = true :=
    fun c hc => Decimal.isNumeric_of_mem_query_text hx hc
  have hkeyword : ∀ {keyword : String} (c : Char), c ∈ keyword.toList →
      Decimal.isNumeric c = false → Decimal.Layout.query.text x ≠ keyword := by
    rintro keyword c hc hc' rfl
    rw [hnumeric c hc] at hc'
    cases hc'
  simp only [needsQuoting, Bool.or_eq_false_iff, beq_eq_false_iff_ne, List.any_eq_false,
    Bool.not_eq_true]
  have hand : Decimal.Layout.query.text x ≠ "AND" := hkeyword 'A' (by decide) (by decide)
  have hor : Decimal.Layout.query.text x ≠ "OR" := hkeyword 'O' (by decide) (by decide)
  refine ⟨⟨⟨?_, hand⟩, hor⟩, fun c hc => ?_⟩
  · obtain ⟨d, hd, -⟩ := Decimal.exists_digit_query_text hx
    rw [String.isEmpty_eq_false_iff, ne_eq, ← String.toList_eq_nil_iff]
    exact List.ne_nil_of_mem hd
  · exact endsWord_of_isNumeric (hnumeric c hc)

theorem quoteTerm_query_text {x : Float} (hx : Decimal.isFinite x = true) :
    quoteTerm (Decimal.Layout.query.text x) = Decimal.Layout.query.text x := by
  rw [quoteTerm, needsQuoting_query_text hx, Bool.false_and]
  rfl

theorem quote_not_mem_query_text {x : Float} (hx : Decimal.isFinite x = true) :
    '"' ∉ (Decimal.Layout.query.text x).toList := by
  intro hmem
  have hnumeric := Decimal.isNumeric_of_mem_query_text hx hmem
  revert hnumeric
  decide

/-- How a token is written before the rest of a text and read back. -/
structure Rereads (previous : Option Kind) (position : Nat) (rest : List Char) (t : Token)
    (c : Char) (cs : List Char) (token : Token) : Prop
    extends ReadsAs previous position rest t.written c cs token where
  same : token.unplaced = t.unplaced

theorem rereads_term {text : String} {position' : Nat} (hquote : '"' ∉ text.toList)
    (hvisible : Text.isBlankText text.toList = false)
    (hwordy : previous.any Kind.isComparison = true → Decimal.readFinite text.toList = none)
    (hrest : Apart rest) :
    ∃ c cs token, Rereads previous position rest ⟨.searchTerm, .text text, position'⟩ c cs token := by
  obtain ⟨c, cs, hreads⟩ := readsAs_quoteTerm hquote hvisible fun _ => hrest
  refine ⟨c, cs, _, hreads, ?_⟩
  rw [operand_term hwordy]
  rfl

theorem rereads_number {x : Float} {position' : Nat}
    (hcompared : previous.any Kind.isComparison = true)
    (hreads : Decimal.readFinite (Decimal.Layout.query.text x).toList = some x)
    (hrest : Apart rest) :
    ∃ c cs token, Rereads previous position rest ⟨.number, .number x, position'⟩ c cs token := by
  have hfinite := isFinite_of_readFinite hreads
  obtain ⟨c, cs, hquoted⟩ := readsAs_quoteTerm (quote_not_mem_query_text hfinite)
    (Decimal.isBlankText_query_text hfinite) fun _ => hrest
  rw [quoteTerm_query_text hfinite] at hquoted
  refine ⟨c, cs, _, hquoted, ?_⟩
  rw [operand_number hcompared hreads]
  rfl

/-- A text that the spelling of a mark is not run together with. -/
def Kind.Parted (k : Kind) (rest : List Char) : Prop :=
  match k with
  | .and | .or => Apart rest
  | .gt | .lt => rest.head? ≠ some '='
  | _ => True

theorem Apart.parted (hrest : Apart rest) (k : Kind) : k.Parted rest := by
  have hequals : rest.head? ≠ some '=' := by
    rcases hrest with rfl | ⟨c, cs, rfl, hc⟩
    · simp
    · rintro heq
      rw [Option.some.inj heq] at hc
      revert hc
      decide
  cases k
  case and | or => exact hrest
  case gt | lt => exact hequals
  all_goals trivial

theorem first_greater {cs : List Char} : Lexeme.first previous position '>' cs =
    Lexeme.punctuation (if cs.head? = some '=' then .gte else .gt) position := rfl

theorem first_less {cs : List Char} : Lexeme.first previous position '<' cs =
    Lexeme.punctuation (if cs.head? = some '=' then .lte else .lt) position := rfl

/-- A mark is read from its spelling. -/
theorem readsAs_mark {k : Kind} {literal : String} (hspelled : k.literal = some literal)
    (hrest : k.Parted rest) :
    ∃ c cs, ReadsAs previous position rest literal c cs (.ofKind k position) := by
  cases k <;> cases hspelled
  case groupTerminator => exact ⟨':', [], rfl, by decide, rfl⟩
  case lparen => exact ⟨'(', [], rfl, by decide, rfl⟩
  case rparen => exact ⟨')', [], rfl, by decide, rfl⟩
  case exclude => exact ⟨'!', [], rfl, by decide, rfl⟩
  case gt =>
    refine ⟨'>', [], rfl, by decide, ?_⟩
    rw [first_greater, List.nil_append, if_neg hrest]
    rfl
  case gte =>
    refine ⟨'>', ['='], rfl, by decide, ?_⟩
    rw [first_greater, List.cons_append, List.head?_cons, if_pos rfl]
    rfl
  case lt =>
    refine ⟨'<', [], rfl, by decide, ?_⟩
    rw [first_less, List.nil_append, if_neg hrest]
    rfl
  case lte =>
    refine ⟨'<', ['='], rfl, by decide, ?_⟩
    rw [first_less, List.cons_append, List.head?_cons, if_pos rfl]
    rfl
  case and =>
    exact ⟨'A', ['N', 'D'], rfl, by decide, first_word (endsWord_of_all (by decide)) hrest⟩
  case or =>
    exact ⟨'O', ['R'], rfl, by decide, first_word (endsWord_of_all (by decide)) hrest⟩

theorem rereads_mark {k : Kind} {literal : String} {position' : Nat}
    (hspelled : k.literal = some literal) (hrest : Apart rest) :
    ∃ c cs token, Rereads previous position rest ⟨k, .text literal, position'⟩ c cs token := by
  have hwritten : (Token.mk k (.text literal) position').written = literal := by
    cases k <;> cases hspelled <;> rfl
  obtain ⟨c, cs, hreads⟩ := readsAs_mark hspelled (hrest.parted k)
  refine ⟨c, cs, .ofKind k position, by rw [hwritten]; exact hreads, ?_⟩
  rw [Token.ofKind, hspelled]
  rfl

variable (position) in
/-- Every readable token is read back from its text. -/
theorem Token.Readable.rereads {t : Token} (h : t.Readable previous) (hrest : Apart rest) :
    ∃ c cs token, Rereads previous position rest t c cs token := by
  cases h with
  | term unquoted visible wordy => exact rereads_term unquoted visible wordy hrest
  | number compared reads => exact rereads_number compared reads hrest
  | mark spelled => exact rereads_mark spelled hrest

end First

/-! ### Several tokens -/

theorem lexemes_skip {previous : Option Kind} {position : Nat} {rest : List Char} :
    ∀ cs : List Char, lexemes previous position cs.length (cs ++ rest) =
      lexemes previous position 0 rest
  | [] => rfl
  | _ :: cs => by rw [List.length_cons, List.cons_append, lexemes, lexemes_skip cs]

/-- After the first lexeme of a text come the lexemes of the rest. -/
theorem lexemes_of_first {previous : Option Kind} {position : Nat} {c : Char}
    {cs rest : List Char} {token : Option Token}
    (h : Lexeme.first previous position c (cs ++ rest) = ⟨c :: cs, token⟩) :
    lexemes previous position 0 (c :: (cs ++ rest)) = ⟨c :: cs, token⟩ ::
      lexemes ((token.map Token.kind).or previous) (position + Text.byteLength (c :: cs)) 0
        rest := by
  simp only [lexemes, h, List.length_cons, Nat.add_sub_cancel, lexemes_skip]

/-- Tokens written with a blank before each. -/
def followers (tokens : List Token) : List Char :=
  tokens.flatMap fun t => ' ' :: t.written.toList

theorem apart_followers : ∀ tokens : List Token, Apart (followers tokens)
  | [] => Or.inl rfl
  | _ :: _ => Or.inr ⟨' ', _, rfl, by decide⟩

theorem toList_writeTokens : ∀ (t : Token) (tokens : List Token),
    (writeTokens (t :: tokens)).toList = t.written.toList ++ followers tokens
  | t, [] => by simp [writeTokens, followers]
  | t, u :: tokens => by
      have ih := toList_writeTokens u tokens
      rw [writeTokens, List.map_cons] at ih ⊢
      rw [List.map_cons, String.intercalate_cons_cons, String.toList_append, String.toList_append,
        ih, followers, followers, List.flatMap_cons, List.append_assoc]
      rfl

/-- The tokens of a text, their places forgotten. -/
def unplacedTokens (previous : Option Kind) (position : Nat) (cs : List Char) : List Token :=
  ((lexemes previous position 0 cs).filterMap Lexeme.token).map Token.unplaced

theorem unplacedTokens_text {previous : Option Kind} {position : Nat} {text : String} {c : Char}
    {cs rest : List Char} {token : Token} (h : ReadsAs previous position rest text c cs token) :
    unplacedTokens previous position (c :: (cs ++ rest)) = token.unplaced ::
      unplacedTokens (some token.kind) (position + Text.byteLength (c :: cs)) rest := by
  simp only [unplacedTokens, lexemes_of_first h.first, List.filterMap_cons, List.map_cons,
    Option.map_some, Option.some_or]

theorem unplacedTokens_token {previous : Option Kind} {position : Nat} {c : Char}
    {cs rest : List Char} {t token : Token} (h : Rereads previous position rest t c cs token) :
    unplacedTokens previous position (c :: (cs ++ rest)) = t.unplaced ::
      unplacedTokens (some t.kind) (position + Text.byteLength (c :: cs)) rest := by
  have hsame := congrArg Token.kind h.same
  have hkind : token.kind = t.kind := hsame
  rw [unplacedTokens_text h.toReadsAs, h.same, hkind]

theorem unplacedTokens_blank {previous : Option Kind} {position : Nat} {c : Char}
    {cs : List Char} (h : Text.isBlank c = false) :
    unplacedTokens previous position (' ' :: c :: cs) =
      unplacedTokens previous (position + 1) (c :: cs) := by
  have hfirst : Lexeme.first previous position ' ' ([] ++ c :: cs) = ⟨[' '], none⟩ := by
    have hblank : Lexeme.first previous position ' ' ([] ++ c :: cs) =
        ⟨' ' :: (c :: cs).takeWhile Text.isBlank, none⟩ := rfl
    rw [hblank, List.takeWhile_cons_of_neg (by rw [h]; exact Bool.false_ne_true)]
  have hlexemes := lexemes_of_first hfirst
  rw [List.nil_append] at hlexemes
  rw [unplacedTokens, hlexemes]
  rfl

theorem unplacedTokens_followers : ∀ {tokens : List Token} {previous : Option Kind}
    (position : Nat), Sequence Token.Readable previous tokens →
      unplacedTokens previous position (followers tokens) = tokens.map Token.unplaced
  | [], _, _, _ => rfl
  | t :: tokens, previous, position, h => by
      obtain ⟨c, cs, token, hread⟩ := h.1.rereads (position + 1) (apart_followers tokens)
      have htext : followers (t :: tokens) = ' ' :: c :: (cs ++ followers tokens) := by
        rw [followers, List.flatMap_cons, hread.written]
        rfl
      rw [htext, unplacedTokens_blank hread.visible, unplacedTokens_token hread,
        unplacedTokens_followers _ h.2, List.map_cons]

/-- Readable tokens, written as a query, are cut into the same tokens. -/
theorem tokenize_writeTokens {tokens : List Token} (h : Sequence Token.Readable none tokens) :
    (tokenize (writeTokens tokens)).map Token.unplaced = tokens.map Token.unplaced := by
  cases tokens with
  | nil => rfl
  | cons t tokens =>
    obtain ⟨c, cs, token, hread⟩ := h.1.rereads 0 (apart_followers tokens)
    have htokens : (tokenize (writeTokens (t :: tokens))).map Token.unplaced =
        unplacedTokens none 0 (c :: (cs ++ followers tokens)) := by
      rw [tokenize, toList_writeTokens, hread.written]
      rfl
    rw [htokens, unplacedTokens_token hread, unplacedTokens_followers _ h.2, List.map_cons]

end RecordSearch.Query
