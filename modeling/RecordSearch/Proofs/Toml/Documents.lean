import RecordSearch.Proofs.Decimal.Reading
import RecordSearch.Proofs.Toml.Quoted
import RecordSearch.Toml.Reader

/-! Documents written and read back. A value is written if its text is read as it before anything that
    can follow a value (`Denotes`): so are quoted strings, truth values, decimal numbers, and arrays of
    values on one line or with an item on each. A document of lines that are read as statements is
    read as these statements (`Lines.readStatements`), and those of sections with different names and
    keys build a table for each section (`build_sections`). -/

namespace RecordSearch.Toml

/-! ### Words -/

section Words

variable {n : Nat}

/-- The digits of a number begin with a zero only if the number is zero. -/
theorem head?_digitsOf (h : 0 < n) : (Decimal.digitsOf n).head? ≠ some '0' := by
  induction n using Nat.strongRecOn with
  | ind n ih =>
    rcases Nat.lt_or_ge n 10 with hn | hn
    · have hdigit : ∀ n < 10, 0 < n → Nat.digitChar n ≠ '0' := by decide
      rw [Decimal.digitsOf, Nat.toDigits_of_lt_base hn]
      exact fun hhead => hdigit n hn h (Option.some.inj hhead)
    · have hdigits : Decimal.digitsOf n = Decimal.digitsOf (n / 10) ++ [Nat.digitChar (n % 10)] :=
        Nat.toDigits_of_base_le (by decide) hn
      have hne : Decimal.digitsOf (n / 10) ≠ [] := Nat.toDigits_ne_nil
      rw [hdigits, List.head?_append_of_ne_nil _ hne]
      exact ih (n / 10) (by omega) (by omega)

theorem ungroup_digits {isDigit : Char → Bool} (hunderscore : isDigit '_' = false) :
    ∀ {ds : List Char}, ds ≠ [] → (∀ c ∈ ds, isDigit c = true) → ungroup isDigit ds = some ds
  | [], hne, _ => absurd rfl hne
  | [c], _, h => by rw [ungroup, if_pos (h c (List.mem_singleton_self c))]
  | c :: d :: ds, _, h => by
      obtain ⟨hc, hds⟩ := List.forall_mem_cons.mp h
      have hd : d ≠ '_' := by
        rintro rfl
        simp [hds _ List.mem_cons_self] at hunderscore
      rw [ungroup, if_pos hc, ungroup_digits hunderscore (by simp) hds, Option.map_some]
      · simp
      · simpa using hd

theorem wholeDigits_digitsOf (n : Nat) : wholeDigits (Decimal.digitsOf n) = some (Decimal.digitsOf n) := by
  have hungroup : ungroup Char.isDigit (Decimal.digitsOf n) = some (Decimal.digitsOf n) :=
    ungroup_digits (by decide) Nat.toDigits_ne_nil fun _ hc => Decimal.isDigit_of_mem_digitsOf hc
  have hzero : (Decimal.digitsOf n).length = 1 ∨ (Decimal.digitsOf n).head? ≠ some '0' := by
    rcases Nat.eq_zero_or_pos n with rfl | hn
    · exact .inl rfl
    · exact .inr (head?_digitsOf hn)
  rw [wholeDigits, hungroup, Option.filter_some, if_pos (by simpa using hzero)]

/-- A number is read from its digits. -/
theorem readInteger_digitsOf (hn : n < Nat.pow 2 128) :
    readInteger (Decimal.digitsOf n) = some (n : Int) := by
  have hdigits : ∀ c ∈ Decimal.digitsOf n, c.isDigit = true :=
    fun c hc => Decimal.isDigit_of_mem_digitsOf hc
  have hvalue : Decimal.natOfDigits (Decimal.digitsOf n) = n := Decimal.natOfDigits_padded n 0
  have hsign : Decimal.spanSign (Decimal.digitsOf n) = (false, Decimal.digitsOf n) := by
    rw [Decimal.spanSign]
    · intro cs h
      simpa using hdigits '-' (by simp [h])
    · intro cs h
      simpa using hdigits '+' (by simp [h])
  have hrange : inRange n = true := by
    simp only [inRange, Bool.and_eq_true, decide_eq_true_eq]
    omega
  have hother : ∀ c ds, c.isDigit = false → Decimal.digitsOf n ≠ '0' :: c :: ds := by
    intro c ds hc h
    simp [hdigits c (by simp [h])] at hc
  rw [readInteger]
  · simp [hsign, wholeDigits_digitsOf, hvalue, hrange]
  · exact fun ds => hother 'x' ds (by decide)
  · exact fun ds => hother 'o' ds (by decide)
  · exact fun ds => hother 'b' ds (by decide)

end Words

/-! ### Values -/

/-- What may follow a value: the end of its line, or what goes on with an array or closes it. -/
def Closes (rest : List Char) : Prop := ∃ c more, rest = c :: more ∧ (c = '\n' ∨ c = ',' ∨ c = ']')

/-- A text begins with no layout, and with no bracket that closes an array. -/
def Begins (source : List Char) : Prop :=
  ∃ c more, source = c :: more ∧ isBlank c = false ∧ c ∉ ['\n', '\r', '#', ']']

/-- A text is read as a value, whatever may follow it. It takes at most as many steps as it has
    characters. -/
structure Denotes (depth : Nat) (source : List Char) (v : Value) : Prop where
  begins : Begins source
  reads : ∀ rest, Closes rest → ∀ fuel, source.length < fuel →
    readValue fuel depth (source ++ rest) = some (v, rest)

theorem Closes.head?_ne {rest : List Char} (h : Closes rest) {c : Char} (hc : c ∉ ['\n', ',', ']']) :
    rest.head? ≠ some c := by
  obtain ⟨d, more, rfl, hd⟩ := h
  rintro ⟨⟩
  simp at hc
  tauto

theorem Begins.skipLines {source : List Char} (h : Begins source) (rest : List Char) :
    skipLines false (source ++ rest) = some (source ++ rest) := by
  obtain ⟨c, more, rfl, hblank, hc⟩ := h
  simp only [List.mem_cons, List.not_mem_nil, or_false, not_or] at hc
  obtain ⟨hline, hreturn, hcomment, -⟩ := hc
  rw [List.cons_append, Toml.skipLines, if_neg hline, if_neg hreturn, if_neg Bool.false_ne_true,
    hblank, if_neg Bool.false_ne_true, if_neg hcomment]

theorem Begins.append {source : List Char} (h : Begins source) (rest : List Char) :
    Begins (source ++ rest) := by
  obtain ⟨c, more, rfl, hc⟩ := h
  exact ⟨c, more ++ rest, rfl, hc⟩

theorem Begins.skipBlanks {source : List Char} (h : Begins source) (rest : List Char) :
    skipBlanks (source ++ rest) = source ++ rest := by
  obtain ⟨c, more, rfl, hblank, -⟩ := h
  rw [Toml.skipBlanks, List.cons_append, List.dropWhile_cons_of_neg (by simp [hblank])]

/-- A string or a word at the head of a text, and what follows it. -/
def readPlain (cs : List Char) : Option (Value × List Char) :=
  match unquote cs with
  | some (text, rest) => some (.string (String.ofList text), rest)
  | none => (readWord (spanWord cs).1).map fun v => (v, (spanWord cs).2)

section Values

variable {depth fuel : Nat} {source cs rest : List Char} {v : Value}

/-- A value that does not begin with a bracket or a brace is a string or a word. -/
theorem readValue_plain (hbracket : cs.head? ≠ some '[') (hbrace : cs.head? ≠ some '\x7b') :
    readValue (fuel + 1) depth cs = readPlain cs := by
  rw [readValue]
  · rfl
  · exact fun more _ h => hbracket (congrArg List.head? h)
  · exact fun more _ h => hbrace (congrArg List.head? h)
  · exact fun _ more _ h => hbracket (congrArg List.head? h)
  · exact fun _ more _ h => hbrace (congrArg List.head? h)

/-- A quoted string denotes its text. -/
theorem denotes_quote (depth : Nat) (text : String) :
    Denotes depth (quote text).toList (.string text) := by
  obtain ⟨mark, more, hquote, hmark⟩ := exists_quote_eq_cons text
  constructor
  case begins =>
    refine ⟨mark, more, hquote, ?_⟩
    rcases hmark with rfl | rfl <;> decide
  case reads =>
    rintro rest hrest (_ | fuel) hfuel
    · exact absurd hfuel (Nat.not_lt_zero _)
    have hread : unquote ((quote text).toList ++ rest) = some (text.toList, rest) :=
      unquote_quote text (hrest.head?_ne (by decide)) (hrest.head?_ne (by decide))
    rw [readValue_plain, readPlain, hread]
    · simp only [String.ofList_toList]
    · rcases hmark with rfl | rfl <;> simp [hquote]
    · rcases hmark with rfl | rfl <;> simp [hquote]

theorem spanWord_append {word : List Char} (hword : ∀ c ∈ word, isWordChar c = true)
    (hrest : Closes rest) : spanWord (word ++ rest) = (word, rest) := by
  obtain ⟨c, more, rfl, hc⟩ := hrest
  have hend : isWordChar c = false := by rcases hc with rfl | rfl | rfl <;> decide
  have hblank : c ≠ ' ' := by rcases hc with rfl | rfl | rfl <;> decide
  rw [spanWord, List.takeWhile_append_of_pos hword, List.dropWhile_append_of_pos hword,
    List.takeWhile_cons_of_neg (by simp [hend]), List.dropWhile_cons_of_neg (by simp [hend]),
    List.append_nil]
  split
  · next h => exact absurd (List.cons.inj h).1 hblank
  · rfl

theorem unquote_of_ne {c : Char} (hbasic : c ≠ '"') (hliteral : c ≠ '\'') (cs : List Char) :
    unquote (c :: cs) = none := by
  rw [unquote]
  · exact fun _ h => hbasic (List.cons.inj h).1
  · exact fun _ h => hbasic (List.cons.inj h).1
  · exact fun _ h => hliteral (List.cons.inj h).1
  · exact fun _ h => hliteral (List.cons.inj h).1

/-- A word denotes its value. -/
theorem denotes_word {word : List Char} (hne : word ≠ []) (hword : ∀ c ∈ word, isWordChar c = true)
    (hv : readWord word = some v) : Denotes depth word v := by
  obtain ⟨c, more, rfl⟩ := List.exists_cons_of_ne_nil hne
  have hother : ∀ d, isWordChar d = false → c ≠ d := by
    rintro d hd rfl
    rw [hword c List.mem_cons_self] at hd
    cases hd
  constructor
  case begins =>
    refine ⟨c, more, rfl, ?_, ?_⟩
    · simp [isBlank, hother ' ' (by decide), hother '\t' (by decide)]
    · simp [hother '\n' (by decide), hother '\r' (by decide), hother '#' (by decide),
        hother ']' (by decide)]
  case reads =>
    rintro rest hrest (_ | fuel) hfuel
    · exact absurd hfuel (Nat.not_lt_zero _)
    have hunquote : unquote (c :: more ++ rest) = none :=
      unquote_of_ne (hother '"' (by decide)) (hother '\'' (by decide)) _
    rw [readValue_plain]
    · simp only [readPlain, hunquote, spanWord_append hword hrest, hv, Option.map_some]
    · simp [hother '[' (by decide)]
    · simp [hother '\x7b' (by decide)]

theorem isWordChar_of_isAlphanum {c : Char} (h : c.isAlphanum = true) : isWordChar c = true := by
  rw [isWordChar, h, Bool.true_or]

theorem denotes_bool (depth : Nat) (b : Bool) :
    Denotes depth (if b then "true" else "false").toList (.bool b) := by
  have hfalse : ∀ c ∈ ['f', 'a', 'l', 's', 'e'], c.isAlphanum = true := by simp
  have htrue : ∀ c ∈ ['t', 'r', 'u', 'e'], c.isAlphanum = true := by simp
  cases b with
  | false => exact denotes_word (by decide) (fun c hc => isWordChar_of_isAlphanum (hfalse c hc)) rfl
  | true => exact denotes_word (by decide) (fun c hc => isWordChar_of_isAlphanum (htrue c hc)) rfl

/-- The digits of a number that can be read denote it. -/
theorem denotes_toString (depth : Nat) {n : Nat} (hn : n < Nat.pow 2 128) :
    Denotes depth (toString n).toList (.integer n) := by
  have hdigits : (toString n).toList = Decimal.digitsOf n := by
    rw [Nat.toString_eq_ofList_toDigits, String.toList_ofList, Decimal.digitsOf]
  rw [hdigits]
  have hfirst : ∀ word : List Char, 'e' ∈ word → Decimal.digitsOf n ≠ word := by
    rintro word hword rfl
    exact absurd (Decimal.isDigit_of_mem_digitsOf hword) (by decide)
  refine denotes_word Nat.toDigits_ne_nil (fun c hc => ?_) ?_
  · refine isWordChar_of_isAlphanum ?_
    rw [Char.isAlphanum, Decimal.isDigit_of_mem_digitsOf hc, Bool.or_true]
  · rw [readWord, if_neg (hfirst _ (by decide)), if_neg (hfirst _ (by decide)),
      readInteger_digitsOf hn]

/-! ### Arrays -/

theorem readItems_nil : readItems (fuel + 1) depth (']' :: rest) = some ([], rest) := by
  rw [readItems]
  rfl

/-- A line end before an item is passed over. -/
theorem readItems_line : readItems fuel depth ('\n' :: cs) = readItems fuel depth cs := by
  cases fuel with
  | zero => rw [readItems, readItems]
  | succ fuel =>
    rw [readItems, readItems]
    rfl

/-- The items from one that is read on, and what follows them. -/
def itemsFrom (fuel depth : Nat) (v : Value) (rest : List Char) : Option (List Value × List Char) :=
  match skipLines false rest with
  | some (',' :: rest) => (readItems fuel depth rest).map fun (items, rest) => (v :: items, rest)
  | some (']' :: rest) => some ([v], rest)
  | _ => none

section

variable (hv : Denotes depth source v) (hcs : skipLines false cs = some (source ++ rest))
  (hfuel : source.length < fuel)

include hv hcs hfuel

theorem readItems_item (hrest : Closes rest) :
    readItems (fuel + 1) depth cs = itemsFrom fuel depth v rest := by
  obtain ⟨c, more, hsource, -, hc⟩ := hv.begins
  have hclose : c ≠ ']' := by
    rintro rfl
    simp at hc
  rw [readItems, hcs]
  split
  · next h => cases h
  · next h =>
    rw [hsource] at h
    exact absurd (List.cons.inj (Option.some.inj h)).1 hclose
  · next h =>
    rw [← Option.some.inj h, hv.reads rest hrest fuel hfuel]
    rfl

theorem readItems_comma {more : List Char} (hrest : rest = ',' :: more) :
    readItems (fuel + 1) depth cs =
      (readItems fuel depth more).map fun (items, rest) => (v :: items, rest) := by
  rw [readItems_item hv hcs hfuel ⟨',', more, hrest, by simp⟩, itemsFrom, hrest]
  rfl

theorem readItems_last {more : List Char} (hrest : rest = ']' :: more) :
    readItems (fuel + 1) depth cs = some ([v], more) := by
  rw [readItems_item hv hcs hfuel ⟨']', more, hrest, by simp⟩, itemsFrom, hrest]
  rfl

end

theorem denotes_array {items : List Value}
    (hitems : ∀ rest fuel, source.length + 1 < fuel →
      readItems fuel depth (source ++ ']' :: rest) = some (items, rest)) :
    Denotes (depth + 1) ('[' :: (source ++ [']'])) (.array items) := by
  constructor
  case begins => exact ⟨_, _, rfl, by decide, by decide⟩
  case reads =>
    rintro rest - (_ | fuel) hfuel
    · exact absurd hfuel (Nat.not_lt_zero _)
    have hlength : source.length + 1 < fuel := by
      simp only [List.length_cons, List.length_append, List.length_nil] at hfuel
      omega
    rw [List.cons_append, List.append_assoc, readValue]
    simp [hitems rest fuel hlength]

/-- An array without an item. -/
theorem denotes_array_nil : Denotes (depth + 1) ['[', ']'] (.array []) := by
  change Denotes (depth + 1) ('[' :: ([] ++ [']'])) (.array [])
  refine denotes_array fun rest fuel hfuel => ?_
  cases fuel with
  | zero => exact absurd hfuel (Nat.not_lt_zero _)
  | succ fuel => exact readItems_nil

/-- An array with one item on its line. -/
theorem denotes_array_singleton (hv : Denotes depth source v) :
    Denotes (depth + 1) ('[' :: (source ++ [']'])) (.array [v]) := by
  refine denotes_array fun rest fuel hfuel => ?_
  cases fuel with
  | zero => exact absurd hfuel (Nat.not_lt_zero _)
  | succ fuel => exact readItems_last hv (hv.begins.skipLines _) (by omega) rfl

/-- An item on a line of its own. -/
def itemLine (source : List Char) : List Char :=
  [' ', ' ', ' ', ' '] ++ source ++ [',', '\n']

theorem readItems_lines {α : Type} {source : α → List Char} {value : α → Value} :
    ∀ {items : List α} {fuel : Nat}, (∀ x ∈ items, Denotes depth (source x) (value x)) →
      (items.flatMap fun x => itemLine (source x)).length < fuel →
      readItems fuel depth ((items.flatMap fun x => itemLine (source x)) ++ ']' :: rest) =
        some (items.map value, rest)
  | _, 0, _, hfuel => absurd hfuel (Nat.not_lt_zero _)
  | [], fuel + 1, _, _ => readItems_nil
  | x :: items, fuel + 1, h, hfuel => by
      obtain ⟨hx, hitems⟩ := List.forall_mem_cons.mp h
      rw [List.flatMap_cons, List.length_append] at hfuel
      have hlength : (itemLine (source x)).length = (source x).length + 6 := by simp [itemLine]
      have hitem : ∀ more, skipLines false (itemLine (source x) ++ more) =
          some (source x ++ ',' :: '\n' :: more) := by
        intro more
        have hlayout : skipLines false (itemLine (source x) ++ more) =
            skipLines false (source x ++ ([',', '\n'] ++ more)) := by
          rw [itemLine, List.append_assoc, List.append_assoc]
          rfl
        rw [hlayout, hx.begins.skipLines]
        rfl
      rw [List.flatMap_cons, List.append_assoc, readItems_comma hx (hitem _) (by omega) rfl,
        readItems_line, readItems_lines hitems (by omega)]
      rfl

/-- An array with each item on a line of its own. -/
theorem denotes_array_lines {α : Type} {source : α → List Char} {value : α → Value} {items : List α}
    (h : ∀ x ∈ items, Denotes depth (source x) (value x)) :
    Denotes (depth + 1) ('[' :: ('\n' :: (items.flatMap fun x => itemLine (source x)) ++ [']']))
      (.array (items.map value)) := by
  refine denotes_array fun rest fuel hfuel => ?_
  rw [List.length_cons] at hfuel
  rw [List.cons_append, readItems_line]
  exact readItems_lines h (by omega)

end Values

/-! ### Statements -/

/-- A line is read as a statement, whatever lines follow it. -/
structure States (line : List Char) (statement : Statement) : Prop where
  begins : Begins line
  reads : ∀ rest, readStatement (line ++ '\n' :: rest) = some (statement, '\n' :: rest)

section Statements

variable {name rest : List Char}

theorem IsName.exists_cons (h : IsName name) :
    ∃ c more, name = c :: more ∧ ∀ d, isKeyChar d = false → c ≠ d := by
  obtain ⟨c, more, rfl⟩ := List.exists_cons_of_ne_nil h.1
  refine ⟨c, more, rfl, ?_⟩
  rintro d hd rfl
  rw [h.2 c List.mem_cons_self] at hd
  cases hd

theorem IsName.begins (h : IsName name) : Begins name := by
  obtain ⟨c, more, rfl, hc⟩ := h.exists_cons
  refine ⟨c, more, rfl, ?_, ?_⟩
  · simp [isBlank, hc ' ' (by decide), hc '\t' (by decide)]
  · simp [hc '\n' (by decide), hc '\r' (by decide), hc '#' (by decide), hc ']' (by decide)]

theorem readKey_name (h : IsName name) (hrest : ∃ c more, rest = c :: more ∧ isKeyChar c = false) :
    readKey (name ++ rest) = some (String.ofList name, rest) := by
  obtain ⟨d, after, rfl, hd⟩ := hrest
  have htake : (name ++ d :: after).takeWhile isKeyChar = name := by
    rw [List.takeWhile_append_of_pos h.2, List.takeWhile_cons_of_neg (by simp [hd]), List.append_nil]
  have hdrop : (name ++ d :: after).dropWhile isKeyChar = d :: after := by
    rw [List.dropWhile_append_of_pos h.2, List.dropWhile_cons_of_neg (by simp [hd])]
  obtain ⟨c, more, hname, hc⟩ := h.exists_cons
  rw [readKey]
  · simp [htake, hdrop, h.1]
  · exact fun _ hcs => hc '"' (by decide) (List.cons.inj (hname ▸ hcs)).1
  · exact fun _ hcs => hc '\'' (by decide) (List.cons.inj (hname ▸ hcs)).1

/-- A name alone is a path, if no dot follows it. -/
theorem readPath_name (h : IsName name) (hrest : ∃ c more, rest = c :: more ∧ isKeyChar c = false)
    (hdot : (skipBlanks rest).head? ≠ some '.') (most : Nat) :
    readPath (most + 1) (name ++ rest) = some (⟨[], String.ofList name⟩, skipBlanks rest) := by
  rw [readPath, h.begins.skipBlanks, readKey_name h hrest]
  split
  · next heq => cases heq
  · next heq =>
    cases heq
    split
    · next hskip =>
      rw [hskip] at hdot
      exact absurd rfl hdot
    · rfl

/-- The header of a table. -/
theorem states_table (h : IsName name) :
    States ('[' :: (name ++ [']'])) (.table ⟨[], String.ofList name⟩) := by
  obtain ⟨c, more, hname, hc⟩ := h.exists_cons
  constructor
  case begins => exact ⟨_, _, rfl, by decide, by decide⟩
  case reads =>
    intro rest
    have hpath : readPath longestPath (name ++ ']' :: '\n' :: rest) =
        some (⟨[], String.ofList name⟩, ']' :: '\n' :: rest) :=
      readPath_name h ⟨_, _, rfl, by decide⟩ (by simp [skipBlanks, isBlank]) 79
    rw [List.cons_append, List.append_assoc, readStatement]
    · simp [hpath]
    · exact fun _ hcs => hc '[' (by decide) (List.cons.inj (hname ▸ hcs)).1

/-- A name and its value. -/
theorem states_entry {source : List Char} {v : Value} (h : IsName name)
    (hv : Denotes deepestValue source v) :
    States (name ++ ([' ', '=', ' '] ++ source)) (.entry ⟨[], String.ofList name⟩ v) := by
  obtain ⟨c, more, hname, hc⟩ := h.exists_cons
  constructor
  case begins => exact h.begins.append _
  case reads =>
    intro rest
    have hpath : readPath longestPath (name ++ ([' ', '=', ' '] ++ source ++ '\n' :: rest)) =
        some (⟨[], String.ofList name⟩, '=' :: ' ' :: (source ++ '\n' :: rest)) :=
      readPath_name h ⟨_, _, rfl, by decide⟩ (by simp [skipBlanks, isBlank]) 79
    have hblanks : skipBlanks (' ' :: (source ++ '\n' :: rest)) = source ++ '\n' :: rest :=
      hv.begins.skipBlanks _
    have hfuel : source.length < 2 * (' ' :: (source ++ '\n' :: rest)).length + 2 := by
      simp
      omega
    have hread := hv.reads ('\n' :: rest) ⟨'\n', rest, rfl, .inl rfl⟩ _ hfuel
    rw [List.append_assoc, readStatement]
    · simp only [hpath, hblanks, hread, Option.map_some]
    · exact fun _ hcs => hc '[' (by decide) (List.cons.inj (hname ▸ hcs)).1
    · exact fun _ hcs => hc '[' (by decide) (List.cons.inj (hname ▸ hcs)).1

end Statements

/-! ### Documents -/

/-- A document of lines that are read as statements, and of empty ones. -/
inductive Lines : List Char → List Statement → Prop
  | done : Lines [] []
  | empty {cs : List Char} {statements : List Statement} (more : Lines cs statements) :
      Lines ('\n' :: cs) statements
  | line {line cs : List Char} {statement : Statement} {statements : List Statement}
      (states : States line statement) (more : Lines cs statements) :
      Lines (line ++ '\n' :: cs) (statement :: statements)

theorem Lines.append {cs cs' : List Char} {statements statements' : List Statement}
    (h : Lines cs statements) (h' : Lines cs' statements') :
    Lines (cs ++ cs') (statements ++ statements') := by
  induction h with
  | done => exact h'
  | empty more ih => exact .empty ih
  | line states more ih =>
    rw [List.append_assoc]
    exact .line states ih

theorem readStatements_empty {cs : List Char} {fuel : Nat} :
    readStatements fuel ('\n' :: cs) = readStatements fuel cs := by
  cases fuel with
  | zero => rw [readStatements, readStatements]
  | succ fuel =>
    rw [readStatements, readStatements]
    rfl

theorem readStatements_line {line cs : List Char} {statement : Statement} {fuel : Nat}
    (h : States line statement) : readStatements (fuel + 1) (line ++ '\n' :: cs) =
      (readStatements fuel cs).map (statement :: ·) := by
  obtain ⟨c, more, hline, -⟩ := h.begins
  rw [readStatements, h.begins.skipLines]
  split
  · next heq => cases heq
  · next heq =>
    rw [hline] at heq
    cases heq
  · next heq =>
    rw [← Option.some.inj heq, h.reads]
    rfl

/-- The statements of a document are read from it. -/
theorem Lines.readStatements {cs : List Char} {statements : List Statement} {fuel : Nat}
    (h : Lines cs statements) (hfuel : cs.length < fuel) :
    readStatements fuel cs = some statements := by
  induction h generalizing fuel with
  | done =>
    cases fuel with
    | zero => exact absurd hfuel (Nat.not_lt_zero _)
    | succ fuel => rfl
  | empty more ih =>
    rw [readStatements_empty]
    rw [List.length_cons] at hfuel
    exact ih (by omega)
  | line states more ih =>
    cases fuel with
    | zero => exact absurd hfuel (Nat.not_lt_zero _)
    | succ fuel =>
      rw [List.length_append, List.length_cons] at hfuel
      rw [readStatements_line states, ih (by omega), Option.map_some]

/-- A text of lines describes what their statements build. -/
theorem Lines.read {text : String} {statements : List Statement} (h : Lines text.toList statements)
    (hmark : text.toList.head? ≠ some '\uFEFF') : read text = build statements := by
  have hskip : skipOrderMark text.toList = text.toList := by
    rw [skipOrderMark]
    exact fun cs hcs => hmark (congrArg List.head? hcs)
  rw [Toml.read, hskip]
  change (Toml.readStatements (text.toList.length + 1) text.toList).bind build = _
  rw [h.readStatements (Nat.lt_succ_self _), Option.bind_some]

/-! ### Sections -/

/-- The statement of an entry. -/
def entryStatement (entry : String × Value) : Statement := .entry ⟨[], entry.1⟩ entry.2

/-- The statements of a section with a name and entries. -/
def sectionStatements (s : Section) : List Statement :=
  .table ⟨[], s.1⟩ :: s.2.map entryStatement

/-- An entry under construction. -/
def entryNode (entry : String × Value) : String × Node := (entry.1, .value entry.2)

/-- A section under construction. -/
def sectionNode (s : Section) : String × Node :=
  (s.1, .table .header (s.2.map entryNode))

section Sections

variable {key name : String} {change : Option Node → Option Node} {fields : Fields}
  {header : List String}

/-- A new key comes last. -/
theorem alter_new : ∀ {fields : Fields}, key ∉ fields.map Prod.fst →
    alter key change fields = (change none).map fun node => fields ++ [(key, node)]
  | [], _ => rfl
  | (other, found) :: fields, h => by
      rw [List.map_cons, List.mem_cons, not_or] at h
      rw [alter, if_neg (Ne.symm h.1), alter_new h.2, Option.map_map]
      rfl

theorem alter_last {node : Node} : ∀ {fields : Fields}, key ∉ fields.map Prod.fst →
    alter key change (fields ++ [(key, node)]) =
      (change (some node)).map fun node => fields ++ [(key, node)]
  | [], _ => by
      rw [List.nil_append, alter, if_pos rfl]
      rfl
  | (other, found) :: fields, h => by
      rw [List.map_cons, List.mem_cons, not_or] at h
      rw [List.cons_append, alter, if_neg (Ne.symm h.1), alter_last h.2, Option.map_map]
      rfl

theorem add_table (h : name ∉ fields.map Prod.fst) :
    Draft.add ⟨fields, header⟩ (.table ⟨[], name⟩) =
      some ⟨fields ++ [(name, .table .header [])], [name]⟩ := by
  rw [Draft.add, openTable, changeAt, alter_new h]
  rfl

/-- An entry comes last in the section in effect. -/
theorem add_entry {inner : Fields} {v : Value} (hname : name ∉ fields.map Prod.fst)
    (hkey : key ∉ inner.map Prod.fst) :
    Draft.add ⟨fields ++ [(name, .table .header inner)], [name]⟩ (.entry ⟨[], key⟩ v) =
      some ⟨fields ++ [(name, .table .header (inner ++ [(key, .value v)]))], [name]⟩ := by
  have hset : setEntry [] key v inner = some (inner ++ [(key, .value v)]) := by
    rw [setEntry, changeAt, alter_new hkey]
    rfl
  rw [Draft.add, changeAt, alter_last hname]
  simp [changeAt, hset]

/-- What comes next has another name than what is there. -/
theorem fst_not_mem {α : Type} {sofar more : List (String × α)} {next : String × α}
    {node : String × α → String × Node} (hnode : ∀ x, (node x).1 = x.1)
    (h : ((sofar ++ next :: more).map Prod.fst).Nodup) :
    next.1 ∉ (sofar.map node).map Prod.fst := by
  have hnames : (sofar.map node).map Prod.fst = sofar.map Prod.fst := by
    rw [List.map_map]
    exact List.map_congr_left fun x _ => hnode x
  rw [List.map_append, List.map_cons, List.nodup_append] at h
  rw [hnames]
  exact fun hmem => h.2.2 _ hmem _ List.mem_cons_self rfl

theorem foldlM_add_entries (hname : name ∉ fields.map Prod.fst) :
    ∀ entries sofar : List (String × Value), ((sofar ++ entries).map Prod.fst).Nodup →
      (entries.map entryStatement).foldlM Draft.add ⟨fields ++ [sectionNode (name, sofar)], [name]⟩ =
        some ⟨fields ++ [sectionNode (name, sofar ++ entries)], [name]⟩
  | [], sofar, _ => by
      rw [List.append_nil]
      rfl
  | (key, v) :: entries, sofar, h => by
      have hentry : Draft.add ⟨fields ++ [sectionNode (name, sofar)], [name]⟩
          (entryStatement (key, v)) =
            some ⟨fields ++ [sectionNode (name, sofar ++ [(key, v)])], [name]⟩ := by
        rw [sectionNode, sectionNode, List.map_append]
        exact add_entry hname (fst_not_mem (fun _ => rfl) h)
      have hsplit : sofar ++ (key, v) :: entries = sofar ++ [(key, v)] ++ entries :=
        List.append_cons sofar (key, v) entries
      rw [hsplit] at h ⊢
      rw [List.map_cons, List.foldlM_cons, hentry]
      exact foldlM_add_entries hname entries _ h

theorem foldlM_add_section {s : Section} (hname : s.1 ∉ fields.map Prod.fst)
    (hkeys : (s.2.map Prod.fst).Nodup) :
    (sectionStatements s).foldlM Draft.add ⟨fields, header⟩ =
      some ⟨fields ++ [sectionNode s], [s.1]⟩ := by
  rw [sectionStatements, List.foldlM_cons, add_table hname]
  exact foldlM_add_entries hname s.2 [] hkeys

theorem foldlM_add_sections : ∀ (sections sofar : List Section)
    (header : List String), ((sofar ++ sections).map Prod.fst).Nodup →
      (∀ s ∈ sections, (s.2.map Prod.fst).Nodup) →
      ((sections.flatMap sectionStatements).foldlM Draft.add ⟨sofar.map sectionNode, header⟩).map
          Draft.fields =
        some ((sofar ++ sections).map sectionNode)
  | [], sofar, _, _, _ => by
      rw [List.append_nil]
      rfl
  | s :: sections, sofar, header, hnames, hkeys => by
      obtain ⟨hs, hsections⟩ := List.forall_mem_cons.mp hkeys
      have hname : s.1 ∉ (sofar.map sectionNode).map Prod.fst := fst_not_mem (fun _ => rfl) hnames
      have hsplit : sofar ++ s :: sections = sofar ++ [s] ++ sections :=
        List.append_cons sofar s sections
      rw [hsplit] at hnames ⊢
      have hmore := foldlM_add_sections sections (sofar ++ [s]) [s.1] hnames hsections
      rw [List.flatMap_cons, List.foldlM_append, foldlM_add_section hname hs]
      rw [List.map_append] at hmore
      exact hmore

theorem finish_entries : ∀ entries : List (String × Value),
    finishFields (entries.map entryNode) = entries
  | [] => by rw [List.map_nil, finishFields]
  | (key, v) :: entries => by
      rw [List.map_cons, entryNode, finishFields, finish_entries entries, Node.finish]

theorem finish_sections : ∀ sections : List Section,
    finishFields (sections.map sectionNode) = document sections
  | [] => by
      rw [List.map_nil, finishFields]
      rfl
  | s :: sections => by
      rw [List.map_cons, sectionNode, finishFields, finish_sections sections, Node.finish,
        finish_entries]
      rfl

/-- Sections with different names and keys build a table for each of them. -/
theorem build_sections {sections : List Section}
    (hnames : (sections.map Prod.fst).Nodup) (hkeys : ∀ s ∈ sections, (s.2.map Prod.fst).Nodup) :
    build (sections.flatMap sectionStatements) = some (document sections) := by
  have hfields := foldlM_add_sections sections [] [] hnames hkeys
  obtain ⟨d, hd, hsections⟩ := Option.map_eq_some_iff.mp hfields
  have hbuild : (sections.flatMap sectionStatements).foldlM Draft.add .empty = some d := hd
  rw [build, hbuild, Option.map_some, hsections, List.nil_append, finish_sections]

end Sections

end RecordSearch.Toml
