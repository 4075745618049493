import RecordSearch.Toml.Quoted

/-! Strings written and read back. Between its marks a string may be written in any way in which each
    character is read as itself whatever follows, and marks stand as they are only in runs that cannot
    close it (`Quoting.Spells`, `Quoting.Written`); all such ways are read as the string. The forms with
    escapes write every text so, and those without escapes the texts that suit them, so a quoted string
    is read back whatever its characters (`unquote_quote`). -/

namespace RecordSearch.Toml

namespace Quoting

/-- How many marks may stand next to each other before the closing ones. -/
def mostMarks (q : Quoting) : Nat := if q.isLong then 2 else 0

/-- A source that is read as a character whatever follows. It does not begin with a mark, and it begins
    like the end of a line only if it stands for one. -/
inductive Spells (q : Quoting) (c : Char) : List Char → Prop
  | intro {first : Char} {more : List Char} (unmarked : first ≠ q.mark)
      (line : first = '\n' → c = '\n') (unreturned : first ≠ '\r')
      (reads : ∀ rest, q.piece first (more ++ rest) = .char c more.length) : Spells q c (first :: more)

/-- A text with the marks that close it and the rest of a document, after a run of marks that stand as
    they are. -/
inductive Written (q : Quoting) (rest : List Char) : (run : Nat) → (text source : List Char) → Prop
  | done {run : Nat} : Written q rest run [] (q.delimiter ++ rest)
  | mark {run : Nat} {text source : List Char} (few : run < q.mostMarks)
      (more : Written q rest (run + 1) text source) :
      Written q rest run (q.mark :: text) (q.mark :: source)
  | char {run : Nat} {c : Char} {text spelling source : List Char} (spells : q.Spells c spelling)
      (more : Written q rest 0 text source) : Written q rest run (c :: text) (spelling ++ source)

theorem few_of_lt_mostMarks {q : Quoting} {run : Nat} (h : run < q.mostMarks) :
    q.isLong = true ∧ run < 2 := by
  cases hlong : q.isLong with
  | false =>
    rw [mostMarks, hlong] at h
    exact absurd h (Nat.not_lt_zero run)
  | true =>
    rw [mostMarks, hlong] at h
    exact ⟨rfl, h⟩

section Reading

variable {q : Quoting} {rest text source : List Char} {run : Nat}

theorem textRest_skip (q : Quoting) (rest : List Char) : ∀ cs : List Char,
    q.textRest cs.length (cs ++ rest) = q.textRest 0 rest
  | [] => rfl
  | _ :: cs => by rw [List.length_cons, List.cons_append, textRest, textRest_skip q rest cs]

theorem textRest_spells {c : Char} {spelling : List Char} (h : q.Spells c spelling) :
    q.textRest 0 (spelling ++ source) =
      (q.textRest 0 source).map fun (text, rest) => (c :: text, rest) := by
  cases h with
  | @intro first more unmarked line unreturned reads =>
    rw [List.cons_append, textRest, reads source]
    simp only [textRest_skip]

/-- How many marks stand at the head of a text. -/
def marksAhead (q : Quoting) (cs : List Char) : Nat := (cs.takeWhile (· = q.mark)).length

theorem marksAhead_cons (cs : List Char) : q.marksAhead (q.mark :: cs) = q.marksAhead cs + 1 := by
  rw [marksAhead, List.takeWhile_cons_of_pos (by simp), List.length_cons, marksAhead]

theorem marksAhead_of_ne {c : Char} (h : c ≠ q.mark) (cs : List Char) :
    q.marksAhead (c :: cs) = 0 := by
  rw [marksAhead, List.takeWhile_cons_of_neg (by simp [h]), List.length_nil]

theorem marksAhead_replicate (hrest : rest.head? ≠ some q.mark) (count : Nat) :
    q.marksAhead (List.replicate count q.mark ++ rest) = count := by
  induction count with
  | zero =>
    cases rest with
    | nil => rfl
    | cons c rest => exact marksAhead_of_ne (fun h => hrest (congrArg some h)) rest
  | succ count ih => rw [List.replicate_succ, List.cons_append, marksAhead_cons, ih]

/-- In a long form fewer marks stand ahead than close it, or the text is no more than marks. -/
theorem Written.marks (h : q.Written rest run text source) (hlong : q.isLong = true) (hrun : run ≤ 2) :
    q.marksAhead source + run ≤ 2 ∨
      ∃ count, count + run ≤ 2 ∧ text = List.replicate count q.mark ∧
        source = List.replicate (count + 3) q.mark ++ rest := by
  induction h with
  | done => exact .inr ⟨0, by omega, rfl, by rw [delimiter, if_pos hlong]⟩
  | @mark run text source few more ih =>
    have hfew := (few_of_lt_mostMarks few).2
    rcases ih (by omega) with hahead | ⟨count, hcount, rfl, rfl⟩
    · left
      rw [marksAhead_cons]
      omega
    · exact .inr ⟨count + 1, by omega, rfl, rfl⟩
  | @char run c text spelling source spells more ih =>
    left
    cases spells with
    | intro unmarked line unreturned reads =>
      rw [List.cons_append, marksAhead_of_ne unmarked]
      omega

/-- Enough marks close a long form, and those before them belong to the text. -/
theorem piece_closing (hlong : q.isLong = true) (hrest : rest.head? ≠ some q.mark) {count : Nat}
    (hcount : count ≤ 2) :
    q.piece q.mark (List.replicate (count + 2) q.mark ++ rest) = .close count rest := by
  have hmarks := marksAhead_replicate hrest (count + 3)
  rw [marksAhead, List.replicate_succ, List.cons_append] at hmarks
  have hinner : min (count + 3) 5 - 3 = count := by omega
  have hdrop : (q.mark :: (List.replicate (count + 2) q.mark ++ rest)).drop (count + 3) = rest := by
    rw [List.drop_succ_cons]
    exact List.drop_left' List.length_replicate
  rw [piece, if_pos rfl, closing, if_pos hlong]
  simp only [hmarks, show ¬ count + 3 < 3 by omega, if_false, hinner, hdrop]

/-- A mark in a long form belongs to the text where too few follow it to close it. -/
theorem piece_mark (hlong : q.isLong = true) (hfew : q.marksAhead (q.mark :: source) < 3) :
    q.piece q.mark source = .char q.mark 0 := by
  rw [marksAhead] at hfew
  rw [piece, if_pos rfl, closing, if_pos hlong]
  simp only [hfew, if_true]

/-- What is written is read as the text, and the rest follows its marks. -/
theorem Written.textRest (h : q.Written rest run text source)
    (hrest : rest.head? ≠ some q.mark) : q.textRest 0 source = some (text, rest) := by
  induction h with
  | @done run =>
    cases hlong : q.isLong with
    | true =>
      have hdelimiter : q.delimiter ++ rest =
          q.mark :: (List.replicate (0 + 2) q.mark ++ rest) := by
        rw [delimiter, if_pos hlong]
        rfl
      rw [hdelimiter, Quoting.textRest, piece_closing hlong hrest (Nat.zero_le 2)]
      rfl
    | false =>
      have hdelimiter : q.delimiter ++ rest = q.mark :: rest := by
        rw [delimiter, hlong]
        rfl
      have hpiece : q.piece q.mark rest = .close 0 rest := by
        rw [piece, if_pos rfl, closing, hlong]
        rfl
      rw [hdelimiter, Quoting.textRest, hpiece]
      rfl
  | @mark run text source few more ih =>
    obtain ⟨hlong, hrun⟩ := few_of_lt_mostMarks few
    rcases (Written.mark few more).marks hlong (by omega) with hfew | ⟨count, hcount, htext, hsource⟩
    · rw [Quoting.textRest, piece_mark hlong (by omega)]
      simp only [ih, Option.map_some]
    · -- the text ends here, and its marks are taken off the closing ones
      rw [List.replicate_succ, List.cons_append] at hsource
      rw [(List.cons.inj hsource).2, Quoting.textRest, piece_closing hlong hrest (by omega), htext]
  | @char run c text spelling source spells more ih =>
    rw [textRest_spells spells, ih]
    rfl

end Reading

/-! ### Ways to write a character -/

section Spelling

variable {q : Quoting} {c : Char} {long : Bool}

/-- A character that is not special stands for itself. -/
theorem spells_self (hmark : c ≠ q.mark) (hescape : q.hasEscapes = true → c ≠ '\\')
    (hcontrol : isControl c = false ∨ c = '\n' ∧ q.isLong = true) : q.Spells c [c] := by
  have hreturn : c ≠ '\r' := by
    rintro rfl
    rcases hcontrol with h | ⟨h, -⟩ <;> revert h <;> decide
  refine .intro hmark id hreturn fun rest => ?_
  have hbackslash : ¬ (c = '\\' ∧ q.hasEscapes = true) := fun h => hescape h.2 h.1
  rw [List.nil_append, piece, if_neg hmark, if_neg hbackslash]
  rcases hcontrol with hcontrol | ⟨rfl, hlong⟩
  · split
    · rfl
    · rw [hcontrol]
      rfl
  · rw [if_pos ⟨hlong, .inl rfl⟩]
    rfl

/-- A backslash begins an escape in the forms that have them, if no blank and no line end follows it. -/
theorem spells_escape (hq : q.hasEscapes = true) {more : List Char}
    (hescaped : ∀ rest, escapedAt (more ++ rest) = some (c, more.length))
    (hmore : ∀ rest, continuation (more ++ rest) = none) : q.Spells c ('\\' :: more) := by
  have hmark : '\\' ≠ q.mark := by cases q <;> decide
  refine .intro hmark (fun h => absurd h (by decide)) (by decide) fun rest => ?_
  rw [piece, if_neg hmark, if_pos ⟨rfl, hq⟩, escapePiece, hmore rest, ite_self]
  simp only [hescaped rest]

theorem hexDigit_capitalDigit : ∀ n < 16, Text.hexDigit (capitalDigit n) = some n := by decide

/-- Two capital digits after two zeros are the code point of a character that is no wider. -/
theorem codePoint_capitalDigits (h : c.toNat < 256) (rest : List Char) :
    codePoint 4 ('0' :: '0' :: capitalDigit (c.toNat / 16) :: capitalDigit (c.toNat % 16) :: rest) =
      some c := by
  have hhigh := hexDigit_capitalDigit (c.toNat / 16) (by omega)
  have hlow := hexDigit_capitalDigit (c.toNat % 16) (by omega)
  have hzero : Text.hexDigit '0' = some 0 := by decide
  have hvalue : Text.hexValue ['0', '0', capitalDigit (c.toNat / 16), capitalDigit (c.toNat % 16)] =
      some c.toNat := by
    have hsum : 16 * (c.toNat / 16) + c.toNat % 16 = c.toNat := by omega
    simp [Text.hexValue, hzero, hhigh, hlow, hsum]
  have hchar : Text.charOf c.toNat = some c := by
    have hvalid : c.toNat.isValidChar := c.valid
    rw [Text.charOf, if_pos hvalid, Char.ofNat_toNat]
  simp only [codePoint, List.take_succ_cons, List.take_zero, List.length_cons, List.length_nil,
    if_true, hvalue, Option.bind_some, hchar]

/-- The form with escapes, long or not. -/
def escaping (long : Bool) : Quoting := if long then longBasic else basic

theorem spells_escapeChar (hc : c ≠ '"') : (escaping long).Spells c (escapeChar long c) := by
  have hescapes : (escaping long).hasEscapes = true := by cases long <;> rfl
  rw [escapeChar]
  split
  · next h => subst h; exact spells_escape hescapes (fun _ => rfl) fun _ => rfl
  split
  · next h => subst h; exact spells_escape hescapes (fun _ => rfl) fun _ => rfl
  split
  · next h =>
    subst h
    cases long with
    | true => exact spells_self (by decide) (by decide) (.inr ⟨rfl, rfl⟩)
    | false => exact spells_escape hescapes (fun _ => rfl) fun _ => rfl
  split
  · next h => subst h; exact spells_escape hescapes (fun _ => rfl) fun _ => rfl
  split
  · next h => subst h; exact spells_escape hescapes (fun _ => rfl) fun _ => rfl
  split
  · next h => subst h; exact spells_escape hescapes (fun _ => rfl) fun _ => rfl
  split
  · next h =>
    refine spells_escape hescapes (fun rest => ?_) fun _ => rfl
    change (codePoint 4 ('0' :: '0' :: capitalDigit (c.toNat / 16) ::
      capitalDigit (c.toNat % 16) :: rest)).map (·, 5) = some (c, 5)
    rw [codePoint_capitalDigits (by omega), Option.map_some]
  · next hbackslash hcontrol =>
    have hmark : c ≠ (escaping long).mark := by cases long <;> exact hc
    refine spells_self hmark (fun _ => hbackslash) (.inl ?_)
    simp [isControl]
    omega

/-- A character that a form can hold as it is, if it is no mark. -/
structure Plain (q : Quoting) (c : Char) : Prop where
  unescaped : needsEscape c = false
  backslash : q.hasEscapes = true → c ≠ '\\'
  line : q.isLong = true ∨ c ≠ '\n'

theorem Plain.spells (h : q.Plain c) (hmark : c ≠ q.mark) : q.Spells c [c] := by
  refine spells_self hmark h.backslash ?_
  by_cases hc : c = '\n'
  · exact .inr ⟨hc, h.line.resolve_right fun hline => hline hc⟩
  · have hunescaped := h.unescaped
    simp [needsEscape, hc] at hunescaped
    exact .inl hunescaped

end Spelling

/-! ### Ways to write a text -/

section Writing

variable {q : Quoting} {rest : List Char}

/-- Every text can be written with escapes. -/
theorem written_escapeText (long : Bool) (rest : List Char) : ∀ (run : Nat) (cs : List Char),
    (escaping long).Written rest run cs
      (escapeText long run cs ++ ((escaping long).delimiter ++ rest))
  | _, [] => .done
  | run, c :: cs => by
      have hmark : (escaping long).mark = '"' := by cases long <;> rfl
      have hmost : (escaping long).mostMarks = if long then 2 else 0 := by cases long <;> rfl
      have hescapes : (escaping long).hasEscapes = true := by cases long <;> rfl
      rw [escapeText]
      split
      · next hc =>
        subst hc
        by_cases hfew : run < if long then 2 else 0
        · rw [if_pos hfew]
          have hmore := written_escapeText long rest (run + 1) cs
          have hwritten := Written.mark (hmost ▸ hfew) hmore
          rwa [hmark] at hwritten
        · rw [if_neg hfew]
          have hspells : (escaping long).Spells '"' ['\\', '"'] :=
            spells_escape hescapes (fun _ => rfl) fun _ => rfl
          change (escaping long).Written rest run ('"' :: cs)
            (['\\', '"'] ++ (escapeText long 0 cs ++ ((escaping long).delimiter ++ rest)))
          exact .char hspells (written_escapeText long rest 0 cs)
      · next hc =>
        rw [List.append_assoc]
        exact .char (spells_escapeChar hc) (written_escapeText long rest 0 cs)

theorem le_longestRun (mark : Char) (run : Nat) (cs : List Char) : run ≤ longestRun mark run cs := by
  cases cs with
  | nil => exact Nat.le_refl run
  | cons c cs => exact Nat.le_max_left run _

/-- A text of plain characters without long runs of marks can be written as it is. -/
theorem written_self : ∀ {run : Nat} {cs : List Char}, (∀ c ∈ cs, q.Plain c) →
    longestRun q.mark run cs ≤ q.mostMarks → q.Written rest run cs (cs ++ (q.delimiter ++ rest))
  | _, [], _, _ => .done
  | run, c :: cs, hplain, hrun => by
      obtain ⟨hc, hcs⟩ := List.forall_mem_cons.mp hplain
      have hmore := Nat.le_trans (Nat.le_max_right run _) hrun
      by_cases hmark : c = q.mark
      · rw [if_pos hmark] at hmore
        subst hmark
        have hfew : run < q.mostMarks :=
          Nat.lt_of_lt_of_le (Nat.lt_succ_self run) (Nat.le_trans (le_longestRun _ _ cs) hmore)
        exact .mark hfew (written_self hcs hmore)
      · rw [if_neg hmark] at hmore
        change q.Written rest run (c :: cs) ([c] ++ (cs ++ (q.delimiter ++ rest)))
        exact .char (hc.spells hmark) (written_self hcs hmore)

theorem plain_of_suits {cs : List Char} (h : q.suits cs = true) :
    (∀ c ∈ cs, q.Plain c) ∧ longestRun q.mark 0 cs ≤ q.mostMarks := by
  simp only [suits, Bool.and_eq_true, Bool.not_eq_true', Bool.or_eq_true, decide_eq_true_eq,
    List.any_eq_false] at h
  obtain ⟨⟨⟨hunescaped, hbackslash⟩, hline⟩, hrun⟩ := h
  refine ⟨fun c hc => ⟨?_, ?_, ?_⟩, hrun⟩
  · simpa using hunescaped c hc
  · rintro hescapes rfl
    simp [hescapes, hc] at hbackslash
  · refine hline.imp_right ?_
    rintro hnone rfl
    simp [hc] at hnone

/-- Each form that is chosen can hold the text between its marks. -/
theorem written_enclosed {cs : List Char} (h : q.hasEscapes = true ∨ q.suits cs = true) :
    q.Written rest 0 cs
      ((if q.hasEscapes then escapeText q.isLong 0 cs else cs) ++ (q.delimiter ++ rest)) := by
  cases hescapes : q.hasEscapes with
  | true =>
    have hq : q = escaping q.isLong := by cases q <;> first | rfl | cases hescapes
    have hwritten := written_escapeText q.isLong rest 0 cs
    rwa [← hq] at hwritten
  | false =>
    obtain ⟨hplain, hrun⟩ := plain_of_suits (h.resolve_left (by simp [hescapes]))
    exact written_self hplain hrun

/-- The form that is chosen has escapes or suits the text. -/
theorem choose_suits (cs : List Char) :
    (choose cs).hasEscapes = true ∨ (choose cs).suits cs = true := by
  rw [choose]
  split
  · next q h => exact .inr (List.find?_some (p := fun q : Quoting => q.suits cs) h)
  · left
    split <;> rfl

end Writing

/-! ### Between the marks -/

section Enclosed

variable {q : Quoting} {rest text source : List Char}

theorem delimiter_eq (q : Quoting) : q.delimiter = q.mark :: List.replicate q.mostMarks q.mark := by
  cases q <;> rfl

/-- What is written begins with a line end only if there is one in the text. -/
theorem Written.head (h : q.Written rest 0 text source) :
    ∃ first more, source = first :: more ∧ (first = '\n' → '\n' ∈ text) ∧ first ≠ '\r' := by
  have hmark : q.mark ≠ '\n' ∧ q.mark ≠ '\r' := by cases q <;> decide
  cases h with
  | done =>
    rw [delimiter_eq]
    exact ⟨_, _, rfl, fun h => absurd h hmark.1, hmark.2⟩
  | mark few more => exact ⟨_, _, rfl, fun h => absurd h hmark.1, hmark.2⟩
  | char spells more =>
    cases spells with
    | intro unmarked line unreturned reads =>
      exact ⟨_, _, rfl, fun h => List.mem_cons.mpr (.inl (line h).symm), unreturned⟩

/-- In a short form no two marks stand after the first one. -/
theorem Written.not_marks (h : q.Written rest 0 text source) (hlong : q.isLong = false)
    (hrest : rest.head? ≠ some q.mark) {more : List Char} (hmarks : source = q.mark :: q.mark :: more) :
    False := by
  have hmost : q.mostMarks = 0 := by rw [mostMarks, hlong]; rfl
  cases h with
  | done =>
    rw [delimiter_eq, hmost] at hmarks
    exact hrest (congrArg List.head? (List.cons.inj hmarks).2)
  | mark few _ => omega
  | char spells _ =>
    cases spells with
    | intro unmarked => exact unmarked (List.cons.inj hmarks).1

theorem unquote_short (hlong : q.isLong = false)
    (hmarks : ∀ more, source = q.mark :: q.mark :: more → False) :
    unquote (q.mark :: source) = q.textRest 0 source := by
  cases q with
  | basic => exact unquote.eq_2 source hmarks
  | literal => exact unquote.eq_4 source hmarks
  | longBasic => cases hlong
  | longLiteral => cases hlong

theorem unquote_long (hlong : q.isLong = true) (cs : List Char) :
    unquote (q.delimiter ++ cs) = q.textRest 0 (skipLineEnd cs) := by
  cases q with
  | basic => cases hlong
  | literal => cases hlong
  | longBasic => rfl
  | longLiteral => rfl

theorem skipLineEnd_of_ne {first : Char} (hline : first ≠ '\n') (hreturn : first ≠ '\r')
    (more : List Char) : skipLineEnd (first :: more) = first :: more := by
  rw [skipLineEnd]
  · rintro cs ⟨⟩
    exact hline rfl
  · rintro cs ⟨⟩
    exact hreturn rfl

/-- A text between its marks is read back. -/
theorem unquote_enclose {cs : List Char} (hq : q.hasEscapes = true ∨ q.suits cs = true)
    (hrest : rest.head? ≠ some q.mark) : unquote (q.enclose cs ++ rest) = some (cs, rest) := by
  have hwritten : q.Written rest 0 cs _ := written_enclosed hq
  rw [enclose, List.append_assoc, List.append_assoc, List.append_assoc]
  generalize (if q.hasEscapes then escapeText q.isLong 0 cs else cs) ++ (q.delimiter ++ rest) = source
    at hwritten ⊢
  have hread := hwritten.textRest hrest
  cases hlong : q.isLong with
  | false =>
    have hmost : q.mostMarks = 0 := by rw [mostMarks, hlong]; rfl
    rw [delimiter_eq, hmost]
    change unquote (q.mark :: source) = _
    rw [unquote_short hlong fun _ hmarks => hwritten.not_marks hlong hrest hmarks, hread]
  | true =>
    rw [unquote_long hlong]
    cases hline : cs.contains '\n' with
    | true => exact hread
    | false =>
      obtain ⟨first, more, rfl, hfirst, hreturn⟩ := hwritten.head
      have hnone : first ≠ '\n' := fun h => by simp [hfirst h] at hline
      change q.textRest 0 (skipLineEnd (first :: more)) = _
      rw [skipLineEnd_of_ne hnone hreturn, hread]

end Enclosed

end Quoting

/-- A quoted string begins with a mark. -/
theorem exists_quote_eq_cons (text : String) :
    ∃ mark more, (quote text).toList = mark :: more ∧ (mark = '"' ∨ mark = '\'') := by
  rw [quote, String.toList_ofList, Quoting.enclose, Quoting.delimiter_eq]
  refine ⟨_, _, rfl, ?_⟩
  cases Quoting.choose text.toList
  case basic => exact .inl rfl
  case literal => exact .inr rfl
  case longBasic => exact .inl rfl
  case longLiteral => exact .inr rfl

/-- A quoted string is read back, whatever its characters, before anything but another mark. -/
theorem unquote_quote (text : String) {rest : List Char} (hbasic : rest.head? ≠ some '"')
    (hliteral : rest.head? ≠ some '\'') :
    unquote ((quote text).toList ++ rest) = some (text.toList, rest) := by
  rw [quote, String.toList_ofList]
  refine Quoting.unquote_enclose (Quoting.choose_suits text.toList) ?_
  cases Quoting.choose text.toList
  case basic => exact hbasic
  case literal => exact hliteral
  case longBasic => exact hbasic
  case longLiteral => exact hliteral

end RecordSearch.Toml
