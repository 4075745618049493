import RecordSearch.Proofs.Parsing.Blame
import RecordSearch.Proofs.Parsing.Typed
import RecordSearch.Query.Highlight

/-! Where an error is shown. What stands before a token of a query is a whole number of characters, and
    an error is about a token or about the end of the query (`exists_split_of_error`). So a query that
    is refused has a report, and the caret in it stands below the same character as that of the pointer
    (`compile_error_caret`). -/

namespace RecordSearch.Query

/-! ### Characters before an offset -/

theorem textBefore_cons (n : Nat) (c : Char) (cs : List Char) :
    textBefore (c.utf8Size + n) (c :: cs) = (textBefore n cs).map (c :: ·) := by
  obtain ⟨k, hk⟩ : ∃ k, c.utf8Size = k + 1 := Nat.exists_eq_add_of_lt c.utf8Size_pos |>.imp (by omega)
  have hsum : c.utf8Size + n = k + n + 1 := by omega
  have hrest : k + n + 1 - c.utf8Size = n := by omega
  rw [hsum, textBefore, if_pos (by omega), hrest]

theorem charactersBefore_cons (n : Nat) (c : Char) (cs : List Char) :
    charactersBefore (c.utf8Size + n) (c :: cs) = charactersBefore n cs + 1 := by
  have hpositive := c.utf8Size_pos
  rw [charactersBefore, if_neg (by omega), Nat.add_sub_cancel_left]

/-- There is a text before the offset that a text ends at. -/
theorem textBefore_byteLength (before after : List Char) :
    textBefore (Text.byteLength before) (before ++ after) = some before := by
  induction before with
  | nil => cases after <;> rfl
  | cons c before ih => rw [byteLength_cons, List.cons_append, textBefore_cons, ih, Option.map_some]

theorem charactersBefore_byteLength (before after : List Char) :
    charactersBefore (Text.byteLength before) (before ++ after) = before.length := by
  induction before with
  | nil => cases after <;> rfl
  | cons c before ih =>
    rw [byteLength_cons, List.cons_append, charactersBefore_cons, ih, List.length_cons]

/-! ### Offsets of errors -/

/-- A token begins where a character of the query does. -/
theorem exists_split_of_mem_tokenize {query : String} {token : Token} (h : token ∈ tokenize query) :
    ∃ before after, query.toList = before ++ after ∧ token.position = Text.byteLength before ∧
      after ≠ [] := by
  obtain ⟨_, _, before, source, rest, htext, hplace, hstands⟩ := exists_writtenAt h
  obtain ⟨c, cs, rfl, -⟩ := hstands.first
  exact ⟨before, c :: cs ++ rest, htext, hplace.symm, List.cons_ne_nil _ _⟩

/-- The error of a refused query is about a character of it or about its end. -/
theorem exists_split_of_error {query : String} {e : ParseError}
    (h : parseStrict (tokenize query) = .error e) :
    ∃ before after, query.toList = before ++ after ∧
      (⟨e, query⟩ : QueryError).position = Text.byteLength before ∧
      (e.position = none ↔ after = []) := by
  obtain ⟨t, ht⟩ | ⟨e', k, he, hblames⟩ := parseStrict_error (tokenize query)
  · rw [h] at ht
    cases ht
  · obtain rfl : e = e' := Except.error.inj (h.symm.trans he)
    have hposition := hblames.position
    cases htoken : (tokenize query)[k]? with
    | none =>
      rw [htoken, Option.map_none] at hposition
      refine ⟨query.toList, [], (List.append_nil _).symm, ?_, iff_of_true hposition rfl⟩
      rw [QueryError.position, hposition, Option.getD_none]
    | some token =>
      rw [htoken, Option.map_some] at hposition
      obtain ⟨before, after, htext, hplace, hafter⟩ :=
        exists_split_of_mem_tokenize (List.mem_of_getElem? htoken)
      refine ⟨before, after, htext, ?_, iff_of_false (by simp [hposition]) hafter⟩
      rw [QueryError.position, hposition, Option.getD_some, hplace]

/-! ### Carets -/

theorem parseStrict_of_compile_error {query : String} {e : QueryError}
    (h : compile false query = .error e) :
    parseStrict (tokenize query) = .error e.error ∧ e.query = query := by
  simp only [compile, Bool.false_eq_true, if_false] at h
  cases hparse : parseStrict (tokenize query) with
  | ok t => rw [hparse] at h; cases h
  | error cause => rw [hparse] at h; cases h; exact ⟨rfl, rfl⟩

/-- The error of a query that is refused is about one of its characters or about its end. It has a
    report, and below the query there are as many blanks before the caret in this and in the pointer as
    there are characters before the error. -/
theorem compile_error_caret {query : String} {e : QueryError} (h : compile false query = .error e) :
    ∃ before after, query.toList = before ++ after ∧ e.position = Text.byteLength before ∧
      (e.error.position = none ↔ after = []) ∧
      e.report = some ("query syntax error: " ++ e.error.message ++ "\n  " ++ query ++ "\n  "
        ++ Text.blanks before.length ++ "^" ++ e.hintLine) ∧
      errorPointer query e.position =
        query ++ "\n" ++ Text.blanks before.length ++ Text.Style.red.paint "^" := by
  obtain ⟨hparse, hquery⟩ := parseStrict_of_compile_error h
  obtain ⟨before, after, htext, hposition, hend⟩ := exists_split_of_error hparse
  rw [← hquery] at hposition htext ⊢
  refine ⟨before, after, htext, hposition, hend, ?_, ?_⟩
  · have hle : e.position ≤ Text.byteLength e.query.toList := by
      rw [hposition, htext, byteLength_append]
      exact Nat.le_add_right _ _
    rw [QueryError.report, Nat.min_eq_left hle, hposition, htext, textBefore_byteLength]
    rfl
  · rw [errorPointer, hposition, htext, charactersBefore_byteLength]

/-- A parenthesis that nothing opened, after a wide blank and a text in quotes: it stands at the 14th byte,
    and the caret after 8 blanks. -/
theorem compile_error_caret_wide :
    ∃ e, compile false "é\u00a0\"日 本\" )" = .error e ∧ e.position = 14 ∧
      e.report = some ("query syntax error: " ++ e.error.message ++ "\n  " ++ "é\u00a0\"日 本\" )" ++ "\n  "
        ++ Text.blanks 8 ++ "^" ++ e.hintLine) ∧
      errorPointer "é\u00a0\"日 本\" )" e.position =
        "é\u00a0\"日 本\" )" ++ "\n" ++ Text.blanks 8 ++ Text.Style.red.paint "^" := by
  have hoffset : ((compile false "é\u00a0\"日 本\" )").map fun _ => ()).mapError QueryError.position =
      .error 14 := by decide +kernel
  cases herror : compile false "é\u00a0\"日 本\" )" with
  | ok t =>
    rw [herror] at hoffset
    cases hoffset
  | error e =>
    rw [herror] at hoffset
    have hposition : e.position = 14 := Except.error.inj hoffset
    obtain ⟨before, after, htext, hplace, -, hreport, hpointer⟩ := compile_error_caret herror
    have hlength : before.length = 8 := by
      rw [← charactersBefore_byteLength before after, ← htext, ← hplace, hposition]
      decide +kernel
    rw [hlength] at hreport hpointer
    exact ⟨e, rfl, hposition, hreport, hpointer⟩

end RecordSearch.Query
