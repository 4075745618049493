import Mathlib.Data.List.Infix
import RecordSearch.Text.Lowercase

/-! Lower-casing of a text that stands within another. What stands around it matters to capital sigmas
    only, of which those that end a word become final ones. So where each of them ends a word within
    the whole just if it does within the text alone, the text is the same in lower case
    (`lower_infix`); and then this holds without the blanks around the text too (`SameWords.trim`). -/

namespace RecordSearch.Text

/-- Whether a capital sigma ends a word, between the text before it, nearest first, and after it. -/
def isFinal (before after : List Char) : Bool := casedNext before && !casedNext after

theorem lowerBetween_sigma (before after : List Char) :
    lowerBetween before 'Σ' after = if isFinal before after then ['ς'] else ['σ'] := rfl

/-- Every capital sigma of a text that stands between others ends a word if and only if it does in the
    text alone. -/
def SameWords (before text after : List Char) : Prop :=
  ∀ xs ys, text = xs ++ 'Σ' :: ys →
    isFinal (xs.reverse ++ before.reverse) (ys ++ after) = isFinal xs.reverse ys

/-! ### A stretch in lower case -/

/-- Lower-casing of a text between the text before it, nearest first, and after it. -/
def lowerWithin (before : List Char) : List Char → List Char → List Char
  | [], _ => []
  | c :: cs, after => lowerBetween before c (cs ++ after) ++ lowerWithin (c :: before) cs after

theorem lowerFrom_append (after : List Char) : ∀ before text : List Char,
    lowerFrom before (text ++ after) =
      lowerWithin before text after ++ lowerFrom (text.reverse ++ before) after
  | _, [] => rfl
  | before, c :: cs => by
      rw [List.cons_append, lowerFrom, lowerWithin, lowerFrom_append after (c :: before) cs,
        List.append_assoc, List.reverse_cons, List.append_assoc]
      rfl

/-- A text in its place is a stretch of the whole in lower case. -/
theorem lowerWithin_infix (before text after : List Char) :
    lowerWithin before.reverse text after <:+: lower (before ++ text ++ after) := by
  rw [lower, List.append_assoc, lowerFrom_append, List.append_nil, lowerFrom_append,
    ← List.append_assoc]
  exact List.infix_append _ _ _

/-- Where the capital sigmas end the same words, a text is the same in lower case in its place and
    alone. What of it was passed already is `seen`. -/
theorem lowerWithin_eq {before after : List Char} : ∀ {seen text : List Char},
    (∀ xs ys, text = xs ++ 'Σ' :: ys →
      isFinal (xs.reverse ++ (seen ++ before)) (ys ++ after) = isFinal (xs.reverse ++ seen) ys) →
    lowerWithin (seen ++ before) text after = lowerFrom seen text
  | _, [], _ => rfl
  | seen, c :: cs, h => by
      have hrest : lowerWithin ((c :: seen) ++ before) cs after = lowerFrom (c :: seen) cs :=
        lowerWithin_eq fun xs ys hcs => by
          simpa [hcs] using h (c :: xs) ys (by rw [hcs, List.cons_append])
      have hfirst : lowerBetween (seen ++ before) c (cs ++ after) = lowerBetween seen c cs := by
        by_cases hsigma : c = 'Σ'
        · -- the only letter whose lower case depends on what stands around it
          subst hsigma
          have hends : isFinal (seen ++ before) (cs ++ after) = isFinal seen cs := h [] cs rfl
          rw [lowerBetween_sigma, lowerBetween_sigma, hends]
        · rw [lowerBetween, lowerBetween, if_neg hsigma, if_neg hsigma]
      rw [lowerWithin, lowerFrom, hfirst, ← List.cons_append, hrest]

/-- A text whose capital sigmas end the same words in its place is contained in the whole, both in
    lower case. -/
theorem lower_infix {before text after : List Char} (h : SameWords before text after) :
    lower text <:+: lower (before ++ text ++ after) := by
  have hends : ∀ xs ys, text = xs ++ 'Σ' :: ys →
      isFinal (xs.reverse ++ ([] ++ before.reverse)) (ys ++ after) = isFinal (xs.reverse ++ []) ys :=
    fun xs ys htext => by simpa using h xs ys htext
  have hsame : lowerWithin before.reverse text after = lower text := lowerWithin_eq hends
  rw [← hsame]
  exact lowerWithin_infix before text after

/-! ### Blanks around a text -/

/-- Whether no range of one list meets one of another. -/
def rangesApart (ranges others : List (Nat × Nat)) : Bool :=
  ranges.all fun r => others.all fun s => Nat.blt r.2 s.1 || Nat.blt s.2 r.1

theorem inRanges_of_apart {ranges others : List (Nat × Nat)} (h : rangesApart ranges others = true)
    {c : Char} (hc : inRanges ranges c = true) : inRanges others c = false := by
  obtain ⟨r, hr, hin⟩ := List.any_eq_true.mp hc
  rw [inRanges, List.any_eq_false]
  intro s hs hother
  have hmiss := List.all_eq_true.mp (List.all_eq_true.mp h r hr) s hs
  simp only [Bool.and_eq_true, Bool.or_eq_true, decide_eq_true_eq, Nat.blt_eq] at hin hother hmiss
  omega

/-- Blanks have no case, and they are not passed over. -/
theorem blank_apart : rangesApart blankRanges casedRanges = true ∧
    rangesApart blankRanges caseIgnorableRanges = true := by decide +kernel

theorem casedNext_of_isBlank {blanks : List Char} (h : ∀ c ∈ blanks, isBlank c = true) :
    casedNext blanks = false := by
  cases blanks with
  | nil => rfl
  | cons c cs =>
    have hc := h c List.mem_cons_self
    have hcased : isCased c = false := inRanges_of_apart blank_apart.1 hc
    have hignorable : isCaseIgnorable c = false := inRanges_of_apart blank_apart.2 hc
    rw [casedNext, List.dropWhile_cons_of_neg (by rw [hignorable]; exact Bool.false_ne_true)]
    exact hcased

/-- Blanks behind a text do not matter to what comes next in it. -/
theorem casedNext_append_blanks {blanks : List Char} (h : ∀ c ∈ blanks, isBlank c = true)
    (text : List Char) : casedNext (text ++ blanks) = casedNext text := by
  induction text with
  | nil => exact casedNext_of_isBlank h
  | cons c cs ih =>
    rw [casedNext, casedNext, List.cons_append, List.dropWhile_cons, List.dropWhile_cons]
    cases isCaseIgnorable c with
    | true => exact ih
    | false => rfl

/-- A blank ends a word just as the end of the text does. -/
theorem isFinal_append_blanks {leading trailing : List Char}
    (hleading : ∀ c ∈ leading, isBlank c = true) (htrailing : ∀ c ∈ trailing, isBlank c = true)
    (before after : List Char) :
    isFinal (before ++ leading.reverse) (after ++ trailing) = isFinal before after := by
  have hblank : ∀ c ∈ leading.reverse, isBlank c = true := fun c hc =>
    hleading c (List.mem_reverse.mp hc)
  rw [isFinal, isFinal, casedNext_append_blanks hblank, casedNext_append_blanks htrailing]

theorem all_of_mem_takeWhile {c : Char} {cs : List Char} (h : c ∈ cs.takeWhile isBlank) :
    isBlank c = true := List.all_eq_true.mp List.all_takeWhile c h

/-- A text is what is left of it without the blanks at its ends, and these blanks. -/
theorem exists_trim (text : List Char) : ∃ leading trailing,
    text = leading ++ trim text ++ trailing ∧ (∀ c ∈ leading, isBlank c = true) ∧
      ∀ c ∈ trailing, isBlank c = true := by
  refine ⟨text.takeWhile isBlank, ((text.dropWhile isBlank).reverse.takeWhile isBlank).reverse, ?_,
    fun c hc => all_of_mem_takeWhile hc, fun c hc => all_of_mem_takeWhile (List.mem_reverse.mp hc)⟩
  rw [trim, trimRight, List.append_assoc, ← List.reverse_append, List.takeWhile_append_dropWhile,
    List.reverse_reverse, List.takeWhile_append_dropWhile]

/-- Without the blanks at its ends a text that ends the same words still does. -/
theorem SameWords.trim {before text after : List Char} (h : SameWords before text after) :
    ∃ before' after', before ++ text ++ after = before' ++ Text.trim text ++ after' ∧
      SameWords before' (Text.trim text) after' := by
  obtain ⟨leading, trailing, htext, hleading, htrailing⟩ := exists_trim text
  refine ⟨before ++ leading, trailing ++ after, ?_, fun xs ys htrim => ?_⟩
  · conv_lhs => rw [htext]
    simp only [List.append_assoc]
  · have hwhole := h (leading ++ xs) (ys ++ trailing) (by
      rw [htext, htrim]
      simp only [List.append_assoc, List.cons_append])
    have halone : isFinal (leading ++ xs).reverse (ys ++ trailing) = isFinal xs.reverse ys := by
      rw [List.reverse_append]
      exact isFinal_append_blanks hleading htrailing xs.reverse ys
    rw [← halone, ← hwhole]
    simp only [List.reverse_append, List.append_assoc]

end RecordSearch.Text
