import RecordSearch.Proofs.Text.Lowercase
import RecordSearch.Proofs.Text.Within

/-! The words of a text in lower case. Lower-casing changes no blank and makes none, and blanks do not
    matter to what stands between them; so the words are the same if the blanks at the ends of a text
    are dropped first (`words_lower_trim`), and only a blank text has none (`words_lower_eq_nil`). -/

namespace RecordSearch.Text

/-! ### Pieces -/

section Pieces

variable {isSeparator : Char → Bool} {c : Char}

/-- At a separator a text is cut, and the text after it on its own. -/
theorem pieces_append (hc : isSeparator c = true) (as bs : List Char) :
    pieces isSeparator (as ++ c :: bs) = pieces isSeparator as ++ pieces isSeparator bs := by
  induction as with
  | nil => simp [pieces, hc]
  | cons a as ih =>
    rw [List.cons_append, pieces, pieces, ih]
    split
    · rfl
    · cases hpieces : pieces isSeparator as with
      | nil => exact absurd hpieces (pieces_ne_nil isSeparator as)
      | cons => rfl

theorem segments_append (hc : isSeparator c = true) (as bs : List Char) :
    segments isSeparator (as ++ c :: bs) = segments isSeparator as ++ segments isSeparator bs := by
  rw [segments, pieces_append hc, List.filter_append]
  rfl

/-- Separators at the ends of a text leave the segments as they are. -/
theorem segments_around {before after : List Char} (hbefore : ∀ c ∈ before, isSeparator c = true)
    (hafter : ∀ c ∈ after, isSeparator c = true) (cs : List Char) :
    segments isSeparator (before ++ cs ++ after) = segments isSeparator cs := by
  have hnil : segments isSeparator [] = [] := rfl
  induction before with
  | cons c before ih =>
    rw [← ih fun d hd => hbefore d (List.mem_cons_of_mem c hd)]
    exact segments_append (hbefore c List.mem_cons_self) [] _
  | nil =>
    rw [List.nil_append]
    induction after generalizing cs with
    | nil => rw [List.append_nil]
    | cons c after ih =>
      have hrest := ih (fun d hd => hafter d (List.mem_cons_of_mem c hd)) []
      rw [segments_append (hafter c List.mem_cons_self), ← List.nil_append after, hrest, hnil,
        List.append_nil]

theorem segments_eq_nil {cs : List Char} :
    segments isSeparator cs = [] ↔ ∀ c ∈ cs, isSeparator c = true := by
  constructor
  · intro h
    induction cs with
    | nil => nofun
    | cons c cs ih =>
      cases hc : isSeparator c with
      | true =>
        have hrest : segments isSeparator (c :: cs) = segments isSeparator cs :=
          segments_append hc [] cs
        rw [hrest] at h
        exact List.forall_mem_cons.mpr ⟨hc, ih h⟩
      | false =>
        rw [segments, pieces, hc, if_neg Bool.false_ne_true] at h
        split at h <;> simp at h
  · intro h
    have hall : segments isSeparator (cs ++ [] ++ []) = segments isSeparator [] :=
      segments_around h (List.forall_mem_nil _) []
    rwa [List.append_nil, List.append_nil] at hall

theorem ne_nil_of_mem_segments {cs segment : List Char} (h : segment ∈ segments isSeparator cs) :
    segment ≠ [] := by
  rintro rfl
  exact absurd (List.mem_filter.mp h).2 (by decide)

end Pieces

/-! ### Blanks in lower case -/

theorem isSettled_of_isBlank {c : Char} (h : isBlank c = true) : IsSettled c := by
  have hapart : rangesApart blankRanges (capitalRuns.map fun run => (run.first, run.last)) = true := by
    decide +kernel
  intro run hrun
  rw [Bool.eq_false_iff]
  intro hholds
  obtain ⟨hfirst, hlast, -⟩ := CaseRun.holds_iff.mp hholds
  have hmiss := inRanges_of_apart hapart h
  refine List.any_eq_false.mp hmiss _ (List.mem_map_of_mem hrun) ?_
  rw [Bool.and_eq_true, decide_eq_true_iff, decide_eq_true_iff]
  exact ⟨hfirst, hlast⟩

theorem not_isBlank_target {run : CaseRun} {c : Char} (hrun : run ∈ lowerRuns)
    (hc : run.holds c = true) : isBlank (Char.ofNat (run.target c.toNat)) = false := by
  have hapart : rangesApart (lowerRuns.map fun run => (run.target run.first, run.target run.last))
      blankRanges = true := by decide +kernel
  have hall := List.all_eq_true.mp avoids_capitals run hrun
  rw [Bool.and_eq_true] at hall
  obtain ⟨hfirst, hlast, -⟩ := CaseRun.holds_iff.mp hc
  refine inRanges_of_apart hapart (List.any_eq_true.mpr ⟨_, List.mem_map_of_mem hrun, ?_⟩)
  rw [CaseRun.toNat_target hc hall.1, Bool.and_eq_true, decide_eq_true_iff, decide_eq_true_iff]
  simp only [CaseRun.target]
  omega

/-- Only a blank becomes a blank. -/
theorem isBlank_of_mem_lowerChar {c d : Char} (hd : d ∈ lowerChar c) (hblank : isBlank d = true) :
    isBlank c = true := by
  rw [lowerChar] at hd
  split at hd
  · next hascii =>
    have hall : ∀ n < 0x80, isBlank (Char.ofNat n).toLower = isBlank (Char.ofNat n) := by decide
    have hsame := hall c.toNat hascii
    rw [Char.ofNat_toNat] at hsame
    rwa [← hsame, ← List.mem_singleton.mp hd]
  · split at hd
    · have hletters : isBlank 'i' = false ∧ isBlank '\u0307' = false := by decide
      simp only [List.mem_cons, List.not_mem_nil, or_false] at hd
      rcases hd with rfl | rfl
      · rw [hletters.1] at hblank
        cases hblank
      · rw [hletters.2] at hblank
        cases hblank
    · cases hfind : lowerRuns.find? (·.holds c) with
      | some run =>
        rw [hfind, List.mem_singleton] at hd
        have hholds : run.holds c = true := List.find?_some (p := fun r : CaseRun => r.holds c) hfind
        have hmiss := not_isBlank_target (List.mem_of_find?_eq_some hfind) hholds
        rw [hd] at hblank
        exact absurd (hmiss.symm.trans hblank) Bool.false_ne_true
      | none =>
        rw [hfind, List.mem_singleton] at hd
        rwa [← hd]

theorem isBlank_of_mem_lowerBetween {before after : List Char} {c d : Char}
    (hd : d ∈ lowerBetween before c after) (hblank : isBlank d = true) : isBlank c = true := by
  have hsigmas : isBlank 'ς' = false ∧ isBlank 'σ' = false := by decide
  rw [lowerBetween] at hd
  split at hd
  · split at hd
    · rw [List.mem_singleton.mp hd, hsigmas.1] at hblank
      cases hblank
    · rw [List.mem_singleton.mp hd, hsigmas.2] at hblank
      cases hblank
  · exact isBlank_of_mem_lowerChar hd hblank

theorem lowerBetween_ne_nil (before after : List Char) (c : Char) : lowerBetween before c after ≠ [] := by
  rw [lowerBetween, lowerChar]
  split
  · split <;> simp
  · split
    · simp
    · split
      · simp
      · split <;> simp

theorem lowerBetween_subset {c : Char} : ∀ {cs : List Char} (seen : List Char), c ∈ cs →
    ∃ before after, lowerBetween before c after ⊆ lowerFrom seen cs
  | d :: cs, seen, hc => by
    rw [lowerFrom]
    rcases List.mem_cons.mp hc with rfl | hc
    · exact ⟨seen, cs, List.subset_append_left _ _⟩
    · obtain ⟨before, after, hsubset⟩ := lowerBetween_subset (d :: seen) hc
      exact ⟨before, after, List.subset_append_of_subset_right _ hsubset⟩

theorem all_isBlank_lower {cs : List Char} :
    (∀ c ∈ lower cs, isBlank c = true) ↔ ∀ c ∈ cs, isBlank c = true := by
  constructor
  · intro h c hc
    obtain ⟨before, after, hsubset⟩ := lowerBetween_subset [] hc
    obtain ⟨d, hd⟩ := List.exists_mem_of_ne_nil _ (lowerBetween_ne_nil before after c)
    exact isBlank_of_mem_lowerBetween hd (h d (hsubset hd))
  · intro h
    have hsame : lower cs = cs := lowerFrom_of_isSettled [] fun c hc => isSettled_of_isBlank (h c hc)
    rwa [hsame]

/-! ### Words -/

theorem lowerWithin_of_isSettled (after : List Char) : ∀ {cs : List Char} (before : List Char),
    (∀ c ∈ cs, IsSettled c) → lowerWithin before cs after = cs
  | [], _, _ => rfl
  | c :: cs, before, h => by
    have hrest := lowerWithin_of_isSettled after (c :: before) fun d hd =>
      h d (List.mem_cons_of_mem c hd)
    rw [lowerWithin, lowerBetween_of_isSettled (h c List.mem_cons_self), hrest]
    rfl

/-- Between blanks a text is the same in lower case as alone. -/
theorem lower_around {leading trailing : List Char} (hleading : ∀ c ∈ leading, isBlank c = true)
    (htrailing : ∀ c ∈ trailing, isBlank c = true) (text : List Char) :
    lower (leading ++ text ++ trailing) = leading ++ lower text ++ trailing := by
  have hends : ∀ xs ys, text = xs ++ 'Σ' :: ys →
      isFinal (xs.reverse ++ ([] ++ leading.reverse)) (ys ++ trailing) =
        isFinal (xs.reverse ++ []) ys := by
    intro xs ys _
    rw [List.nil_append, List.append_nil]
    exact isFinal_append_blanks hleading htrailing xs.reverse ys
  have htext : lowerWithin ([] ++ leading.reverse) text trailing = lowerFrom [] text :=
    lowerWithin_eq hends
  rw [List.nil_append] at htext
  have hfirst := lowerWithin_of_isSettled (text ++ trailing) [] fun c hc =>
    isSettled_of_isBlank (hleading c hc)
  have hlast := lowerFrom_of_isSettled (text.reverse ++ leading.reverse) fun c hc =>
    isSettled_of_isBlank (htrailing c hc)
  rw [lower, List.append_assoc, lowerFrom_append, List.append_nil, lowerFrom_append, hfirst, htext,
    hlast, List.append_assoc]
  rfl

theorem words_lower_trim (text : List Char) : words (lower (trim text)) = words (lower text) := by
  obtain ⟨leading, trailing, htext, hleading, htrailing⟩ := exists_trim text
  conv_rhs => rw [htext]
  rw [lower_around hleading htrailing, words, words, segments_around hleading htrailing]

theorem words_lower_eq_nil {text : List Char} : words (lower text) = [] ↔ isBlankText text = true := by
  rw [words, segments_eq_nil, all_isBlank_lower, isBlankText, List.all_eq_true]

end RecordSearch.Text
