import Mathlib.Algebra.Order.BigOperators.Group.List
import Mathlib.Algebra.Order.Field.Basic
import RecordSearch.Proofs.Search.Weights
import RecordSearch.Proofs.Text.Containment
import RecordSearch.Proofs.Text.EditDistance
import RecordSearch.Proofs.Text.Words

/-! Scores of similarity. Where edits are counted right (`Measure.Exact`), a word of a term gets from a word
    of the value the share of characters that need no edit, if the two are near (`Near`), and from the
    value the best that one of its words gives. This is one for a word of the value only and zero only if
    all of them are far; and the mean over the words of the term is one, or zero, only if every word has
    this score (`score_mem`). -/

namespace RecordSearch.Search

/-- What counts the edits gives the distance of two words, which is the least number of edits, unless it
    is more than allowed. -/
def Measure.Exact (measure : Measure) : Prop :=
  ∀ word candidate n, measure.distance word candidate = some n ↔
    Text.IsDistance measure.transpositions word candidate n ∧ n ≤ measure.maxDistance

/-- The distances that are computed are right. -/
theorem Measure.exact_edits (maxDistance : Nat) (transpositions : Bool) :
    (edits maxDistance transpositions).Exact := fun _ _ _ => Text.distanceUpTo_eq_some_iff

namespace TermScorer

open Arithmetic

/-! ### Two words -/

/-- A word can be turned into another by no more edits than are allowed and by fewer than the longer of
    the two has characters. -/
def Near (measure : Measure) (word candidate : List Char) : Prop :=
  ∃ n, Text.IsDistance measure.transpositions word candidate n ∧ n ≤ measure.maxDistance ∧
    n < max word.length candidate.length

section Words

variable {measure : Measure} {word candidate : List Char} {n : Nat}

theorem near_self (hword : word ≠ []) : Near measure word word :=
  ⟨0, Text.isDistance_zero.mpr rfl, Nat.zero_le _,
    lt_max_of_lt_left (List.length_pos_iff.mpr hword)⟩

theorem wordScore_of_distance (hn : measure.distance word candidate = some n) :
    (wordScore measure word candidate : Rat) =
      max (1 - (n : Rat) / (max (max word.length candidate.length) 1 : ℕ)) 0 := by
  simp only [wordScore, hn, Comparator.greatest_eq_max]
  rfl

theorem wordScore_of_lt (hn : measure.distance word candidate = some n)
    (hshorter : n < max word.length candidate.length) :
    (wordScore measure word candidate : Rat) =
      1 - (n : Rat) / (max word.length candidate.length : ℕ) := by
  have hlongest : max (max word.length candidate.length) 1 = max word.length candidate.length := by
    omega
  rw [wordScore_of_distance hn, hlongest]
  refine max_eq_left (sub_nonneg.mpr (div_le_one_of_le₀ ?_ (Nat.cast_nonneg _)))
  exact_mod_cast hshorter.le

theorem wordScore_of_le (hword : word ≠ []) (hn : measure.distance word candidate = some n)
    (hfar : max word.length candidate.length ≤ n) :
    (wordScore measure word candidate : Rat) = 0 := by
  have hlength := List.length_pos_iff.mpr hword
  have hlongest : max (max word.length candidate.length) 1 = max word.length candidate.length := by
    omega
  have hpos : (0 : Rat) < (max word.length candidate.length : ℕ) := by
    exact_mod_cast lt_max_of_lt_left hlength
  rw [wordScore_of_distance hn, hlongest]
  refine max_eq_right (sub_nonpos.mpr ((one_le_div hpos).mpr ?_))
  exact_mod_cast hfar

variable (hexact : measure.Exact)

include hexact

theorem wordScore_of_not_near (hword : word ≠ []) (h : ¬ Near measure word candidate) :
    (wordScore measure word candidate : Rat) = 0 := by
  cases hn : measure.distance word candidate with
  | none =>
    simp only [wordScore, hn]
    rfl
  | some n =>
    obtain ⟨hdistance, hallowed⟩ := (hexact word candidate n).mp hn
    exact wordScore_of_le hword hn (not_lt.mp fun hlt => h ⟨n, hdistance, hallowed, hlt⟩)

variable (candidate) in
/-- The score of two words is between zero and one; it is one for equal words only, and zero only for
    words that are not near. -/
theorem wordScore_mem (hword : word ≠ []) :
    (0 : Rat) ≤ wordScore measure word candidate ∧ (wordScore measure word candidate : Rat) ≤ 1 ∧
      ((wordScore measure word candidate : Rat) = 1 ↔ candidate = word) ∧
      ((wordScore measure word candidate : Rat) = 0 ↔ ¬ Near measure word candidate) := by
  by_cases h : Near measure word candidate
  · obtain ⟨n, hdistance, hallowed, hshorter⟩ := h
    have hpos : (0 : Rat) < (max word.length candidate.length : ℕ) := by
      exact_mod_cast (Nat.zero_le _).trans_lt hshorter
    have hshare : (n : Rat) / (max word.length candidate.length : ℕ) < 1 := by
      rw [div_lt_one hpos]
      exact_mod_cast hshorter
    have hnonneg : 0 ≤ (n : Rat) / (max word.length candidate.length : ℕ) :=
      div_nonneg (Nat.cast_nonneg _) hpos.le
    have hzero : n = 0 ↔ candidate = word := by
      constructor
      · rintro rfl
        exact (Text.isDistance_zero.mp hdistance).symm
      · rintro rfl
        exact hdistance.unique (Text.isDistance_zero.mpr rfl)
    rw [wordScore_of_lt ((hexact word candidate n).mpr ⟨hdistance, hallowed⟩) hshorter]
    refine ⟨by linarith, by linarith, ?_, ?_⟩
    · rw [sub_eq_self, div_eq_zero_iff, or_iff_left hpos.ne', Nat.cast_eq_zero, hzero]
    · exact iff_of_false (by linarith) (not_not_intro ⟨n, hdistance, hallowed, hshorter⟩)
  · rw [wordScore_of_not_near hexact hword h]
    refine ⟨le_rfl, zero_le_one, iff_of_false zero_ne_one ?_, iff_of_true rfl h⟩
    rintro rfl
    exact h (near_self hword)

end Words

/-! ### The best word -/

/-- What holds of the greater of two numbers just if it holds of both, holds of the best score just if
    it holds of all. -/
theorem bestWord_iff {P : Rat → Prop} (hmax : ∀ a b, P (max a b) ↔ P a ∧ P b) (measure : Measure)
    (candidates : List (List Char)) (word : List Char) :
    P (bestWord measure candidates word) ↔
      P 0 ∧ ∀ candidate ∈ candidates, P (wordScore measure word candidate) := by
  have hall : ∀ best : Rat, P (candidates.foldl
      (fun best candidate => greatest best (wordScore measure word candidate)) best) ↔
        P best ∧ ∀ candidate ∈ candidates, P (wordScore measure word candidate) := by
    induction candidates with
    | nil => simp
    | cons candidate candidates ih =>
      intro best
      rw [List.foldl_cons, ih, Comparator.greatest_eq_max, hmax, List.forall_mem_cons, and_assoc]
  exact hall 0

theorem bestWord_nonneg (measure : Measure) (candidates : List (List Char)) (word : List Char) :
    (0 : Rat) ≤ bestWord measure candidates word := by
  have hnot := bestWord_iff (P := (· < 0)) (fun a b => max_lt_iff) measure candidates word
  exact not_lt.mp fun hlt => lt_irrefl 0 (hnot.mp hlt).1

section Best

variable {measure : Measure} (hexact : measure.Exact) (candidates : List (List Char))
  {word : List Char}

include hexact

theorem bestWord_le_one (hword : word ≠ []) : (bestWord measure candidates word : Rat) ≤ 1 :=
  (bestWord_iff (P := (· ≤ 1)) (fun _ _ => max_le_iff) measure candidates word).mpr
    ⟨zero_le_one, fun candidate _ => (wordScore_mem candidate hexact hword).2.1⟩

/-- The best score is one only if the word itself is among the candidates. -/
theorem bestWord_eq_one (hword : word ≠ []) :
    (bestWord measure candidates word : Rat) = 1 ↔ word ∈ candidates := by
  have hless := bestWord_iff (P := (· < 1)) (fun _ _ => max_lt_iff) measure candidates word
  constructor
  · intro hone
    by_contra hmem
    refine absurd (hless.mpr ⟨zero_lt_one, fun candidate hcandidate => ?_⟩) (not_lt.mpr hone.ge)
    obtain ⟨-, hle, heq, -⟩ := wordScore_mem candidate hexact hword
    refine lt_of_le_of_ne hle fun hone => hmem ?_
    rwa [← heq.mp hone]
  · intro hmem
    refine le_antisymm (bestWord_le_one hexact candidates hword) (not_lt.mp fun hlt => ?_)
    obtain ⟨-, -, hself, -⟩ := wordScore_mem word hexact hword
    exact ((hless.mp hlt).2 word hmem).ne (hself.mpr rfl)

/-- The best score is zero only if no candidate is near. -/
theorem bestWord_eq_zero (hword : word ≠ []) : (bestWord measure candidates word : Rat) = 0 ↔
    ∀ candidate ∈ candidates, ¬ Near measure word candidate := by
  have hle := bestWord_iff (P := (· ≤ 0)) (fun _ _ => max_le_iff) measure candidates word
  constructor
  · intro hzero candidate hcandidate
    obtain ⟨hnonneg, -, -, hfar⟩ := wordScore_mem candidate hexact hword
    exact hfar.mp (le_antisymm ((hle.mp hzero.le).2 candidate hcandidate) hnonneg)
  · intro hfar
    refine le_antisymm (hle.mpr ⟨le_rfl, fun candidate hcandidate => ?_⟩)
      (bestWord_nonneg measure candidates word)
    obtain ⟨-, -, -, hzero⟩ := wordScore_mem candidate hexact hword
    exact (hzero.mpr (hfar candidate hcandidate)).le

end Best

/-! ### Means -/

section Means

variable {xs : List Rat}

theorem sum_eq (xs : List Rat) : Arithmetic.sum xs = xs.sum := by
  have hzero : -(zero : Rat) = 0 := neg_zero
  rw [Arithmetic.sum, hzero, ← List.sum_eq_foldl]

theorem sum_eq_zero (h : ∀ x ∈ xs, 0 ≤ x) : xs.sum = 0 ↔ ∀ x ∈ xs, x = 0 := by
  induction xs with
  | nil => simp
  | cons x xs ih =>
    obtain ⟨hx, hxs⟩ := List.forall_mem_cons.mp h
    rw [List.sum_cons, add_eq_zero_iff_of_nonneg hx (List.sum_nonneg hxs), ih hxs,
      List.forall_mem_cons]

/-- What a sum is short of the number of its terms is what each term is short of one. -/
theorem sum_shortfall (xs : List Rat) : (xs.map fun x => 1 - x).sum = xs.length - xs.sum := by
  induction xs with
  | nil => simp
  | cons x xs ih =>
    rw [List.map_cons, List.sum_cons, List.sum_cons, ih, List.length_cons]
    push_cast
    ring

/-- The mean of numbers between zero and one is between them too, and is one of them only if every
    number is. -/
theorem mean_mem (hne : xs ≠ []) (hnonneg : ∀ x ∈ xs, 0 ≤ x) (hle : ∀ x ∈ xs, x ≤ 1) :
    0 ≤ xs.sum / xs.length ∧ xs.sum / xs.length ≤ 1 ∧
      (xs.sum / xs.length = 1 ↔ ∀ x ∈ xs, x = 1) ∧ (xs.sum / xs.length = 0 ↔ ∀ x ∈ xs, x = 0) := by
  have hlength : (0 : Rat) < xs.length := by exact_mod_cast List.length_pos_iff.mpr hne
  have hshort : ∀ y ∈ xs.map fun x => 1 - x, 0 ≤ y := by
    rintro y hy
    obtain ⟨x, hx, rfl⟩ := List.mem_map.mp hy
    exact sub_nonneg.mpr (hle x hx)
  have hshortfall := sum_shortfall xs
  refine ⟨div_nonneg (List.sum_nonneg hnonneg) hlength.le, ?_, ?_, ?_⟩
  · rw [div_le_one hlength]
    linarith [List.sum_nonneg hshort]
  · rw [div_eq_one_iff_eq hlength.ne', eq_comm, ← sub_eq_zero, ← hshortfall, sum_eq_zero hshort,
      List.forall_mem_map]
    exact forall₂_congr fun x _ => sub_eq_zero.trans eq_comm
  · rw [div_eq_zero_iff, or_iff_left hlength.ne', sum_eq_zero hnonneg]

end Means

/-! ### Texts -/

/-- A value matches a term beyond doubt: the term is blank, the value contains it, or each of its words
    is a word of the value, letter case aside. -/
def Matches (term value : String) : Prop :=
  Text.isBlankText term.toList = true ∨
    Text.lower (Text.trim term.toList) <:+: Text.lower value.toList ∨
    ∀ word ∈ Text.words (Text.lower term.toList), word ∈ Text.words (Text.lower value.toList)

/-- The scores of the words of a term. -/
def wordScores (measure : Measure) (term value : String) : List Rat :=
  (Text.words (Text.lower term.toList)).map
    (bestWord measure (Text.words (Text.lower value.toList)))

theorem score_eq (measure : Measure) (term value : String) :
    ((of measure term).score value : Rat) =
      if Text.isBlankText term.toList = true ∨
        Text.lower (Text.trim term.toList) <:+: Text.lower value.toList then 1
      else (wordScores measure term value).sum / (wordScores measure term value).length := by
  have hblank : (Text.words (Text.lower term.toList)).isEmpty = Text.isBlankText term.toList := by
    rw [Bool.eq_iff_iff, List.isEmpty_iff, Text.words_lower_eq_nil]
  simp only [score, of, Text.words_lower_trim, hblank]
  split
  · next h => exact (if_pos (.inl h)).symm
  · next h =>
    split
    · next hcontains => exact (if_pos (.inr (Text.contains_iff.mp hcontains))).symm
    · next hcontains =>
      rw [if_neg (not_or.mpr ⟨h, fun hinfix => hcontains (Text.contains_iff.mpr hinfix)⟩), sum_eq,
        wordScores, List.length_map]
      rfl

section Exact

variable {measure : Measure} (hexact : measure.Exact)

include hexact

theorem wordScores_mem {term : String} (value : String)
    (hterm : Text.isBlankText term.toList = false) :
    let scores := wordScores measure term value
    scores ≠ [] ∧ (∀ x ∈ scores, 0 ≤ x) ∧ (∀ x ∈ scores, x ≤ 1) ∧
      ((∀ x ∈ scores, x = 1) ↔
        ∀ word ∈ Text.words (Text.lower term.toList), word ∈ Text.words (Text.lower value.toList)) ∧
      ((∀ x ∈ scores, x = 0) ↔ ∀ word ∈ Text.words (Text.lower term.toList),
        ∀ candidate ∈ Text.words (Text.lower value.toList), ¬ Near measure word candidate) := by
  intro scores
  have hword {word : List Char} (h : word ∈ Text.words (Text.lower term.toList)) : word ≠ [] :=
    Text.ne_nil_of_mem_segments h
  refine ⟨?_, ?_, ?_, ?_, ?_⟩
  · intro hnil
    rw [Text.words_lower_eq_nil.mp (List.map_eq_nil_iff.mp hnil)] at hterm
    cases hterm
  · exact List.forall_mem_map.mpr fun word _ => bestWord_nonneg measure _ word
  · exact List.forall_mem_map.mpr fun word h => bestWord_le_one hexact _ (hword h)
  · exact List.forall_mem_map.trans (forall₂_congr fun word h => bestWord_eq_one hexact _ (hword h))
  · exact List.forall_mem_map.trans (forall₂_congr fun word h => bestWord_eq_zero hexact _ (hword h))

/-- Where edits are counted right, the score is between zero and one. It is one only for values that match
    the term, and zero only for others with no word near a word of the term. -/
theorem score_mem (term value : String) :
    let score : Rat := (of measure term).score value
    0 ≤ score ∧ score ≤ 1 ∧ (score = 1 ↔ Matches term value) ∧
      (score = 0 ↔ ¬ Matches term value ∧
        ∀ word ∈ Text.words (Text.lower term.toList),
          ∀ candidate ∈ Text.words (Text.lower value.toList), ¬ Near measure word candidate) := by
  intro score
  have hscore : score = _ := score_eq measure term value
  split at hscore
  · next h =>
    have hmatches : Matches term value := h.elim .inl fun h => .inr (.inl h)
    rw [hscore]
    exact ⟨zero_le_one, le_rfl, iff_of_true rfl hmatches,
      iff_of_false one_ne_zero fun h => h.1 hmatches⟩
  · next h =>
    obtain ⟨hblank, hcontains⟩ := not_or.mp h
    have hmatches : Matches term value ↔ ∀ word ∈ Text.words (Text.lower term.toList),
        word ∈ Text.words (Text.lower value.toList) := by
      rw [Matches, or_iff_right hblank, or_iff_right hcontains]
    obtain ⟨hne, hnonneg, hle, hone, hzero⟩ :=
      wordScores_mem hexact value (Bool.eq_false_iff.mpr hblank)
    obtain ⟨hmean_nonneg, hmean_le, hmean_one, hmean_zero⟩ := mean_mem hne hnonneg hle
    rw [← hscore] at hmean_nonneg hmean_le hmean_one hmean_zero
    have hscore_one : score = 1 ↔ Matches term value := by rw [hmean_one, hone, hmatches]
    refine ⟨hmean_nonneg, hmean_le, hscore_one, ?_⟩
    rw [← hscore_one, ← hzero, ← hmean_zero]
    exact ⟨fun h => ⟨by rw [h]; exact zero_ne_one, h⟩, And.right⟩

end Exact

/-- One word of the term is a word of the value, and the other lacks one letter of six. -/
theorem score_mem_falcon :
    let measure : Measure := .edits 2 true
    let score : Rat := (of measure "heavy falcn").score "Falcon Heavy"
    measure.Exact ∧ score = 11 / 12 ∧ 0 ≤ score ∧ score ≤ 1 ∧
      ¬ Matches "heavy falcn" "Falcon Heavy" ∧
      ∃ word ∈ Text.words (Text.lower "heavy falcn".toList),
        ∃ candidate ∈ Text.words (Text.lower "Falcon Heavy".toList), Near measure word candidate := by
  intro measure score
  have hexact : measure.Exact := Measure.exact_edits 2 true
  have hvalue : score = 11 / 12 := by decide +kernel
  obtain ⟨hnonneg, hle, hone, hzero⟩ := score_mem hexact "heavy falcn" "Falcon Heavy"
  have hmatches : ¬ Matches "heavy falcn" "Falcon Heavy" := by
    rw [← hone]
    exact fun h => absurd (hvalue.symm.trans h) (by norm_num)
  refine ⟨hexact, hvalue, hnonneg, hle, hmatches, ?_⟩
  by_contra hfar
  push Not at hfar
  exact absurd (hvalue.symm.trans (hzero.mpr ⟨hmatches, hfar⟩)) (by norm_num)

end TermScorer

end RecordSearch.Search
