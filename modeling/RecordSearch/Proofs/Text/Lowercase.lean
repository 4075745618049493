import Mathlib.Data.List.Basic
import RecordSearch.Text.Lowercase

/-! Lower-casing twice is lower-casing once. No run of capitals is moved into another run
    (`avoids_capitals`), so what lower-casing gives holds no capital any more and stays as it is. -/

namespace RecordSearch.Text

/-! ### Runs of capitals -/

/-- The characters that lower-casing changes. -/
def capitalRuns : List CaseRun := ⟨0x130, 0x130, 1, 0⟩ :: lowerRuns

namespace CaseRun

/-- Where a run moves a code point to. -/
def target (run : CaseRun) (n : Nat) : Nat := (n + run.shift).toNat

/-- Whether a run has no character among every `step`-th one from the first to the last. -/
def misses (run : CaseRun) (first last step : Nat) : Bool :=
  Nat.blt last run.first || Nat.blt run.last first ||
  (run.step == 2 && (step == 2 || first == last) && (first + run.first) % 2 == 1)

/-- Whether a run moves its characters to characters. -/
def isClosed (run : CaseRun) : Bool :=
  decide (0 ≤ run.first + run.shift) && Nat.blt (run.target run.last) 0x110000 &&
    (Nat.blt (run.target run.last) 0xD800 || Nat.blt 0xDFFF (run.target run.first))

/-- Whether no character of a run is moved into one of the given runs. -/
def avoids (run : CaseRun) (others : List CaseRun) : Bool :=
  others.all (misses · (run.target run.first) (run.target run.last) run.step)

variable {run other : CaseRun} {c d : Char}

theorem holds_iff : run.holds c = true ↔
    run.first ≤ c.toNat ∧ c.toNat ≤ run.last ∧ (c.toNat - run.first) % run.step = 0 := by
  rw [holds, Bool.and_eq_true, Bool.and_eq_true, decide_eq_true_iff, decide_eq_true_iff,
    beq_iff_eq, and_assoc]

theorem toNat_target (hc : run.holds c = true) (hclosed : run.isClosed = true) :
    (Char.ofNat (run.target c.toNat)).toNat = run.target c.toNat := by
  obtain ⟨hfirst, hlast, -⟩ := holds_iff.mp hc
  simp only [isClosed, target, Bool.and_eq_true, Bool.or_eq_true, decide_eq_true_eq,
    Nat.blt_eq] at hclosed
  have hvalid : (run.target c.toNat).isValidChar := by
    rw [Nat.isValidChar, target]
    omega
  rw [Char.ofNat, dif_pos hvalid]
  rfl

theorem not_holds_of_misses (hc : run.holds c = true) (hclosed : run.isClosed = true)
    (hd : d.toNat = run.target c.toNat)
    (h : other.misses (run.target run.first) (run.target run.last) run.step = true) :
    other.holds d = false := by
  obtain ⟨hfirst, hlast, hstep⟩ := holds_iff.mp hc
  simp only [isClosed, Bool.and_eq_true, decide_eq_true_eq] at hclosed
  rw [Bool.eq_false_iff]
  intro hholds
  obtain ⟨hfirst', hlast', hstep'⟩ := holds_iff.mp hholds
  simp only [misses, target, Bool.and_eq_true, Bool.or_eq_true, Nat.blt_eq, beq_iff_eq] at h hd
  rcases h with (hbehind | hbefore) | ⟨⟨htwo, htwo' | hsingle⟩, hodd⟩
  · omega
  · omega
  · -- both take every second character, and they start an odd number of places apart
    rw [htwo] at hstep'
    rw [htwo'] at hstep
    omega
  · rw [htwo] at hstep'
    omega

end CaseRun

theorem avoids_capitals :
    (lowerRuns.all fun run => run.isClosed && run.avoids capitalRuns) = true := by decide +kernel

/-! ### Characters that stay -/

/-- A character that lower-casing leaves alone. -/
def IsSettled (c : Char) : Prop := ∀ run ∈ capitalRuns, run.holds c = false

instance (c : Char) : Decidable (IsSettled c) := inferInstanceAs (Decidable (∀ _ ∈ _, _))

/-- The letters that lower-casing knows by themselves, first those that it gives. -/
theorem isSettled_letters : (IsSettled 'ς' ∧ IsSettled 'σ' ∧ IsSettled 'i' ∧ IsSettled '\u0307') ∧
    ¬ IsSettled 'Σ' ∧ ¬ IsSettled 'İ' := by decide +kernel

/-- What a run moves stays where it is moved to. -/
theorem isSettled_target {run : CaseRun} {c : Char} (hrun : run ∈ lowerRuns)
    (hc : run.holds c = true) : IsSettled (Char.ofNat (run.target c.toNat)) := by
  intro other hother
  have hall := List.all_eq_true.mp avoids_capitals run hrun
  rw [Bool.and_eq_true] at hall
  obtain ⟨hclosed, havoids⟩ := hall
  have hmisses := List.all_eq_true.mp havoids other hother
  exact CaseRun.not_holds_of_misses hc hclosed (CaseRun.toNat_target hc hclosed) hmisses

/-- The capitals of ASCII are the first run, and the others lie behind. -/
theorem isSettled_of_ascii {c : Char} (h : c.toNat < 0x80)
    (hupper : ¬ (65 ≤ c.toNat ∧ c.toNat ≤ 90)) : IsSettled c := by
  have hfar : ∀ run ∈ capitalRuns, run.first = 65 ∧ run.last = 90 ∨ 0x80 ≤ run.first := by
    decide +kernel
  intro run hrun
  rw [Bool.eq_false_iff]
  intro hholds
  obtain ⟨hfirst, hlast, -⟩ := CaseRun.holds_iff.mp hholds
  have hrun := hfar run hrun
  omega

theorem isSettled_toLower {c : Char} (h : c.toNat < 0x80) : IsSettled c.toLower := by
  by_cases hupper : 65 ≤ c.toNat ∧ c.toNat ≤ 90
  · have hall : ∀ n < 0x80, 65 ≤ n ∧ n ≤ 90 → (Char.ofNat n).toLower.toNat = n + 32 := by decide
    have hlower := hall c.toNat h hupper
    rw [Char.ofNat_toNat] at hlower
    refine isSettled_of_ascii ?_ ?_ <;> omega
  · have hlower : c.toLower = c := dif_neg hupper
    rw [hlower]
    exact isSettled_of_ascii h hupper

theorem lowerBetween_of_isSettled {c : Char} (h : IsSettled c) (before after : List Char) :
    lowerBetween before c after = [c] := by
  obtain ⟨-, hcapitals⟩ := isSettled_letters
  have hsigma : c ≠ 'Σ' := by
    rintro rfl
    exact hcapitals.1 h
  have hdotted : c ≠ 'İ' := by
    rintro rfl
    exact hcapitals.2 h
  rw [lowerBetween, if_neg hsigma, lowerChar]
  split
  · have hupper : ¬ (65 ≤ c.toNat ∧ c.toNat ≤ 90) := by
      rintro ⟨hfirst, hlast⟩
      have hascii := h ⟨0x41, 0x5A, 1, 32⟩ (List.mem_cons_of_mem _ List.mem_cons_self)
      exact Bool.eq_false_iff.mp hascii (CaseRun.holds_iff.mpr ⟨hfirst, hlast, Nat.mod_one _⟩)
    have hlower : c.toLower = c := dif_neg hupper
    rw [hlower]
  · have hnone : lowerRuns.find? (·.holds c) = none := by
      rw [List.find?_eq_none]
      intro run hrun
      rw [h run (List.mem_cons_of_mem _ hrun)]
      exact Bool.false_ne_true
    rw [hnone]

theorem isSettled_of_mem_lowerChar {c d : Char} (hd : d ∈ lowerChar c) : IsSettled d := by
  rw [lowerChar] at hd
  split at hd
  · next hascii =>
    rw [List.mem_singleton.mp hd]
    exact isSettled_toLower hascii
  · split at hd
    · obtain ⟨⟨-, -, hparts⟩, -⟩ := isSettled_letters
      rcases List.mem_cons.mp hd with rfl | hd
      · exact hparts.1
      · rw [List.mem_singleton.mp hd]
        exact hparts.2
    · next hdotted =>
      cases hfind : lowerRuns.find? (·.holds c) with
      | some run =>
        rw [hfind, List.mem_singleton] at hd
        rw [hd]
        have hholds : run.holds c = true := List.find?_some (p := fun r : CaseRun => r.holds c) hfind
        exact isSettled_target (List.mem_of_find?_eq_some hfind) hholds
      | none =>
        rw [hfind, List.mem_singleton] at hd
        rw [hd]
        intro run hrun
        rcases List.mem_cons.mp hrun with rfl | hrun
        · rw [Bool.eq_false_iff]
          intro hholds
          obtain ⟨hfirst, hlast, -⟩ := CaseRun.holds_iff.mp hholds
          exact hdotted (Char.toNat_inj.mp (Nat.le_antisymm hlast hfirst))
        · exact Bool.eq_false_iff.mpr (List.find?_eq_none.mp hfind run hrun)

theorem isSettled_of_mem_lowerBetween {before after : List Char} {c d : Char}
    (hd : d ∈ lowerBetween before c after) : IsSettled d := by
  obtain ⟨⟨hfinal, hmedial, -⟩, -⟩ := isSettled_letters
  rw [lowerBetween] at hd
  split at hd
  · split at hd
    · rw [List.mem_singleton.mp hd]
      exact hfinal
    · rw [List.mem_singleton.mp hd]
      exact hmedial
  · exact isSettled_of_mem_lowerChar hd

theorem isSettled_of_mem_lowerFrom : ∀ {cs before : List Char} {d : Char},
    d ∈ lowerFrom before cs → IsSettled d
  | [], _, _, hd => by simp [lowerFrom] at hd
  | _ :: _, _, _, hd => by
      rw [lowerFrom, List.mem_append] at hd
      rcases hd with hd | hd
      · exact isSettled_of_mem_lowerBetween hd
      · exact isSettled_of_mem_lowerFrom hd

/-! ### Texts -/

theorem lowerFrom_of_isSettled : ∀ {cs : List Char} (before : List Char),
    (∀ c ∈ cs, IsSettled c) → lowerFrom before cs = cs
  | [], _, _ => rfl
  | c :: cs, before, h => by
      have hrest := lowerFrom_of_isSettled (c :: before) fun d hd => h d (List.mem_cons_of_mem c hd)
      rw [lowerFrom, lowerBetween_of_isSettled (h c List.mem_cons_self), hrest]
      rfl

/-- Lower-casing is idempotent. -/
theorem lower_lower (cs : List Char) : lower (lower cs) = lower cs :=
  lowerFrom_of_isSettled [] fun _ hc => isSettled_of_mem_lowerFrom hc

end RecordSearch.Text
