import RecordSearch.Decimal.Shortest
import Mathlib

/-! Rounding to the nearest double. A double is computed from an integer and two bits that say where
    the exact value lies below its last place (`Extends`); shifts keep them true. -/

namespace RecordSearch.Decimal

open Float.Model Float.Model.UnpackedFloat

/-! ### Residual bits -/

/-- What an accuracy says of the part of a number below the last place. -/
def Describes : Accuracy → ℚ → Prop
  | .exact, rest => rest = 0
  | .inexact .lt, rest => 0 < rest ∧ rest < 1 / 2
  | .inexact .eq, rest => rest = 1 / 2
  | .inexact .gt, rest => 1 / 2 < rest ∧ rest < 1

/-- The mantissa with its residual bits stands for the number. -/
def Extends (em : ExtendedMantissa) (r : ℚ) : Prop := Describes em.accuracy (r - em.mantissa)

theorem Describes.bounds {accuracy : Accuracy} {rest : ℚ} (h : Describes accuracy rest) :
    0 ≤ rest ∧ rest < 1 := by
  cases accuracy with
  | exact => rw [show rest = 0 from h]; norm_num
  | inexact order =>
    cases order with
    | lt => exact ⟨h.1.le, by linarith [h.2]⟩
    | eq => rw [show rest = 1 / 2 from h]; norm_num
    | gt => exact ⟨by linarith [h.1], h.2⟩

theorem extends_ofMantissaAndAccuracy {m : ℕ} {accuracy : Accuracy} {r : ℚ}
    (h : Describes accuracy (r - m)) : Extends (.ofMantissaAndAccuracy m accuracy) r := by
  cases accuracy with
  | exact => exact h
  | inexact order => cases order <;> exact h

theorem Extends.shiftRightOne {em : ExtendedMantissa} {r : ℚ} (h : Extends em r) :
    Extends em.shiftRightOne (r / 2) := by
  obtain ⟨m, round, sticky⟩ := em
  have hparts : (m : ℚ) = 2 * (m / 2 : ℕ) + (m % 2 : ℕ) := by exact_mod_cast (Nat.div_add_mod m 2).symm
  rcases Nat.mod_two_eq_zero_or_one m with hbit | hbit <;> rw [hbit] at hparts <;>
    cases round <;> cases sticky <;>
    simp [Extends, Describes, ExtendedMantissa.accuracy, ExtendedMantissa.shiftRightOne, hbit]
      at h hparts ⊢ <;>
    first | linarith | constructor <;> linarith

theorem Extends.shiftRight {em : ExtendedMantissa} {r : ℚ} (h : Extends em r) :
    ∀ n : ℕ, Extends (em >>> n) (r / 2 ^ n)
  | 0 => by
      rw [pow_zero, div_one]
      exact h
  | n + 1 => by
      rw [pow_succ, ← div_div]
      exact (h.shiftRight n).shiftRightOne

/-! ### The nearest integer -/

/-- The integer is nearest to the number, and even if the number lies halfway. -/
structure IsNearest (r : ℚ) (n : ℕ) : Prop where
  lower : (n : ℚ) - 1 / 2 ≤ r
  upper : r ≤ n + 1 / 2
  even : r = n - 1 / 2 ∨ r = n + 1 / 2 → n % 2 = 0

theorem IsNearest.le {r : ℚ} {n m : ℕ} (hn : IsNearest r n) (hm : IsNearest r m) : n ≤ m := by
  by_contra hlt
  have hlt' : (m : ℚ) + 1 ≤ n := by exact_mod_cast not_le.mp hlt
  have hlower := hn.lower
  have hupper := hm.upper
  have hn' : n % 2 = 0 := hn.even (.inl (by linarith))
  have hm' : m % 2 = 0 := hm.even (.inr (by linarith))
  have hsucc : n = m + 1 := by exact_mod_cast (by linarith : (n : ℚ) = m + 1)
  omega

theorem IsNearest.unique {r : ℚ} {n m : ℕ} (hn : IsNearest r n) (hm : IsNearest r m) : n = m :=
  le_antisymm (hn.le hm) (hm.le hn)

theorem Extends.roundedMantissa {em : ExtendedMantissa} {r : ℚ} (h : Extends em r) :
    IsNearest r em.roundedMantissa := by
  obtain ⟨m, round, sticky⟩ := em
  cases round <;> cases sticky <;>
    simp only [Extends, Describes, ExtendedMantissa.accuracy, ExtendedMantissa.roundedMantissa,
      Accuracy.roundToNearestEven] at h ⊢
  · exact ⟨by linarith, by linarith, by rintro (h' | h') <;> linarith⟩
  · exact ⟨by linarith, by linarith, by rintro (h' | h') <;> linarith⟩
  · rcases Nat.mod_two_eq_zero_or_one m with hbit | hbit
    · rw [hbit, Nat.add_zero]
      exact ⟨by linarith, by linarith, fun _ => hbit⟩
    · rw [hbit]
      exact ⟨by push_cast; linarith, by push_cast; linarith, fun _ => by omega⟩
  · exact ⟨by push_cast; linarith, by push_cast; linarith,
      by push_cast; rintro (h' | h') <;> linarith⟩

/-! ### Rounding of a number -/

theorem targetExponent_binary64 (total : ℤ) :
    Format.binary64.targetExponent total = max (total - 53) (-1074) := rfl

theorem log2_lt_of_lt {n k : ℕ} (hk : 0 < k) (h : n < 2 ^ k) : n.log2 < k := by
  rcases Nat.eq_zero_or_pos n with rfl | hpos
  · rwa [Nat.log2_zero]
  · exact (Nat.log2_lt hpos.ne').mpr h

/-- The exponent that a number with mantissa `m` and what lies below it is shifted to. -/
theorem targetExponent_totalExponent {m d : ℕ} {e : ℤ} {r : ℚ} (hlower : (m : ℚ) ≤ r)
    (hupper : r < m + 1) (hmin : -1074 ≤ e + d) (hlt : r < 2 ^ (53 + d))
    (hle : 2 ^ (52 + d) ≤ r ∨ e + d = -1074) :
    Format.binary64.targetExponent (totalExponent m e) = e + d := by
  have hm : m < 2 ^ (53 + d) := by exact_mod_cast hlower.trans_lt hlt
  have hlog : m.log2 < 53 + d := log2_lt_of_lt (by omega) hm
  rw [targetExponent_binary64, totalExponent]
  rcases hle with hle | hle
  · have hm' : 2 ^ (52 + d) < m + 1 := by exact_mod_cast hle.trans_lt hupper
    have hlog' : 52 + d ≤ m.log2 :=
      (Nat.le_log2 (by have := Nat.two_pow_pos (52 + d); omega)).mpr (by omega)
    omega
  · omega

theorem shiftToTargetExponent_small {n : ℕ} {e : ℤ} (hn : n < 2 ^ 53) (he : -1074 ≤ e) :
    shiftToTargetExponent Format.binary64 n e .exact = (⟨n, false, false⟩, e) := by
  have hlog : n.log2 < 53 := log2_lt_of_lt (by decide) hn
  have htarget : (Format.binary64.targetExponent (totalExponent n e) - e).toNat = 0 := by
    rw [targetExponent_binary64, totalExponent]
    omega
  rw [shiftToTargetExponent, shiftToExponent, htarget]
  simp [HShiftRight.hShiftRight, Nat.repeat, ExtendedMantissa.ofMantissaAndAccuracy]

theorem shiftToTargetExponent_carry {e : ℤ} (he : -1074 ≤ e) :
    shiftToTargetExponent Format.binary64 (2 ^ 53) e .exact = (⟨2 ^ 52, false, false⟩, e + 1) := by
  have htarget : (Format.binary64.targetExponent (totalExponent (2 ^ 53) e) - e).toNat = 1 := by
    rw [targetExponent_binary64, totalExponent, Nat.log2_two_pow]
    omega
  rw [shiftToTargetExponent, shiftToExponent, htarget]
  rfl

section

variable {sign : Sign} {m d n : ℕ} {e : ℤ} {accuracy : Accuracy} {r : ℚ}
  (hrest : Describes accuracy (r - m)) (hmin : -1074 ≤ e + d) (hlt : r < 2 ^ (53 + d))
  (hle : 2 ^ (52 + d) ≤ r ∨ e + d = -1074) (hn : IsNearest (r / 2 ^ d) n)

include hrest hmin hlt hle hn

/-- The first shift of rounding leaves the nearest integer at the exponent of the number. -/
theorem shiftToTargetExponent_nearest :
    ∃ em, shiftToTargetExponent Format.binary64 m e accuracy = (em, e + d) ∧
      em.roundedMantissa = n := by
  have hbounds := hrest.bounds
  have htarget : Format.binary64.targetExponent (totalExponent m e) = e + d :=
    targetExponent_totalExponent (by linarith) (by linarith) hmin hlt hle
  have hshift : (e + d - e).toNat = d := by omega
  refine ⟨ExtendedMantissa.ofMantissaAndAccuracy m accuracy >>> d, ?_, ?_⟩
  · rw [shiftToTargetExponent, htarget, shiftToExponent, hshift]
  · have hextends := (extends_ofMantissaAndAccuracy hrest).shiftRight d
    exact hextends.roundedMantissa.unique hn

theorem roundWithAccuracy_small (hpos : 0 < n) (hsmall : n < 2 ^ 53) :
    roundWithAccuracy Format.binary64 sign m e accuracy = .finite sign n (e + d) hpos := by
  obtain ⟨em, hfirst, hrounded⟩ := shiftToTargetExponent_nearest hrest hmin hlt hle hn
  rw [roundWithAccuracy, hfirst]
  simp only [hrounded, shiftToTargetExponent_small hsmall hmin, hpos.ne', dite_false]

theorem roundWithAccuracy_carry (hcarry : n = 2 ^ 53) :
    roundWithAccuracy Format.binary64 sign m e accuracy =
      .finite sign (2 ^ 52) (e + d + 1) (Nat.two_pow_pos 52) := by
  obtain ⟨em, hfirst, hrounded⟩ := shiftToTargetExponent_nearest hrest hmin hlt hle hn
  rw [roundWithAccuracy, hfirst]
  simp only [hrounded, hcarry, shiftToTargetExponent_carry hmin]
  rfl

end

/-! ### Numbers that round to a double -/

/-- The significand and the exponent of a positive finite double. -/
structure IsMagnitude (m : ℕ) (q : ℤ) : Prop where
  pos : 0 < m
  lt : m < 2 ^ 53
  min_le : -1074 ≤ q
  le_max : q ≤ 971
  normal : 2 ^ 52 ≤ m ∨ q = -1074

/-- A double is rounded to itself. -/
theorem roundWithAccuracy_exact {sign : Sign} {m : ℕ} {q : ℤ} (hm : IsMagnitude m q) :
    roundWithAccuracy Format.binary64 sign m q .exact = .finite sign m q hm.pos := by
  have hshift := shiftToTargetExponent_small hm.lt hm.min_le
  have hrounded : (⟨m, false, false⟩ : ExtendedMantissa).roundedMantissa = m := rfl
  rw [roundWithAccuracy, hshift]
  simp only [hrounded, hshift, hm.pos.ne', dite_false]

/-- The number lies in the interval of those that round to the double. -/
structure RoundsTo (v : ℚ) (m : ℕ) (q : ℤ) : Prop where
  lower : (roundingInterval m q).1 * (2 : ℚ) ^ (q - 2) ≤ v
  upper : v ≤ (roundingInterval m q).2 * (2 : ℚ) ^ (q - 2)
  even : v = (roundingInterval m q).1 * (2 : ℚ) ^ (q - 2) ∨
    v = (roundingInterval m q).2 * (2 : ℚ) ^ (q - 2) → m % 2 = 0

theorem le_roundingInterval {m : ℕ} (q : ℤ) : 4 * m - 2 ≤ (roundingInterval m q).1 := by
  rw [roundingInterval]
  dsimp only
  split <;> omega

theorem two_zpow_sub_two (q : ℤ) : (2 : ℚ) ^ (q - 2) = 2 ^ q / 4 := by
  rw [zpow_sub₀ (by norm_num)]
  norm_num

theorem RoundsTo.isNearest {v : ℚ} {m : ℕ} {q : ℤ} (h : RoundsTo v m q) (hm : 0 < m) :
    IsNearest (v / 2 ^ q) m := by
  obtain ⟨hlower, hupper, heven⟩ := h
  have hpow : (0 : ℚ) < 2 ^ q := by positivity
  have hquarter := le_roundingInterval (m := m) q
  have hquarter' : (4 * m - 2 : ℚ) ≤ (roundingInterval m q).1 := by
    have hcast : 4 * m ≤ (roundingInterval m q).1 + 2 := by omega
    have hcast' : (4 * m : ℚ) ≤ (roundingInterval m q).1 + 2 := by exact_mod_cast hcast
    linarith
  have hhigh : ((roundingInterval m q).2 : ℚ) = 4 * m + 2 := by
    rw [roundingInterval]
    push_cast
    rfl
  rw [two_zpow_sub_two] at hlower hupper heven
  rw [hhigh] at hupper heven
  have hle : (4 * m - 2 : ℚ) * (2 ^ q / 4) ≤ (roundingInterval m q).1 * (2 ^ q / 4) :=
    mul_le_mul_of_nonneg_right hquarter' (by positivity)
  refine ⟨(le_div_iff₀ hpow).mpr (by linarith), (div_le_iff₀ hpow).mpr (by linarith), ?_⟩
  rw [div_eq_iff hpow.ne', div_eq_iff hpow.ne']
  rintro (hv | hv)
  · exact heven (.inl (le_antisymm (by linarith) hlower))
  · exact heven (.inr (by linarith))

theorem IsMagnitude.lt_of_isNearest {v : ℚ} {m : ℕ} {q : ℤ} (hm : IsMagnitude m q)
    (h : IsNearest (v / 2 ^ q) m) : v < 2 ^ (53 + q) := by
  have hcast : (m : ℚ) + 1 ≤ 2 ^ 53 := by exact_mod_cast hm.lt
  have hquotient : v / 2 ^ q < 2 ^ 53 := by linarith [h.upper]
  rw [zpow_add₀ (by norm_num)]
  exact (div_lt_iff₀ (by positivity)).mp hquotient

theorem IsMagnitude.lt_of_roundsTo {v : ℚ} {m : ℕ} {q : ℤ} (hm : IsMagnitude m q)
    (h : RoundsTo v m q) : v < 2 ^ (1024 : ℤ) := by
  have := hm.le_max
  refine lt_of_lt_of_le (hm.lt_of_isNearest (h.isNearest hm.pos)) ?_
  exact zpow_le_zpow_right₀ (by norm_num) (by omega)

theorem IsMagnitude.le_of_roundsTo {v : ℚ} {m : ℕ} {q : ℤ} (hm : IsMagnitude m q)
    (h : RoundsTo v m q) : 2 ^ (-1075 : ℤ) ≤ v := by
  have hpos : (1 : ℚ) ≤ m := by exact_mod_cast hm.pos
  have hhalf : (1 / 2 : ℚ) ≤ v / 2 ^ q := by linarith [(h.isNearest hm.pos).lower]
  have hmin : (2 : ℚ) ^ (-1074 : ℤ) ≤ 2 ^ q := zpow_le_zpow_right₀ (by norm_num) hm.min_le
  have hsplit : (2 : ℚ) ^ (-1075 : ℤ) = 2 ^ (-1074 : ℤ) / 2 := zpow_sub_one₀ (by norm_num) (-1074)
  rw [le_div_iff₀ (by positivity)] at hhalf
  linarith

/-- A number below the binade of its double is nearest to the end of the binade below. -/
theorem RoundsTo.isNearest_below {v : ℚ} {m : ℕ} {q : ℤ} (h : RoundsTo v m q)
    (hm : IsMagnitude m q) (hv : v < 2 ^ (52 + q)) (hq : q ≠ -1074) :
    m = 2 ^ 52 ∧ IsNearest (v / 2 ^ (q - 1)) (2 ^ 53) := by
  have hpow : (0 : ℚ) < 2 ^ q := by positivity
  rw [zpow_add₀ (by norm_num)] at hv
  have hmin := hm.min_le
  have hlow : m = 2 ^ 52 := by
    by_contra hne
    have hsucc : 2 ^ 52 + 1 ≤ m := by have := hm.normal; omega
    have hsucc' : (2 ^ 52 + 1 : ℚ) ≤ m := by exact_mod_cast hsucc
    have hquotient : (2 ^ 52 : ℚ) ≤ v / 2 ^ q := by linarith [(h.isNearest hm.pos).lower]
    exact absurd ((le_div_iff₀ hpow).mp hquotient) (not_le.mpr hv)
  have hquarters : (roundingInterval m q).1 = 4 * 2 ^ 52 - 1 := by
    rw [roundingInterval, hlow]
    exact if_pos ⟨rfl, by omega⟩
  have hlower := h.lower
  rw [hquarters, two_zpow_sub_two] at hlower
  norm_num at hlower hv
  rw [zpow_sub_one₀ (by norm_num)]
  refine ⟨hlow, (le_div_iff₀ (by positivity)).mpr ?_, (div_le_iff₀ (by positivity)).mpr ?_,
    fun _ => by decide⟩
  · norm_num
    linarith
  · norm_num
    linarith

theorem two_pow_mul_zpow (k d : ℕ) (e : ℤ) : (2 : ℚ) ^ (k + d) * 2 ^ e = 2 ^ (k + (e + d)) := by
  rw [← zpow_natCast, ← zpow_add₀ (by norm_num)]
  congr 1
  push_cast
  ring

/-- What is computed for a number is the double that it rounds to, if no bits of it are missing. -/
theorem roundWithAccuracy_of_roundsTo {sign : Sign} {n m : ℕ} {e q : ℤ} {accuracy : Accuracy} {v : ℚ}
    (hm : IsMagnitude m q) (h : RoundsTo v m q) (hrest : Describes accuracy (v / 2 ^ e - n))
    (hfits : ∀ q', -1074 ≤ q' → v < 2 ^ (53 + q') → e ≤ q') :
    roundWithAccuracy Format.binary64 sign n e accuracy = .finite sign m q hm.pos := by
  have hpow : (0 : ℚ) < 2 ^ e := by positivity
  have hnearest := h.isNearest hm.pos
  have hlt := hm.lt_of_isNearest hnearest
  have hscaled : ∀ d : ℕ, v / 2 ^ e / 2 ^ d = v / 2 ^ (e + d) := by
    intro d
    rw [div_div, zpow_add₀ (by norm_num), zpow_natCast]
  have hbelow : ∀ d : ℕ, v < 2 ^ (53 + (e + d)) → v / 2 ^ e < 2 ^ (53 + d) := by
    intro d hd
    rw [div_lt_iff₀ hpow, two_pow_mul_zpow]
    exact hd
  have habove : ∀ d : ℕ, 2 ^ (52 + (e + d)) ≤ v → 2 ^ (52 + d) ≤ v / 2 ^ e := by
    intro d hd
    rw [le_div_iff₀ hpow, two_pow_mul_zpow]
    exact hd
  by_cases hbinade : 2 ^ (52 + q) ≤ v ∨ q = -1074
  · obtain ⟨d, rfl⟩ := Int.le.dest (hfits q hm.min_le hlt)
    have hle := hbinade.imp_left (habove d)
    exact roundWithAccuracy_small hrest hm.min_le (hbelow d hlt) hle (hscaled d ▸ hnearest) hm.pos hm.lt
  · obtain ⟨hsmall, hq⟩ := not_or.mp hbinade
    obtain ⟨rfl, hnearest'⟩ := h.isNearest_below hm (not_le.mp hsmall) hq
    have hbinade' : v < 2 ^ (53 + (q - 1)) := by
      rw [show 53 + (q - 1) = 52 + q by ring]
      exact not_le.mp hsmall
    have hmin : -1074 ≤ q - 1 := by have := hm.min_le; omega
    obtain ⟨d, hd⟩ := Int.le.dest (hfits (q - 1) hmin hbinade')
    rw [← hd] at hmin hbinade' hnearest'
    have hle : 2 ^ (52 + d) ≤ v / 2 ^ e := by
      have hlower := hnearest'.lower
      rw [← hscaled, le_div_iff₀ (by positivity)] at hlower
      rw [pow_add]
      exact le_trans (mul_le_mul_of_nonneg_right (by norm_num) (by positivity)) hlower
    rw [roundWithAccuracy_carry hrest hmin (hbelow d hbinade') (.inl hle) (hscaled d ▸ hnearest') rfl]
    congr 1
    omega

/-! ### Powers of ten -/

/-- Powers of ten below powers of two, by bounds of the logarithm on both sides of one. -/
theorem ten_zpow_lt_two_zpow {a b : ℤ} (hneg : 93 * a < 28 * b) (hpos : 196 * a < 59 * b) :
    (10 : ℚ) ^ a < 2 ^ b := by
  rcases le_total 0 a with ha | ha
  · refine lt_of_pow_lt_pow_left₀ 59 (by positivity) ?_
    calc ((10 : ℚ) ^ a) ^ 59 = (10 ^ 59) ^ a := by
          rw [← zpow_natCast, ← zpow_mul, mul_comm, zpow_mul, zpow_natCast]
      _ ≤ (2 ^ 196) ^ a := zpow_le_zpow_left₀ ha (by norm_num) (by norm_num)
      _ = 2 ^ (196 * a) := by rw [zpow_mul]; norm_cast
      _ < 2 ^ (59 * b) := zpow_lt_zpow_right₀ (by norm_num) hpos
      _ = (2 ^ b) ^ 59 := by rw [mul_comm, zpow_mul]; norm_cast
  · refine lt_of_pow_lt_pow_left₀ 28 (by positivity) ?_
    calc ((10 : ℚ) ^ a) ^ 28 = (10 ^ 28) ^ a := by
          rw [← zpow_natCast, ← zpow_mul, mul_comm, zpow_mul, zpow_natCast]
      _ ≤ (2 ^ 93) ^ a := by
          have h : (2 ^ 93 : ℚ) ^ (-a) ≤ (10 ^ 28) ^ (-a) :=
            zpow_le_zpow_left₀ (neg_nonneg.mpr ha) (by norm_num) (by norm_num)
          rw [zpow_neg, zpow_neg] at h
          exact (inv_le_inv₀ (by positivity) (by positivity)).mp h
      _ = 2 ^ (93 * a) := by rw [zpow_mul]; norm_cast
      _ < 2 ^ (28 * b) := zpow_lt_zpow_right₀ (by norm_num) hneg
      _ = (2 ^ b) ^ 28 := by rw [mul_comm, zpow_mul]; norm_cast

theorem two_zpow_lt_ten_zpow {a b : ℤ} (hneg : 28 * b < 93 * a) (hpos : 59 * b < 196 * a) :
    (2 : ℚ) ^ b < 10 ^ a := by
  have h : (10 : ℚ) ^ (-a) < 2 ^ (-b) := ten_zpow_lt_two_zpow (by omega) (by omega)
  rw [zpow_neg, zpow_neg] at h
  exact (inv_lt_inv₀ (by positivity) (by positivity)).mp h

end RecordSearch.Decimal
