import RecordSearch.Decimal.Reader
import RecordSearch.Proofs.Decimal.Packing

/-! Reading decimals. A decimal in the interval of a double is read as this double
    (`nearest_of_roundsTo`). Short ones are the product or the quotient of two doubles without error,
    all others are computed from integers; both are rounded once. -/

namespace RecordSearch.Decimal

open Float.Model Float.Model.UnpackedFloat

/-! ### Products and quotients -/

variable {m n₁ n₂ : ℕ} {q e₁ e₂ : ℤ} {hpos₁ : 0 < n₁} {hpos₂ : 0 < n₂}

/-- A product with enough bits is the double that the exact product rounds to. -/
theorem mul_of_roundsTo (hm : IsMagnitude m q)
    (h : RoundsTo (n₁ * 2 ^ e₁ * (n₂ * 2 ^ e₂)) m q) (hlong : 2 ^ 52 ≤ n₁ * n₂) :
    UnpackedFloat.mul Format.binary64 (.finite .positive n₁ e₁ hpos₁) (.finite .positive n₂ e₂ hpos₂) =
      .finite .positive m q hm.pos := by
  have hproduct : (n₁ * 2 ^ e₁ * (n₂ * 2 ^ e₂) : ℚ) = (n₁ * n₂ : ℕ) * 2 ^ (e₁ + e₂) := by
    rw [zpow_add₀ (by norm_num)]
    push_cast
    ring
  rw [hproduct] at h
  refine roundWithAccuracy_of_roundsTo hm h ?_ fun q' _ hlt => ?_
  · rw [mul_div_cancel_right₀ _ (by positivity)]
    exact sub_self _
  · have hlong' : (2 ^ 52 : ℚ) ≤ (n₁ * n₂ : ℕ) := by exact_mod_cast hlong
    have hle : (2 : ℚ) ^ (52 + (e₁ + e₂)) < 2 ^ (53 + q') := by
      rw [zpow_add₀ (by norm_num)]
      exact lt_of_le_of_lt (mul_le_mul_of_nonneg_right hlong' (by positivity)) hlt
    have := (zpow_lt_zpow_iff_right₀ (by norm_num)).mp hle
    omega

theorem describes_accuracyOfFraction {num den : ℕ} (h : num < den) :
    Describes (accuracyOfFraction num den) (num / den) := by
  have hden : (0 : ℚ) < den := by exact_mod_cast (Nat.zero_le num).trans_lt h
  rw [accuracyOfFraction]
  split
  · next hzero =>
    rw [hzero, Nat.cast_zero, zero_div]
    rfl
  · next hne =>
    have hnum : (0 : ℚ) < num := by exact_mod_cast Nat.pos_of_ne_zero hne
    have hrest : (0 : ℚ) < num / den := div_pos hnum hden
    rcases lt_trichotomy (2 * num) den with hlt | heq | hgt
    · rw [compare_lt_iff_lt.mpr hlt]
      have hlt' : (2 * num : ℚ) < den := by exact_mod_cast hlt
      exact ⟨hrest, (div_lt_iff₀ hden).mpr (by linarith)⟩
    · rw [compare_eq_iff_eq.mpr heq]
      have heq' : (2 * num : ℚ) = den := by exact_mod_cast heq
      exact (div_eq_iff hden.ne').mpr (by linarith)
    · rw [compare_gt_iff_gt.mpr hgt]
      have hgt' : (den : ℚ) < 2 * num := by exact_mod_cast hgt
      have h' : (num : ℚ) < den := by exact_mod_cast h
      exact ⟨(lt_div_iff₀ hden).mpr (by linarith), (div_lt_one hden).mpr h'⟩

/-- A quotient is the double that the exact quotient rounds to. -/
theorem div_of_roundsTo (hm : IsMagnitude m q)
    (h : RoundsTo (n₁ * 2 ^ e₁ / (n₂ * 2 ^ e₂)) m q) :
    UnpackedFloat.div Format.binary64 (.finite .positive n₁ e₁ hpos₁) (.finite .positive n₂ e₂ hpos₂) =
      .finite .positive m q hm.pos := by
  rw [UnpackedFloat.div, divCore]
  generalize htarget : min (e₁ - e₂) _ = t
  have ht : t ≤ e₁ - e₂ := htarget ▸ min_le_left _ _
  obtain ⟨d, hd⟩ := Int.le.dest ht
  have hshift : (e₁ - e₂ - t).toNat = d := by omega
  have hden : (0 : ℚ) < n₂ := by exact_mod_cast hpos₂
  rw [hshift, Nat.shiftLeft_eq]
  refine roundWithAccuracy_of_roundsTo hm h ?_ fun q' hmin hlt => ?_
  · -- the remainder of the division is what lies below the last place
    have hparts : ((n₁ * 2 ^ d : ℕ) : ℚ) = n₂ * (n₁ * 2 ^ d / n₂ : ℕ) + (n₁ * 2 ^ d % n₂ : ℕ) := by
      exact_mod_cast (Nat.div_add_mod _ n₂).symm
    have hquotient : (n₁ * 2 ^ e₁ / (n₂ * 2 ^ e₂) / 2 ^ t : ℚ) = (n₁ * 2 ^ d : ℕ) / n₂ := by
      have he₁ : e₁ = t + d + e₂ := by omega
      rw [he₁, zpow_add₀ (by norm_num), zpow_add₀ (by norm_num), zpow_natCast]
      push_cast
      field_simp
    have hrest : (n₁ * 2 ^ e₁ / (n₂ * 2 ^ e₂) / 2 ^ t - (n₁ * 2 ^ d / n₂ : ℕ) : ℚ) =
        (n₁ * 2 ^ d % n₂ : ℕ) / n₂ := by
      rw [hquotient, hparts]
      field_simp
      ring
    rw [hrest]
    exact describes_accuracyOfFraction (Nat.mod_lt _ hpos₂)
  · have hlower : (2 : ℚ) ^ n₁.log2 ≤ n₁ := by exact_mod_cast Nat.log2_self_le hpos₁.ne'
    have hupper : (n₂ : ℚ) < 2 ^ (n₂.log2 + 1) := by exact_mod_cast Nat.lt_log2_self
    have hle : (2 : ℚ) ^ (n₁.log2 + e₁ - (n₂.log2 + 1 + e₂)) < 2 ^ (53 + q') := by
      refine lt_of_le_of_lt ?_ hlt
      rw [zpow_sub₀ (by norm_num), zpow_add₀ (by norm_num), zpow_add₀ (by norm_num)]
      refine div_le_div₀ (by positivity) ?_ (by positivity) ?_
      · exact mul_le_mul_of_nonneg_right (by exact_mod_cast hlower) (by positivity)
      · exact mul_le_mul_of_nonneg_right (by exact_mod_cast hupper.le) (by positivity)
    have hexponents := (zpow_lt_zpow_iff_right₀ (by norm_num)).mp hle
    rw [targetExponent_binary64, totalExponent, totalExponent] at htarget
    omega

/-! ### Decimals -/

theorem pos_of_roundsTo {n : ℕ} {k : ℤ} (hm : IsMagnitude m q) (h : RoundsTo (n * 10 ^ k) m q) :
    0 < n := by
  refine Nat.pos_of_ne_zero fun hn => ?_
  have hlower := hm.le_of_roundsTo h
  rw [hn, Nat.cast_zero, zero_mul] at hlower
  exact absurd hlower (not_le.mpr (by positivity))

/-- The slow way to a decimal: the exact product or quotient is rounded once. -/
theorem ofScientific_of_roundsTo {n : ℕ} {k : ℤ} (hm : IsMagnitude m q)
    (h : RoundsTo (n * 10 ^ k) m q) :
    UnpackedFloat.ofScientific Format.binary64 n k = .finite .positive m q hm.pos := by
  have hn := pos_of_roundsTo hm h
  have hlower := hm.le_of_roundsTo h
  have hupper := hm.lt_of_roundsTo h
  have hone : (1 : ℚ) ≤ n := by exact_mod_cast hn
  have hlog : (n : ℚ) < 2 ^ ((n.log2 : ℤ) + 1) := by exact_mod_cast Nat.lt_log2_self
  have hhigh : ¬ k > 2 ^ Format.binary64.exponentBits := by
    change ¬ k > 2048
    intro hk
    have hpow : (2 : ℚ) ^ (1024 : ℤ) < 10 ^ k := two_zpow_lt_ten_zpow (by omega) (by omega)
    have hle : (10 : ℚ) ^ k ≤ n * 10 ^ k := le_mul_of_one_le_left (by positivity) hone
    linarith
  have hlow : ¬ k < -((2 ^ Format.binary64.exponentBits : ℤ) + n.log2) := by
    change ¬ k < -(2048 + (n.log2 : ℤ))
    intro hk
    have hpow : (10 : ℚ) ^ k < 2 ^ (-1075 - ((n.log2 : ℤ) + 1)) :=
      ten_zpow_lt_two_zpow (by omega) (by omega)
    have hlt : n * (10 : ℚ) ^ k < 2 ^ (-1075 : ℤ) := by
      rw [zpow_sub₀ (by norm_num), lt_div_iff₀ (by positivity), mul_comm] at hpow
      exact lt_of_le_of_lt (mul_le_mul_of_nonneg_right hlog.le (by positivity)) hpow
    linarith
  rw [UnpackedFloat.ofScientific, dif_neg hn.ne', if_neg hhigh, if_neg hlow]
  split
  · next hk =>
    obtain ⟨j, rfl⟩ := Int.eq_ofNat_of_zero_le hk
    have hshifted : n <<< Format.binary64.mantissaBits = n * 2 ^ 53 := Nat.shiftLeft_eq n 53
    refine mul_of_roundsTo hm ?_ ?_
    · have hvalue : ((n <<< Format.binary64.mantissaBits : ℕ) : ℚ) *
          2 ^ (-(Format.binary64.mantissaBits : ℤ)) * ((10 ^ j : ℕ) * 2 ^ (0 : ℤ)) = n * 10 ^ (j : ℤ) := by
        rw [hshifted]
        change ((n * 2 ^ 53 : ℕ) : ℚ) * 2 ^ (-53 : ℤ) * _ = _
        push_cast
        norm_num
        ring
      rw [Int.toNat_natCast, hvalue]
      exact h
    · rw [hshifted, Int.toNat_natCast]
      have hpow : 0 < 10 ^ j := Nat.pow_pos (by decide)
      have hpos : 0 < n * 10 ^ j := Nat.mul_pos hn hpow
      change 2 ^ 52 ≤ n * 2 ^ 53 * 10 ^ j
      rw [Nat.mul_right_comm]
      omega
  · next hk =>
    obtain ⟨j, hj⟩ := Int.eq_ofNat_of_zero_le (by omega : 0 ≤ -k)
    obtain rfl : k = -j := by omega
    refine div_of_roundsTo hm ?_
    have hvalue : (n : ℚ) * 2 ^ (0 : ℤ) / ((10 ^ j : ℕ) * 2 ^ (0 : ℤ)) = n * 10 ^ (-(j : ℤ)) := by
      rw [zpow_neg, zpow_natCast]
      push_cast
      rw [mul_one, mul_one, div_eq_mul_inv]
    rw [hj, Int.toNat_natCast, hvalue]
    exact h

/-! ### Short decimals -/

/-- The double is the positive number itself, at full precision. -/
def IsExact (x : Float) (v : ℚ) : Prop :=
  ∃ (m : ℕ) (q : ℤ) (hpos : 0 < m), 2 ^ 52 ≤ m ∧ m * (2 : ℚ) ^ q = v ∧
    x.toModel.unpack = .finite .positive m q hpos

section

variable {n : ℕ} (hpos : 0 < n) (hlt : n < 2 ^ 53)

include hpos hlt

/-- A short integer, moved up to full precision. -/
theorem isMagnitude_aligned {e : ℕ} (he : e ≤ 22) :
    2 ^ 52 ≤ n * 2 ^ (52 - n.log2) ∧
      IsMagnitude (n * 2 ^ (52 - n.log2)) (e + n.log2 - 52) := by
  have hlog := log2_lt_of_lt (by decide) hlt
  have hlower : 2 ^ 52 ≤ n * 2 ^ (52 - n.log2) := by
    calc 2 ^ 52 = 2 ^ n.log2 * 2 ^ (52 - n.log2) := by rw [← pow_add]; congr 1; omega
      _ ≤ n * 2 ^ (52 - n.log2) := Nat.mul_le_mul_right _ (Nat.log2_self_le hpos.ne')
  have hupper : n * 2 ^ (52 - n.log2) < 2 ^ 53 := by
    calc n * 2 ^ (52 - n.log2) < 2 ^ (n.log2 + 1) * 2 ^ (52 - n.log2) :=
          Nat.mul_lt_mul_of_pos_right Nat.lt_log2_self (Nat.two_pow_pos _)
      _ = 2 ^ 53 := by rw [← pow_add]; congr 1; omega
  exact ⟨hlower, by omega, hupper, by omega, by omega, .inl hlower⟩

end

/-- A short integer times a power of two as a double. -/
def aligned (n e : ℕ) (hpos : 0 < n) : Float :=
  .ofModel (.pack (.finite .positive (n * 2 ^ (52 - n.log2)) (e + n.log2 - 52)
    (Nat.mul_pos hpos (Nat.two_pow_pos _))))

section

variable {n : ℕ} (hpos : 0 < n) (hlt : n < 2 ^ 53)

include hpos hlt

theorem isExact_aligned {e : ℕ} (he : e ≤ 22) : IsExact (aligned n e hpos) (n * 2 ^ e) := by
  obtain ⟨hlower, hm⟩ := isMagnitude_aligned hpos hlt he
  have hlog := log2_lt_of_lt (by decide) hlt
  refine ⟨_, _, hm.pos, hlower, ?_, unpack_pack hm .positive⟩
  have hexponent : (e : ℤ) + n.log2 - 52 = e - (52 - n.log2 : ℕ) := by omega
  rw [hexponent, zpow_sub₀ (by norm_num), zpow_natCast, zpow_natCast]
  push_cast
  field_simp

theorem toFloat_eq_aligned : n.toUInt64.toFloat = aligned n 0 hpos := by
  obtain ⟨hlower, hm⟩ := isMagnitude_aligned hpos hlt (Nat.zero_le 22)
  have hlog := log2_lt_of_lt (by decide) hlt
  have htoNat : n.toUInt64.toNat = n := UInt64.toNat_ofNat_of_lt' (hlt.trans (by decide))
  have htarget : Format.binary64.targetExponent (totalExponent n 0) = n.log2 - 52 := by
    rw [targetExponent_binary64, totalExponent]
    omega
  have hround : round Format.binary64 .positive n 0 =
      .finite .positive (n * 2 ^ (52 - n.log2)) ((0 : ℕ) + n.log2 - 52) hm.pos := by
    have hshift : (0 - ((n.log2 : ℤ) - 52)).toNat = 52 - n.log2 := by omega
    have hexponent : 0 - ((52 - n.log2 : ℕ) : ℤ) = (0 : ℕ) + n.log2 - 52 := by omega
    rw [UnpackedFloat.round, htarget, decreaseExponent, hshift]
    dsimp only
    rw [Nat.shiftLeft_eq, hexponent]
    exact roundWithAccuracy_exact hm
  rw [UInt64.toFloat, Float.Model.ofUInt64, UnpackedFloat.ofUInt64, htoNat, UnpackedFloat.ofNat,
    UnpackedFloat.ofInt, UnpackedFloat.normalize, compare_gt_iff_gt.mpr (by omega)]
  dsimp only
  rw [Int.toNat_natCast, hround]
  rfl

theorem isExact_toFloat : IsExact n.toUInt64.toFloat n := by
  have hexact := isExact_aligned hpos hlt (Nat.zero_le 22)
  rw [pow_zero, mul_one] at hexact
  rw [toFloat_eq_aligned hpos hlt]
  exact hexact

end

theorem powersOfTen_eq : Float.exactlyRepresentablePowersOfTen =
    (Array.range 23).map fun e => aligned (5 ^ e) e (Nat.pow_pos (by decide)) := by
  decide +kernel

theorem isExact_powerOfTen {e : ℕ} (he : e ≤ 22) (hlt : e < Float.exactlyRepresentablePowersOfTen.size) :
    IsExact Float.exactlyRepresentablePowersOfTen[e] (10 ^ e) := by
  have hfive : 5 ^ e < 2 ^ 53 := (Nat.pow_le_pow_right (by decide) he).trans_lt (by decide)
  have hexact := isExact_aligned (Nat.pow_pos (by decide)) hfive he
  have hten : (10 ^ e : ℚ) = (5 ^ e : ℕ) * 2 ^ e := by
    push_cast
    rw [← mul_pow]
    norm_num
  simp only [powersOfTen_eq, Array.getElem_map, Array.getElem_range]
  exact hten ▸ hexact

section

variable {x y : Float} {u w : ℚ} (hx : IsExact x u) (hy : IsExact y w) (hm : IsMagnitude m q)

include hx hy

theorem mul_of_isExact (h : RoundsTo (u * w) m q) :
    x * y = .ofModel (.pack (.finite .positive m q hm.pos)) := by
  obtain ⟨m₁, q₁, hpos₁, hlong₁, rfl, hx⟩ := hx
  obtain ⟨m₂, q₂, hpos₂, -, rfl, hy⟩ := hy
  have hlong : 2 ^ 52 ≤ m₁ * m₂ := hlong₁.trans (Nat.le_mul_of_pos_right m₁ hpos₂)
  change Float.ofModel (.pack (UnpackedFloat.mul _ x.toModel.unpack y.toModel.unpack)) = _
  rw [hx, hy, mul_of_roundsTo hm h hlong]

theorem div_of_isExact (h : RoundsTo (u / w) m q) :
    x / y = .ofModel (.pack (.finite .positive m q hm.pos)) := by
  obtain ⟨m₁, q₁, hpos₁, -, rfl, hx⟩ := hx
  obtain ⟨m₂, q₂, hpos₂, -, rfl, hy⟩ := hy
  change Float.ofModel (.pack (UnpackedFloat.div _ x.toModel.unpack y.toModel.unpack)) = _
  rw [hx, hy, div_of_roundsTo hm h]

end

/-! ### The nearest double -/

theorem pow_length_toDigits_le {n : ℕ} (hn : 0 < n) : 10 ^ ((Nat.toDigits 10 n).length - 1) ≤ n := by
  rcases Nat.eq_zero_or_pos ((Nat.toDigits 10 n).length - 1) with hone | hmore
  · rw [hone, pow_zero]
    exact hn
  · by_contra hlt
    have hlength := (Nat.length_toDigits_le_iff (by decide) hmore).mpr (not_le.mp hlt)
    omega

section

variable {n : ℕ} {k : ℤ} (hm : IsMagnitude m q) (h : RoundsTo (n * 10 ^ k) m q)

include hm h

theorem floatOfScientific_of_roundsTo : Float.ofScientific n (k < 0) k.natAbs =
    .ofModel (.pack (.finite .positive m q hm.pos)) := by
  have hn := pos_of_roundsTo hm h
  rw [Float.ofScientific]
  by_cases hk : k < 0
  · obtain ⟨j, rfl⟩ : ∃ j : ℕ, k = -j := ⟨k.natAbs, by omega⟩
    have hj : (-(j : ℤ)).natAbs = j := by omega
    simp only [hj, hk, decide_true, if_true]
    split
    · next hshort =>
      rw [zpow_neg, zpow_natCast, ← div_eq_mul_inv] at h
      exact div_of_isExact (isExact_toFloat hn hshort.1) (isExact_powerOfTen hshort.2 _) hm h
    · have hexponent : Int.negOfNat j = -j := by cases j <;> rfl
      rw [hexponent, Float.Model.ofScientific, ofScientific_of_roundsTo hm h]
  · obtain ⟨j, rfl⟩ := Int.eq_ofNat_of_zero_le (not_lt.mp hk)
    simp only [hk, decide_false, Int.natAbs_natCast, Bool.false_eq_true, if_false]
    split
    · next hshort =>
      rw [zpow_natCast] at h
      exact mul_of_isExact (isExact_toFloat hn hshort.1) (isExact_powerOfTen hshort.2 _) hm h
    · change Float.ofModel (.pack (UnpackedFloat.ofScientific _ n j)) = _
      rw [ofScientific_of_roundsTo hm h]

/-- A decimal in the interval of a double is read as this double. -/
theorem nearest_of_roundsTo : nearest n k = .ofModel (.pack (.finite .positive m q hm.pos)) := by
  have hn := pos_of_roundsTo hm h
  have hlower := hm.le_of_roundsTo h
  have hupper := hm.lt_of_roundsTo h
  have hdigits : 0 < (Nat.toDigits 10 n).length := Nat.length_toDigits_pos
  have hlow : ¬ k + (Nat.toDigits 10 n).length < -330 := by
    intro hk
    have hpow : (10 : ℚ) ^ (k + (Nat.toDigits 10 n).length) < 2 ^ (-1075 : ℤ) :=
      ten_zpow_lt_two_zpow (by omega) (by omega)
    have hlt : n < 10 ^ (Nat.toDigits 10 n).length :=
      (Nat.length_toDigits_le_iff (by decide) hdigits).mp le_rfl
    have hlt' : (n : ℚ) ≤ 10 ^ (Nat.toDigits 10 n).length := by exact_mod_cast hlt.le
    rw [add_comm, zpow_add₀ (by norm_num), zpow_natCast] at hpow
    have hle := mul_le_mul_of_nonneg_right hlt' (zpow_nonneg (by norm_num : (0 : ℚ) ≤ 10) k)
    linarith
  have hhigh : ¬ k + (Nat.toDigits 10 n).length > 310 := by
    intro hk
    have hpow : (2 : ℚ) ^ (1024 : ℤ) < 10 ^ (k + (Nat.toDigits 10 n).length - 1) :=
      two_zpow_lt_ten_zpow (by omega) (by omega)
    have hle' : (10 : ℚ) ^ ((Nat.toDigits 10 n).length - 1) ≤ n := by
      exact_mod_cast pow_length_toDigits_le hn
    have hexponent : k + (Nat.toDigits 10 n).length - 1 =
        ((Nat.toDigits 10 n).length - 1 : ℕ) + k := by omega
    rw [hexponent, zpow_add₀ (by norm_num), zpow_natCast] at hpow
    have hle := mul_le_mul_of_nonneg_right hle' (zpow_nonneg (by norm_num : (0 : ℚ) ≤ 10) k)
    linarith
  rw [nearest, if_neg (not_or.mpr ⟨hn.ne', hlow⟩), if_neg hhigh]
  exact floatOfScientific_of_roundsTo hm h

end

end RecordSearch.Decimal
