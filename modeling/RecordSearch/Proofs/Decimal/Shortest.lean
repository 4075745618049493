import RecordSearch.Proofs.Decimal.Rounding

/-! The search for the shortest decimal. The points of a grid that are taken are those that round to
    the double (`fits_iff`), a grid finer than half of the last place always has one, and the search
    gets to such a grid before its steps are used up (`shortest_roundsTo`). -/

namespace RecordSearch.Decimal

variable {tie : Tie} {m : ℕ} {q k : ℤ}

/-! ### One grid -/

/-- The last place in quarters, and the grid, as integers on one scale. -/
def quarterOn (q k : ℤ) : ℕ := Nat.pow 2 (q - 2).toNat * Nat.pow 10 (-k).toNat

def unitOn (q k : ℤ) : ℕ := Nat.pow 10 k.toNat * Nat.pow 2 (-(q - 2)).toNat

/-- Whether a point of the grid reads back as the double. -/
def fits (m : ℕ) (q k : ℤ) (c : ℕ) : Bool :=
  if m % 2 = 0 then
    (roundingInterval m q).1 * quarterOn q k ≤ c * unitOn q k &&
      c * unitOn q k ≤ (roundingInterval m q).2 * quarterOn q k
  else
    (roundingInterval m q).1 * quarterOn q k < c * unitOn q k &&
      c * unitOn q k < (roundingInterval m q).2 * quarterOn q k

theorem onGrid_eq : onGrid tie m q k =
    let c := 4 * m * quarterOn q k / unitOn q k
    match fits m q k c, fits m q k (c + 1) with
    | false, false => none
    | true, false => some c
    | false, true => some (c + 1)
    | true, true =>
      some (if tie.goesUp c (4 * m * quarterOn q k - c * unitOn q k)
        ((c + 1) * unitOn q k - 4 * m * quarterOn q k) then c + 1 else c) := rfl

theorem pow_toNat_eq {b : ℚ} (hb : b ≠ 0) (a : ℤ) : b ^ a.toNat = b ^ a * b ^ (-a).toNat := by
  rcases le_total 0 a with ha | ha
  · obtain ⟨j, rfl⟩ := Int.eq_ofNat_of_zero_le ha
    rw [Int.toNat_natCast, Int.toNat_eq_zero.mpr (by omega), pow_zero, mul_one, zpow_natCast]
  · obtain ⟨j, hj⟩ := Int.eq_ofNat_of_zero_le (neg_nonneg.mpr ha)
    obtain rfl : a = -j := by omega
    rw [hj, Int.toNat_natCast, Int.toNat_eq_zero.mpr (by omega), pow_zero, zpow_neg, zpow_natCast,
      inv_mul_cancel₀ (pow_ne_zero j hb)]

/-- On their common scale, the integers are the reals that they stand for. -/
theorem exists_scale (q k : ℤ) : ∃ scale : ℚ, 0 < scale ∧
    (quarterOn q k : ℚ) = 2 ^ (q - 2) * scale ∧ (unitOn q k : ℚ) = 10 ^ k * scale := by
  refine ⟨2 ^ (-(q - 2)).toNat * 10 ^ (-k).toNat, by positivity, ?_, ?_⟩
  · rw [quarterOn, Nat.pow_eq, Nat.pow_eq]
    push_cast
    rw [pow_toNat_eq (by norm_num) (q - 2), mul_assoc]
  · rw [unitOn, Nat.pow_eq, Nat.pow_eq]
    push_cast
    rw [pow_toNat_eq (by norm_num) k]
    ring

theorem quarters_le_iff {a b : ℕ} :
    a * quarterOn q k ≤ b * unitOn q k ↔ a * (2 : ℚ) ^ (q - 2) ≤ b * 10 ^ k := by
  obtain ⟨scale, hscale, hquarter, hunit⟩ := exists_scale q k
  rw [← Nat.cast_le (α := ℚ), Nat.cast_mul, Nat.cast_mul, hquarter, hunit, ← mul_assoc, ← mul_assoc,
    mul_le_mul_iff_of_pos_right hscale]

theorem le_quarters_iff {a b : ℕ} :
    b * unitOn q k ≤ a * quarterOn q k ↔ b * (10 : ℚ) ^ k ≤ a * 2 ^ (q - 2) := by
  obtain ⟨scale, hscale, hquarter, hunit⟩ := exists_scale q k
  rw [← Nat.cast_le (α := ℚ), Nat.cast_mul, Nat.cast_mul, hquarter, hunit, ← mul_assoc, ← mul_assoc,
    mul_le_mul_iff_of_pos_right hscale]

theorem fits_iff {c : ℕ} : fits m q k c = true ↔ RoundsTo (c * 10 ^ k) m q := by
  rw [fits]
  rcases Nat.mod_two_eq_zero_or_one m with hm | hm
  · rw [if_pos hm, Bool.and_eq_true, decide_eq_true_iff, decide_eq_true_iff, quarters_le_iff,
      le_quarters_iff]
    exact ⟨fun h => ⟨h.1, h.2, fun _ => hm⟩, fun h => ⟨h.lower, h.upper⟩⟩
  · have hodd : ¬ m % 2 = 0 := by omega
    rw [if_neg hodd, Bool.and_eq_true, decide_eq_true_iff, decide_eq_true_iff, ← not_le, ← not_le,
      quarters_le_iff, le_quarters_iff, not_le, not_le]
    constructor
    · rintro ⟨hlower, hupper⟩
      refine ⟨hlower.le, hupper.le, ?_⟩
      rintro (h | h) <;> linarith
    · intro h
      exact ⟨lt_of_le_of_ne h.lower fun heq => hodd (h.even (.inl heq.symm)),
        lt_of_le_of_ne h.upper fun heq => hodd (h.even (.inr heq))⟩

theorem roundingInterval_le (q : ℤ) : (roundingInterval m q).1 ≤ 4 * m := by
  rw [roundingInterval]
  dsimp only
  split <;> omega

/-- A grid finer than half of the last place has a point that reads back. -/
theorem exists_onGrid (hfine : (10 : ℚ) ^ k < 2 ^ (q - 1)) :
    ∃ c, onGrid tie m q k = some c := by
  have hunit : 0 < unitOn q k := by
    rw [unitOn, Nat.pow_eq, Nat.pow_eq]
    positivity
  have habove : fits m q k (4 * m * quarterOn q k / unitOn q k + 1) = true := by
    generalize hc : 4 * m * quarterOn q k / unitOn q k = c
    have hlower : c * unitOn q k ≤ 4 * m * quarterOn q k := hc ▸ Nat.div_mul_le_self _ _
    have hupper : ¬ (c + 1) * unitOn q k ≤ 4 * m * quarterOn q k := by
      rw [← Nat.le_div_iff_mul_le hunit, hc]
      omega
    rw [le_quarters_iff] at hlower hupper
    rw [not_le] at hupper
    have hhalf : (2 : ℚ) ^ (q - 1) = 2 * 2 ^ (q - 2) := by
      rw [mul_comm, ← zpow_add_one₀ (by norm_num), show q - 2 + 1 = q - 1 by ring]
    have hlo : ((roundingInterval m q).1 : ℚ) ≤ (4 * m : ℕ) := by
      exact_mod_cast roundingInterval_le q
    have hhi : ((roundingInterval m q).2 : ℚ) = (4 * m : ℕ) + 2 := by
      rw [roundingInterval]
      push_cast
      rfl
    have hpow : (0 : ℚ) < 2 ^ (q - 2) := by positivity
    have hlo' := mul_le_mul_of_nonneg_right hlo hpow.le
    rw [fits_iff]
    rw [hhalf] at hfine
    push_cast at hlower hupper hlo' hhi ⊢
    refine ⟨by linarith, ?_, ?_⟩
    · rw [hhi]
      linarith
    · rw [hhi]
      rintro (h | h) <;> linarith
  rw [onGrid_eq]
  dsimp only
  rw [habove]
  cases fits m q k (4 * m * quarterOn q k / unitOn q k) <;> exact ⟨_, rfl⟩

theorem roundsTo_of_onGrid {c : ℕ} (h : onGrid tie m q k = some c) : RoundsTo (c * 10 ^ k) m q := by
  rw [← fits_iff]
  rw [onGrid_eq] at h
  dsimp only at h
  split at h
  · cases h
  · next hbelow _ => exact Option.some.inj h ▸ hbelow
  · next _ habove => exact Option.some.inj h ▸ habove
  · next hbelow habove =>
    rw [← Option.some.inj h]
    split
    · exact habove
    · exact hbelow

/-! ### The search -/

/-- The search succeeds if the last grid that it comes to is fine enough. -/
theorem searchGrids_roundsTo : ∀ (fuel : ℕ) (k : ℤ), (10 : ℚ) ^ (k - fuel) < 2 ^ (q - 1) →
    RoundsTo ((searchGrids tie m q (fuel + 1) k).significand *
      10 ^ (searchGrids tie m q (fuel + 1) k).exponent) m q
  | fuel, k, hfine => by
      cases hgrid : onGrid tie m q k with
      | some c =>
        rw [searchGrids, hgrid]
        exact roundsTo_of_onGrid hgrid
      | none =>
        cases fuel with
        | zero =>
          rw [Nat.cast_zero, sub_zero] at hfine
          have hsome : ∃ c, onGrid tie m q k = some c := exists_onGrid hfine
          rw [hgrid] at hsome
          obtain ⟨c, hc⟩ := hsome
          cases hc
        | succ fuel =>
          rw [searchGrids, hgrid]
          refine searchGrids_roundsTo fuel (k - 1) ?_
          rw [Nat.cast_succ] at hfine
          rw [show k - 1 - (fuel : ℤ) = k - (fuel + 1) by ring]
          exact hfine

theorem shortest_roundsTo (hm : IsMagnitude m q) :
    RoundsTo ((shortest tie m q).significand * 10 ^ (shortest tie m q).exponent) m q := by
  have hlog : m.log2 < 53 := log2_lt_of_lt (by decide) hm.lt
  have hmin := hm.min_le
  have hmax := hm.le_max
  rw [shortest, if_neg hm.pos.ne']
  refine searchGrids_roundsTo 19 _ ?_
  exact ten_zpow_lt_two_zpow (by omega) (by omega)

end RecordSearch.Decimal
