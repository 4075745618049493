import RecordSearch.Proofs.Decimal.Packing

/-! Doubles as numbers. A finite double stands for an exact number, and two of them are compared just
    as these numbers are (`lt_iff_exact`, `le_iff_exact`). What is compared is the exponent first, and
    this is right because only the least exponent has significands of less than full precision. -/

namespace RecordSearch.Decimal

open Float.Model Float.Model.UnpackedFloat

/-! ### Magnitudes -/

theorem compare_mul_zpow (m₁ m₂ : ℕ) (q : ℤ) :
    compare (m₁ * 2 ^ q : ℚ) (m₂ * 2 ^ q) = compare m₁ m₂ := by
  have hpow : (0 : ℚ) < 2 ^ q := by positivity
  rw [← cmp_eq_compare, ← cmp_eq_compare, cmp_mul_pos_right hpow]
  exact Nat.strictMono_cast.cmp_map_eq m₁ m₂

theorem swap_compare (a b : ℚ) : (compare a b).swap = compare (-a) (-b) := by
  have hneg : StrictAnti fun r : ℚ => -r := fun _ _ => neg_lt_neg
  rw [← cmp_eq_compare, ← cmp_eq_compare, cmp_swap]
  exact (hneg.cmp_map_eq a b).symm

theorem IsMagnitude.mul_pos {m : ℕ} {q : ℤ} (hm : IsMagnitude m q) : (0 : ℚ) < m * 2 ^ q := by
  have hcast : (0 : ℚ) < m := by exact_mod_cast hm.pos
  positivity

section Magnitudes

variable {m₁ m₂ : ℕ} {q₁ q₂ : ℤ} (h₁ : IsMagnitude m₁ q₁) (h₂ : IsMagnitude m₂ q₂)

include h₁ h₂

/-- Of two magnitudes the one with the smaller exponent is smaller. -/
theorem IsMagnitude.mul_lt_mul (hq : q₁ < q₂) : (m₁ * 2 ^ q₁ : ℚ) < m₂ * 2 ^ q₂ := by
  have hfull : 2 ^ 52 ≤ m₂ := h₂.normal.resolve_right fun hleast => by
    have hmin := h₁.min_le
    omega
  have hlt : (m₁ : ℚ) < 2 ^ 53 := by exact_mod_cast h₁.lt
  have hle : (2 ^ 52 : ℚ) ≤ m₂ := by exact_mod_cast hfull
  calc (m₁ * 2 ^ q₁ : ℚ) < 2 ^ 53 * 2 ^ q₁ := mul_lt_mul_of_pos_right hlt (by positivity)
    _ = 2 ^ 52 * 2 ^ (q₁ + 1) := by rw [zpow_add_one₀ (by norm_num)]; ring
    _ ≤ m₂ * 2 ^ q₂ :=
      mul_le_mul hle (zpow_le_zpow_right₀ (by norm_num) (by omega)) (by positivity) (by positivity)

theorem IsMagnitude.compare_eq :
    (compare q₁ q₂).then (compare m₁ m₂) = compare (m₁ * 2 ^ q₁ : ℚ) (m₂ * 2 ^ q₂) := by
  rcases lt_trichotomy q₁ q₂ with hlt | rfl | hgt
  · rw [compare_lt_iff_lt.mpr hlt, compare_lt_iff_lt.mpr (h₁.mul_lt_mul h₂ hlt)]
    rfl
  · rw [compare_eq_iff_eq.mpr rfl, compare_mul_zpow]
    rfl
  · rw [compare_gt_iff_gt.mpr hgt, compare_gt_iff_gt.mpr (h₂.mul_lt_mul h₁ hgt)]
    rfl

end Magnitudes

/-! ### Unpacked doubles -/

/-- The number that an unpacked double stands for. -/
def exactOf : UnpackedFloat → ℚ
  | .finite .positive m q _ => m * 2 ^ q
  | .finite .negative m q _ => -(m * 2 ^ q)
  | _ => 0

/-- The forms of finite doubles. -/
inductive FiniteForm : UnpackedFloat → Prop
  | zero (sign : Sign) : FiniteForm (.zero sign)
  | finite (sign : Sign) {m : ℕ} {q : ℤ} (hm : IsMagnitude m q) :
      FiniteForm (.finite sign m q hm.pos)

/-- Finite doubles are compared as the numbers that they stand for. -/
theorem FiniteForm.compare_eq {u v : UnpackedFloat} (hu : FiniteForm u) (hv : FiniteForm v) :
    u.compare v = some (compare (exactOf u) (exactOf v)) := by
  cases hu with
  | zero _ =>
    cases hv with
    | zero _ => exact congrArg some (compare_eq_iff_eq.mpr rfl).symm
    | finite sign hm =>
      cases sign with
      | positive => exact congrArg some (compare_lt_iff_lt.mpr hm.mul_pos).symm
      | negative => exact congrArg some (compare_gt_iff_gt.mpr (neg_neg_of_pos hm.mul_pos)).symm
  | finite sign hm =>
    cases hv with
    | zero _ =>
      cases sign with
      | positive => exact congrArg some (compare_gt_iff_gt.mpr hm.mul_pos).symm
      | negative => exact congrArg some (compare_lt_iff_lt.mpr (neg_neg_of_pos hm.mul_pos)).symm
    | finite sign' hm' =>
      have hpos := hm.mul_pos
      have hpos' := hm'.mul_pos
      cases sign with
      | positive =>
        cases sign' with
        | positive => exact congrArg some (hm.compare_eq hm')
        | negative =>
          exact congrArg some (compare_gt_iff_gt.mpr ((neg_neg_of_pos hpos').trans hpos)).symm
      | negative =>
        cases sign' with
        | positive =>
          exact congrArg some (compare_lt_iff_lt.mpr ((neg_neg_of_pos hpos).trans hpos')).symm
        | negative =>
          -- without their signs the two are in the opposite order
          have hswap := (congrArg Ordering.swap (hm.compare_eq hm')).trans (swap_compare _ _)
          exact congrArg some hswap

/-! ### Doubles -/

/-- The number that a finite double stands for. -/
def exact (x : Float) : ℚ :=
  match magnitude x with
  | .finite m q => if isNegative x then -(m * 2 ^ q) else m * 2 ^ q
  | _ => 0

/-- A finite double unpacks to a form that stands for the same number. -/
theorem finiteForm_unpack {x : Float} (hx : isFinite x = true) :
    FiniteForm x.toModel.unpack ∧ exactOf x.toModel.unpack = exact x := by
  cases hmagnitude : magnitude x with
  | infinite => simp [isFinite, hmagnitude] at hx
  | notANumber => simp [isFinite, hmagnitude] at hx
  | finite m q =>
    rw [exact, hmagnitude]
    rcases eq_pack_of_magnitude hmagnitude with ⟨rfl, hpack⟩ | ⟨hm, hpack⟩
    · have hunpack : x.toModel.unpack = .zero (signOf x) := by
        refine (congrArg (fun y : Float => y.toModel.unpack) hpack).trans ?_
        cases signOf x <;> rfl
      rw [hunpack]
      refine ⟨.zero _, ?_⟩
      simp [exactOf]
    · have hunpack : x.toModel.unpack = .finite (signOf x) m q hm.pos :=
        (congrArg (fun y : Float => y.toModel.unpack) hpack).trans (unpack_pack hm _)
      rw [hunpack]
      refine ⟨.finite _ hm, ?_⟩
      cases hsign : isNegative x <;> simp [exactOf, signOf, hsign]

section Doubles

variable {x y : Float} (hx : isFinite x = true) (hy : isFinite y = true)

include hx hy

theorem compare_unpack :
    x.toModel.unpack.compare y.toModel.unpack = some (compare (exact x) (exact y)) := by
  obtain ⟨hform, hexact⟩ := finiteForm_unpack hx
  obtain ⟨hform', hexact'⟩ := finiteForm_unpack hy
  rw [hform.compare_eq hform', hexact, hexact']

/-- Finite doubles are in the order of the numbers that they stand for. -/
theorem lt_iff_exact : x < y ↔ exact x < exact y := by
  have hlt : x < y ↔ x.toModel.unpack.compare y.toModel.unpack = some .lt :=
    ⟨fun h => eq_of_beq (of_decide_eq_true h), fun h => decide_eq_true (beq_of_eq h)⟩
  rw [hlt, compare_unpack hx hy, Option.some_inj]
  exact compare_lt_iff_lt

theorem le_iff_exact : x ≤ y ↔ exact x ≤ exact y := by
  have hle : x ≤ y ↔ (x.toModel.unpack.compare y.toModel.unpack).any (·.isLE) = true :=
    ⟨of_decide_eq_true, decide_eq_true⟩
  rw [hle, compare_unpack hx hy, Option.any_some, Ordering.isLE_iff_ne_gt]
  exact compare_le_iff_le

end Doubles

end RecordSearch.Decimal
