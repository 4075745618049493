import RecordSearch.Proofs.Decimal.Packing

/-! Signs of doubles that are computed. Sums, products and quotients of doubles without the sign bit
    are without it (`isNegative_add`, `isNegative_mul`, `isNegative_div`), overflow and what is not a
    number included. -/

namespace RecordSearch.Decimal

open Float.Model Float.Model.UnpackedFloat

/-! ### The sign bit -/

/-- What is unpacked has a sign; what is not a number has any. -/
def HasSign (sign : Sign) : UnpackedFloat → Prop
  | .notANumber => True
  | .infinity s | .zero s | .finite s _ _ _ => s = sign

theorem toNat_packComponents_lt (exponent : BitVec 11) (fraction : BitVec 52) :
    (packComponents Format.binary64 .positive exponent fraction).toNat < 2 ^ 63 := by
  have hexponent := exponent.isLt
  have hfraction := fraction.isLt
  have hsign : Sign.positive.toBitVec.toNat = 0 := rfl
  rw [toNat_packComponents, hsign]
  omega

theorem toNat_pack_lt {u : UnpackedFloat} (h : HasSign .positive u) :
    (UnpackedFloat.pack Format.binary64 u).toNat < 2 ^ 63 := by
  cases u with
  | notANumber => exact toNat_packComponents_lt _ _
  | infinity sign =>
    obtain rfl : sign = .positive := h
    exact toNat_packComponents_lt _ _
  | zero sign =>
    obtain rfl : sign = .positive := h
    exact toNat_packComponents_lt _ _
  | finite sign m q hm =>
    obtain rfl : sign = .positive := h
    rw [UnpackedFloat.pack]
    dsimp only
    split
    · exact toNat_packComponents_lt _ _
    · split
      · exact toNat_packComponents_lt _ _
      · exact toNat_packComponents_lt _ _

theorem isNegative_eq_false {x : Float} : isNegative x = false ↔ x.toBits.toNat < 2 ^ 63 := by
  have hlt := x.toBits.toNat_lt
  have hsize : UInt64.size = 2 * 2 ^ 63 := rfl
  rw [isNegative, Nat.pow_eq]
  constructor
  · intro h
    have hne : x.toBits.toNat / 2 ^ 63 ≠ 1 := beq_eq_false_iff_ne.mp h
    omega
  · intro h
    rw [Nat.div_eq_of_lt h]
    rfl

theorem isNegative_pack {u : UnpackedFloat} (h : HasSign .positive u) :
    isNegative (.ofModel (.pack u)) = false := isNegative_eq_false.mpr (toNat_pack_lt h)

theorem hasSign_unpack (x : Float) : HasSign (signOf x) x.toModel.unpack := by
  have hsign : Sign.ofBitVec (@unpackSign Format.binary64 x.toModel.toBits.toBitVec) =
      signOf x := by
    have hbit : @unpackSign Format.binary64 x.toModel.toBits.toBitVec =
        (signOf x).toBitVec := by
      refine BitVec.eq_of_toNat_eq ?_
      rw [unpackSign, BitVec.toNat_cast, BitVec.extractLsb_toNat, Nat.shiftRight_eq_div_pow,
        toNat_signOf]
      refine Nat.mod_eq_of_lt (Nat.div_lt_of_lt_mul ?_)
      exact x.toBits.toNat_lt
    rw [hbit, Sign.ofBitVec_toBitVec]
  rw [Float.Model.unpack, UnpackedFloat.unpack]
  simp only [hsign]
  split
  · split
    · rfl
    · trivial
  · split
    · split <;> rfl
    · rfl

theorem hasSign_positive {x : Float} (h : isNegative x = false) :
    HasSign .positive x.toModel.unpack := by
  have hsign := hasSign_unpack x
  rwa [signOf, h, if_neg Bool.false_ne_true] at hsign

/-! ### Arithmetic -/

section

variable {u v : UnpackedFloat}

theorem hasSign_roundWithAccuracy (sign : Sign) (m : ℕ) (e : ℤ) (accuracy : Accuracy) :
    HasSign sign (roundWithAccuracy Format.binary64 sign m e accuracy) := by
  rw [roundWithAccuracy]
  dsimp only
  split <;> rfl

theorem hasSign_normalize {n : ℤ} (hn : 0 ≤ n) (e : ℤ) :
    HasSign .positive (normalize Format.binary64 n e .positive) := by
  rw [UnpackedFloat.normalize]
  split
  · next hlt => exact absurd (Int.compare_eq_lt.mp hlt) (not_lt.mpr hn)
  · rfl
  · exact hasSign_roundWithAccuracy _ _ _ _

theorem hasSign_add (hu : HasSign .positive u) (hv : HasSign .positive v) :
    HasSign .positive (UnpackedFloat.add Format.binary64 u v) := by
  cases u <;> cases v <;> simp only [HasSign] at hu hv <;> subst_vars <;> try trivial
  exact hasSign_normalize (by simp only [Sign.apply]; positivity) _

theorem hasSign_mul (hu : HasSign .positive u) (hv : HasSign .positive v) :
    HasSign .positive (UnpackedFloat.mul Format.binary64 u v) := by
  cases u <;> cases v <;> simp only [HasSign] at hu hv <;> subst_vars <;> try trivial
  exact hasSign_roundWithAccuracy _ _ _ _

theorem hasSign_div (hu : HasSign .positive u) (hv : HasSign .positive v) :
    HasSign .positive (UnpackedFloat.div Format.binary64 u v) := by
  cases u <;> cases v <;> simp only [HasSign] at hu hv <;> subst_vars <;> try trivial
  exact hasSign_roundWithAccuracy _ _ _ _

/-- Added to the negated zero, a number without the sign bit stays without it. -/
theorem hasSign_zero_add (hu : HasSign .positive u) :
    HasSign .positive (UnpackedFloat.add Format.binary64 (.zero .negative) u) := by
  cases u with
  | notANumber => trivial
  | infinity sign => exact hu
  | zero sign =>
    obtain rfl : sign = .positive := hu
    rfl
  | finite sign m q hm => exact hu

theorem hasSign_ofScientific (n : ℕ) (k : ℤ) :
    HasSign .positive (UnpackedFloat.ofScientific Format.binary64 n k) := by
  rw [UnpackedFloat.ofScientific]
  split
  · rfl
  · split
    · rfl
    · split
      · rfl
      · split
        · exact hasSign_mul rfl rfl
        · exact hasSign_div rfl rfl

/-- What is unpacked is above zero. -/
def IsAbove : UnpackedFloat → Prop
  | .infinity sign | .finite sign _ _ _ => sign = .positive
  | .notANumber | .zero _ => False

/-- A number above one without the sign bit is above zero. -/
theorem isAbove_of_lt (hu : HasSign .positive u) (h : u.lt v = true) : IsAbove v := by
  cases v with
  | notANumber => cases u <;> cases h
  | zero sign => cases u <;> simp only [HasSign] at hu <;> subst_vars <;> cases h
  | infinity sign =>
    cases sign with
    | positive => rfl
    | negative => cases u <;> simp only [HasSign] at hu <;> subst_vars <;> cases h
  | finite sign m q hm =>
    cases sign with
    | positive => rfl
    | negative => cases u <;> simp only [HasSign] at hu <;> subst_vars <;> cases h

theorem IsAbove.eq_positive {sign : Sign} (h : IsAbove u) (hsign : HasSign sign u) :
    sign = .positive := by
  cases u with
  | notANumber => cases h
  | zero _ => cases h
  | infinity _ => exact hsign.symm.trans h
  | finite _ _ _ _ => exact hsign.symm.trans h

theorem IsAbove.isNaN (h : IsAbove u) : u.isNaN = false := by
  cases u <;> first | rfl | cases h

end

/-! ### Doubles -/

variable {x y : Float}

theorem isNegative_add (hx : isNegative x = false) (hy : isNegative y = false) :
    isNegative (x + y) = false :=
  isNegative_pack (hasSign_add (hasSign_positive hx) (hasSign_positive hy))

theorem isNegative_mul (hx : isNegative x = false) (hy : isNegative y = false) :
    isNegative (x * y) = false :=
  isNegative_pack (hasSign_mul (hasSign_positive hx) (hasSign_positive hy))

theorem isNegative_div (hx : isNegative x = false) (hy : isNegative y = false) :
    isNegative (x / y) = false :=
  isNegative_pack (hasSign_div (hasSign_positive hx) (hasSign_positive hy))

theorem isNegative_neg_zero_add (hx : isNegative x = false) :
    isNegative (-Float.ofNat 0 + x) = false := by
  have hzero : (-Float.ofNat 0).toModel.unpack = .zero .negative := by rfl
  refine isNegative_pack ?_
  rw [hzero]
  exact hasSign_zero_add (hasSign_positive hx)

theorem isNegative_ofNat (n : ℕ) : isNegative (Float.ofNat n) = false := by
  rw [Float.ofNat]
  change isNegative (Float.ofScientific n false 0) = false
  rw [Float.ofScientific]
  split
  · have hnat : isNegative n.toUInt64.toFloat = false :=
      isNegative_pack (hasSign_normalize (Int.natCast_nonneg _) 0)
    have hone : isNegative Float.exactlyRepresentablePowersOfTen[0] = false := by decide
    exact isNegative_mul hnat hone
  · exact isNegative_pack (hasSign_ofScientific n _)

theorem isNegative_of_isAbove (h : IsAbove x.toModel.unpack) :
    isNegative x = false ∧ x.isNaN = false := by
  have hsign := h.eq_positive (hasSign_unpack x)
  refine ⟨?_, h.isNaN⟩
  cases hx : isNegative x with
  | false => rfl
  | true =>
    rw [signOf, hx, if_pos rfl] at hsign
    cases hsign

/-- What is above a number without the sign bit is a number without the sign bit. -/
theorem isNegative_of_lt (hx : isNegative x = false) (h : x < y) :
    isNegative y = false ∧ y.isNaN = false :=
  isNegative_of_isAbove (isAbove_of_lt (hasSign_positive hx) (of_decide_eq_true h))

theorem ranking_nonneg (hx : isNegative x = false) : 0 ≤ ranking x := by
  have hlt : x.toBits.toNat < Nat.pow 2 63 := isNegative_eq_false.mp hx
  rw [ranking, if_pos hlt]
  exact Int.natCast_nonneg _

/-! ### Doubles above zero -/

/-- The significand and the exponent that are unpacked from a finite double. -/
theorem isMagnitude_of_unpack {sign : Sign} {m : ℕ} {q : ℤ} {hm : 0 < m}
    (h : x.toModel.unpack = .finite sign m q hm) : IsMagnitude m q := by
  rw [Float.Model.unpack, UnpackedFloat.unpack] at h
  have hfraction : (@unpackMantissa Format.binary64 x.toModel.toBits.toBitVec).toNat < 2 ^ 52 :=
    BitVec.isLt _
  have hexponent : (@unpackExponent Format.binary64 x.toModel.toBits.toBitVec).toNat < 2 ^ 11 :=
    BitVec.isLt _
  dsimp only at h
  split at h
  · split at h <;> cases h
  · next hinfinite =>
    have hlt : (@unpackExponent Format.binary64 x.toModel.toBits.toBitVec).toNat ≠ 2047 :=
      fun heq => hinfinite (BitVec.eq_of_toNat_eq heq)
    split at h
    · next hzero =>
      split at h
      · cases h
      · obtain ⟨-, hm_eq, hq_eq⟩ := UnpackedFloat.finite.inj h
        have hleast : q = -1074 := by
          rw [hzero] at hq_eq
          exact hq_eq.symm
        exact ⟨hm, by omega, by omega, by omega, .inr hleast⟩
    · next hzero =>
      have hpos : (@unpackExponent Format.binary64 x.toModel.toBits.toBitVec).toNat ≠ 0 :=
        fun heq => hzero (BitVec.eq_of_toNat_eq heq)
      obtain ⟨-, hm_eq, hq_eq⟩ := UnpackedFloat.finite.inj h
      have hbias : ((@unpackExponent Format.binary64 x.toModel.toBits.toBitVec).toNat : ℤ) - 1075 = q :=
        hq_eq
      rw [BitVec.toNat_append, ← Nat.shiftLeft_add_eq_or_of_lt hfraction] at hm_eq
      have hbit : 2 ^ 52 + (@unpackMantissa Format.binary64 x.toModel.toBits.toBitVec).toNat = m :=
        hm_eq
      exact ⟨hm, by omega, by omega, by omega, .inl (by omega)⟩

/-- The forms of doubles above zero. -/
inductive AboveZero : UnpackedFloat → Prop
  | infinity : AboveZero (.infinity .positive)
  | finite {m : ℕ} {q : ℤ} (hm : IsMagnitude m q) : AboveZero (.finite .positive m q hm.pos)

theorem aboveZero_unpack (h : IsAbove x.toModel.unpack) : AboveZero x.toModel.unpack := by
  cases hu : x.toModel.unpack with
  | notANumber => rw [hu] at h; cases h
  | zero sign => rw [hu] at h; cases h
  | infinity sign =>
    rw [hu] at h
    obtain rfl : sign = .positive := h
    exact .infinity
  | finite sign m q hm =>
    have hmagnitude := isMagnitude_of_unpack hu
    rw [hu] at h
    obtain rfl : sign = .positive := h
    exact .finite hmagnitude

section AboveZero

variable {u : UnpackedFloat}

theorem AboveZero.unpack_pack (h : AboveZero u) : (Float.Model.pack u).unpack = u := by
  cases h with
  | infinity => rfl
  | finite hm => exact RecordSearch.Decimal.unpack_pack hm .positive

theorem AboveZero.ranking_pos (h : AboveZero u) : 0 < ranking (.ofModel (.pack u)) := by
  have hsign : HasSign .positive u := by cases h <;> rfl
  have hlt : (Float.ofModel (.pack u)).toBits.toNat < Nat.pow 2 63 := toNat_pack_lt hsign
  rw [ranking, if_pos hlt]
  refine Int.natCast_pos.mpr (Nat.pos_of_ne_zero fun hzero => ?_)
  have hbits : Float.ofModel (.pack u) = .ofModel (.pack (.zero .positive)) :=
    Float.toBits_inj.mp (UInt64.toNat_inj.mp hzero)
  have hunpack := h.unpack_pack
  rw [Float.ofModel.inj hbits] at hunpack
  cases h <;> cases hunpack

/-- Added to zero, a number above it stays what it is. -/
theorem AboveZero.zero_add (h : AboveZero u) :
    UnpackedFloat.add Format.binary64 (.zero .positive) u = u := by
  cases h <;> rfl

end AboveZero

/-- What is rounded to a number of full precision, or to one above it. -/
theorem exists_roundWithAccuracy {m : ℕ} {e : ℤ} (hm : 2 ^ 52 ≤ m) (hleast : -1074 ≤ m.log2 + e) :
    ∃ (n : ℕ) (q : ℤ) (hn : 0 < n),
      roundWithAccuracy Format.binary64 .positive m e .exact = .finite .positive n q hn ∧
      n < 2 ^ 53 ∧ -1074 ≤ q ∧ q ≤ max (m.log2 + e - 51) (-1073) ∧ (2 ^ 52 ≤ n ∨ q = -1074) := by
  have hlog : 52 ≤ m.log2 := (Nat.le_log2 (by omega)).mpr hm
  obtain ⟨d, hd⟩ : ∃ d : ℕ, e + d = max (m.log2 + e - 52) (-1074) := Int.le.dest (by omega)
  have hself : 2 ^ m.log2 ≤ m := Nat.log2_self_le (by omega)
  have hlt : m < 2 ^ (53 + d) := by
    refine Nat.lt_log2_self.trans_le (Nat.pow_le_pow_right (by decide) ?_)
    omega
  have hle : 2 ^ (52 + d) ≤ m ∨ e + d = -1074 := by
    rcases le_total (m.log2 + e - 52 : ℤ) (-1074) with hsmall | hlarge
    · exact .inr (by omega)
    · refine .inl (le_trans (Nat.pow_le_pow_right (by decide) ?_) hself)
      omega
  have hone : 2 ^ d ≤ m := le_trans (Nat.pow_le_pow_right (by decide) (by omega)) hself
  have hmin : -1074 ≤ e + d := by omega
  have hlt' : (m : ℚ) < 2 ^ (53 + d) := by exact_mod_cast hlt
  have hle' : (2 ^ (52 + d) ≤ (m : ℚ)) ∨ e + d = -1074 := hle.imp_left fun h => by exact_mod_cast h
  have hrest : Describes .exact ((m : ℚ) - m) := sub_self _
  have hnearest := ((extends_ofMantissaAndAccuracy hrest).shiftRight d).roundedMantissa
  generalize ExtendedMantissa.roundedMantissa _ = n at hnearest
  have hpow : (0 : ℚ) < 2 ^ d := by positivity
  have hlow : (1 : ℚ) ≤ m / 2 ^ d := (one_le_div hpow).mpr (by exact_mod_cast hone)
  have hhigh : (m : ℚ) / 2 ^ d < 2 ^ 53 := (div_lt_iff₀ hpow).mpr (by rwa [← pow_add])
  have hpos : 0 < n := by
    have hhalf : (0 : ℚ) < n := by linarith [hnearest.upper]
    exact_mod_cast hhalf
  have hbound : n < 2 ^ 53 + 1 := by
    have hcast : (n : ℚ) < 2 ^ 53 + 1 := by linarith [hnearest.lower]
    exact_mod_cast hcast
  rcases Nat.lt_or_eq_of_le (Nat.le_of_lt_succ hbound) with hsmall | hcarry
  · refine ⟨n, e + d, hpos, roundWithAccuracy_small hrest hmin hlt' hle' hnearest hpos hsmall, hsmall,
      hmin, by omega, hle'.imp_left fun hfull => ?_⟩
    have hquotient : (2 ^ 52 : ℚ) ≤ m / 2 ^ d := (le_div_iff₀ hpow).mpr (by rwa [← pow_add])
    have hcast : (2 ^ 52 : ℚ) < n + 1 := by linarith [hnearest.upper]
    exact Nat.le_of_lt_succ (by exact_mod_cast hcast)
  · exact ⟨2 ^ 52, e + d + 1, Nat.two_pow_pos 52,
      roundWithAccuracy_carry hrest hmin hlt' hle' hnearest hcarry, by decide, by omega, by omega,
      .inl le_rfl⟩

/-- A double above zero that is too large is packed as the infinity. -/
theorem exists_pack_finite {n : ℕ} {q : ℤ} (hn : 0 < n) (hlt : n < 2 ^ 53) (hmin : -1074 ≤ q)
    (hnormal : 2 ^ 52 ≤ n ∨ q = -1074) : ∃ u, AboveZero u ∧
      Float.Model.pack (.finite .positive n q hn) = Float.Model.pack u := by
  rcases le_or_gt q 971 with hmax | hmax
  · exact ⟨_, .finite ⟨hn, hlt, hmin, hmax, hnormal⟩, rfl⟩
  · have hinfinity : UnpackedFloat.pack Format.binary64 (.finite .positive n q hn) =
        packedInfinity Format.binary64 .positive := by
      have hbias : (Format.binary64.exponentBias : ℤ) = 1023 := rfl
      rw [UnpackedFloat.pack]
      dsimp only
      rw [if_pos]
      omega
    refine ⟨_, .infinity, ?_⟩
    simp only [Float.Model.pack, hinfinity]
    rfl

/-- A number above zero that is taken a number of times, one at least, stays above zero. -/
theorem exists_pack_mul {u : UnpackedFloat} (hu : AboveZero u) {k : ℕ} {j : ℤ} (hk : 2 ^ 52 ≤ k)
    (hj : -52 ≤ j) (hpos : 0 < k) : ∃ v, AboveZero v ∧
      Float.Model.pack (UnpackedFloat.mul Format.binary64 (.finite .positive k j hpos) u) =
        Float.Model.pack v := by
  cases hu with
  | infinity => exact ⟨_, .infinity, rfl⟩
  | @finite m q hm =>
    have hlarge : k ≤ k * m := Nat.le_mul_of_pos_right k hm.pos
    have hlog : 52 ≤ (k * m).log2 := (Nat.le_log2 (by omega)).mpr (hk.trans hlarge)
    have hmin := hm.min_le
    obtain ⟨n, q', hn, hround, hlt, hmin', -, hnormal⟩ :=
      exists_roundWithAccuracy (m := k * m) (e := j + q) (hk.trans hlarge) (by omega)
    obtain ⟨v, hv, hpack⟩ := exists_pack_finite hn hlt hmin' hnormal
    refine ⟨v, hv, Eq.trans (congrArg Float.Model.pack ?_) hpack⟩
    exact hround

theorem ranking_zero_add_mul {c x : Float} {k : ℕ} {j : ℤ} {hpos : 0 < k}
    (hc : c.toModel.unpack = .finite .positive k j hpos) (hk : 2 ^ 52 ≤ k) (hj : -52 ≤ j)
    (hx : 0 < x) : 0 < ranking (Float.ofNat 0 + c * x) := by
  have hzero : (Float.ofNat 0).toModel.unpack = .zero .positive := by rfl
  have habove : AboveZero x.toModel.unpack :=
    aboveZero_unpack (isAbove_of_lt (u := (Float.ofNat 0).toModel.unpack) (hzero ▸ rfl)
      (of_decide_eq_true hx))
  obtain ⟨v, hv, hpack⟩ := exists_pack_mul habove hk hj hpos
  have hproduct : c * x = .ofModel (.pack v) := by
    rw [← hc] at hpack
    exact congrArg Float.ofModel hpack
  have hsum : Float.ofNat 0 + .ofModel (.pack v) = .ofModel (.pack v) := by
    refine congrArg (fun w => Float.ofModel (.pack w)) ?_
    change UnpackedFloat.add Format.binary64 (Float.ofNat 0).toModel.unpack (Float.Model.pack v).unpack = v
    rw [hzero, hv.unpack_pack, hv.zero_add]
  rw [hproduct, hsum]
  exact hv.ranking_pos

end RecordSearch.Decimal
