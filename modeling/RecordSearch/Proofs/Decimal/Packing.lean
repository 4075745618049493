import RecordSearch.Proofs.Decimal.Rounding

/-! The bits of doubles. A finite double is packed from its sign, its significand and its exponent
    (`eq_pack_of_magnitude`), and unpacks to them again. -/

namespace RecordSearch.Decimal

open Float.Model Float.Model.UnpackedFloat

/-! ### Fields -/

theorem toNat_packComponents (sign : Sign) (exponent : BitVec 11) (fraction : BitVec 52) :
    (packComponents Format.binary64 sign exponent fraction).toNat =
      sign.toBitVec.toNat * 2 ^ 63 + exponent.toNat * 2 ^ 52 + fraction.toNat := by
  have happend : ((sign.toBitVec ++ exponent) ++ fraction).toNat =
      (sign.toBitVec.toNat * 2 ^ 11 + exponent.toNat) * 2 ^ 52 + fraction.toNat := by
    rw [BitVec.toNat_append, ← Nat.shiftLeft_add_eq_or_of_lt fraction.isLt, BitVec.toNat_append,
      ← Nat.shiftLeft_add_eq_or_of_lt exponent.isLt, Nat.shiftLeft_eq, Nat.shiftLeft_eq]
  refine happend.trans ?_
  omega

theorem log2_of_normal {m : ℕ} (hle : 2 ^ 52 ≤ m) (hlt : m < 2 ^ 53) : m.log2 = 52 :=
  (Nat.log2_eq_iff (by omega)).mpr ⟨hle, hlt⟩

section

variable {m : ℕ} {q : ℤ} (hm : IsMagnitude m q) (sign : Sign)

include hm

/-- The fields of a double at full precision. -/
theorem pack_normal (hnormal : 2 ^ 52 ≤ m) :
    UnpackedFloat.pack Format.binary64 (.finite sign m q hm.pos) =
      packComponents Format.binary64 sign (.ofNat 11 (q + 1075).toNat) (.ofNat 52 m) := by
  have hmin := hm.min_le
  have hmax := hm.le_max
  have hbias : (q + Format.binary64.exponentBias + (52 : ℕ)).toNat = (q + 1075).toNat := by
    have : (Format.binary64.exponentBias : ℤ) = 1023 := rfl
    omega
  rw [UnpackedFloat.pack]
  simp only [hbias, log2_of_normal hnormal hm.lt]
  rw [if_neg (by omega)]
  rfl

/-- The fields of a double with fewer bits. -/
theorem pack_subnormal (hsub : m < 2 ^ 52) :
    UnpackedFloat.pack Format.binary64 (.finite sign m q hm.pos) =
      packComponents Format.binary64 sign 0#11 (.ofNat 52 m) := by
  have hq : q = -1074 := by have := hm.normal; omega
  have hlog : m.log2 < 52 := log2_lt_of_lt (by decide) hsub
  have hbits : Format.binary64.mantissaBits = 53 := rfl
  rw [UnpackedFloat.pack, hq]
  simp only [hbits]
  rw [if_neg (by decide), if_neg (by omega)]

theorem unpack_pack_normal (hnormal : 2 ^ 52 ≤ m) :
    (Float.Model.pack (.finite sign m q hm.pos)).unpack = .finite sign m q hm.pos := by
  have hmin := hm.min_le
  have hmax := hm.le_max
  have hlt := hm.lt
  have hexponent : (BitVec.ofNat 11 (q + 1075).toNat).toNat = (q + 1075).toNat := by
    rw [BitVec.toNat_ofNat, Nat.mod_eq_of_lt (by omega)]
  have hfraction : (1#1 ++ BitVec.ofNat 52 m).toNat = m := by
    rw [BitVec.toNat_append, BitVec.toNat_ofNat, ← Nat.shiftLeft_add_eq_or_of_lt (by omega)]
    change 2 ^ 52 + m % 2 ^ 52 = m
    omega
  have hinfinite : BitVec.ofNat 11 (q + 1075).toNat ≠ -1#11 := by
    intro h
    have h' := hexponent ▸ congrArg BitVec.toNat h
    change (q + 1075).toNat = 2047 at h'
    omega
  have hzero : BitVec.ofNat 11 (q + 1075).toNat ≠ 0#11 := by
    intro h
    have h' := hexponent ▸ congrArg BitVec.toNat h
    change (q + 1075).toNat = 0 at h'
    omega
  have hbias : ((q + 1075).toNat : ℤ) - (Format.binary64.exponentBias + (52 : ℕ)) = q := by
    change ((q + 1075).toNat : ℤ) - 1075 = q
    omega
  change UnpackedFloat.unpack Format.binary64 (UnpackedFloat.pack Format.binary64 _) = _
  rw [pack_normal hm sign hnormal, UnpackedFloat.unpack]
  simp only [unpackMantissa_packComponents, unpackExponent_packComponents, unpackSign_packComponents,
    Sign.ofBitVec_toBitVec, hinfinite, hzero, if_false, hexponent, hfraction, hbias]

theorem unpack_pack_subnormal (hsub : m < 2 ^ 52) :
    (Float.Model.pack (.finite sign m q hm.pos)).unpack = .finite sign m q hm.pos := by
  have hfraction : (BitVec.ofNat 52 m).toNat = m := by
    rw [BitVec.toNat_ofNat, Nat.mod_eq_of_lt hsub]
  have hzero : BitVec.ofNat 52 m ≠ 0#52 := by
    intro h
    have h' := hfraction ▸ congrArg BitVec.toNat h
    exact hm.pos.ne' h'
  have hq : q = -1074 := by have := hm.normal; omega
  change UnpackedFloat.unpack Format.binary64 (UnpackedFloat.pack Format.binary64 _) = _
  rw [pack_subnormal hm sign hsub, UnpackedFloat.unpack]
  simp only [unpackMantissa_packComponents, unpackExponent_packComponents, unpackSign_packComponents,
    Sign.ofBitVec_toBitVec, hzero, hfraction, hq]
  rfl

theorem unpack_pack : (Float.Model.pack (.finite sign m q hm.pos)).unpack = .finite sign m q hm.pos := by
  rcases le_or_gt (2 ^ 52) m with hnormal | hsub
  · exact unpack_pack_normal hm sign hnormal
  · exact unpack_pack_subnormal hm sign hsub

end

theorem neg_pack {m : ℕ} {q : ℤ} (hm : IsMagnitude m q) :
    -Float.ofModel (.pack (.finite .positive m q hm.pos)) =
      .ofModel (.pack (.finite .negative m q hm.pos)) := by
  change Float.ofModel (.pack (UnpackedFloat.neg (Float.Model.pack _).unpack)) = _
  rw [unpack_pack hm]
  rfl

/-! ### Doubles by their bits -/

/-- The sign of a double. -/
def signOf (x : Float) : Sign := if isNegative x then .negative else .positive

theorem toNat_signOf (x : Float) : (signOf x).toBitVec.toNat = x.toBits.toNat / 2 ^ 63 := by
  have hlt := x.toBits.toNat_lt
  have hsize : UInt64.size = 2 * 2 ^ 63 := rfl
  rw [signOf, isNegative]
  change (if x.toBits.toNat / 2 ^ 63 == 1 then Sign.negative else .positive).toBitVec.toNat = _
  split
  · next hone => exact (eq_of_beq hone).symm
  · next hone =>
    have hne : x.toBits.toNat / 2 ^ 63 ≠ 1 := fun h => hone (beq_of_eq h)
    change 0 = _
    omega

theorem eq_pack_of_magnitude {x : Float} {m : ℕ} {q : ℤ} (h : magnitude x = .finite m q) :
    (m = 0 ∧ x = .ofModel (.pack (.zero (signOf x)))) ∨
      ∃ hm : IsMagnitude m q, x = .ofModel (.pack (.finite (signOf x) m q hm.pos)) := by
  have hsign := toNat_signOf x
  have hpow : (2 : ℕ) ^ 11 = 2048 := rfl
  -- the bits are put together again from the fields that were read off
  have hpacked : ∀ u, (UnpackedFloat.pack Format.binary64 u).toNat = x.toBits.toNat →
      x = .ofModel (.pack u) := by
    intro u hu
    refine Float.toBits_inj.mp (UInt64.toNat_inj.mp ?_)
    exact hu.symm
  rw [magnitude] at h
  simp only [Nat.pow_eq] at h
  split at h
  · split at h <;> cases h
  · split at h
    · next hexponent =>
      obtain ⟨rfl, rfl⟩ := Magnitude.finite.inj h
      have hfraction : x.toBits.toNat % 2 ^ 52 < 2 ^ 52 := Nat.mod_lt _ (by decide)
      generalize hm : x.toBits.toNat % 2 ^ 52 = m at hfraction
      rcases Nat.eq_zero_or_pos m with rfl | hpos
      · refine .inl ⟨rfl, hpacked _ ?_⟩
        rw [UnpackedFloat.pack, packedZero, toNat_packComponents, hsign]
        change _ + 0 * 2 ^ 52 + 0 = _
        omega
      · have hmagnitude : IsMagnitude m (-1074) := ⟨hpos, by omega, by omega, by omega, .inr rfl⟩
        refine .inr ⟨hmagnitude, hpacked _ ?_⟩
        rw [pack_subnormal hmagnitude _ hfraction, toNat_packComponents, hsign, BitVec.toNat_ofNat,
          BitVec.toNat_ofNat, Nat.mod_eq_of_lt hfraction]
        omega
    · next hinfinite hexponent =>
      obtain ⟨rfl, rfl⟩ := Magnitude.finite.inj h
      have hfraction : x.toBits.toNat % 2 ^ 52 < 2 ^ 52 := Nat.mod_lt _ (by decide)
      have hmagnitude : IsMagnitude (2 ^ 52 + x.toBits.toNat % 2 ^ 52)
          ((x.toBits.toNat / 2 ^ 52 % 2 ^ 11 : ℕ) - 1075) :=
        ⟨by omega, by omega, by omega, by omega, .inl (Nat.le_add_right _ _)⟩
      refine .inr ⟨hmagnitude, hpacked _ ?_⟩
      rw [pack_normal hmagnitude _ (Nat.le_add_right _ _), toNat_packComponents, hsign,
        BitVec.toNat_ofNat, BitVec.toNat_ofNat]
      omega

end RecordSearch.Decimal
