import RecordSearch.Proofs.Decimal.Layout
import RecordSearch.Proofs.Decimal.Nearest
import RecordSearch.Proofs.Decimal.Shortest

/-! Numbers written and read back. The digits of a finite double round to it, and the text that they
    are written in is read as these digits, so the double comes back (`readFinite_query_text`). -/

namespace RecordSearch.Decimal

open Float.Model Float.Model.UnpackedFloat

/-! ### Runs of digits -/

theorem natOfDigits_eq (cs : List Char) : natOfDigits cs = Nat.ofDigitChars 10 cs 0 :=
  Nat.ofDigitChars_eq_foldl.symm

theorem natOfDigits_zeros (n count : ℕ) :
    natOfDigits (digitsOf n ++ List.replicate count '0') = n * 10 ^ count := by
  rw [natOfDigits_eq, digitsOf, Nat.ofDigitChars_append, Nat.ofDigitChars_ten_toDigits,
    Nat.ofDigitChars_replicate_zero, Nat.mul_comm]

theorem natOfDigits_padded (n count : ℕ) :
    natOfDigits (List.replicate count '0' ++ digitsOf n) = n := by
  rw [natOfDigits_eq, digitsOf, Nat.ofDigitChars_append, Nat.ofDigitChars_replicate_zero,
    Nat.mul_zero, Nat.ofDigitChars_ten_toDigits]

theorem spanDigits_append {digits rest : List Char} (hdigits : ∀ c ∈ digits, c.isDigit = true)
    (hrest : spanDigits rest = ([], rest)) : spanDigits (digits ++ rest) = (digits, rest) := by
  obtain ⟨htake, hdrop⟩ := Prod.mk.inj hrest
  rw [spanDigits, List.takeWhile_append_of_pos hdigits, List.dropWhile_append_of_pos hdigits, htake,
    hdrop, List.append_nil]

theorem spanDigits_all {digits : List Char} (hdigits : ∀ c ∈ digits, c.isDigit = true) :
    spanDigits digits = (digits, []) := by
  have h := spanDigits_append hdigits (show spanDigits [] = ([], []) from rfl)
  rwa [List.append_nil] at h

section

variable {whole : List Char} (hne : whole ≠ []) (hwhole : ∀ c ∈ whole, c.isDigit = true)

include hne hwhole

theorem readUnsigned_whole : readUnsigned whole = some (nearest (natOfDigits whole) 0) := by
  rw [readUnsigned, spanDigits_all hwhole]
  simp [hne, readExponent]

theorem readUnsigned_point {fraction : List Char} (hfraction : ∀ c ∈ fraction, c.isDigit = true) :
    readUnsigned (whole ++ '.' :: fraction) =
      some (nearest (natOfDigits (whole ++ fraction)) (-fraction.length)) := by
  have hspan : spanDigits (whole ++ '.' :: fraction) = (whole, '.' :: fraction) :=
    spanDigits_append hwhole rfl
  rw [readUnsigned, hspan]
  simp [spanDigits_all hfraction, hne, readExponent]

end

/-- What is read begins with a digit or a point. -/
theorem exists_numeric_of_readUnsigned {cs : List Char} {x : Float} (h : readUnsigned cs = some x) :
    ∃ c rest, cs = c :: rest ∧ (c.isDigit = true ∨ c = '.') := by
  cases cs with
  | nil => cases h
  | cons c rest =>
    refine ⟨c, rest, rfl, ?_⟩
    by_contra hc
    obtain ⟨hdigit, hpoint⟩ := not_or.mp hc
    have hspan : spanDigits (c :: rest) = ([], c :: rest) := by simp [spanDigits, hdigit]
    rw [readUnsigned, hspan] at h
    simp [hpoint] at h

/-- Digits with the point some places before the end. -/
theorem readUnsigned_places {digits : List Char} {places : ℕ}
    (hdigits : ∀ c ∈ digits, c.isDigit = true) (hplaces : places < digits.length) :
    readUnsigned (digits.take (digits.length - places) ++
        '.' :: digits.drop (digits.length - places)) =
      some (nearest (natOfDigits digits) (-places)) := by
  have hne : digits.take (digits.length - places) ≠ [] := by
    rw [← List.length_pos_iff, List.length_take]
    omega
  have hlength : (digits.drop (digits.length - places)).length = places := by
    rw [List.length_drop]
    omega
  rw [readUnsigned_point hne (fun c hc => hdigits c (List.mem_of_mem_take hc))
    fun c hc => hdigits c (List.mem_of_mem_drop hc), List.take_append_drop, hlength]

/-! ### Digits in place -/

section

variable (d : Digits)

theorem isDigit_of_mem_padded (before after : ℕ) :
    ∀ c ∈ List.replicate before '0' ++ digitsOf d.significand ++ List.replicate after '0',
      c.isDigit = true := by
  have hzeros : ∀ count, ∀ c ∈ List.replicate count '0', c.isDigit = true := by
    intro count c hc
    rw [List.eq_of_mem_replicate hc]
    rfl
  intro c hc
  rcases List.mem_append.mp hc with hc | hc
  · rcases List.mem_append.mp hc with hc | hc
    · exact hzeros _ c hc
    · exact isDigit_of_mem_digitsOf hc
  · exact hzeros _ c hc

/-- Digits written in place are read as the number that they are. -/
theorem readUnsigned_positional :
    ∃ n k, readUnsigned (positional "" d).toList = some (nearest n k) ∧
      (n : ℚ) * 10 ^ k = d.significand * 10 ^ d.exponent := by
  rw [positional]
  split
  · next hexponent =>
    obtain ⟨count, hcount⟩ := Int.eq_ofNat_of_zero_le hexponent
    have hne : digitsOf d.significand ++ List.replicate count '0' ≠ [] :=
      List.append_ne_nil_of_left_ne_nil Nat.toDigits_ne_nil _
    have hdigits := isDigit_of_mem_padded d 0 count
    simp only [hcount, Int.toNat_natCast, String.toList_append, String.toList_ofList,
      String.toList_empty, List.append_nil]
    refine ⟨_, _, readUnsigned_whole hne hdigits, ?_⟩
    rw [natOfDigits_zeros, zpow_zero, mul_one, zpow_natCast]
    push_cast
    rfl
  · next hexponent =>
    obtain ⟨places, hplaces⟩ := Int.eq_ofNat_of_zero_le (by omega : 0 ≤ -d.exponent)
    have hdigits := isDigit_of_mem_padded d (places + 1 - (digitsOf d.significand).length) 0
    have hvalue := natOfDigits_padded d.significand (places + 1 - (digitsOf d.significand).length)
    have hpoint : ".".toList = ['.'] := rfl
    rw [List.replicate_zero, List.append_nil] at hdigits
    simp only [hplaces, Int.toNat_natCast, String.toList_append, String.toList_ofList, hpoint,
      List.append_assoc, List.singleton_append]
    refine ⟨_, _, readUnsigned_places hdigits ?_, ?_⟩
    · rw [List.length_append, List.length_replicate]
      omega
    · rw [hvalue, ← hplaces, neg_neg]

end

/-! ### Doubles -/

theorem readName_of_numeric {c : Char} {cs : List Char} (hc : c.isDigit = true ∨ c = '.') :
    readName (c :: cs) = none := by
  have hlower : c.toLower = c := by
    rcases hc with hdigit | rfl
    · have hrange : 48 ≤ c.toNat ∧ c.toNat ≤ 57 := Char.isDigit_iff_toNat.mp hdigit
      rw [Char.toLower, dif_neg]
      rintro ⟨hcapital, -⟩
      have hcapital' : 65 ≤ c.toNat := hcapital
      omega
    · rfl
  have hinf : c ≠ 'i' := by rintro rfl; revert hc; decide
  have hnan : c ≠ 'n' := by rintro rfl; revert hc; decide
  rw [readName, List.map_cons, hlower]
  simp [hinf, hnan]

/-- A sign is read before what is read without one. -/
theorem read_signed {negative : Bool} {text : String} {x : Float}
    (hread : readUnsigned text.toList = some x) :
    read (signed negative text).toList = some (if negative then -x else x) := by
  obtain ⟨c, cs, htext, hc⟩ := exists_numeric_of_readUnsigned hread
  have hspan : spanSign (signed negative text).toList = (negative, text.toList) := by
    cases negative with
    | true => rw [signed, if_pos rfl, String.toList_append]; rfl
    | false =>
      rw [signed, if_neg Bool.false_ne_true, htext, spanSign]
      · rintro rest ⟨rfl, -⟩
        revert hc
        decide
      · rintro rest ⟨rfl, -⟩
        revert hc
        decide
  have hname : readName text.toList = none := htext ▸ readName_of_numeric hc
  rw [read, hspan]
  simp [hname, hread]

/-- A finite number in a query reads back as itself. -/
theorem readFinite_query_text {x : Float} (h : isFinite x = true) :
    readFinite (Layout.query.text x).toList = some x := by
  have hfinite := h
  rw [isFinite] at h
  rw [readFinite]
  suffices hback : read (Layout.query.text x).toList = some x by
    rw [hback, Option.filter_some, if_pos hfinite]
  rw [Layout.text]
  split at h
  · next m q hx =>
    rw [hx]
    change read (signed (isNegative x) (positional "" (shortest .up m q))).toList = some x
    rcases eq_pack_of_magnitude hx with ⟨rfl, hzero⟩ | ⟨hm, hpack⟩
    · have hzeros : ∀ sign : Sign, read (signed (sign == .negative) (positional "" ⟨0, 0⟩)).toList =
          some (.ofModel (.pack (.zero sign))) := by
        rintro (_ | _) <;> decide +kernel
      have hback := hzeros (signOf x)
      rw [← hzero] at hback
      rw [signOf] at hback
      cases hsign : isNegative x <;> rw [hsign] at hback <;> exact hback
    · obtain ⟨n, k, hread, hvalue⟩ := readUnsigned_positional (shortest .up m q)
      have hrounds : RoundsTo (n * 10 ^ k) m q := hvalue ▸ shortest_roundsTo hm
      rw [nearest_of_roundsTo hm hrounds] at hread
      rw [read_signed hread, neg_pack hm]
      conv_rhs => rw [hpack]
      cases hsign : isNegative x <;> simp [signOf, hsign]
  · cases h

end RecordSearch.Decimal
