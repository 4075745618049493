import Mathlib.Algebra.Order.Field.Rat
import Mathlib.Tactic.Linarith
import Mathlib.Tactic.Ring
import RecordSearch.Search.Comparator

/-! Joint scores that are exact. A connective gives a record a mean of the scores that its operands
    give it, with a fixed share of the greater one (`jointScore_eq`). So the order of the operands does
    not count, two equal scores stay as they are, the mean lies between them, and what both have more,
    it has more. -/

namespace RecordSearch.Search.Comparator

open Arithmetic

/-- The share of the greater score in a joint one. -/
def greaterShare : Connective → Rat
  | .and => 4 / 10
  | .or => 3 / 10

theorem least_eq_min (a b : Rat) : least a b = min a b := by
  change (if b < a then b else a) = min a b
  split
  · next hlt => exact (min_eq_right hlt.le).symm
  · next hge => exact (min_eq_left (not_lt.mp hge)).symm

theorem greatest_eq_max (a b : Rat) : greatest a b = max a b := by
  change (if a < b then b else a) = max a b
  split
  · next hlt => exact (max_eq_right hlt.le).symm
  · next hge => exact (max_eq_left (not_lt.mp hge)).symm

theorem jointScore_eq (connective : Connective) (l r : Rat) : jointScore connective l r =
    (1 - greaterShare connective) * min l r + greaterShare connective * max l r := by
  cases connective with
  | and =>
    rw [jointScore, least_eq_min, greatest_eq_max, greaterShare]
    change (6 / 10 : Rat) * min l r + 4 / 10 * max l r = _
    ring
  | or =>
    rw [jointScore, least_eq_min, greatest_eq_max, greaterShare]
    change (3 / 10 : Rat) * max l r + 7 / 10 * min l r = _
    ring

theorem jointScore_comm (connective : Connective) (l r : Rat) :
    jointScore connective l r = jointScore connective r l := by
  rw [jointScore_eq, jointScore_eq, min_comm, max_comm]

theorem jointScore_self (connective : Connective) (score : Rat) :
    jointScore connective score score = score := by
  rw [jointScore_eq, min_self, max_self]
  ring

/-- If both operands give so much more, a connective does. -/
theorem jointScore_add (connective : Connective) (base l r : Rat) :
    jointScore connective (base + l) (base + r) = base + jointScore connective l r := by
  rw [jointScore_eq, jointScore_eq, min_add_add_left, max_add_add_left]
  ring

theorem min_le_jointScore (connective : Connective) (l r : Rat) :
    min l r ≤ jointScore connective l r := by
  have hshare : 0 ≤ greaterShare connective := by cases connective <;> norm_num [greaterShare]
  have hmore : 0 ≤ greaterShare connective * (max l r - min l r) :=
    mul_nonneg hshare (sub_nonneg.mpr min_le_max)
  rw [jointScore_eq]
  linarith

theorem jointScore_le_max (connective : Connective) (l r : Rat) :
    jointScore connective l r ≤ max l r := by
  have hshare : greaterShare connective ≤ 1 := by cases connective <;> norm_num [greaterShare]
  have hless : 0 ≤ (1 - greaterShare connective) * (max l r - min l r) :=
    mul_nonneg (sub_nonneg.mpr hshare) (sub_nonneg.mpr min_le_max)
  rw [jointScore_eq]
  linarith

end RecordSearch.Search.Comparator
