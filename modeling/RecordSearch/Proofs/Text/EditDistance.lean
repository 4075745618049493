import Mathlib.Order.Bounds.Basic
import Mathlib.Order.MinMax
import RecordSearch.Text.EditDistance

/-! The distance of two texts is the least number of edits. A script goes through both texts from the
    left and keeps, replaces, deletes or inserts a character or swaps two neighbours (`Edits`); what is
    left of the texts behind the first edit is edited by a script of its own, so each entry of a row is
    least if the entries that it is computed from are (`isDistance_step`). -/

namespace RecordSearch.Text

/-! ### Scripts -/

/-- A text is turned into another by so many edits, no part of it being edited twice. -/
inductive Edits (swaps : Bool) : List Char → List Char → Nat → Prop
  | nil : Edits swaps [] [] 0
  | keep {c : Char} {as bs : List Char} {n : Nat} (rest : Edits swaps as bs n) :
      Edits swaps (c :: as) (c :: bs) n
  | replace {c d : Char} {as bs : List Char} {n : Nat} (rest : Edits swaps as bs n) :
      Edits swaps (c :: as) (d :: bs) (n + 1)
  | delete {c : Char} {as bs : List Char} {n : Nat} (rest : Edits swaps as bs n) :
      Edits swaps (c :: as) bs (n + 1)
  | insert {d : Char} {as bs : List Char} {n : Nat} (rest : Edits swaps as bs n) :
      Edits swaps as (d :: bs) (n + 1)
  | swap {c d : Char} {as bs : List Char} {n : Nat} (allowed : swaps = true)
      (rest : Edits swaps as bs n) : Edits swaps (c :: d :: as) (d :: c :: bs) (n + 1)

variable {swaps : Bool}

theorem Edits.refl : ∀ as : List Char, Edits swaps as as 0
  | [] => .nil
  | _ :: as => .keep (refl as)

/-- A script without edits keeps every character. -/
theorem edits_zero {as bs : List Char} : Edits swaps as bs 0 ↔ as = bs := by
  constructor
  · generalize hn : 0 = n
    intro h
    induction h with
    | nil => rfl
    | keep _ ih => rw [ih hn]
    | replace | delete | insert | swap => cases hn
  · rintro rfl
    exact .refl as

/-- The least number of edits that turn a text into another. -/
def IsDistance (swaps : Bool) (as bs : List Char) (n : Nat) : Prop :=
  IsLeast {m | Edits swaps as bs m} n

/-- Only a text itself is at distance zero. -/
theorem isDistance_zero {as bs : List Char} : IsDistance swaps as bs 0 ↔ as = bs :=
  ⟨fun h => edits_zero.mp h.1, fun h => ⟨edits_zero.mpr h, fun m _ => Nat.zero_le m⟩⟩

theorem isDistance_nil_nil : IsDistance swaps [] [] 0 := isDistance_zero.mpr rfl

theorem IsDistance.insert_all {d : Char} {bs : List Char} {n : Nat} (h : IsDistance swaps [] bs n) :
    IsDistance swaps [] (d :: bs) (n + 1) := by
  refine ⟨.insert h.1, ?_⟩
  rintro m (_ | _ | _ | _ | hrest)
  exact Nat.succ_le_succ (h.2 hrest)

theorem IsDistance.delete_all {c : Char} {as : List Char} {n : Nat} (h : IsDistance swaps as [] n) :
    IsDistance swaps (c :: as) [] (n + 1) := by
  refine ⟨.delete h.1, ?_⟩
  rintro m (_ | _ | _ | hrest)
  exact Nat.succ_le_succ (h.2 hrest)

/-! ### Rows -/

/-- The distances from a text to every end piece of another. -/
inductive IsRow (swaps : Bool) (as : List Char) : List Char → List Nat → Prop
  | nil {n : Nat} (distance : IsDistance swaps as [] n) : IsRow swaps as [] [n]
  | cons {d : Char} {ds : List Char} {n : Nat} {row : List Nat}
      (distance : IsDistance swaps as (d :: ds) n) (rest : IsRow swaps as ds row) :
      IsRow swaps as (d :: ds) (n :: row)

theorem IsRow.head {as bs : List Char} {row : List Nat} (h : IsRow swaps as bs row) :
    IsDistance swaps as bs (row.headD 0) := by
  cases h with
  | nil distance => exact distance
  | cons distance _ => exact distance

theorem IsRow.tail {as ds : List Char} {d : Char} {row : List Nat}
    (h : IsRow swaps as (d :: ds) row) : IsRow swaps as ds row.tail := by
  cases h with
  | cons _ rest => exact rest

theorem isRow_lengths : ∀ bs : List Char, IsRow swaps [] bs (lengths bs)
  | [] => .nil isDistance_nil_nil
  | _ :: bs => by
      have hrest := isRow_lengths bs
      have hlength : (lengths bs).headD 0 = bs.length := by cases bs <;> rfl
      refine .cons ?_ hrest
      rw [← hlength]
      exact hrest.head.insert_all

/-- What a row is computed from besides the row before: the character after the first and the row
    without both, if neighbours may be swapped and there is such a character. -/
inductive Ahead (swaps : Bool) (bs : List Char) : List Char → Option (Char × List Nat) → Prop
  | none {as : List Char} (stuck : swaps = true → as = []) : Ahead swaps bs as none
  | some {next : Char} {as : List Char} {before : List Nat} (allowed : swaps = true)
      (row : IsRow swaps as bs before) : Ahead swaps bs (next :: as) (some (next, before))

theorem Ahead.tail {as ds : List Char} {d : Char} {swap : Option (Char × List Nat)}
    (h : Ahead swaps (d :: ds) as swap) :
    Ahead swaps ds as (swap.map fun (next, before) => (next, before.tail)) := by
  cases h with
  | none stuck => exact .none stuck
  | some allowed row => exact .some allowed row.tail

/-! ### The next row -/

section Step

variable {c d : Char} {as ds : List Char} {kept deleted inserted : Nat}
  (hkept : IsDistance swaps as ds kept) (hdeleted : IsDistance swaps as (d :: ds) deleted)
  (hinserted : IsDistance swaps (c :: as) ds inserted)

include hkept hdeleted hinserted

/-- The best of all ways to go on but a swap can be taken. -/
theorem edits_best : Edits swaps (c :: as) (d :: ds)
    (min (kept + if c = d then 0 else 1) (min (deleted + 1) (inserted + 1))) := by
  rcases min_choice (kept + if c = d then 0 else 1) (min (deleted + 1) (inserted + 1)) with
    hmin | hmin
  · rw [hmin]
    split
    · next heq =>
      subst heq
      exact .keep hkept.1
    · exact .replace hkept.1
  · rw [hmin]
    rcases min_choice (deleted + 1) (inserted + 1) with hmin | hmin
    · rw [hmin]
      exact .delete hdeleted.1
    · rw [hmin]
      exact .insert hinserted.1

/-- A script with fewer edits starts with a swap. -/
theorem best_le {m : Nat} (h : Edits swaps (c :: as) (d :: ds) m)
    (hswap : ∀ as' ds' k, swaps = true → as = d :: as' → ds = c :: ds' → Edits swaps as' ds' k →
      m ≠ k + 1) :
    min (kept + if c = d then 0 else 1) (min (deleted + 1) (inserted + 1)) ≤ m := by
  cases h with
  | keep rest =>
    have hle := hkept.2 rest
    rw [if_pos rfl]
    omega
  | replace rest =>
    have hle := hkept.2 rest
    split <;> omega
  | delete rest =>
    have hle := hdeleted.2 rest
    omega
  | insert rest =>
    have hle := hinserted.2 rest
    omega
  | swap allowed rest => exact absurd rfl (hswap _ _ _ allowed rfl rfl rest)

/-- Where no swap can be made, the best of the other ways is the distance. -/
theorem isDistance_step (hstuck : swaps = true → ∀ as', as = d :: as' → ∀ ds', ds ≠ c :: ds') :
    IsDistance swaps (c :: as) (d :: ds)
      (min (kept + if c = d then 0 else 1) (min (deleted + 1) (inserted + 1))) := by
  refine ⟨edits_best hkept hdeleted hinserted, fun m hm => ?_⟩
  refine best_le hkept hdeleted hinserted hm fun as' ds' _ allowed has hds _ => ?_
  exact absurd hds (hstuck allowed as' has ds')

end Step

/-- Where a swap can be made, it is one more way. -/
theorem isDistance_swap {c d : Char} {as ds : List Char} {kept deleted inserted swapped : Nat}
    (hkept : IsDistance swaps (d :: as) (c :: ds) kept)
    (hdeleted : IsDistance swaps (d :: as) (d :: c :: ds) deleted)
    (hinserted : IsDistance swaps (c :: d :: as) (c :: ds) inserted) (allowed : swaps = true)
    (hswapped : IsDistance swaps as ds swapped) :
    IsDistance swaps (c :: d :: as) (d :: c :: ds)
      (min (min (kept + if c = d then 0 else 1) (min (deleted + 1) (inserted + 1)))
        (swapped + 1)) := by
  have hbest := edits_best hkept hdeleted hinserted
  have hle {m : Nat} := best_le hkept hdeleted hinserted (m := m)
  generalize min (kept + if c = d then 0 else 1) (min (deleted + 1) (inserted + 1)) = best at *
  constructor
  · rcases min_choice best (swapped + 1) with hmin | hmin
    · rwa [hmin]
    · rw [hmin]
      exact .swap allowed hswapped.1
  · intro m hm
    by_contra hlt
    have hless : m < best := by omega
    refine absurd (hle hm fun as' ds' k _ has hds hrest => ?_) (not_le.mpr hless)
    obtain rfl := (List.cons.inj has).2
    obtain rfl := (List.cons.inj hds).2
    have hle := hswapped.2 hrest
    omega

theorem isRow_nextRow {c : Char} {as : List Char} : ∀ {bs : List Char} {row : List Nat}
    {swap : Option (Char × List Nat)}, IsRow swaps as bs row → Ahead swaps bs as swap →
    IsRow swaps (c :: as) bs (nextRow c swap bs row)
  | [], _, _, hrow, _ => .nil hrow.head.delete_all
  | d :: ds, row, swap, hrow, hahead => by
    have hrest := isRow_nextRow (c := c) hrow.tail hahead.tail
    unfold nextRow
    refine .cons ?_ hrest
    cases hahead with
    | none stuck =>
      refine isDistance_step hrow.tail.head hrow.head hrest.head fun allowed as' has => ?_
      rw [stuck allowed] at has
      cases has
    | @some next as before allowed hbefore =>
      cases ds with
      | nil => exact isDistance_step hrow.tail.head hrow.head hrest.head fun _ _ _ _ => nofun
      | cons e ds =>
        by_cases hswap : c = e ∧ next = d
        · simp only [if_pos hswap]
          obtain ⟨rfl, rfl⟩ := hswap
          exact isDistance_swap hrow.tail.head hrow.head hrest.head allowed hbefore.tail.tail.head
        · simp only [if_neg hswap]
          refine isDistance_step hrow.tail.head hrow.head hrest.head fun _ as' has ds' hds => ?_
          exact hswap ⟨(List.cons.inj hds).1.symm, (List.cons.inj has).1⟩

/-! ### The distance -/

theorem isRow_distanceRows (bs : List Char) : ∀ as : List Char,
    IsRow swaps as bs (distanceRows swaps bs as).1 ∧
      ∀ c as', as = c :: as' → IsRow swaps as' bs (distanceRows swaps bs as).2
  | [] => ⟨isRow_lengths bs, nofun⟩
  | c :: as => by
    obtain ⟨hrow, hbefore⟩ := isRow_distanceRows bs as
    rw [distanceRows]
    refine ⟨isRow_nextRow hrow ?_, fun c' as' has => ?_⟩
    · cases swaps with
      | false => exact .none nofun
      | true =>
        cases as with
        | nil => exact .none fun _ => rfl
        | cons next as => exact .some rfl (hbefore next as rfl)
    · rw [← (List.cons.inj has).2]
      exact hrow

/-- The distance of two texts is the least number of edits that turn one into the other. -/
theorem isDistance_editDistance (swaps : Bool) (as bs : List Char) :
    IsDistance swaps as bs (editDistance swaps as bs) := (isRow_distanceRows bs as).1.head

-- nothing is put between two characters that were swapped
example : editDistance true ['c', 'a'] ['a', 'b', 'c'] = 3 := by decide

/-- A text has no more than one distance from another. -/
theorem distanceUpTo_eq_some_iff {most n : Nat} {as bs : List Char} :
    distanceUpTo most swaps as bs = some n ↔ IsDistance swaps as bs n ∧ n ≤ most := by
  have hdistance := isDistance_editDistance swaps as bs
  rw [distanceUpTo, Option.ite_none_right_eq_some, Option.some_inj]
  constructor
  · rintro ⟨hle, rfl⟩
    exact ⟨hdistance, hle⟩
  · rintro ⟨hn, hle⟩
    obtain rfl := hdistance.unique hn
    exact ⟨hle, rfl⟩

end RecordSearch.Text
