import Mathlib.Data.List.Basic
import RecordSearch.Text.Escaped
import RecordSearch.Text.Hexadecimal

/-! Quoted texts can be told apart. What is written for a character shows where it ends and what the
    character is (`Escapes.cancel`), so distinct texts have distinct quoted forms
    (`escape_injective`), and a quoted form is a single line (`newline_not_mem_escape`). -/

namespace RecordSearch.Text

/-- What stands before the first separator and after it is known from the whole. -/
theorem append_separator_inj {α : Type} {separator : α} : ∀ {cs ds xs ys : List α},
    separator ∉ cs → separator ∉ ds → cs ++ separator :: xs = ds ++ separator :: ys →
      cs = ds ∧ xs = ys
  | [], [], _, _, _, _, h => ⟨rfl, (List.cons.inj h).2⟩
  | [], d :: _, _, _, _, hds, h => by
      obtain rfl : separator = d := (List.cons.inj h).1
      exact absurd List.mem_cons_self hds
  | c :: _, [], _, _, hcs, _, h => by
      obtain rfl : c = separator := (List.cons.inj h).1
      exact absurd List.mem_cons_self hcs
  | c :: cs, d :: ds, _, _, hcs, hds, h => by
      obtain ⟨rfl, hrest⟩ := List.cons.inj h
      obtain ⟨rfl, hafter⟩ := append_separator_inj (fun hmem => hcs (List.mem_cons_of_mem c hmem))
        (fun hmem => hds (List.mem_cons_of_mem c hmem)) hrest
      exact ⟨rfl, hafter⟩

/-! ### Characters by number -/

theorem hexDigit_digitChar : ∀ n < 16, hexDigit (Nat.digitChar n) = some n := by decide

/-- A number is the value of its digits. -/
theorem hexValue_toDigits (n : Nat) : hexValue (Nat.toDigits 16 n) = some n := by
  induction n using Nat.strongRecOn with
  | ind n ih =>
    rcases Nat.lt_or_ge n 16 with hn | hn
    · rw [Nat.toDigits_of_lt_base hn, hexValue]
      simp [hexDigit_digitChar n hn]
    · rw [Nat.toDigits_of_base_le (by decide) hn, hexValue, List.foldlM_append]
      have hfront : hexValue (Nat.toDigits 16 (n / 16)) = some (n / 16) := ih _ (by omega)
      rw [hexValue] at hfront
      have hlast := hexDigit_digitChar (n % 16) (Nat.mod_lt n (by decide))
      simp [hfront, hlast, Nat.div_add_mod]

theorem hexOf_injective : Function.Injective hexOf := by
  intro c d h
  have hvalue : some c.toNat = some d.toNat := by
    rw [← hexValue_toDigits, ← hexValue_toDigits]
    exact congrArg hexValue h
  exact Char.toNat_inj.mp (Option.some.inj hvalue)

/-- A digit is neither the brace that ends a number nor the end of a line. -/
theorem ne_of_mem_toDigits {d : Char} {n : Nat} (h : d ∈ Nat.toDigits 16 n) :
    d ≠ '\x7d' ∧ d ≠ '\n' := by
  have hdigit : ∀ k < 16, Nat.digitChar k ≠ '\x7d' ∧ Nat.digitChar k ≠ '\n' := by decide
  induction n using Nat.strongRecOn with
  | ind n ih =>
    rcases Nat.lt_or_ge n 16 with hn | hn
    · rw [Nat.toDigits_of_lt_base hn, List.mem_singleton] at h
      exact h ▸ hdigit n hn
    · rw [Nat.toDigits_of_base_le (by decide) hn, List.mem_append, List.mem_singleton] at h
      rcases h with h | rfl
      · exact ih (n / 16) (by omega) h
      · exact hdigit _ (Nat.mod_lt n (by decide))

/-! ### Single characters -/

/-- The characters with short escapes, and the letters of these. -/
def shortEscapes : List (Char × Char) :=
  [('"', '"'), ('\\', '\\'), ('\n', 'n'), ('\r', 'r'), ('\t', 't'), ('\x00', '0')]

/-- The ways in which a character is written. -/
inductive Escapes (c : Char) : List Char → Prop
  | self (plain : c ∉ ['"', '\\', '\n']) : Escapes c [c]
  | short {letter : Char} (known : (c, letter) ∈ shortEscapes) : Escapes c ['\\', letter]
  | number : Escapes c ('\\' :: 'u' :: '\x7b' :: hexOf c ++ ['\x7d'])

theorem escapes_escapeChar (c : Char) : Escapes c (escapeChar c) := by
  rw [escapeChar]
  split
  · next h => exact .short (by simp [h, shortEscapes])
  · split
    · next h => exact .short (by simp [h, shortEscapes])
    · split
      · next h => exact .short (by simp [h, shortEscapes])
      · split
        · next h => exact .short (by simp [h, shortEscapes])
        · split
          · next h => exact .short (by simp [h, shortEscapes])
          · split
            · next h =>
              obtain rfl : c = '\x00' := Char.toNat_inj.mp h
              exact .short (by decide)
            · split
              · exact .number
              · exact .self (by simp_all)

/-- No two characters have the same short escape, and none is that of a number. -/
theorem shortEscapes_apart : ∀ e ∈ shortEscapes, e.2 ≠ 'u' ∧ e.2 ≠ '\n' ∧
    ∀ e' ∈ shortEscapes, e.2 = e'.2 → e.1 = e'.1 := by
  decide

section Escapes

variable {c d : Char} {source source' xs ys : List Char}

theorem Escapes.ne_nil (h : Escapes c source) : source ≠ [] := by
  cases h <;> simp

theorem Escapes.newline_not_mem (h : Escapes c source) : '\n' ∉ source := by
  cases h with
  | self plain =>
    rw [List.mem_singleton]
    rintro rfl
    exact plain (by decide)
  | short known =>
    have hletter := (shortEscapes_apart _ known).2.1
    simpa using hletter.symm
  | number =>
    have hdigits : '\n' ∉ hexOf c := fun hmem => (ne_of_mem_toDigits hmem).2 rfl
    simpa using hdigits

/-- What is written for a character shows where it ends. -/
theorem Escapes.cancel (h : Escapes c source) (h' : Escapes d source')
    (heq : source ++ xs = source' ++ ys) : c = d ∧ xs = ys := by
  cases h with
  | self plain =>
    cases h' with
    | self => simpa using heq
    | short =>
      obtain rfl : c = '\\' := (List.cons.inj heq).1
      exact absurd (by decide) plain
    | number =>
      obtain rfl : c = '\\' := (List.cons.inj heq).1
      exact absurd (by decide) plain
  | @short letter known =>
    cases h' with
    | self plain =>
      obtain rfl : '\\' = d := (List.cons.inj heq).1
      exact absurd (by decide) plain
    | @short letter' known' =>
      obtain ⟨hletter, hrest⟩ : letter = letter' ∧ xs = ys := by simpa using heq
      exact ⟨(shortEscapes_apart _ known).2.2 _ known' hletter, hrest⟩
    | number =>
      obtain ⟨hletter, -⟩ : letter = 'u' ∧ _ := by simpa using heq
      exact absurd hletter (shortEscapes_apart _ known).1
  | number =>
    cases h' with
    | self plain =>
      obtain rfl : '\\' = d := (List.cons.inj heq).1
      exact absurd (by decide) plain
    | @short letter known =>
      obtain ⟨hletter, -⟩ : 'u' = letter ∧ _ := by simpa using heq
      exact absurd hletter.symm (shortEscapes_apart _ known).1
    | number =>
      have hnumbers : hexOf c ++ '\x7d' :: xs = hexOf d ++ '\x7d' :: ys := by simpa using heq
      -- the digits end at the first brace
      have hbrace : ∀ e, '\x7d' ∉ hexOf e := fun e hmem => (ne_of_mem_toDigits hmem).1 rfl
      obtain ⟨hdigits, hrest⟩ := append_separator_inj (hbrace c) (hbrace d) hnumbers
      exact ⟨hexOf_injective hdigits, hrest⟩

end Escapes

/-! ### Texts -/

theorem flatMap_escapeChar_injective : ∀ {cs ds : List Char},
    cs.flatMap escapeChar = ds.flatMap escapeChar → cs = ds
  | [], [], _ => rfl
  | [], d :: ds, h => by
      rw [List.flatMap_nil, List.flatMap_cons, eq_comm, List.append_eq_nil_iff] at h
      exact absurd h.1 (escapes_escapeChar d).ne_nil
  | c :: cs, [], h => by
      rw [List.flatMap_nil, List.flatMap_cons, List.append_eq_nil_iff] at h
      exact absurd h.1 (escapes_escapeChar c).ne_nil
  | c :: cs, d :: ds, h => by
      rw [List.flatMap_cons, List.flatMap_cons] at h
      obtain ⟨rfl, hrest⟩ := (escapes_escapeChar c).cancel (escapes_escapeChar d) h
      rw [flatMap_escapeChar_injective hrest]

/-- Distinct texts have distinct quoted forms. -/
theorem escape_injective : Function.Injective escape := by
  intro s s' h
  have hquoted := String.ofList_injective h
  have htext : s.toList.flatMap escapeChar = s'.toList.flatMap escapeChar := by simpa using hquoted
  exact String.toList_injective (flatMap_escapeChar_injective htext)

theorem newline_not_mem_escape (s : String) : '\n' ∉ (escape s).toList := by
  have htext : '\n' ∉ s.toList.flatMap escapeChar := by
    rw [List.mem_flatMap]
    rintro ⟨c, -, hmem⟩
    exact (escapes_escapeChar c).newline_not_mem hmem
  simpa [escape] using htext

end RecordSearch.Text
