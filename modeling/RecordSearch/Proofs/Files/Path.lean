import Mathlib.Data.List.Infix
import Mathlib.Data.List.TakeWhile
import RecordSearch.Files.Path
import RecordSearch.Files.Tree
import RecordSearch.Proofs.Text.Words

/-! Absolute paths by the names that they consist of. Cut at its slashes such a path falls into its names
    again (`pieces_joinParts`), so the directories above it are those of fewer and fewer names
    (`ancestors_absolute`), what is joined to it becomes its last name (`join_absolute`), and paths
    that say the same have the same names (`components_absolute`). -/

namespace RecordSearch.Files

/-- A name that may stand between slashes: it leads somewhere, and it is one part. -/
def IsPart (name : String) : Prop := '/' ∉ name.toList ∧ isIdle name.toList = false

instance : DecidablePred IsPart := fun _ => inferInstanceAs (Decidable (_ ∧ _))

/-- The absolute path of some names. -/
def absolute (names : Names) : String := String.ofList ('/' :: joinParts (names.map String.toList))

example : absolute ["home", "user"] = "/home/user" := by decide

theorem toList_absolute (names : Names) :
    (absolute names).toList = '/' :: joinParts (names.map String.toList) := by
  rw [absolute, String.toList_ofList]

/-! ### Parts between slashes -/

@[simp] theorem joinParts_singleton (p : List Char) : joinParts [p] = p := List.intercalate_singleton

theorem joinParts_cons {p : List Char} {ps : List (List Char)} (h : ps ≠ []) :
    joinParts (p :: ps) = p ++ '/' :: joinParts ps := by
  obtain ⟨q, qs, rfl⟩ := List.exists_cons_of_ne_nil h
  rw [joinParts, List.intercalate_cons_cons, List.append_assoc]
  rfl

theorem joinParts_concat {p : List Char} {ps : List (List Char)} (h : ps ≠ []) :
    joinParts (ps ++ [p]) = joinParts ps ++ '/' :: p := by
  induction ps with
  | nil => exact absurd rfl h
  | cons q qs ih =>
    by_cases hqs : qs = []
    · subst hqs
      rw [List.singleton_append, joinParts_cons (List.cons_ne_nil p []), joinParts_singleton,
        joinParts_singleton]
    · rw [List.cons_append, joinParts_cons (by simp), ih hqs, joinParts_cons hqs, List.append_assoc]
      rfl

/-- A text without a separator is one piece. -/
theorem pieces_of_not_mem {p : List Char} (h : '/' ∉ p) : Text.pieces (· = '/') p = [p] := by
  induction p with
  | nil => rfl
  | cons c cs ih =>
    rw [List.mem_cons, not_or] at h
    rw [Text.pieces, if_neg (by simpa using Ne.symm h.1), ih h.2]

/-- Joined parts are cut into the parts. -/
theorem pieces_joinParts : ∀ {ps : List (List Char)}, ps ≠ [] → (∀ p ∈ ps, '/' ∉ p) →
    Text.pieces (· = '/') (joinParts ps) = ps
  | [p], _, h => by rw [joinParts_singleton, pieces_of_not_mem (h p List.mem_cons_self)]
  | p :: q :: ps, _, h => by
      rw [joinParts_cons (List.cons_ne_nil q ps), Text.pieces_append (by simp),
        pieces_of_not_mem (h p List.mem_cons_self),
        pieces_joinParts (List.cons_ne_nil q ps) fun r hr => h r (List.mem_cons_of_mem p hr)]
      rfl

theorem dropIdle_eq_self {ps : List (List Char)} (h : ∀ p ∈ ps, isIdle p = false) :
    dropIdle ps = ps := by
  have hall : ∀ p ∈ ps.reverse, ¬ isIdle p = true := fun p hp => by simp [h p (List.mem_reverse.mp hp)]
  rw [dropIdle, List.dropWhile_eq_self_iff.mpr fun hl => hall _ (List.getElem_mem hl),
    List.reverse_reverse]

theorem length_le_joinParts : ∀ {ps : List (List Char)}, (∀ p ∈ ps, isIdle p = false) →
    ps.length ≤ (joinParts ps).length
  | [], _ => Nat.zero_le _
  | [p], h => by
      have hp : p ≠ [] := by
        rintro rfl
        cases h [] List.mem_cons_self
      rw [joinParts_singleton]
      exact List.length_pos_iff.mpr hp
  | p :: q :: ps, h => by
      have hrest := length_le_joinParts fun r hr => h r (List.mem_cons_of_mem p hr)
      have hwhole : (joinParts (p :: q :: ps)).length =
          p.length + ((joinParts (q :: ps)).length + 1) := by
        rw [joinParts_cons (List.cons_ne_nil q ps), List.length_append, List.length_cons]
      rw [hwhole, List.length_cons]
      omega

/-! ### Absolute paths -/

section Absolute

variable {names : Names} {name : String} (h : ∀ name ∈ names, IsPart name)

include h

theorem isIdle_of_isPart : ∀ p ∈ names.map String.toList, isIdle p = false := by
  intro p hp
  obtain ⟨name, hname, rfl⟩ := List.mem_map.mp hp
  exact (h name hname).2

theorem slash_not_mem_of_isPart : ∀ p ∈ names.map String.toList, '/' ∉ p := by
  intro p hp
  obtain ⟨name, hname, rfl⟩ := List.mem_map.mp hp
  exact (h name hname).1

/-- What is between the slashes are the names, and for the root a part that leads nowhere. -/
theorem pieces_absolute : Text.pieces (· = '/') (joinParts (names.map String.toList)) =
    if names = [] then [[]] else names.map String.toList := by
  split
  · next hnames =>
    subst hnames
    rfl
  · next hnames =>
    exact pieces_joinParts (by simpa using hnames) (slash_not_mem_of_isPart h)

theorem parts_absolute : parts (absolute names).toList = names.map String.toList := by
  have hcut : (absolute names).toList.drop (lead (absolute names).toList).length =
      joinParts (names.map String.toList) := by
    rw [toList_absolute]
    rfl
  rw [parts, hcut, pieces_absolute h]
  split
  · next hnames =>
    subst hnames
    rfl
  · exact dropIdle_eq_self (isIdle_of_isPart h)

/-- An absolute path says its names. -/
theorem components_absolute : components (absolute names) = (['/'], names.map String.toList) := by
  rw [components, toList_absolute]
  have hfilter : (names.map String.toList).filter (fun part => !isIdle part) =
      names.map String.toList :=
    List.filter_eq_self.mpr fun p hp => by rw [isIdle_of_isPart h p hp]; rfl
  refine congrArg (Prod.mk ['/']) ?_
  show (Text.pieces (· = '/') (joinParts (names.map String.toList))).filter _ = _
  rw [pieces_absolute h]
  split
  · next hnames =>
    subst hnames
    rfl
  · exact hfilter

theorem length_le_absolute : names.length < (absolute names).length := by
  have hparts := length_le_joinParts (isIdle_of_isPart h)
  rw [List.length_map] at hparts
  rw [← String.length_toList, toList_absolute, List.length_cons]
  omega

end Absolute

/-- Nothing is above the root. -/
theorem parent_absolute_nil : parent (absolute []) = none := by decide

/-- Above an absolute path is that of all its names but the last. -/
theorem parent_absolute_concat {names : Names} {name : String}
    (h : ∀ name' ∈ names ++ [name], IsPart name') :
    parent (absolute (names ++ [name])) = some (absolute names) := by
  have hlead : lead (absolute (names ++ [name])).toList = ['/'] := by
    rw [toList_absolute]
    rfl
  have habove : dropIdle (names.map String.toList) = names.map String.toList :=
    dropIdle_eq_self (isIdle_of_isPart fun name' hname =>
      h name' (List.mem_append_left [name] hname))
  simp only [parent, hlead, parts_absolute h]
  rw [List.map_append, List.map_singleton, List.dropLast_concat, habove]
  simp [absolute]

/-- The beginnings of some names are those of all but the last, and all of them. -/
theorem inits_concat (names : Names) (name : String) :
    (names ++ [name]).inits.reverse = (names ++ [name]) :: names.inits.reverse := by
  rw [List.inits_append, List.reverse_append]
  rfl

theorem ancestorsUpTo_absolute {names : Names} {count : Nat} (h : ∀ name ∈ names, IsPart name)
    (hcount : names.length < count) :
    ancestorsUpTo count (absolute names) = names.inits.reverse.map absolute := by
  induction names using List.reverseRecOn generalizing count with
  | nil =>
    obtain ⟨rest, rfl⟩ := Nat.exists_eq_add_of_lt hcount
    rw [ancestorsUpTo, parent_absolute_nil]
    rfl
  | append_singleton names name ih =>
    obtain ⟨rest, rfl⟩ := Nat.exists_eq_add_of_lt hcount
    rw [ancestorsUpTo, parent_absolute_concat h, inits_concat, List.map_cons]
    refine congrArg (absolute (names ++ [name]) :: ·) (ih (fun name' hname => ?_) ?_)
    · exact h name' (List.mem_append_left [name] hname)
    · rw [List.length_append, List.length_singleton]
      omega

/-- Above an absolute path are those of fewer and fewer of its names. -/
theorem ancestors_absolute {names : Names} (h : ∀ name ∈ names, IsPart name) :
    ancestors (absolute names) = names.inits.reverse.map absolute :=
  ancestorsUpTo_absolute h (Nat.lt_succ_of_lt (length_le_absolute h))

/-! ### Joined paths -/

theorem startsWith_slash_of_isPart {name : String} (h : IsPart name) :
    name.startsWith "/" = false := by
  rw [← Bool.not_eq_true, String.startsWith_string_iff]
  rintro ⟨rest, hrest⟩
  exact h.1 (hrest ▸ List.mem_cons_self)

theorem endsWith_iff {text pattern : String} :
    text.endsWith pattern = true ↔ pattern.toList <:+ text.toList := by
  rw [String.endsWith, String.Slice.endsWith_string_iff, String.copy_toSlice]

/-- One more name comes after a slash, which the root has already. -/
theorem toList_absolute_concat (names : Names) (name : String) :
    (absolute (names ++ [name])).toList =
      (if names = [] then ['/'] else (absolute names).toList ++ ['/']) ++ name.toList := by
  rw [toList_absolute, toList_absolute, List.map_append, List.map_singleton]
  split
  · next hnames =>
    subst hnames
    rw [List.map_nil, List.nil_append, joinParts_singleton]
    rfl
  · next hnames =>
    rw [joinParts_concat (by simpa using hnames)]
    simp

/-- A name that leads somewhere does not end with a slash, and no path that it ends does. -/
theorem endsWith_slash_absolute {names : Names} {name : String} (h : IsPart name) :
    (absolute (names ++ [name])).endsWith "/" = false := by
  have hname : name.toList ≠ [] := by
    intro hnil
    have hidle := h.2
    rw [hnil] at hidle
    cases hidle
  obtain ⟨front, last, hlast⟩ := (List.eq_nil_or_concat name.toList).resolve_left hname
  rw [List.concat_eq_append] at hlast
  rw [← Bool.not_eq_true, endsWith_iff, toList_absolute_concat, hlast, ← List.append_assoc]
  rintro ⟨rest, hrest⟩
  obtain rfl : '/' = last := by simpa using (List.append_inj' hrest rfl).2
  exact h.1 (hlast ▸ List.mem_append_right front List.mem_cons_self)

/-- What is joined to an absolute path becomes its last name. -/
theorem join_absolute {names : Names} {name : String} (h : ∀ name ∈ names, IsPart name)
    (hname : IsPart name) : join (absolute names) name = absolute (names ++ [name]) := by
  have hnonempty : (absolute names).isEmpty = false := by
    rw [String.isEmpty_eq_false_iff, ne_eq, ← String.toList_eq_nil_iff, toList_absolute]
    exact List.cons_ne_nil _ _
  rw [join, startsWith_slash_of_isPart hname, if_neg Bool.false_ne_true, hnonempty, ← String.toList_inj,
    toList_absolute_concat]
  rcases List.eq_nil_or_concat names with rfl | ⟨front, last, rfl⟩
  · have hroot : (absolute []).toList = ['/'] := toList_absolute []
    have hslash : (absolute []).endsWith "/" = true :=
      endsWith_iff.mpr ⟨[], by rw [hroot]; rfl⟩
    rw [if_pos (.inr hslash), if_pos rfl, String.toList_append, hroot]
  · rw [List.concat_eq_append] at h ⊢
    have hslash : (absolute (front ++ [last])).endsWith "/" = false :=
      endsWith_slash_absolute (h last (by simp))
    rw [hslash, if_neg (by simp), if_neg (by simp), String.toList_append, String.toList_append]
    rfl

end RecordSearch.Files
