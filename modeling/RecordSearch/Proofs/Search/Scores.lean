import Mathlib.Data.List.Basic
import RecordSearch.Proofs.Search.Index

/-! What ranking does to each record, said once for terms and once for connectives. A term without a
    comparison adds to the scores of some records, in turn (`rankMatches_eq_addScores`), and leaves
    the members alone. A connective goes by which operand keeps a record: by that it stays
    (`members_joinScores`), and by that it is given a joint score or is left as it was
    (`getElem?_joinScores`). -/

namespace RecordSearch.Search

open RecordSearch.Query (Token)

variable {α : Type}

/-! ### Scores one by one -/

namespace WorkingSet

variable {w : WorkingSet α} {id : Nat}

theorem eq_of_getElem? {v : WorkingSet α} (hmembers : v.members = w.members)
    (hscores : ∀ id : Nat, v.scores[id]? = w.scores[id]?) : v = w := by
  obtain ⟨_, _⟩ := v
  obtain ⟨_, _⟩ := w
  obtain rfl := hmembers
  exact congrArg _ (List.ext_getElem? hscores)

@[simp] theorem members_setScore (id : Nat) (score : α) (w : WorkingSet α) :
    (w.setScore id score).members = w.members := rfl

@[simp] theorem members_addScore [Arithmetic α] (id : Nat) (delta : α) (w : WorkingSet α) :
    (w.addScore id delta).members = w.members := rfl

theorem hasMember_iff (hid : id < w.capacity) : w.hasMember id = true ↔ id ∈ w.members := by
  rw [hasMember, Bool.and_eq_true, decide_eq_true_iff, List.contains_iff_mem]
  exact and_iff_right hid

theorem members_foldl {β : Type} {step : WorkingSet α → β → WorkingSet α}
    (hstep : ∀ w b, (step w b).members = w.members) (bs : List β) :
    ∀ w, (bs.foldl step w).members = w.members := by
  induction bs with
  | nil => intro w; rfl
  | cons b bs ih =>
    intro w
    rw [List.foldl_cons, ih, hstep]

theorem getElem?_setScore (other : Nat) (score : α) :
    (w.setScore other score).scores[id]? =
      if other = id then (w.scores[id]?).map fun _ => score else w.scores[id]? := by
  rw [setScore, List.getElem?_set]
  split
  · next heq =>
    subst heq
    split
    · next hlt => rw [List.getElem?_eq_getElem hlt, Option.map_some]
    · next hge => rw [List.getElem?_eq_none (Nat.le_of_not_lt hge), Option.map_none]
  · rfl

/-- Scores that are set in turn, each by its record alone, are set for these records. -/
theorem getElem?_foldl_setScore (score : Nat → α) (ids : List Nat) (w : WorkingSet α) :
    (ids.foldl (fun w id => w.setScore id (score id)) w).scores[id]? =
      if id ∈ ids then (w.scores[id]?).map fun _ => score id else w.scores[id]? := by
  induction ids generalizing w with
  | nil => simp
  | cons other ids ih =>
    rw [List.foldl_cons, ih, getElem?_setScore]
    by_cases heq : other = id
    · subst heq
      simp only [if_true, List.mem_cons_self]
      split
      · rw [Option.map_map]
        rfl
      · rfl
    · have hmem : id ∈ other :: ids ↔ id ∈ ids := by simp [Ne.symm heq]
      simp only [hmem, heq, if_false]

variable [Arithmetic α]

theorem score_eq (id : Nat) : w.score id = (w.scores[id]?).getD Arithmetic.zero :=
  List.getD_eq_getElem?_getD

theorem getElem?_addScore (other : Nat) (delta : α) :
    (w.addScore other delta).scores[id]? =
      (w.scores[id]?).map fun score => if other = id then score + delta else score := by
  rw [addScore, List.getElem?_modify]
  rfl

/-- Adds to the scores of records in turn. -/
def addScores (credits : List (Nat × α)) (w : WorkingSet α) : WorkingSet α :=
  credits.foldl (fun w credit => w.addScore credit.1 credit.2) w

@[simp] theorem members_addScores (credits : List (Nat × α)) (w : WorkingSet α) :
    (w.addScores credits).members = w.members :=
  members_foldl (fun _ _ => members_addScore _ _ _) credits w

theorem addScores_cons (credit : Nat × α) (credits : List (Nat × α)) (w : WorkingSet α) :
    w.addScores (credit :: credits) = (w.addScore credit.1 credit.2).addScores credits := rfl

theorem addScores_append (cs ds : List (Nat × α)) (w : WorkingSet α) :
    w.addScores (cs ++ ds) = (w.addScores cs).addScores ds := List.foldl_append

/-- What additions give to one record, in turn. -/
def creditsTo (id : Nat) (credits : List (Nat × α)) : List α :=
  (credits.filter (·.1 = id)).map Prod.snd

omit [Arithmetic α] in
theorem creditsTo_append (id : Nat) (cs ds : List (Nat × α)) :
    creditsTo id (cs ++ ds) = creditsTo id cs ++ creditsTo id ds := by
  rw [creditsTo, List.filter_append, List.map_append]
  rfl

omit [Arithmetic α] in
theorem creditsTo_flatMap {β : Type} (id : Nat) (f : β → List (Nat × α)) (bs : List β) :
    creditsTo id (bs.flatMap f) = bs.flatMap fun b => creditsTo id (f b) := by
  simp only [creditsTo, List.filter_flatMap, List.map_flatMap]

/-- The score of a record after additions. -/
theorem getElem?_addScores (credits : List (Nat × α)) (w : WorkingSet α) :
    (w.addScores credits).scores[id]? =
      (w.scores[id]?).map fun score => (creditsTo id credits).foldl (· + ·) score := by
  induction credits generalizing w with
  | nil => simp [addScores, creditsTo]
  | cons credit credits ih =>
    rw [addScores_cons, ih, getElem?_addScore, Option.map_map]
    congr 1
    funext score
    by_cases heq : credit.1 = id <;> simp [creditsTo, heq]

end WorkingSet

/-! ### Terms -/

namespace Comparator

open Arithmetic
open WorkingSet (creditsTo creditsTo_append creditsTo_flatMap)

variable [Arithmetic α] {measure : Measure} {indexFields : List String} {indexes : Indexes}
  {records : List Record} {flags : Flags} {scorer : TermScorer} {sign : α}

/-- What a scan adds for a term. -/
def scanCredits (records : List Record) (scorer : TermScorer) (scope : Option String) (sign : α)
    (members : List Nat) : List (Nat × α) :=
  members.filterMap fun id =>
    (records[id]?).map fun record => (id, sign * recordScore scorer scope record)

/-- What a look-up in an index adds for a term. -/
def indexCredits (scorer : TermScorer) (sign : α) (index : Index) : List (Nat × α) :=
  (index.hits scorer).map fun (id, similarity) => (id, sign * ofNat 100 * similarity)

theorem scoreMembers_eq_addScores (scope : Option String) (w : WorkingSet α) :
    scoreMembers records scorer scope sign w =
      w.addScores (scanCredits records scorer scope sign w.members) := by
  rw [scoreMembers, WorkingSet.addScores, scanCredits, List.foldl_filterMap]
  refine List.foldl_ext _ _ _ fun scored id _ => ?_
  cases records[id]? <;> rfl

theorem creditsTo_scanCredits (id : Nat) (scope : Option String) (members : List Nat) :
    creditsTo id (scanCredits records scorer scope sign members) =
      (members.filter (· == id)).filterMap fun id =>
        (records[id]?).map fun record => sign * recordScore scorer scope record := by
  induction members with
  | nil => rfl
  | cons other members ih =>
    have hfirst : scanCredits records scorer scope sign (other :: members) =
        scanCredits records scorer scope sign [other] ++
          scanCredits records scorer scope sign members := by
      rw [scanCredits, scanCredits, scanCredits, ← List.filterMap_append, List.singleton_append]
    rw [hfirst, creditsTo_append, ih]
    by_cases heq : other = id
    · subst heq
      cases hrecord : records[other]? <;> simp [scanCredits, creditsTo, hrecord]
    · cases hrecord : records[other]? <;> simp [scanCredits, creditsTo, hrecord, heq]

/-- A scan of the first records adds once to each of them. -/
theorem creditsTo_scanCredits_range {size id : Nat} {record : Record} (hlt : id < size)
    (hrecord : records[id]? = some record) (scope : Option String) :
    creditsTo id (scanCredits records scorer scope sign (List.range size)) =
      [sign * recordScore scorer scope record] := by
  have hone : (List.range size).filter (· == id) = [id] := by
    rw [List.filter_beq, List.nodup_range.count, if_pos (List.mem_range.mpr hlt)]
    rfl
  rw [creditsTo_scanCredits, hone]
  simp [hrecord]

theorem scoreIndexed_eq_addScores (index : Index) (w : WorkingSet α) :
    scoreIndexed scorer sign w index = w.addScores (indexCredits scorer sign index) := by
  rw [scoreIndexed, WorkingSet.addScores, indexCredits, List.foldl_map]

theorem foldl_scoreIndexed_eq_addScores (usable : List Index) (w : WorkingSet α) :
    usable.foldl (scoreIndexed scorer sign) w =
      w.addScores (usable.flatMap (indexCredits scorer sign)) := by
  induction usable generalizing w with
  | nil => rfl
  | cons index usable ih =>
    rw [List.foldl_cons, ih, List.flatMap_cons, WorkingSet.addScores_append,
      scoreIndexed_eq_addScores]

/-- What a look-up adds for a text that is found. -/
def textCredit (scorer : TermScorer) (sign : α) (text : String) : Option α :=
  if isPositive (scorer.score text : α) then some (sign * ofNat 100 * scorer.score text) else none

/-- A look-up adds to a record for each of its texts in the index. -/
theorem creditsTo_indexCredits (id : Nat) (index : Index) :
    creditsTo id (indexCredits scorer sign index) =
      (index.pairs.filter (·.1 = id)).filterMap fun pair => textCredit scorer sign pair.2 := by
  obtain ⟨entries⟩ := index
  induction entries with
  | nil => rfl
  | cons entry rest ih =>
    obtain ⟨key, ids⟩ := entry
    have hfirst : indexCredits scorer sign ⟨(key, ids) :: rest⟩ =
        indexCredits scorer sign ⟨[(key, ids)]⟩ ++ indexCredits scorer sign ⟨rest⟩ := by
      simp [indexCredits, Index.hits]
    have hpairs : Index.pairs ⟨(key, ids) :: rest⟩ = expandEntry (key, ids) ++ Index.pairs ⟨rest⟩ := rfl
    rw [hfirst, creditsTo_append, ih, hpairs, List.filter_append, List.filterMap_append]
    congr 1
    by_cases hpositive : isPositive (scorer.score key : α) <;>
      simp [indexCredits, Index.hits, creditsTo, expandEntry, textCredit, hpositive,
        List.filter_map, Function.comp_def]

/-- The paths whose indexes a term at a scope may use. -/
def indexedPaths (indexFields : List String) : Option String → List String
  | some path => if indexFields.contains path then [path] else []
  | none => indexFields

theorem usableIndexes_eq (scope : Option String) : usableIndexes indexFields indexes scope =
    (indexedPaths indexFields scope).flatMap fun path => (indexes.lookup path).toList := by
  cases scope with
  | none => exact List.filterMap_eq_flatMap_toList _ _
  | some path =>
    rw [usableIndexes, indexedPaths]
    split
    · exact (List.flatMap_singleton _ _).symm
    · rfl

theorem mem_indexedPaths {path : String} {place : Option String}
    (h : path ∈ indexedPaths indexFields place) : path ∈ indexFields := by
  cases place with
  | none => exact h
  | some path =>
    rw [indexedPaths] at h
    split at h
    · next hcontains =>
      obtain rfl := List.mem_singleton.mp h
      exact List.contains_iff_mem.mp hcontains
    · cases h

/-- No index can be used for a term just if no record has a text where it would be looked up. -/
theorem isEmpty_usableIndexes {place : Option String} :
    (usableIndexes indexFields (.build indexFields records) place).isEmpty = true ↔
      ∀ path ∈ indexedPaths indexFields place, ∀ record ∈ records, textAt record path = none := by
  rw [usableIndexes_eq, List.isEmpty_iff, List.flatMap_eq_nil_iff]
  refine forall₂_congr fun path hpath => ?_
  rw [Option.toList_eq_nil_iff, Indexes.lookup_build_eq_none (mem_indexedPaths hpath)]

/-- What the indexes that a term may use add to a record for its texts there. -/
theorem creditsTo_usableIndexes (id : Nat) (scope : Option String) :
    creditsTo id ((usableIndexes indexFields indexes scope).flatMap (indexCredits scorer sign)) =
      (indexedPaths indexFields scope).flatMap fun path =>
        ((indexes.pairsAt path).filter (·.1 = id)).filterMap fun pair =>
          textCredit scorer sign pair.2 := by
  rw [usableIndexes_eq, creditsTo_flatMap, List.flatMap_assoc]
  refine List.flatMap_congr fun path _ => ?_
  rw [Indexes.pairsAt]
  cases indexes.lookup path with
  | none => rfl
  | some index => simp [creditsTo_indexCredits]

/-- A term under a comparison filters. -/
theorem rankMatches_of_isSome (h : flags.operator.isSome = true) (term : Token) (w : WorkingSet α) :
    rankMatches measure indexFields indexes records flags term w =
      filterMatches records flags term w := by
  rw [rankMatches, if_pos h]

/-- What a term without a comparison adds, from a scan or from the indexes that it may use; under odd
    negation it takes that off. -/
def termCredits (measure : Measure) (indexFields : List String) (indexes : Indexes)
    (records : List Record) (scope : Option String) (exclude : Bool) (term : Token)
    (members : List Nat) : List (Nat × α) :=
  let sign : α := if exclude then -one else one
  let scorer := TermScorer.of measure term.lexeme
  let usable := usableIndexes indexFields indexes scope
  if usable.isEmpty then scanCredits records scorer scope sign members
  else usable.flatMap (indexCredits scorer sign)

theorem rankMatches_eq_addScores (h : flags.operator = none) (term : Token) (w : WorkingSet α) :
    rankMatches measure indexFields indexes records flags term w = w.addScores
      (termCredits measure indexFields indexes records flags.scope flags.exclude term w.members) := by
  rw [rankMatches, h, termCredits]
  cases usableIndexes indexFields indexes flags.scope with
  | nil => exact scoreMembers_eq_addScores flags.scope w
  | cons index usable => exact foldl_scoreIndexed_eq_addScores (index :: usable) w

theorem members_rankMatches (h : flags.operator = none) (term : Token) (w : WorkingSet α) :
    (rankMatches measure indexFields indexes records flags term w).members = w.members := by
  rw [rankMatches_eq_addScores h, WorkingSet.members_addScores]

/-! ### Connectives -/

variable {f g : WorkingSet α → WorkingSet α} {w : WorkingSet α}

/-- A connective keeps a member by which of its operands keep it. -/
theorem members_joinScores (connective : Connective) :
    (joinScores connective f g w).members =
      w.members.filter fun id => keeps connective ((f w).hasMember id) ((g w).hasMember id) :=
  WorkingSet.members_foldl (fun _ _ => WorkingSet.members_setScore _ _ _) _ _

/-- A connective gives a joint score to what an operand keeps, and leaves other scores as they were. -/
theorem getElem?_joinScores (connective : Connective) (id : Nat) :
    (joinScores connective f g w).scores[id]? =
      if id ∈ (f w).members ∨ id ∈ (g w).members then
        (w.scores[id]?).map fun _ => jointScore connective ((f w).score id) ((g w).score id)
      else w.scores[id]? := by
  simp only [joinScores, ← List.mem_append]
  exact WorkingSet.getElem?_foldl_setScore
    (fun id => jointScore connective ((f w).score id) ((g w).score id))
    ((f w).members ++ (g w).members)
    (w.retain fun id => keeps connective ((f w).hasMember id) ((g w).hasMember id))

end Comparator

/-! ### Hits -/

/-- What is ranked are the members, each with its score and the record at its place. -/
theorem mem_rank [Arithmetic α] {records : List Record} {w : WorkingSet α} {hit : Hit α} :
    hit ∈ rank records w ↔ hit.position ∈ w.members ∧ hit.score = w.score hit.position ∧
      records[hit.position]? = some hit.record := by
  rw [rank, List.mem_mergeSort, List.mem_filterMap]
  constructor
  · rintro ⟨id, hid, hhit⟩
    obtain ⟨record, hrecord, rfl⟩ := Option.map_eq_some_iff.mp hhit
    exact ⟨hid, rfl, hrecord⟩
  · rintro ⟨hid, hscore, hrecord⟩
    exact ⟨hit.position, hid, by rw [hrecord, Option.map_some, ← hscore]⟩

end RecordSearch.Search
