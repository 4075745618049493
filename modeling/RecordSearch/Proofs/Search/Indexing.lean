import Mathlib.Algebra.Order.Field.Rat
import Mathlib.Tactic.Positivity
import RecordSearch.Proofs.Search.History
import RecordSearch.Proofs.Search.Scores
import RecordSearch.Proofs.Search.Similarity
import RecordSearch.Proofs.Search.Terms
import RecordSearch.Proofs.Text.Lowercase

/-! Searching with indexes agrees with scanning the records. A term that is looked up in the index of
    its scope adds to the scores what a scan adds, up to the order and to zeros
    (`rankMatches_indexed`), and both operands of a connective start from the same scores, so whole
    queries agree too (`run_indexed`). Scores are exact here; in doubles the order of additions would
    show. -/

namespace RecordSearch.Search

open RecordSearch.Query (Tree Token Nonterminal Grammar)

/-! ### Credits -/

namespace WorkingSet

variable {w : WorkingSet Rat}

theorem addScore_zero (id : Nat) : w.addScore id 0 = w := by
  have hid : (fun x : Rat => x + 0) = fun x => x := funext add_zero
  rw [addScore]
  exact congrArg (WorkingSet.mk w.members) ((congrArg _ hid).trans (List.modify_id id w.scores))

theorem addScore_comm (i j : Nat) (a b : Rat) :
    (w.addScore i a).addScore j b = (w.addScore j b).addScore i a := by
  refine congrArg (WorkingSet.mk w.members) ?_
  by_cases h : i = j
  · subst h
    rw [addScore, addScore, List.modify_modify_eq, List.modify_modify_eq]
    congr 1
    funext x
    exact add_right_comm x a b
  · exact List.modify_modify_ne _ _ _ h

theorem addScores_perm {cs ds : List (Nat × Rat)} (h : cs.Perm ds) :
    w.addScores cs = w.addScores ds :=
  h.foldl_eq' (fun x _ y _ _ => addScore_comm x.1 y.1 x.2 y.2) w

/-- Credits that agree group by group agree together. -/
theorem addScores_flatMap {β : Type} {f g : β → List (Nat × Rat)} (bs : List β)
    (h : ∀ b ∈ bs, ∀ w : WorkingSet Rat, w.addScores (f b) = w.addScores (g b)) :
    w.addScores (bs.flatMap f) = w.addScores (bs.flatMap g) := by
  induction bs generalizing w with
  | nil => rfl
  | cons b bs ih =>
    rw [List.flatMap_cons, List.flatMap_cons, addScores_append, addScores_append,
      h b List.mem_cons_self w]
    exact ih fun b' hb' => h b' (List.mem_cons_of_mem b hb')

theorem addScores_zeros {ids : List Nat} : w.addScores (ids.map fun id => (id, 0)) = w := by
  induction ids with
  | nil => rfl
  | cons id ids ih => rw [List.map_cons, addScores_cons, addScore_zero, ih]

end WorkingSet

/-! ### Similarities -/

namespace TermScorer

open Arithmetic

theorem score_indexKey {α : Type} [Arithmetic α] (scorer : TermScorer) (text : String) :
    (scorer.score (indexKey text) : α) = scorer.score text := by
  have hlower : Text.lower (indexKey text).toList = Text.lower text.toList := by
    rw [indexKey, String.toList_ofList, Text.lower_lower]
  rw [score, score]
  simp only [hlower]

theorem score_nonneg (scorer : TermScorer) (text : String) : (0 : Rat) ≤ scorer.score text := by
  rw [score]
  split
  · exact zero_le_one
  · simp only []
    split
    · exact zero_le_one
    · rw [sum_eq]
      refine div_nonneg (List.sum_nonneg fun x hx => ?_) (Nat.cast_nonneg _)
      obtain ⟨word, -, rfl⟩ := List.mem_map.mp hx
      exact bestWord_nonneg _ _ word

theorem score_of_not_positive {scorer : TermScorer} {text : String}
    (h : ¬ isPositive (scorer.score text : Rat) = true) : (scorer.score text : Rat) = 0 := by
  have hle : (scorer.score text : Rat) ≤ 0 := not_lt.mp fun hpos => h (decide_eq_true hpos)
  exact le_antisymm hle (scorer.score_nonneg text)

end TermScorer

/-! ### Terms -/

/-- A working set that holds every one of so many records. -/
structure WorkingSet.Whole {α : Type} (size : Nat) (w : WorkingSet α) : Prop where
  members_eq : w.members = List.range size
  capacity_eq : w.capacity = size

namespace Comparator

open Arithmetic

variable {records : List Record} {scorer : TermScorer} {sign : Rat} {w : WorkingSet Rat}

/-- What a record with a text gets. -/
def creditOf (scorer : TermScorer) (sign : Rat) (pair : Nat × String) : Nat × Rat :=
  (pair.1, sign * ofNat 100 * scorer.score pair.2)

/-- Texts that are not found would add nothing. -/
theorem addScores_indexCredits (index : Index) :
    w.addScores (indexCredits scorer sign index) =
      w.addScores (index.pairs.map (creditOf scorer sign)) := by
  rw [indexCredits, Index.hits, Index.pairs, List.map_flatMap, List.map_flatMap]
  refine WorkingSet.addScores_flatMap _ fun entry _ w => ?_
  obtain ⟨key, ids⟩ := entry
  simp only [expandEntry, List.map_map]
  split
  · rw [List.map_map]
    rfl
  · next hzero =>
    have hcredit : creditOf scorer sign ∘ (fun id : Nat => (id, key)) = fun id => (id, 0) := by
      funext id
      rw [Function.comp_apply, creditOf, TermScorer.score_of_not_positive hzero, mul_zero]
    rw [hcredit, WorkingSet.addScores_zeros]
    rfl

theorem scanCredits_whole (hw : w.Whole records.length) (scope : Option String) :
    scanCredits records scorer scope sign w.members = records.zipIdx.map fun entry =>
      (entry.2, sign * recordScore scorer scope entry.1) := by
  have hmembers : w.members = records.zipIdx.map Prod.snd := by
    rw [hw.members_eq, List.zipIdx_map_snd, List.range_eq_range']
  rw [hmembers, scanCredits, List.filterMap_map, ← List.filterMap_eq_map]
  refine List.filterMap_congr fun entry hentry => ?_
  rw [Function.comp_apply, List.mem_zipIdx_iff_getElem?.mp hentry]
  rfl

/-- A record that has anything at a path gets the same credit for its text there, if it has one. -/
theorem addScores_record {path : String} {record : Record} (h : (resolve record path).isSome = true)
    (id : Nat) : w.addScores [(id, sign * recordScore scorer (some path) record)] =
      w.addScores ((pairsOf path record id).map (creditOf scorer sign)) := by
  obtain ⟨value, hvalue⟩ := Option.isSome_iff_exists.mp h
  have hscore : recordScore scorer (some path) record = valueScore (α := Rat) scorer value := by
    simp only [recordScore, hvalue]
  rw [hscore, valueScore, pairsOf, hvalue, Option.bind_some]
  cases atomicText value with
  | none =>
    have hzero : sign * (zero : Rat) = 0 := mul_zero sign
    rw [hzero]
    exact WorkingSet.addScore_zero id
  | some text =>
    have hcredit : creditOf scorer sign (id, indexKey text) =
        (id, sign * (ofNat 100 * scorer.score text)) := by
      rw [creditOf, TermScorer.score_indexKey, mul_assoc]
    rw [Option.map_some, Option.toList_some, List.map_singleton, hcredit]

/-- A term at an indexed path that every record has does the same to the scores whether it is looked
    up or the records are scanned. -/
theorem rankMatches_indexed {paths : List String} (hnodup : paths.Nodup) {path : String}
    (hpath : path ∈ paths) (hrecords : ∀ record ∈ records, (resolve record path).isSome = true)
    (hw : w.Whole records.length) (measure : Measure) (exclude : Bool) (term : Token) :
    rankMatches measure paths (.build paths records) records ⟨some path, exclude, none⟩ term w =
      rankMatches measure [] [] records ⟨some path, exclude, none⟩ term w := by
  have hcontains : paths.contains path = true := List.contains_iff_mem.mpr hpath
  simp only [rankMatches, usableIndexes, hcontains, List.contains_nil, Option.isSome_none,
    Bool.false_eq_true, if_true, if_false]
  have hbuild := Indexes.perm_build hnodup hpath records
  rw [Indexes.pairsAt] at hbuild
  cases hlookup : (Indexes.build paths records).lookup path with
  | none => rfl
  | some index =>
    rw [hlookup, Option.map_some, Option.getD_some] at hbuild
    simp only [Option.toList_some, List.foldl_cons, List.foldl_nil]
    rw [scoreIndexed_eq_addScores, addScores_indexCredits, scoreMembers_eq_addScores,
      scanCredits_whole hw, WorkingSet.addScores_perm (hbuild.map _), List.map_flatMap,
      List.map_eq_flatMap]
    refine WorkingSet.addScores_flatMap _ fun entry hentry w => ?_
    have hmem : entry.1 ∈ records :=
      List.mem_of_getElem? (List.mem_zipIdx_iff_getElem?.mp hentry)
    exact (addScores_record (hrecords entry.1 hmem) entry.2).symm

end Comparator

/-! ### Trees -/

open RecordSearch.Query.Nonterminal (list search searchType term searchTerm group comparison)

/-- Every text term of a tree is evaluated at one of some paths, and all records have something
    there. -/
def Covered (paths : List String) (records : List Record) (t : Tree) (scope : Option String) : Prop :=
  ∀ text place, TermAt text place t scope →
    ∃ path ∈ paths, place = some path ∧ ∀ record ∈ records, (resolve record path).isSome = true

section Trees

variable {paths : List String} {records : List Record} {measure : Measure}

/-- With indexes and without a tree does the same to a working set that holds every record. -/
def SameWithout (measure : Measure) (paths : List String) (records : List Record) (t : Tree)
    (flags : Flags) : Prop :=
  ∀ w : WorkingSet Rat, w.Whole records.length →
    evaluate (.fuzzy measure paths (.build paths records) records) flags t w =
      evaluate (.fuzzy measure [] [] records) flags t w

/-- Terms at indexed paths that all records have do the same with indexes and without, and so does a
    comparison, which is not looked up in an index. -/
theorem relatesAt_whole (hnodup : paths.Nodup) :
    (Comparator.fuzzy measure paths (.build paths records) records).RelatesAt
      (Comparator.fuzzy measure [] [] records) (fun _ place =>
        ∃ path ∈ paths, place = some path ∧ ∀ record ∈ records, (resolve record path).isSome = true)
      fun f g => ∀ w : WorkingSet Rat, w.Whole records.length → f w = g w where
  rest _ _ := rfl
  word text place htold exclude w hw := by
    obtain ⟨path, hpath, rfl, hrecords⟩ := htold
    exact Comparator.rankMatches_indexed hnodup hpath hrecords hw measure exclude text
  compare _ _ _ _ _ _ := rfl
  join connective f g f' g' hf hg w hw := by
    change Comparator.joinScores connective f g w = Comparator.joinScores connective f' g' w
    rw [Comparator.joinScores, Comparator.joinScores, hf w hw, hg w hw]

variable (measure) in
/-- Every phrase of a covered query does the same with indexes and without, under either parity of
    negations. -/
theorem sameWithout_of_conforms (hnodup : paths.Nodup) {t : Tree} (ht : t.Conforms Grammar.query)
    {n : Nonterminal} (hsymbol : t.symbol = .nonterminal n) (hcomparison : n ≠ comparison)
    (scope : Option String) (exclude : Bool) (hcovered : Covered paths records t scope) :
    SameWithout measure paths records t ⟨scope, exclude, none⟩ :=
  evaluate_relates_of_conforms (relatesAt_whole hnodup) ht hsymbol hcomparison scope exclude hcovered

end Trees

/-- The tree of the query `name:starshp OR n:>5`. -/
def starshipOrLarge : Tree :=
  .node list [
    .node search [.node .or [
      .node searchType [.node group [
        .leaf (.ofText .searchTerm "name" 0),
        .leaf (.ofKind .groupTerminator 4),
        .node term [.node searchTerm [.leaf (.ofText .searchTerm "starshp" 5)]]]],
      .leaf (.ofKind .or 13),
      .node search [.node searchType [.node group [
        .leaf (.ofText .searchTerm "n" 16),
        .leaf (.ofKind .groupTerminator 17),
        .node term [
          .node comparison [.leaf (.ofKind .gt 18)],
          .leaf ⟨.number, .number 5, 19⟩]]]]]],
    .node list []]

theorem isDerivation_starshipOrLarge :
    Grammar.query.IsDerivation starshipOrLarge.leaves starshipOrLarge where
  root := rfl
  conforms := by simp [starshipOrLarge, Grammar.query, Tree.symbol, Token.ofKind, Token.ofText]
  leaves := rfl

/-! ### Engines -/

theorem whole_full (size : Nat) : (WorkingSet.full size : WorkingSet Rat).Whole size where
  members_eq := rfl
  capacity_eq := List.length_replicate

namespace Engine

/-- An engine that ranks finds the same, with the same scores and in the same order, with indexes and
    without, if every text term of the query is evaluated at an indexed path and all records have
    something there. -/
theorem run_indexed {tokens : List Token} {query : CompiledQuery}
    (hquery : Grammar.query.IsDerivation tokens query.tree) {paths : List String}
    {records : List Record} (hcovered : Covered paths records query.tree none) (measure : Measure)
    (recovery recovery' : Bool) (scoreMode scoreMode' : ScoreMode) :
    let indexed : Setup := ⟨.fuzzy measure, orderPaths paths, recovery, scoreMode⟩
    let scanning : Setup := ⟨.fuzzy measure, [], recovery', scoreMode'⟩
    ∃ hits : List (Hit Rat),
      (∀ own, ((new indexed own : Engine Rat).run query (some records)).1 = .ok hits) ∧
      (∀ own, ((new scanning own : Engine Rat).run query (some records)).1 = .ok hits) ∧
      ((new indexed (some records) : Engine Rat).run query none).1 = .ok hits ∧
      ((new scanning (some records) : Engine Rat).run query none).1 = .ok hits := by
  intro indexed scanning
  have hordered : Covered (orderPaths paths) records query.tree none := by
    intro text place hplace
    obtain ⟨path, hpath, hrest⟩ := hcovered text place hplace
    exact ⟨path, mem_orderPaths.mpr hpath, hrest⟩
  have hsame := sameWithout_of_conforms measure (nodup_orderPaths paths)
    hquery.conforms hquery.root (by decide) none false hordered _ (whole_full records.length)
  obtain ⟨hits, hhits⟩ : ∃ hits : List (Hit Rat), scanning.answer records query.tree = .ok hits :=
    ⟨_, answer_fuzzy rfl records query.tree⟩
  have hindexed : (indexed.answer records query.tree : Except EngineError (List (Hit Rat))) =
      .ok hits := by
    rw [← hhits, answer_fuzzy (s := indexed) rfl, answer_fuzzy (s := scanning) rfl]
    exact congrArg (fun w => Except.ok (rank records w)) hsame
  have hnew := run_new (α := Rat) indexed query records
  have hnew' := run_new (α := Rat) scanning query records
  rw [hindexed] at hnew
  rw [hhits] at hnew'
  exact ⟨hits, hnew.1, hnew'.1, hnew.2, hnew'.2⟩

theorem run_indexed_starshipOrLarge :
    let query : CompiledQuery := ⟨starshipOrLarge, "name:starshp OR n:>5"⟩
    let records : List Record := [.object [("name", .string "Starship")],
      .object [("n", .number (.integer 7)), ("name", .null)]]
    ((new ⟨.fuzzy (.edits 2 true), ["name"], true, .reset⟩ none : Engine Rat).run query
        (some records)).1 =
      ((new ⟨.fuzzy (.edits 2 true), [], true, .reset⟩ none : Engine Rat).run query
        (some records)).1 := by
  intro query records
  have hcovered : Covered ["name"] records query.tree none := by
    intro text place hplace
    simp [query, starshipOrLarge, termAt_leaf, termAt_group, termAt_node, Token.ofKind,
      Token.ofText, extend] at hplace
    refine ⟨"name", List.mem_singleton_self _, hplace.2, ?_⟩
    decide +kernel
  obtain ⟨hits, hindexed, hscanning, -⟩ :=
    run_indexed isDerivation_starshipOrLarge hcovered (.edits 2 true) true true .reset .reset
  exact (hindexed none).trans (hscanning none).symm

end Engine

end RecordSearch.Search
