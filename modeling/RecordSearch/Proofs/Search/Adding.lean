import RecordSearch.Proofs.Search.Indexing
import RecordSearch.Proofs.Search.Ranking
import RecordSearch.Proofs.Search.Terms

/-! What a record that is added changes for the others. The same query finds them again. They keep their
    scores but for text terms that come to be looked up in an index because of the added record, as it
    has the first text at an indexed path (`Switches`); for these a record keeps its score if a scan gave
    it nothing (`run_addRecord`), and may lose it otherwise (`run_addRecord_switched`). -/

namespace RecordSearch.Search

open RecordSearch.Query (Tree Token Grammar)
open RecordSearch.Query.Nonterminal (list search searchType term searchTerm)
open WorkingSet (creditsTo)
open Arithmetic

variable {α : Type}

/-! ### Working sets that agree -/

/-- Two working sets agree on a record: both have it or neither has it, and with the same score. -/
structure WorkingSet.Agree (id : Nat) (w w' : WorkingSet α) : Prop where
  mem_iff : id ∈ w.members ↔ id ∈ w'.members
  scores_eq : w.scores[id]? = w'.scores[id]?

namespace WorkingSet.Agree

variable {size id : Nat} {w w' : WorkingSet α}

theorem hasMember_eq (h : Agree id w w') : w.hasMember id = w'.hasMember id := by
  have hlength : id < w.scores.length ↔ id < w'.scores.length := by
    rw [← not_iff_not, Nat.not_lt, Nat.not_lt, ← List.getElem?_eq_none_iff, h.scores_eq,
      List.getElem?_eq_none_iff]
  rw [Bool.eq_iff_iff]
  simp only [hasMember, Bool.and_eq_true, decide_eq_true_iff, List.contains_iff_mem, hlength,
    h.mem_iff]

theorem score_eq [Arithmetic α] (h : Agree id w w') : w.score id = w'.score id := by
  rw [WorkingSet.score_eq, WorkingSet.score_eq, h.scores_eq]

theorem retain {keep keep' : Nat → Bool} (h : Agree id w w') (hkeep : keep id = keep' id) :
    Agree id (w.retain keep) (w'.retain keep') where
  mem_iff := by
    simp only [WorkingSet.retain, List.mem_filter, h.mem_iff, hkeep]
  scores_eq := h.scores_eq

variable [Arithmetic α]

theorem full (hid : id < size) : Agree id (.full size : WorkingSet α) (.full (size + 1)) where
  mem_iff := by
    simp [WorkingSet.full, hid, Nat.lt_succ_of_lt hid]
  scores_eq := by
    simp [WorkingSet.full, hid, Nat.lt_succ_of_lt hid]

/-- Additions that come to the same for the record. -/
theorem addScores {credits credits' : List (Nat × α)} (h : Agree id w w')
    (hsame : ∀ score ∈ w.scores[id]?,
      (creditsTo id credits).foldl (· + ·) score = (creditsTo id credits').foldl (· + ·) score) :
    Agree id (w.addScores credits) (w'.addScores credits') where
  mem_iff := by
    rw [members_addScores, members_addScores, h.mem_iff]
  scores_eq := by
    rw [getElem?_addScores, getElem?_addScores, ← h.scores_eq]
    exact Option.map_congr hsame

theorem joinScores {f g f' g' : WorkingSet α → WorkingSet α} (h : Agree id w w')
    (hf : Agree id (f w) (f' w')) (hg : Agree id (g w) (g' w')) (connective : Connective) :
    Agree id (Comparator.joinScores connective f g w) (Comparator.joinScores connective f' g' w') where
  mem_iff := by
    rw [Comparator.members_joinScores, Comparator.members_joinScores, List.mem_filter,
      List.mem_filter, h.mem_iff, hf.hasMember_eq, hg.hasMember_eq]
  scores_eq := by
    simp only [Comparator.getElem?_joinScores, hf.mem_iff, hg.mem_iff, hf.score_eq, hg.score_eq,
      h.scores_eq]

end WorkingSet.Agree

/-! ### Indexes -/

theorem Index.filter_insertEntry {id other : Nat} (hne : id ≠ other) (key : String)
    (entries : List (String × List Nat)) :
    ((insertEntry key id entries).flatMap expandEntry).filter (·.1 = other) =
      (entries.flatMap expandEntry).filter (·.1 = other) := by
  have hadded : ∀ ids, (expandEntry (key, ids ++ [id])).filter (·.1 = other) =
      (expandEntry (key, ids)).filter (·.1 = other) := by
    intro ids
    simp [expandEntry, hne]
  have hnew : (expandEntry (key, [id])).filter (·.1 = other) = [] := hadded []
  induction entries with
  | nil => simpa [insertEntry] using hnew
  | cons entry rest ih =>
    obtain ⟨found, ids⟩ := entry
    rw [insertEntry]
    split
    · rw [List.flatMap_cons, List.filter_append, hnew, List.nil_append]
    · split
      · next heq =>
        subst heq
        simp only [List.flatMap_cons, List.filter_append, hadded]
      · simp only [List.flatMap_cons, List.filter_append, ih]

/-- Of other records an index holds the same texts in the same order as before. -/
theorem Index.filter_pairs_insert {id other : Nat} (hne : id ≠ other) (index : Index) (text : String) :
    (index.insert text id).pairs.filter (·.1 = other) = index.pairs.filter (·.1 = other) :=
  filter_insertEntry hne _ index.entries

theorem Indexes.filter_pairsAt_addRecord {id other : Nat} (hne : id ≠ other) (paths : List String)
    (record : Record) (path : String) (indexes : Indexes) :
    ((indexes.addRecord paths id record).pairsAt path).filter (·.1 = other) =
      (indexes.pairsAt path).filter (·.1 = other) := by
  induction paths generalizing indexes with
  | nil => rfl
  | cons first paths ih =>
    rw [addRecord_cons, ih]
    cases textAt record first with
    | none => rfl
    | some text =>
      simp only [pairsAt]
      by_cases heq : path = first
      · subst heq
        rw [lookup_add_self, Option.map_some, Option.getD_some, Index.filter_pairs_insert hne]
        cases indexes.lookup path <;> rfl
      · rw [lookup_add_of_ne heq]

/-! ### Terms -/

/-- A record that is added makes a term at a scope be looked up in indexes, where a scan was made for it
    before: it has the first text at a path whose index the term uses. -/
def Switches (indexFields : List String) (records : List Record) (added : Record)
    (place : Option String) : Prop :=
  (∃ path ∈ Comparator.indexedPaths indexFields place, (textAt added path).isSome = true) ∧
    ∀ path ∈ Comparator.indexedPaths indexFields place, ∀ record ∈ records, textAt record path = none

section Terms

variable [Arithmetic α] {measure : Measure} {indexFields : List String} {records : List Record}
  {added other : Record} {id : Nat}

theorem switches_of_isEmpty {place : Option String}
    (hbefore : (Comparator.usableIndexes indexFields (.build indexFields records) place).isEmpty = true)
    (hafter : ¬ (Comparator.usableIndexes indexFields (.build indexFields (records ++ [added]))
      place).isEmpty = true) : Switches indexFields records added place := by
  rw [Comparator.isEmpty_usableIndexes] at hbefore hafter
  refine ⟨?_, hbefore⟩
  by_contra hnone
  refine hafter fun path hpath record hrecord => ?_
  rcases List.mem_append.mp hrecord with hrecord | hrecord
  · exact hbefore path hpath record hrecord
  · rw [List.mem_singleton.mp hrecord]
    exact Option.not_isSome_iff_eq_none.mp fun htext => hnone ⟨path, hpath, htext⟩

theorem creditsTo_scanCredits_append (hid : id < records.length) (scorer : TermScorer)
    (scope : Option String) (sign : α) :
    creditsTo id (Comparator.scanCredits (records ++ [added]) scorer scope sign
        (List.range (records.length + 1))) =
      creditsTo id (Comparator.scanCredits records scorer scope sign (List.range records.length)) := by
  have hrecord := List.getElem?_eq_getElem hid
  rw [Comparator.creditsTo_scanCredits_range hid hrecord,
    Comparator.creditsTo_scanCredits_range (Nat.lt_succ_of_lt hid)
      ((List.getElem?_append_left hid).trans hrecord)]

theorem creditsTo_usableIndexes_append (hid : id < records.length) (scorer : TermScorer)
    (scope : Option String) (sign : α) :
    creditsTo id ((Comparator.usableIndexes indexFields (.build indexFields (records ++ [added]))
        scope).flatMap (Comparator.indexCredits scorer sign)) =
      creditsTo id ((Comparator.usableIndexes indexFields (.build indexFields records)
        scope).flatMap (Comparator.indexCredits scorer sign)) := by
  rw [Comparator.creditsTo_usableIndexes, Comparator.creditsTo_usableIndexes,
    ← Indexes.addRecord_build]
  simp only [Indexes.filter_pairsAt_addRecord (Nat.ne_of_gt hid)]

theorem zero_add_mul_zero (exclude : Bool) :
    (zero : Float) + (if exclude then -one else one) * zero = zero := by
  cases exclude <;> decide

/-- A term adds the same to the score of another record, if a scan gives that nothing or goes on to be
    made. -/
theorem foldl_termCredits_append {place : Option String} {text : Token}
    (hother : records[id]? = some other)
    (hsame : Switches indexFields records added place →
      Comparator.recordScore (.of measure text.lexeme) place other = (zero : Float))
    (exclude : Bool) :
    (creditsTo id (Comparator.termCredits measure indexFields (.build indexFields records) records
        place exclude text (List.range records.length))).foldl (· + ·) (zero : Float) =
      (creditsTo id (Comparator.termCredits measure indexFields
        (.build indexFields (records ++ [added])) (records ++ [added]) place exclude text
        (List.range (records.length + 1)))).foldl (· + ·) zero := by
  have hid : id < records.length := (List.getElem?_eq_some_iff.mp hother).1
  rw [Comparator.termCredits, Comparator.termCredits]
  generalize TermScorer.of measure text.lexeme = scorer at hsame ⊢
  by_cases hbefore : (Comparator.usableIndexes indexFields (.build indexFields records)
    place).isEmpty = true
  · by_cases hafter : (Comparator.usableIndexes indexFields (.build indexFields (records ++ [added]))
      place).isEmpty = true
    · rw [if_pos hbefore, if_pos hafter, creditsTo_scanCredits_append hid]
    · -- The index has no text of this record, and the scan gave it nothing.
      rw [if_pos hbefore, if_neg hafter, creditsTo_usableIndexes_append hid,
        List.isEmpty_iff.mp hbefore, Comparator.creditsTo_scanCredits_range hid hother,
        hsame (switches_of_isEmpty hbefore hafter), List.flatMap_nil]
      exact zero_add_mul_zero exclude
  · have hafter : ¬ (Comparator.usableIndexes indexFields (.build indexFields (records ++ [added]))
        place).isEmpty = true := by
      rw [Comparator.isEmpty_usableIndexes] at hbefore ⊢
      exact fun hall => hbefore fun path hpath record hrecord =>
        hall path hpath record (List.mem_append_left _ hrecord)
    rw [if_neg hbefore, if_neg hafter, creditsTo_usableIndexes_append hid]

theorem agree_rankMatches {place : Option String} {text : Token} (hother : records[id]? = some other)
    (hsame : Switches indexFields records added place →
      Comparator.recordScore (.of measure text.lexeme) place other = (zero : Float))
    (exclude : Bool) :
    WorkingSet.Agree id
      (Comparator.rankMatches measure indexFields (.build indexFields records) records
        ⟨place, exclude, none⟩ text (.full records.length : WorkingSet Float))
      (Comparator.rankMatches measure indexFields (.build indexFields (records ++ [added]))
        (records ++ [added]) ⟨place, exclude, none⟩ text (.full (records.length + 1))) := by
  have hid : id < records.length := (List.getElem?_eq_some_iff.mp hother).1
  rw [Comparator.rankMatches_eq_addScores rfl, Comparator.rankMatches_eq_addScores rfl]
  refine (WorkingSet.Agree.full hid).addScores fun score hscore => ?_
  have hzero : score = zero := by
    rw [WorkingSet.full, List.getElem?_replicate, if_pos hid] at hscore
    exact (Option.some.inj hscore).symm
  rw [hzero]
  exact foldl_termCredits_append hother hsame exclude

/-- What becomes of a record that is owned is the same before and after another one is added, if scans
    give it nothing for the terms that are switched to indexes. -/
theorem relatesAt_append (measure : Measure) (indexFields : List String) (added : Record)
    (hother : records[id]? = some other) :
    (Comparator.fuzzy measure indexFields (.build indexFields records) records).RelatesAt
      (Comparator.fuzzy measure indexFields (.build indexFields (records ++ [added]))
        (records ++ [added]))
      (fun text place => Switches indexFields records added place →
        Comparator.recordScore (.of measure text.lexeme) place other = (zero : Float))
      fun f g => WorkingSet.Agree id (f (.full records.length : WorkingSet Float))
        (g (.full (records.length + 1))) where
  rest := .full (List.getElem?_eq_some_iff.mp hother).1
  word text place hsame exclude := agree_rankMatches hother hsame exclude
  compare order place exclude number := by
    have hid : id < records.length := (List.getElem?_eq_some_iff.mp hother).1
    refine (WorkingSet.Agree.full hid).retain ?_
    rw [List.getElem?_append_left hid]
  join connective _ _ _ _ hf hg :=
    (WorkingSet.Agree.full (List.getElem?_eq_some_iff.mp hother).1).joinScores hf hg connective

end Terms

/-! ### Engines -/

section Hits

variable [Arithmetic α] {records : List Record} {added : Record}

/-- A record that two working sets agree on is found in both with the same score. -/
theorem mem_rank_of_agree {w w' : WorkingSet α} {hit : Hit α} (h : w.Agree hit.position w')
    (hhit : hit ∈ rank records w) : hit ∈ rank (records ++ [added]) w' := by
  obtain ⟨hmem, hscore, hrecord⟩ := mem_rank.mp hhit
  have hlt : hit.position < records.length := (List.getElem?_eq_some_iff.mp hrecord).1
  refine mem_rank.mpr ⟨h.mem_iff.mp hmem, hscore.trans h.score_eq, ?_⟩
  rw [List.getElem?_append_left hlt, hrecord]

/-- Whether a record is found depends on that record alone. -/
theorem exists_mem_rank_append {t : Tree} (ht : t.Conforms Grammar.query)
    (hroot : t.symbol = .nonterminal .list) (measure : Measure) (indexFields : List String)
    (indexes indexes' : Indexes) {hit : Hit α}
    (hhit : hit ∈ rank records (evaluate (.fuzzy measure indexFields indexes records) .root t
      (.full records.length))) :
    ∃ score : α, ⟨hit.position, score, hit.record⟩ ∈ rank (records ++ [added])
      (evaluate (.fuzzy measure indexFields indexes' (records ++ [added])) .root t
        (.full (records ++ [added]).length)) := by
  obtain ⟨hmem, -, hrecord⟩ := mem_rank.mp hhit
  have hbefore : Retains records (.full records.length : WorkingSet α) (stays t none false)
      (evaluate (.fuzzy measure indexFields indexes records) .root t) :=
    retains_of_conforms (over_full _) ht hroot (by decide) none false
  have hafter : Retains (records ++ [added]) (.full (records ++ [added]).length : WorkingSet α)
      (stays t none false)
      (evaluate (.fuzzy measure indexFields indexes' (records ++ [added])) .root t) :=
    retains_of_conforms (over_full _) ht hroot (by decide) none false
  rw [hbefore.members_eq, List.mem_filter] at hmem
  have hlt : hit.position < records.length := List.mem_range.mp hmem.1
  have hsame : (records ++ [added])[hit.position]? = records[hit.position]? :=
    List.getElem?_append_left hlt
  refine ⟨WorkingSet.score _ hit.position, mem_rank.mpr ⟨?_, rfl, hsame.trans hrecord⟩⟩
  rw [hafter.members_eq, List.mem_filter, hsame]
  refine ⟨List.mem_range.mpr ?_, hmem.2⟩
  rw [List.length_append]
  exact Nat.lt_add_right _ hlt

end Hits

/-- The tree of the query `x`. -/
def wordX : Tree :=
  .node list [
    .node search [.node searchType [.node term [.node searchTerm [
      .leaf (.ofText .searchTerm "x" 0)]]]],
    .node list []]

namespace Engine

/-- After a record is added, an engine that ranks finds every record again that it found before, and
    with the same score if scans gave the record nothing for the text terms that are switched to
    indexes. -/
theorem run_addRecord {s : Setup} {measure : Measure} (hfuzzy : s.strategy = .fuzzy measure)
    (hreset : s.scoreMode = .reset) (own : Option (List Record)) (operations : List Operation)
    {records : List Record}
    (hown : ((new s own : Engine Float).afterAll operations).dataset.map Dataset.records = some records)
    (query : CompiledQuery) {tokens : List Token}
    (hquery : Grammar.query.IsDerivation tokens query.tree) (added : Record) :
    let ran := ((new s own : Engine Float).afterAll operations).run query none
    ∃ before after : List (Hit Float), ran.1 = .ok before ∧
      ((ran.2.addRecord added).2.run query none).1 = .ok after ∧
      ∀ hit ∈ before, (∃ score, ⟨hit.position, score, hit.record⟩ ∈ after) ∧
        ((∀ text place, TermAt text place query.tree none →
          Switches s.indexFields records added place →
            Comparator.recordScore (.of measure text.lexeme) place hit.record = (zero : Float)) →
          hit ∈ after) := by
  intro ran
  have hbefore := (coherent_new (α := Float) s own).afterAll operations
  have hran : ran.2.Coherent s := hbefore.run query none
  have hafter : (ran.2.addRecord added).2.Coherent s := hran.addRecord added
  have hran_own : ran.2.dataset.map Dataset.records = some records :=
    (records_run_own _ query).trans hown
  have hchecked : ran.2.setup.checkIndexing = .ok () := by
    rw [hran.setup_eq, checkIndexing_fuzzy hfuzzy]
  have hadded := records_addRecord hchecked hran_own added
  refine ⟨_, _, (hbefore.run_own_eq hreset query hown).trans (answer_fuzzy hfuzzy _ _),
    (hafter.run_own_eq hreset query hadded).trans (answer_fuzzy hfuzzy _ _), fun hit hhit =>
    ⟨exists_mem_rank_append hquery.conforms hquery.root _ _ _ _ hhit, fun hsame => ?_⟩⟩
  have hagree := evaluate_relates_of_conforms
    (relatesAt_append measure s.indexFields added (mem_rank.mp hhit).2.2) hquery.conforms hquery.root
    (by decide) none false hsame
  rw [List.length_append]
  exact mem_rank_of_agree hagree hhit

theorem run_addRecord_starshipOrLarge :
    let s : Setup := ⟨.fuzzy (.edits 2 true), ["name"], true, .reset⟩
    let query : CompiledQuery := ⟨starshipOrLarge, "name:starshp OR n:>5"⟩
    let ran := ((new s (some [.object [("name", .string "Starship")]]) : Engine Float).afterAll
      [.addRecord (.object [("n", .number (.integer 7))])]).run query none
    ∃ before after : List (Hit Float), ran.1 = .ok before ∧
      ((ran.2.addRecord (.object [("name", .string "Star")])).2.run query none).1 = .ok after ∧
      ∀ hit ∈ before, hit ∈ after := by
  intro s query ran
  obtain ⟨before, after, hbefore, hafter, hfound⟩ := run_addRecord (s := s) rfl rfl
    (some [.object [("name", .string "Starship")]])
    [.addRecord (.object [("n", .number (.integer 7))])] rfl query
    isDerivation_starshipOrLarge (.object [("name", .string "Star")])
  refine ⟨before, after, hbefore, hafter, fun hit hhit => (hfound hit hhit).2 ?_⟩
  intro text place hplace hswitches
  simp [query, starshipOrLarge, termAt_leaf, termAt_group, termAt_node, Token.ofKind,
    Token.ofText, extend] at hplace
  rw [hplace.2] at hswitches
  have hnone := hswitches.2 "name" (by decide) (.object [("name", .string "Starship")])
    List.mem_cons_self
  cases hnone

/-- A record loses its score for a term without a scope when the first name is added, as only names are
    looked up from then on. -/
theorem run_addRecord_switched :
    let city : Record := .object [("city", .string "x")]
    let e : Engine Float := new ⟨.fuzzy (.edits 2 true), ["name"], false, .reset⟩ (some [city])
    let ran := e.run ⟨wordX, "x"⟩ none
    Grammar.query.IsDerivation wordX.leaves wordX ∧ ∃ before after : List (Hit Float),
      ran.1 = .ok before ∧
      ((ran.2.addRecord (.object [("name", .string "y")])).2.run ⟨wordX, "x"⟩ none).1 = .ok after ∧
      ⟨0, 100, city⟩ ∈ before ∧ ⟨0, 0, city⟩ ∈ after ∧ ⟨0, 100, city⟩ ∉ after := by
  refine ⟨⟨rfl, by simp [wordX, Grammar.query, Tree.symbol, Token.ofText], rfl⟩, _, _, rfl, rfl,
    mem_rank.mpr ⟨by decide, by decide, rfl⟩,
    mem_rank.mpr ⟨by decide +kernel, by decide +kernel, rfl⟩, fun hmem => ?_⟩
  exact absurd (mem_rank.mp hmem).2.1 (by decide +kernel)

end Engine

end RecordSearch.Search
