import RecordSearch.Proofs.Decimal.Sign
import RecordSearch.Proofs.Search.Hits
import RecordSearch.Proofs.Search.Indexing

/-! Where records without a path rank when a word is searched for at that path. A scan puts them below
    all others, whose scores are not below zero. An index does not know them and leaves them their zero,
    so they rank below the records that are similar to the word (`run_wordAt`), but may come before others
    that have the path (`run_wordAt_indexed`). -/

namespace RecordSearch.Search

open RecordSearch.Query (Tree Token)
open RecordSearch.Decimal (isNegative ranking)
open WorkingSet (creditsTo)
open Arithmetic

/-! ### Similarities -/

section Similarities

theorem isNegative_zero : isNegative (zero : Float) = false := Decimal.isNegative_ofNat 0

theorem isNegative_one : isNegative (one : Float) = false := Decimal.isNegative_ofNat 1

/-- The greater of two numbers is without the sign bit if the first is. -/
theorem isNegative_greatest {best x : Float} (hbest : isNegative best = false ∧ best.isNaN = false) :
    isNegative (greatest best x) = false ∧ (greatest best x).isNaN = false := by
  change isNegative (if best < x || best.isNaN then x else best) = false ∧
    (if best < x || best.isNaN then x else best).isNaN = false
  rw [hbest.2, Bool.or_false]
  split
  · next hlt => exact Decimal.isNegative_of_lt hbest.1 (of_decide_eq_true hlt)
  · exact hbest

theorem isNegative_bestWord (measure : Measure) (candidates : List (List Char)) (word : List Char) :
    isNegative (TermScorer.bestWord measure candidates word : Float) = false := by
  have hall : ∀ best : Float, isNegative best = false ∧ best.isNaN = false →
      isNegative (candidates.foldl (fun best candidate =>
        greatest best (TermScorer.wordScore measure word candidate)) best) = false := by
    induction candidates with
    | nil => exact fun _ hbest => hbest.1
    | cons candidate candidates ih => exact fun best hbest => ih _ (isNegative_greatest hbest)
  exact hall zero ⟨isNegative_zero, by decide⟩

/-- A sum starts from the negated zero, so it needs a summand. -/
theorem isNegative_sum {x : Float} {xs : List Float} (h : ∀ y ∈ x :: xs, isNegative y = false) :
    isNegative (Arithmetic.sum (x :: xs)) = false := by
  have hall : ∀ total : Float, isNegative total = false →
      isNegative (xs.foldl (· + ·) total) = false := by
    have htail : ∀ y ∈ xs, isNegative y = false := fun y hy => h y (List.mem_cons_of_mem x hy)
    clear h
    induction xs with
    | nil => exact fun _ htotal => htotal
    | cons y ys ih =>
      intro total htotal
      exact ih (fun z hz => htail z (List.mem_cons_of_mem y hz)) _
        (Decimal.isNegative_add htotal (htail y List.mem_cons_self))
  exact hall _ (Decimal.isNegative_neg_zero_add (h x List.mem_cons_self))

theorem isNegative_score (scorer : TermScorer) (text : String) :
    isNegative (scorer.score text : Float) = false := by
  rw [TermScorer.score]
  cases hwords : scorer.words with
  | nil => exact isNegative_one
  | cons word words =>
    simp only [List.isEmpty_cons, Bool.false_eq_true, if_false]
    split
    · exact isNegative_one
    · refine Decimal.isNegative_div (isNegative_sum fun x hx => ?_) (Decimal.isNegative_ofNat _)
      obtain ⟨word, -, rfl⟩ := List.mem_map.mp (List.map_cons ▸ hx)
      exact isNegative_bestWord _ _ word

theorem isNegative_valueScore (scorer : TermScorer) (value : Record) :
    isNegative (Comparator.valueScore scorer value : Float) = false := by
  rw [Comparator.valueScore]
  split
  · exact Decimal.isNegative_mul (Decimal.isNegative_ofNat 100) (isNegative_score scorer _)
  · exact isNegative_zero

end Similarities

/-! ### Scores at a path -/

/-- The tree of the search for a word at a path, as in `name:starship`. -/
def wordAt (segment colon word : Token) : Tree :=
  .node .list [
    .node .search [.node .searchType [.node .group [
      .leaf segment, .leaf colon, .node .term [.node .searchTerm [.leaf word]]]]],
    .node .list []]

theorem evaluate_wordAt {δ : Type} {c : Comparator δ} {word : Token} (hword : word.kind = .searchTerm)
    (segment colon : Token) : evaluate c .root (wordAt segment colon word) =
      c.search ⟨some segment.lexeme, false, none⟩ word := by
  have hbelow : evaluate c .root (wordAt segment colon word) =
      evaluate c ⟨some segment.lexeme, false, none⟩ (.node .searchTerm [.leaf word]) := rfl
  rw [hbelow, evaluate_word hword]

section Scores

variable {measure : Measure} {indexFields : List String} {indexes : Indexes} {records : List Record}
  {segment colon word : Token} {path : String} {id : Nat} {record : Record}

/-- The score of a record after a word is searched for from scores of zero. -/
theorem score_rankMatches_full (hid : id < records.length) (word : Token) (path : String) :
    (Comparator.rankMatches measure indexFields indexes records ⟨some path, false, none⟩ word
        (.full records.length : WorkingSet Float)).score id =
      (creditsTo id (Comparator.termCredits measure indexFields indexes records (some path) false word
        (List.range records.length))).foldl (· + ·) zero := by
  rw [Comparator.rankMatches_eq_addScores rfl, WorkingSet.score_eq, WorkingSet.getElem?_addScores,
    WorkingSet.full, List.getElem?_replicate, if_pos hid]
  rfl

/-- The texts that records have at a path are looked up in an index. -/
def Indexed (indexFields : List String) (records : List Record) (path : String) : Prop :=
  path ∈ indexFields ∧ ∃ record ∈ records, (textAt record path).isSome = true

theorem isEmpty_usableIndexes_some :
    (Comparator.usableIndexes indexFields (.build indexFields records) (some path)).isEmpty = true ↔
      ¬ Indexed indexFields records path := by
  rw [Comparator.isEmpty_usableIndexes, Comparator.indexedPaths, Indexed, List.contains_eq_mem]
  by_cases hpath : path ∈ indexFields <;> simp [hpath]

variable (hid : id < records.length) (hrecord : records[id]? = some record)

include hid hrecord

theorem score_scanned (hindexed : ¬ Indexed indexFields records path) :
    (Comparator.rankMatches measure indexFields (.build indexFields records) records
        ⟨some path, false, none⟩ word (.full records.length : WorkingSet Float)).score id =
      zero + one * Comparator.recordScore (.of measure word.lexeme) (some path) record := by
  rw [score_rankMatches_full hid, Comparator.termCredits, if_pos (isEmpty_usableIndexes_some.mpr hindexed),
    Comparator.creditsTo_scanCredits_range hid hrecord]
  rfl

theorem score_indexed (hnodup : indexFields.Nodup) (hindexed : Indexed indexFields records path) :
    (Comparator.rankMatches measure indexFields (.build indexFields records) records
        ⟨some path, false, none⟩ word (.full records.length : WorkingSet Float)).score id =
      ((pairsOf path record id).filterMap fun pair =>
        Comparator.textCredit (.of measure word.lexeme) one pair.2).foldl (· + ·) zero := by
  have husable : ¬ (Comparator.usableIndexes indexFields (.build indexFields records)
      (some path)).isEmpty = true :=
    fun hempty => isEmpty_usableIndexes_some.mp hempty hindexed
  rw [score_rankMatches_full hid, Comparator.termCredits, if_neg husable,
    Comparator.creditsTo_usableIndexes, Comparator.indexedPaths,
    if_pos (List.contains_iff_mem.mpr hindexed.1), List.flatMap_singleton,
    Indexes.filter_pairsAt_build hnodup hindexed.1 hrecord]
  rfl

end Scores

/-! ### Ranks at a path -/

/-- A record has a text at a path that is similar to a word. -/
def IsSimilar (measure : Measure) (word path : String) (record : Record) : Prop :=
  ∃ text, textAt record path = some text ∧
    isPositive ((TermScorer.of measure word).score text : Float) = true

theorem ranking_missing : ranking (zero + one * Comparator.missing : Float) < 0 := by
  decide

theorem ranking_nonneg_of_resolve {record : Record} {path : String}
    (h : (resolve record path).isSome = true) (scorer : TermScorer) :
    0 ≤ ranking (zero + one * Comparator.recordScore scorer (some path) record : Float) := by
  obtain ⟨value, hvalue⟩ := Option.isSome_iff_exists.mp h
  simp only [Comparator.recordScore, hvalue]
  exact Decimal.ranking_nonneg (Decimal.isNegative_add isNegative_zero
    (Decimal.isNegative_mul isNegative_one (isNegative_valueScore scorer value)))

/-- However little a text is similar, what an index adds for it is not rounded to zero. -/
theorem ranking_pos_of_isPositive {similarity : Float} (h : isPositive similarity = true) :
    0 < ranking (zero + one * ofNat 100 * similarity) := by
  have hhundred : (one * ofNat 100 : Float).toModel.unpack =
      .finite .positive (25 * 2 ^ 48) (-46) (by decide) := by rfl
  exact Decimal.ranking_zero_add_mul hhundred (by decide) (by decide) (of_decide_eq_true h)

section Ranks

variable {measure : Measure} {indexFields : List String} {records : List Record} {path : String}

/-- A record without a path ranks below one that has something there, if that is similar to the word or
    no index is used. -/
theorem ranking_lt_ranking (hnodup : indexFields.Nodup) (word : Token) {i j : Nat} {a b : Record}
    (ha : records[i]? = some a) (hb : records[j]? = some b) (hmissing : resolve a path = none)
    (hresolved : (resolve b path).isSome = true)
    (hsimilar : Indexed indexFields records path → IsSimilar measure word.lexeme path b) :
    let w : WorkingSet Float := Comparator.rankMatches measure indexFields (.build indexFields records)
      records ⟨some path, false, none⟩ word (.full records.length)
    ranking (w.score i) < ranking (w.score j) := by
  intro w
  have hi : i < records.length := (List.getElem?_eq_some_iff.mp ha).1
  have hj : j < records.length := (List.getElem?_eq_some_iff.mp hb).1
  by_cases hindexed : Indexed indexFields records path
  · obtain ⟨text, htext, hpositive⟩ := hsimilar hindexed
    have hnone : pairsOf path a i = [] := by
      rw [pairsOf, hmissing]
      rfl
    have hone : pairsOf path b j = [(j, indexKey text)] := by
      rw [textAt] at htext
      rw [pairsOf, htext]
      rfl
    have hcredit : Comparator.textCredit (.of measure word.lexeme) one (indexKey text) =
        some (one * ofNat 100 * (TermScorer.of measure word.lexeme).score text : Float) := by
      rw [Comparator.textCredit, TermScorer.score_indexKey, if_pos hpositive]
    have hzero : ranking (zero : Float) = 0 := by decide
    rw [score_indexed hi ha hnodup hindexed, score_indexed hj hb hnodup hindexed, hnone, hone,
      List.filterMap_nil, List.filterMap_cons, hcredit]
    exact hzero.trans_lt (ranking_pos_of_isPositive hpositive)
  · rw [score_scanned hi ha hindexed, score_scanned hj hb hindexed]
    have hscore : (Comparator.recordScore (.of measure word.lexeme) (some path) a : Float) =
        Comparator.missing := by
      simp only [Comparator.recordScore, hmissing]
    rw [hscore]
    exact ranking_missing.trans_le (ranking_nonneg_of_resolve hresolved _)

end Ranks

namespace Engine

/-- When a word is searched for at a path, no record without the path comes before one that has
    something there, if that is similar to the word or the texts at the path are not in an index. All
    records are found, whether they are supplied with the run or are the engine's own, with scores that
    start from zero. -/
theorem run_wordAt (measure : Measure) (paths : List String) (recovery : Bool) (scoreMode : ScoreMode)
    (segment colon word : Token) (hword : word.kind = .searchTerm) (source : String)
    (records : List Record) :
    let s : Setup := ⟨.fuzzy measure, orderPaths paths, recovery, scoreMode⟩
    let query : CompiledQuery := ⟨wordAt segment colon word, source⟩
    ∃ hits : List (Hit Float),
      (∀ own operations,
        (((new s own : Engine Float).afterAll operations).run query (some records)).1 = .ok hits) ∧
      (∀ own operations, s.scoreMode = .reset →
        ((new s own : Engine Float).afterAll operations).dataset.map Dataset.records = some records →
          (((new s own : Engine Float).afterAll operations).run query none).1 = .ok hits) ∧
      ((new s (some records) : Engine Float).run query none).1 = .ok hits ∧
      (∀ id < records.length, id ∈ hits.map Hit.position) ∧
      hits.Pairwise fun a b => (resolve b.record segment.lexeme).isSome = true →
        (Indexed paths records segment.lexeme →
          IsSimilar measure word.lexeme segment.lexeme b.record) →
        (resolve a.record segment.lexeme).isSome = true := by
  intro s query
  let w : WorkingSet Float := Comparator.rankMatches measure (orderPaths paths)
    (.build (orderPaths paths) records) records ⟨some segment.lexeme, false, none⟩ word
    (.full records.length)
  have hanswer : s.answer records query.tree = .ok (rank records w) := by
    rw [answer_fuzzy rfl, evaluate_wordAt hword]
    rfl
  have hmembers : w.members = List.range records.length := Comparator.members_rankMatches rfl word _
  refine ⟨rank records w, fun own operations => ?_, fun own operations hreset hown => ?_, ?_,
    fun id hid => ?_, ?_⟩
  · exact (((coherent_new s own).afterAll operations).runSupplied_eq query records).trans hanswer
  · exact (((coherent_new s own).afterAll operations).run_own_eq hreset query hown).trans hanswer
  · exact (run_new s query records).2.trans hanswer
  · refine List.mem_map.mpr ⟨⟨id, w.score id, records[id]⟩, mem_rank.mpr ⟨?_, rfl, ?_⟩, rfl⟩
    · exact hmembers ▸ List.mem_range.mpr hid
    · exact List.getElem?_eq_getElem hid
  · refine (pairwise_rank records w).imp_of_mem fun {a b} ha hb hfalling hresolved hsimilar => ?_
    obtain ⟨-, hscore_a, hrecord_a⟩ := mem_rank.mp ha
    obtain ⟨-, hscore_b, hrecord_b⟩ := mem_rank.mp hb
    by_contra hmissing
    have hlt := ranking_lt_ranking (nodup_orderPaths paths) word hrecord_a hrecord_b
      (Option.not_isSome_iff_eq_none.mp hmissing) hresolved
      fun hindexed => hsimilar (hindexed.imp_left mem_orderPaths.mp)
    rw [hscore_a, hscore_b] at hfalling
    exact absurd hlt (not_lt.mpr hfalling)

theorem run_wordAt_starship :
    let e : Engine Float := new ⟨.fuzzy (.edits 2 true), ["name"], false, .reset⟩ none
    let query : CompiledQuery := ⟨wordAt (.ofText .searchTerm "name" 0) (.ofKind .groupTerminator 4)
      (.ofText .searchTerm "starshp" 5), "name:starshp"⟩
    let starship : Record := .object [("name", .string "Starship")]
    IsSimilar (.edits 2 true) "starshp" "name" starship ∧ ∃ hits : List (Hit Float),
      (e.run query (some [.object [("n", .number (.integer 7))], starship])).1 = .ok hits ∧
      hits.Pairwise fun a b => b.record = starship → (resolve a.record "name").isSome = true := by
  intro e query starship
  have hsimilar : IsSimilar (.edits 2 true) "starshp" "name" starship :=
    ⟨"Starship", by decide, by decide +kernel⟩
  have hresolved : (resolve starship "name").isSome = true := by decide
  obtain ⟨hits, hhits, -, -, -, hordered⟩ := run_wordAt (.edits 2 true) ["name"] false .reset
    (.ofText .searchTerm "name" 0) (.ofKind .groupTerminator 4) (.ofText .searchTerm "starshp" 5) rfl
    "name:starshp" [.object [("n", .number (.integer 7))], starship]
  refine ⟨hsimilar, hits, hhits none [], hordered.imp fun hcomes heq => ?_⟩
  rw [heq] at hcomes
  exact hcomes hresolved fun _ => hsimilar

/-- A record without the path comes before one with a text there that is not similar at all, when that
    text is in an index. -/
theorem run_wordAt_indexed :
    let e : Engine Float := new ⟨.fuzzy (.edits 2 true), ["p"], true, .reset⟩ none
    let query : CompiledQuery := ⟨wordAt (.ofText .searchTerm "p" 0) (.ofKind .groupTerminator 1)
      (.ofText .searchTerm "x" 2), "p:x"⟩
    let records : List Record := [.object [("a", .number (.integer 1))], .object [("p", .string "zzz")]]
    ∃ hits : List (Hit Float), (e.run query (some records)).1 = .ok hits ∧
      hits.map Hit.position = [0, 1] ∧ records.map (fun record => (resolve record "p").isSome) =
        [false, true] := by
  intro e query records
  refine ⟨_, rfl, ?_, by decide⟩
  rw [rank, List.mergeSort_of_pairwise (by decide)]
  decide

end Engine

end RecordSearch.Search
