import RecordSearch.Proofs.Search.Hits
import RecordSearch.Proofs.Search.Terms

/-! Filtering and ranking agree on comparisons. A filter narrows its data from operand to operand, while a
    ranking evaluates both operands from the same data and merges members and scores. But where no text is
    searched for, both select the records that pass one test, as long as all scores are zero, and those
    stay zero (`SelectsAlike`). So engines of both kinds find the same hits for such queries
    (`run_comparisons`). -/

namespace RecordSearch.Search

open RecordSearch.Query (Tree Token Grammar)
open Arithmetic

/-- Every operand of a query is a number under a comparison: nowhere a text is searched for. -/
def OnlyCompares (t : Tree) : Prop := ∀ text place, ¬ TermAt text place t none

/-! ### One test -/

variable {records : List Record}

/-- What a filter does to every working set and a ranking to one with scores of zero is one selection. -/
def SelectsAlike (records : List Record) (f g : WorkingSet Float → WorkingSet Float) : Prop :=
  ∃ test : Record → Bool, Selects records false test f ∧
    ∀ w : WorkingSet Float, w.Over records → w.Unscored → g w = select records false test w

/-- The joint score of zeros is zero. -/
theorem jointScore_zero (connective : Connective) :
    Comparator.jointScore connective (zero : Float) zero = zero := by
  cases connective <;> decide

theorem selectsAlike_id : SelectsAlike records id id := by
  have hid : Selects (α := Float) records false (fun _ => true) id := selects_id fun _ => rfl
  exact ⟨fun _ => true, hid, fun w hw _ => hid w hw⟩

theorem selectsAlike_compare {measure : Measure} {indexFields : List String} {indexes : Indexes}
    (order : Comparison) (place : Option String) (exclude : Bool) (number : Token) :
    SelectsAlike records
      ((Comparator.binary records).search ⟨place, exclude, some order⟩ number)
      ((Comparator.fuzzy measure indexFields indexes records).search
        ⟨place, exclude, some order⟩ number) := by
  let test := TermTest.of number (some order)
  have hselects : Selects (α := Float) records false (fun record => test.record place record != exclude)
      (Comparator.filterMatches records ⟨place, exclude, some order⟩ number) := fun w hw =>
    select_eq_kept hw exclude (test.record place)
  refine ⟨_, hselects, fun w hw _ => ?_⟩
  have hfilters : Comparator.rankMatches measure indexFields indexes records
      ⟨place, exclude, some order⟩ number w =
        Comparator.filterMatches records ⟨place, exclude, some order⟩ number w :=
    Comparator.rankMatches_of_isSome rfl number w
  exact hfilters.trans (hselects w hw)

/-- A ranking merges two selections into the one that a filter makes step by step. -/
theorem joinScores_eq_select {p q : Record → Bool} {f g : WorkingSet Float → WorkingSet Float}
    {w : WorkingSet Float} (hw : w.Over records) (hzero : w.Unscored)
    (hf : f w = select records false p w) (hg : g w = select records false q w)
    (connective : Connective) : Comparator.joinScores connective f g w =
      select records false (fun record => Comparator.keeps connective (p record) (q record)) w := by
  refine WorkingSet.eq_of_getElem? ?_ fun id => ?_
  · rw [Comparator.members_joinScores, hf, hg]
    refine List.filter_congr fun id hid => ?_
    obtain ⟨record, hrecord⟩ := any_of_member hw hid
    rw [select, select, hasMember_retain hw hid, hasMember_retain hw hid, hrecord, hrecord, hrecord]
    simp only [Bool.bne_false]
  · have hscore : (select records false p w).score id = zero ∧
        (select records false q w).score id = zero :=
      ⟨hzero.score_eq_zero id, hzero.score_eq_zero id⟩
    have hkept : ((w.scores[id]?).map fun _ => (zero : Float)) = w.scores[id]? := by
      cases hscore : w.scores[id]? with
      | none => rfl
      | some score => rw [hzero score (List.mem_of_getElem? hscore)]; rfl
    rw [Comparator.getElem?_joinScores, hf, hg, hscore.1, hscore.2, jointScore_zero, hkept, ite_self]
    rfl

theorem selectsAlike_join {f g f' g' : WorkingSet Float → WorkingSet Float}
    (hf : SelectsAlike records f f') (hg : SelectsAlike records g g') (connective : Connective) :
    SelectsAlike records (Comparator.joinMembers connective f g)
      (Comparator.joinScores connective f' g') := by
  obtain ⟨p, hf, hf'⟩ := hf
  obtain ⟨q, hg, hg'⟩ := hg
  refine ⟨fun record => Comparator.keeps connective (p record) (q record), ?_, fun w hw hzero =>
    joinScores_eq_select hw hzero (hf' w hw hzero) (hg' w hw hzero) connective⟩
  have hjoin := selects_join hf hg connective
  cases connective <;> exact hjoin

/-- Without texts to search for, a filter and a ranking do the same for every phrase of a query. -/
theorem relatesAt_comparisons (records : List Record) (measure : Measure) (indexFields : List String)
    (indexes : Indexes) :
    (Comparator.binary records).RelatesAt (Comparator.fuzzy measure indexFields indexes records)
      (fun _ _ => False) (SelectsAlike records) where
  rest := selectsAlike_id
  word _ _ hnone _ := hnone.elim
  compare order place exclude number := selectsAlike_compare order place exclude number
  join connective _ _ _ _ hf hg := selectsAlike_join hf hg connective

/-- A filter and a ranking leave the same of all records, with scores of zero. -/
theorem evaluate_comparisons {tokens : List Token} {t : Tree}
    (ht : Grammar.query.IsDerivation tokens t) (hcompares : OnlyCompares t) (records : List Record)
    (measure : Measure) (indexFields : List String) (indexes : Indexes) :
    ∃ w : WorkingSet Float, w.Unscored ∧
      evaluate (.binary records) .root t (.full records.length) = w ∧
      evaluate (.fuzzy measure indexFields indexes records) .root t (.full records.length) = w := by
  have hover := over_full (α := Float) records
  have hzero := WorkingSet.unscored_full (α := Float) records.length
  obtain ⟨test, hfiltered, hranked⟩ := evaluate_relates_of_conforms
    (relatesAt_comparisons records measure indexFields indexes) ht.conforms ht.root (by decide) none
    false hcompares
  exact ⟨select records false test (.full records.length), hzero, hfiltered _ hover,
    hranked _ hover hzero⟩

/-! ### Engines -/

namespace Engine

/-- A run that starts from scores of zero starts from every record with such a score. -/
theorem Coherent.startsFrom_eq_full {s : Setup} {e : Engine Float} {supplied : Option (List Record)}
    {start : WorkingSet Float} (h : e.Coherent s) (hstart : e.StartsFrom s supplied records start)
    (hzero : start.Unscored) : start = .full records.length := by
  obtain ⟨hmembers, hcapacity⟩ := h.startsFrom_whole hstart
  have hscores : start.scores = List.replicate records.length zero :=
    List.eq_replicate_iff.mpr ⟨hcapacity, hzero⟩
  exact WorkingSet.eq_of_getElem? hmembers fun id => by rw [hscores]; rfl

/-- An engine that ranks, whatever its measure and its indexes, and one that filters find the same hits
    for a query of comparisons, all with a score of zero. The records are supplied with a run or are an
    engine's own, and anything may have been asked of the engines before; only if scores carry over must
    an engine that ranks its own records have none stored, as a new one has none. -/
theorem run_comparisons {s s' : Setup} {measure : Measure} (hfuzzy : s.strategy = .fuzzy measure)
    (hbinary : s'.strategy = .binary) (hfields : s'.indexFields = [])
    (own own' : Option (List Record)) (operations operations' : List Operation)
    {supplied supplied' : Option (List Record)}
    (hsearched : ((new s own : Engine Float).afterAll operations).searched supplied = some records)
    (hsearched' :
      ((new s' own' : Engine Float).afterAll operations').searched supplied' = some records)
    (hstart : supplied.isSome = true ∨ s.scoreMode = .reset ∨
      ((new s own : Engine Float).afterAll operations).Unscored)
    {query : CompiledQuery} {tokens : List Token}
    (hquery : Grammar.query.IsDerivation tokens query.tree) (hcompares : OnlyCompares query.tree) :
    ∃ hits : List (Hit Float),
      (((new s own : Engine Float).afterAll operations).run query supplied).1 = .ok hits ∧
      (((new s' own' : Engine Float).afterAll operations').run query supplied').1 = .ok hits ∧
      ∀ hit ∈ hits, hit.score = 0 := by
  have hranks := (coherent_new (α := Float) s own).afterAll operations
  have hnew := coherent_new (α := Float) s' own'
  have hfilters := hnew.afterAll operations'
  obtain ⟨indexes, start, hfrom, hrun⟩ := hranks.run_searched hsearched
  obtain ⟨indexes', start', hfrom', hrun'⟩ := hfilters.run_searched hsearched'
  have hzero : start.Unscored := by
    cases hfrom with
    | zero => exact WorkingSet.unscored_full records.length
    | stored hown hcarries =>
      rcases hstart with hsome | hreset | hunscored
      · cases hsome
      · cases hcarries.symm.trans hreset
      · exact hunscored _ hown
  have hzero' : start'.Unscored :=
    (hnew.unscored_afterAll hbinary (unscored_new s' own') operations').startsFrom hfrom'
  obtain rfl := hranks.startsFrom_eq_full hfrom hzero
  obtain rfl := hfilters.startsFrom_eq_full hfrom' hzero'
  obtain ⟨w, hw, hfiltered, hranked⟩ :=
    evaluate_comparisons hquery hcompares records measure s.indexFields indexes
  have hcheck : s'.checkIndexing = .ok () := by rw [Setup.checkIndexing, hfields]
  refine ⟨rank records w, ?_, ?_, fun hit hhit => ?_⟩
  · rw [hrun, checkIndexing_fuzzy hfuzzy, Setup.eval, Setup.comparator, hfuzzy, ← hranked]
    rfl
  · rw [hrun', hcheck, Setup.eval, Setup.comparator, hbinary, ← hfiltered]
    rfl
  · exact (mem_rank.mp hhit).2.1.trans (hw.score_eq_zero hit.position)

theorem onlyCompares_atMostFive : OnlyCompares Tree.atMostFive := by
  intro text place hplace
  simp [Tree.atMostFive, termAt_leaf, termAt_group, termAt_node, Token.ofKind, Token.ofText] at hplace

theorem run_comparisons_atMostFive :
    let three : Record := .object [("n", .number (.integer 3))]
    let seven : Record := .object [("n", .number (.integer 7))]
    let query : CompiledQuery := ⟨Tree.atMostFive, "!(n:>5)"⟩
    let ranks : Engine Float :=
      (new ⟨.fuzzy (.edits 2 true), ["n"], true, .reset⟩ (some [seven])).afterAll
        [.run query (some [three]), .addRecord three]
    let filters : Engine Float := new ⟨.binary, [], false, .accumulate⟩ none
    ∃ hits : List (Hit Float), (ranks.run query none).1 = .ok hits ∧
      (filters.run query (some [seven, three])).1 = .ok hits ∧ ∀ hit ∈ hits, hit.score = 0 := by
  intro three seven query ranks filters
  have hfuzzy : (⟨.fuzzy (.edits 2 true), ["n"], true, .reset⟩ : Setup).strategy =
      .fuzzy (.edits 2 true) := rfl
  have hbinary : (⟨.binary, [], false, .accumulate⟩ : Setup).strategy = .binary := rfl
  have hsearched : ranks.searched none = some [seven, three] := rfl
  have hsearched' : filters.searched (some [seven, three]) = some [seven, three] := rfl
  exact run_comparisons hfuzzy hbinary rfl (some [seven]) none
    [.run query (some [three]), .addRecord three] [] hsearched hsearched' (.inr (.inl rfl))
    Tree.isDerivation_atMostFive onlyCompares_atMostFive

end Engine

end RecordSearch.Search
