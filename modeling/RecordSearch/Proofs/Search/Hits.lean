import Mathlib.Data.List.Sort
import RecordSearch.Proofs.Search.Narrowing

/-! What every run answers with, whatever was asked of an engine before: different records of those that
    are searched, each with its position, by falling score, and ties by rising position (`run_wellFormed`).
    It rests on the working set of the own records, which is whole and in order at any time, on evaluation,
    which only narrows it, and on sorting, which is stable. An engine that filters never stores a score
    other than zero (`Coherent.unscored_afterAll`), so its hits come by position even if scores carry over. -/

namespace RecordSearch.Search

open RecordSearch.Decimal (ranking)
open Arithmetic

variable {α : Type}

/-! ### Ranked hits -/

/-- One hit comes before another: its score is above, or ties and its position is lower. -/
def Hit.Before (a b : Hit Float) : Prop :=
  ranking b.score < ranking a.score ∨ ranking a.score = ranking b.score ∧ a.position < b.position

/-- Hits are different records of those that are searched, in order. -/
structure WellFormed (records : List Record) (hits : List (Hit Float)) : Prop where
  record_eq : ∀ hit ∈ hits, ∃ h : hit.position < records.length, records[hit.position] = hit.record
  nodup : (hits.map Hit.position).Nodup
  ordered : hits.Pairwise Hit.Before

theorem ranksBefore_iff {x y : Float} : ranksBefore x y = true ↔ ranking y ≤ ranking x :=
  decide_eq_true_iff

theorem ranksBefore_trans (a b c : Hit Float) (hab : ranksBefore a.score b.score = true)
    (hbc : ranksBefore b.score c.score = true) : ranksBefore a.score c.score = true := by
  rw [ranksBefore_iff] at hab hbc ⊢
  exact hbc.trans hab

theorem ranksBefore_total (a b : Hit Float) :
    (ranksBefore a.score b.score || ranksBefore b.score a.score) = true := by
  rw [Bool.or_eq_true, ranksBefore_iff, ranksBefore_iff]
  exact le_total (ranking b.score) (ranking a.score)

/-- Hits come with falling scores. -/
theorem pairwise_rank (records : List Record) (w : WorkingSet Float) :
    (rank records w).Pairwise fun a b => ranking b.score ≤ ranking a.score := by
  have hsorted : (rank records w).Pairwise fun a b => ranksBefore a.score b.score = true :=
    List.pairwise_mergeSort ranksBefore_trans ranksBefore_total _
  exact hsorted.imp ranksBefore_iff.mp

/-- The members of a result with the records they stand for, in their order. -/
def found [Arithmetic α] (records : List Record) (w : WorkingSet α) : List (Hit α) :=
  w.members.filterMap fun id => (records[id]?).map fun record => ⟨id, w.score id, record⟩

theorem pairwise_found [Arithmetic α] {w : WorkingSet α} (h : w.members.Pairwise (· < ·))
    (records : List Record) : (found records w).Pairwise fun a b => a.position < b.position := by
  refine List.pairwise_filterMap.mpr (h.imp fun hlt a ha b hb => ?_)
  obtain ⟨_, -, rfl⟩ := Option.map_eq_some_iff.mp ha
  obtain ⟨_, -, rfl⟩ := Option.map_eq_some_iff.mp hb
  exact hlt

theorem rank_perm [Arithmetic α] (records : List Record) (w : WorkingSet α) :
    (rank records w).Perm (found records w) := List.mergeSort_perm _ _

/-- Hits whose scores tie are ranked in the order in which they are found. -/
theorem filter_rank (records : List Record) (w : WorkingSet Float) (place : Int) :
    (rank records w).filter (fun hit => ranking hit.score = place) =
      (found records w).filter fun hit => ranking hit.score = place := by
  let tied := (found records w).filter fun hit => ranking hit.score = place
  have hplace : ∀ hit ∈ tied, ranking hit.score = place := fun hit hhit =>
    of_decide_eq_true (List.mem_filter.mp hhit).2
  have hordered : tied.Pairwise fun a b => ranksBefore a.score b.score = true :=
    List.pairwise_of_forall_mem_list fun a ha b hb =>
      ranksBefore_iff.mpr ((hplace b hb).trans (hplace a ha).symm).le
  have hsublist : tied.Sublist (rank records w) :=
    List.sublist_mergeSort ranksBefore_trans ranksBefore_total hordered List.filter_sublist
  have hkept : tied.Sublist ((rank records w).filter fun hit => ranking hit.score = place) := by
    have hfiltered := hsublist.filter fun hit => decide (ranking hit.score = place)
    rwa [List.filter_eq_self.mpr fun hit hhit => decide_eq_true (hplace hit hhit)] at hfiltered
  exact (hkept.eq_of_length ((rank_perm records w).filter _).length_eq.symm).symm

theorem pairwise_before_rank {w : WorkingSet Float} (h : w.members.Pairwise (· < ·))
    (records : List Record) : (rank records w).Pairwise Hit.Before := by
  refine List.pairwise_iff_forall_sublist.mpr fun {a b} hab => ?_
  have hle := List.pairwise_iff_forall_sublist.mp (pairwise_rank records w) hab
  rcases lt_or_eq_of_le hle with hlt | heq
  · exact .inl hlt
  · -- Both have the score of the first, so they stand in the ranking as they were found.
    have htied := hab.filter fun hit => decide (ranking hit.score = ranking a.score)
    have hboth : [a, b].filter (fun hit => ranking hit.score = ranking a.score) = [a, b] := by
      simp [heq]
    rw [hboth, filter_rank] at htied
    exact .inr ⟨heq.symm,
      List.pairwise_iff_forall_sublist.mp (pairwise_found h records) (htied.trans List.filter_sublist)⟩

/-- Members in the order of the records are ranked as well-formed hits. -/
theorem wellFormed_rank {w : WorkingSet Float} (h : w.members.Pairwise (· < ·))
    (records : List Record) : WellFormed records (rank records w) where
  record_eq hit hhit := List.getElem?_eq_some_iff.mp (mem_rank.mp hhit).2.2
  nodup := by
    have hnodup : ((found records w).map Hit.position).Nodup :=
      List.pairwise_map.mpr ((pairwise_found h records).imp Nat.ne_of_lt)
    exact ((rank_perm records w).map Hit.position).nodup_iff.mpr hnodup
  ordered := pairwise_before_rank h records

/-- Hits that all have a score of zero come by position. -/
theorem WellFormed.pairwise_position {records : List Record} {hits : List (Hit Float)}
    (h : WellFormed records hits) (hzero : ∀ hit ∈ hits, hit.score = 0) :
    hits.Pairwise fun a b => a.position < b.position := by
  refine h.ordered.imp_of_mem fun {a b} ha hb hbefore => ?_
  rcases hbefore with hlt | ⟨-, hlt⟩
  · rw [hzero a ha, hzero b hb] at hlt
    exact absurd hlt (lt_irrefl _)
  · exact hlt

/-! ### Scores of zero -/

section Unscored

variable [Arithmetic α]

/-- Every score is zero. -/
def WorkingSet.Unscored (w : WorkingSet α) : Prop := ∀ score ∈ w.scores, score = zero

theorem WorkingSet.unscored_full (size : Nat) : (WorkingSet.full size : WorkingSet α).Unscored :=
  fun _ => List.eq_of_mem_replicate

theorem WorkingSet.unscored_resetScores (w : WorkingSet α) : w.resetScores.Unscored := by
  intro score hscore
  obtain ⟨_, -, rfl⟩ := List.mem_map.mp hscore
  rfl

theorem WorkingSet.Unscored.push {w : WorkingSet α} (h : w.Unscored) : w.push.Unscored := by
  intro score hscore
  rcases List.mem_append.mp hscore with hold | hnew
  · exact h score hold
  · exact List.mem_singleton.mp hnew

theorem WorkingSet.Unscored.score_eq_zero {w : WorkingSet α} (h : w.Unscored) (id : Nat) :
    w.score id = zero := by
  rw [WorkingSet.score_eq]
  cases hscore : w.scores[id]? with
  | none => rfl
  | some score => exact h score (List.mem_of_getElem? hscore)

theorem WorkingSet.Unscored.of_scores_eq {v w : WorkingSet α} (h : w.Unscored)
    (hscores : v.scores = w.scores) : v.Unscored := fun score hscore => h score (hscores ▸ hscore)

theorem Setup.leavesScores_eval (s : Setup) (hbinary : s.strategy = .binary) (indexes : Indexes)
    (records : List Record) (tree : Query.Tree) :
    LeavesScores (s.eval indexes records tree : WorkingSet α → WorkingSet α) := by
  intro w
  rw [Setup.eval, Setup.comparator, hbinary]
  exact evaluate_keeps (Comparator.leavesScores_binary records) tree .root w

namespace Engine

/-- Every score that is stored is zero. -/
def Unscored (e : Engine α) : Prop := ∀ d, e.dataset = some d → d.working.Unscored

theorem unscored_new (s : Setup) (own : Option (List Record)) : (new s own : Engine α).Unscored := by
  intro d hd
  obtain ⟨records, -, rfl⟩ := Option.map_eq_some_iff.mp hd
  exact WorkingSet.unscored_full records.length

variable {s : Setup} {e : Engine α}

theorem Unscored.addRecord (h : e.Unscored) (record : Record) : (e.addRecord record).2.Unscored := by
  have hown : (e.dataset.getD ⟨[], ⟨[], []⟩, false⟩).working.Unscored := by
    cases hd : e.dataset with
    | none => exact nofun
    | some d => exact h d hd
  rw [Engine.addRecord]
  generalize e.dataset.getD ⟨[], ⟨[], []⟩, false⟩ = d at hown
  cases e.setup.checkIndexing with
  | error error => exact h
  | ok _ =>
    cases e.setup.indexFields.isEmpty <;>
    · intro d' hd'
      obtain rfl := Option.some.inj hd'
      exact hown.push

theorem Unscored.runSupplied (h : e.Unscored) (query : CompiledQuery) (records : List Record) :
    (e.runSupplied query records).2.Unscored := by
  rw [Engine.runSupplied]
  cases e.setup.checkIndexing with
  | error error => exact h
  | ok _ =>
    cases e.setup.indexFields.isEmpty with
    | true => exact h
    | false =>
      intro d hd
      obtain ⟨d, hown, rfl⟩ := Option.map_eq_some_iff.mp hd
      exact h d hown

theorem Unscored.startingSet (h : e.Unscored) {d : Dataset α} (hd : e.dataset = some d) :
    (e.startingSet d).Unscored := by
  rw [Engine.startingSet]
  cases e.setup.scoreMode with
  | reset => exact d.working.unscored_resetScores
  | accumulate => exact h d hd

/-- An engine that filters stores the scores that its run started from. -/
theorem Unscored.runOwn (h : e.Unscored) (hbinary : e.setup.strategy = .binary)
    (query : CompiledQuery) : (e.runOwn query).2.Unscored := by
  rw [Engine.runOwn]
  cases hd : e.dataset with
  | none => exact h
  | some d =>
    cases hcheck : (if d.indexed then .ok () else e.setup.checkIndexing : Except EngineError Unit) with
    | error error =>
      simp only [hcheck]
      exact h
    | ok _ =>
      simp only [hcheck]
      intro d' hd'
      obtain rfl := Option.some.inj hd'
      exact (h.startingSet hd).of_scores_eq (e.setup.leavesScores_eval hbinary _ _ _ _)

theorem Unscored.run (h : e.Unscored) (hbinary : e.setup.strategy = .binary) (query : CompiledQuery) :
    ∀ records, (e.run query records).2.Unscored
  | some records => h.runSupplied query records
  | none => h.runOwn hbinary query

theorem Unscored.after (h : e.Unscored) (hbinary : e.setup.strategy = .binary) :
    ∀ operation, (e.after operation).Unscored
  | .compile _ => h
  | .addRecord record => h.addRecord record
  | .run query records => h.run hbinary query records
  | .search query records => by
      rw [Engine.after, Engine.search]
      cases e.compile query with
      | ok compiled => exact h.run hbinary compiled records
      | error error => exact h

/-- Whatever is asked of an engine that filters, no score is stored. -/
theorem Coherent.unscored_afterAll (hcoherent : e.Coherent s) (hbinary : s.strategy = .binary)
    (h : e.Unscored) (operations : List Operation) : (e.afterAll operations).Unscored := by
  induction operations generalizing e with
  | nil => exact h
  | cons operation operations ih =>
    exact ih (hcoherent.after operation) (h.after (hcoherent.setup_eq ▸ hbinary) operation)

end Engine

end Unscored

/-! ### Runs -/

namespace Engine

/-- A run starts from scores of zero if none other is stored. -/
theorem Unscored.startsFrom [Arithmetic α] {s : Setup} {e : Engine α} {supplied : Option (List Record)}
    {records : List Record} {start : WorkingSet α} (h : e.Unscored)
    (hstart : e.StartsFrom s supplied records start) : start.Unscored := by
  cases hstart with
  | zero => exact WorkingSet.unscored_full records.length
  | stored own _ => exact h _ own

/-- What a run leaves of its records is in their order. -/
theorem Coherent.pairwise_eval [Arithmetic α] {s : Setup} {e : Engine α}
    {supplied : Option (List Record)} {records : List Record} {start : WorkingSet α}
    (h : e.Coherent s) (hstart : e.StartsFrom s supplied records start) (indexes : Indexes)
    (tree : Query.Tree) : (s.eval indexes records tree start).members.Pairwise (· < ·) := by
  have hsublist := evaluate_keeps (Comparator.narrows_comparator s indexes records) tree .root start
  rw [(h.startsFrom_whole hstart).1] at hsublist
  exact List.pairwise_lt_range.sublist hsublist

/-- Whatever was asked of an engine before, the hits of a run are different records of those that are
    searched, each with its position, by falling score and ties by rising position. If the engine filters,
    all scores are zero, so hits come by rising position. -/
theorem run_wellFormed (s : Setup) (own : Option (List Record)) (operations : List Operation)
    (query : CompiledQuery) (supplied : Option (List Record)) {hits : List (Hit Float)}
    (hrun : (((new s own : Engine Float).afterAll operations).run query supplied).1 = .ok hits) :
    ∃ records, ((new s own : Engine Float).afterAll operations).searched supplied = some records ∧
      WellFormed records hits ∧ (s.strategy = .binary →
        (∀ hit ∈ hits, hit.score = 0) ∧ hits.Pairwise fun a b => a.position < b.position) := by
  have hnew := coherent_new (α := Float) s own
  have hcoherent := hnew.afterAll operations
  have hunscored (hbinary : s.strategy = .binary) :=
    hnew.unscored_afterAll hbinary (unscored_new s own) operations
  generalize (new s own : Engine Float).afterAll operations = e at *
  cases hsearched : e.searched supplied with
  | none =>
    rw [run_of_searched_eq_none hsearched] at hrun
    cases hrun
  | some records =>
    obtain ⟨indexes, start, hstart, hanswer⟩ := hcoherent.run_searched hsearched
    rw [hanswer] at hrun
    cases hcheck : s.checkIndexing with
    | error error =>
      rw [hcheck] at hrun
      cases hrun
    | ok _ =>
      rw [hcheck] at hrun
      obtain rfl := Except.ok.inj hrun
      have hwellFormed := wellFormed_rank (hcoherent.pairwise_eval hstart indexes query.tree) records
      refine ⟨records, rfl, hwellFormed, fun hbinary => ?_⟩
      have hresult := ((hunscored hbinary).startsFrom hstart).of_scores_eq
        (s.leavesScores_eval hbinary indexes records query.tree start)
      have hzero : ∀ hit ∈ rank records (s.eval indexes records query.tree start), hit.score = 0 :=
        fun hit hhit => (mem_rank.mp hhit).2.1.trans (hresult.score_eq_zero hit.position)
      exact ⟨hzero, hwellFormed.pairwise_position hzero⟩

theorem run_wellFormed_atMostFive :
    let three : Record := .object [("n", .number (.integer 3))]
    let seven : Record := .object [("n", .number (.integer 7))]
    let query : CompiledQuery := ⟨Query.Tree.atMostFive, "!(n:>5)"⟩
    let e : Engine Float := (new ⟨.binary, [], true, .accumulate⟩ (some [three, seven])).afterAll
      [.run query none, .addRecord three, .run query (some [seven])]
    ∃ hits : List (Hit Float), (e.run query none).1 = .ok hits ∧
      WellFormed [three, seven, three] hits ∧ (∀ hit ∈ hits, hit.score = 0) ∧
      hits.Pairwise fun a b => a.position < b.position := by
  intro three seven query e
  obtain ⟨records, hsearched, hwellFormed, hbinary⟩ :=
    run_wellFormed ⟨.binary, [], true, .accumulate⟩ (some [three, seven])
      [.run query none, .addRecord three, .run query (some [seven])] query none rfl
  obtain rfl : [three, seven, three] = records := Option.some.inj hsearched
  exact ⟨_, rfl, hwellFormed, hbinary rfl⟩

end Engine

end RecordSearch.Search
