import RecordSearch.Proofs.Search.Evaluation
import RecordSearch.Search.Engine

/-! An engine answers by its setup and its records alone. Indexes are shared by the own records and
    every supplied batch, and they are rebuilt, extended or put out of date on different paths. But a
    flag tells whether they are those of the own records, and no operation, failed or not, leaves it
    wrong (`Coherent.after`). So what came before a run cannot be seen in its answer
    (`run_afterAll`). -/

namespace RecordSearch.Search

variable {α : Type}

/-! ### Scores of the whole dataset -/

/-- What is done to a working set leaves a score for every record. -/
def KeepsCapacity (f : WorkingSet α → WorkingSet α) : Prop := ∀ w, (f w).capacity = w.capacity

namespace WorkingSet

@[simp] theorem capacity_retain (keep : Nat → Bool) (w : WorkingSet α) :
    (w.retain keep).capacity = w.capacity := rfl

@[simp] theorem capacity_setScore (id : Nat) (score : α) (w : WorkingSet α) :
    (w.setScore id score).capacity = w.capacity := by simp [setScore, capacity]

@[simp] theorem capacity_addScore [Arithmetic α] (id : Nat) (delta : α) (w : WorkingSet α) :
    (w.addScore id delta).capacity = w.capacity := by simp [addScore, capacity]

theorem capacity_foldl {β : Type} {step : WorkingSet α → β → WorkingSet α}
    (hstep : ∀ w b, (step w b).capacity = w.capacity) (bs : List β) :
    ∀ w, (bs.foldl step w).capacity = w.capacity := by
  induction bs with
  | nil => intro w; rfl
  | cons b bs ih =>
    intro w
    rw [List.foldl_cons, ih, hstep]

end WorkingSet

namespace Comparator

theorem keepsCapacity_joinMembers {f g : WorkingSet α → WorkingSet α} (hf : KeepsCapacity f)
    (hg : KeepsCapacity g) (connective : Connective) : KeepsCapacity (joinMembers connective f g) := by
  intro w
  cases connective with
  | and => rw [joinMembers, hg, hf]
  | or => rfl

theorem keeps_binary (records : List Record) :
    (binary (α := α) records).Keeps KeepsCapacity where
  rest _ := rfl
  clear _ := rfl
  search _ _ _ := rfl
  join connective _ _ hf hg := keepsCapacity_joinMembers hf hg connective

variable [Arithmetic α] {records : List Record} {measure : Measure} {indexFields : List String}
  {indexes : Indexes}

theorem keepsCapacity_rankMatches (flags : Flags) (term : Query.Token) :
    KeepsCapacity (α := α) (rankMatches measure indexFields indexes records flags term) := by
  intro w
  rw [rankMatches]
  split
  · rfl
  · simp only []
    split
    · rw [scoreMembers]
      refine WorkingSet.capacity_foldl (fun v id => ?_) _ w
      split
      · exact WorkingSet.capacity_addScore _ _ _
      · rfl
    · refine WorkingSet.capacity_foldl (fun v index => ?_) _ w
      exact WorkingSet.capacity_foldl (fun _ _ => WorkingSet.capacity_addScore _ _ _) _ v

theorem keepsCapacity_joinScores {f g : WorkingSet α → WorkingSet α} (connective : Connective) :
    KeepsCapacity (joinScores connective f g) := by
  intro w
  rw [joinScores]
  exact WorkingSet.capacity_foldl (fun _ _ => WorkingSet.capacity_setScore _ _ _) _ _

theorem keeps_fuzzy : (fuzzy (α := α) measure indexFields indexes records).Keeps KeepsCapacity where
  rest _ := rfl
  clear _ := rfl
  search := keepsCapacity_rankMatches
  join connective _ _ _ _ := keepsCapacity_joinScores connective

end Comparator

theorem Comparator.keepsCapacity_comparator [Arithmetic α] (s : Setup) (indexes : Indexes)
    (records : List Record) :
    (s.comparator indexes records : Comparator (WorkingSet α)).Keeps KeepsCapacity := by
  rw [Setup.comparator]
  cases s.strategy with
  | binary => exact keeps_binary records
  | fuzzy measure => exact keeps_fuzzy

theorem Setup.capacity_eval [Arithmetic α] (s : Setup) (indexes : Indexes) (records : List Record)
    (tree : Query.Tree) (w : WorkingSet α) :
    (s.eval indexes records tree w).capacity = w.capacity :=
  evaluate_keeps (Comparator.keepsCapacity_comparator s indexes records) tree .root w

/-! ### Indexes of a dataset -/

theorem Indexes.build_nil (records : List Record) : Indexes.build [] records = [] := by
  rw [build]
  induction records.zipIdx with
  | nil => rfl
  | cons _ rest ih => exact ih

/-- Adding the next record to the indexes of some is building those of all. -/
theorem Indexes.addRecord_build (paths : List String) (records : List Record) (record : Record) :
    (build paths records).addRecord paths records.length record =
      build paths (records ++ [record]) := by
  rw [build, build, List.zipIdx_append, List.foldl_append]
  simp

/-! ### Answers from scratch -/

/-- What a setup finds in some records when it starts from nothing. -/
def Setup.answer [Arithmetic α] (s : Setup) (records : List Record) (tree : Query.Tree) :
    Except EngineError (List (Hit α)) :=
  match s.checkIndexing with
  | .error error => .error error
  | .ok () =>
    .ok (rank records (s.eval (.build s.indexFields records) records tree (.full records.length)))

/-- A setup that ranks can keep any indexes. -/
theorem checkIndexing_fuzzy {s : Setup} {measure : Measure} (hs : s.strategy = .fuzzy measure) :
    s.checkIndexing = .ok () := by
  rw [Setup.checkIndexing, hs]
  split <;> first | rfl | contradiction

theorem answer_fuzzy [Arithmetic α] {s : Setup} {measure : Measure} (hs : s.strategy = .fuzzy measure)
    (records : List Record) (t : Query.Tree) :
    (s.answer records t : Except EngineError (List (Hit α))) = .ok (rank records (evaluate
      (.fuzzy measure s.indexFields (.build s.indexFields records) records) .root t
      (.full records.length))) := by
  rw [Setup.answer, checkIndexing_fuzzy hs, Setup.eval, Setup.comparator, hs]

/-- The working set holds every record in order, and if the indexes are marked as those of the
    records, they are. -/
structure Dataset.Coherent (s : Setup) (indexes : Indexes) (d : Dataset α) : Prop where
  members_eq : d.working.members = List.range d.records.length
  capacity_eq : d.working.capacity = d.records.length
  checked : d.indexed = true → s.checkIndexing = .ok ()
  current : d.indexed = true → indexes = .build s.indexFields d.records

theorem Dataset.coherent_ofRecords [Arithmetic α] (s : Setup) (indexes : Indexes)
    (records : List Record) :
    (Dataset.ofRecords records : Dataset α).Coherent s indexes where
  members_eq := rfl
  capacity_eq := by simp [ofRecords, WorkingSet.full, WorkingSet.capacity]
  checked h := by cases h
  current h := by cases h

section Push

variable [Arithmetic α] {s : Setup} {indexes : Indexes} {d : Dataset α}

theorem Dataset.Coherent.members_push (h : d.Coherent s indexes) (record : Record) :
    d.working.push.members = List.range (d.records ++ [record]).length := by
  rw [WorkingSet.push, h.members_eq, ← WorkingSet.capacity, h.capacity_eq, List.length_append,
    List.length_singleton, List.range_succ]

theorem Dataset.Coherent.capacity_push (h : d.Coherent s indexes) (record : Record) :
    d.working.push.capacity = (d.records ++ [record]).length := by
  have hcapacity := h.capacity_eq
  rw [WorkingSet.capacity] at hcapacity ⊢
  simp [WorkingSet.push, hcapacity]

end Push

namespace Engine

/-- What holds of an engine of a setup at any time. -/
structure Coherent (s : Setup) (e : Engine α) : Prop where
  setup_eq : e.setup = s
  unindexed : s.indexFields = [] → e.indexes = []
  dataset : ∀ d, e.dataset = some d → d.Coherent s e.indexes

theorem coherent_new [Arithmetic α] (s : Setup) (own : Option (List Record)) :
    (new s own : Engine α).Coherent s where
  setup_eq := rfl
  unindexed _ := rfl
  dataset d hd := by
    obtain ⟨records, -, rfl⟩ := Option.map_eq_some_iff.mp hd
    exact Dataset.coherent_ofRecords s _ records

section Answers

variable {s : Setup} {e : Engine α}

/-- The indexes that the own records are searched with are theirs. -/
theorem Coherent.currentIndexes_eq (h : e.Coherent s) {d : Dataset α} (hd : e.dataset = some d) :
    (e.currentIndexes d).1 = .build s.indexFields d.records := by
  rw [currentIndexes, h.setup_eq]
  cases hindexed : d.indexed with
  | true => exact (h.dataset d hd).current hindexed
  | false =>
    rw [Bool.false_or]
    split
    · next hempty =>
      rw [h.unindexed (List.isEmpty_iff.mp hempty), List.isEmpty_iff.mp hempty, Indexes.build_nil]
    · rfl

theorem Coherent.check_eq (h : e.Coherent s) {d : Dataset α} (hd : e.dataset = some d) :
    (if d.indexed then .ok () else e.setup.checkIndexing) = s.checkIndexing := by
  rw [h.setup_eq]
  split
  · next hindexed => exact ((h.dataset d hd).checked hindexed).symm
  · rfl

variable [Arithmetic α]

theorem Coherent.startingSet_eq (h : e.Coherent s) (hreset : s.scoreMode = .reset) {d : Dataset α}
    (hd : e.dataset = some d) : e.startingSet d = .full d.records.length := by
  have hd := h.dataset d hd
  rw [startingSet, h.setup_eq, hreset]
  simp only [WorkingSet.resetScores, WorkingSet.full, hd.members_eq, ← hd.capacity_eq,
    WorkingSet.capacity, List.map_const']

/-- A run over supplied records answers from scratch. -/
theorem Coherent.runSupplied_eq (h : e.Coherent s) (query : CompiledQuery) (records : List Record) :
    (e.runSupplied query records).1 = s.answer records query.tree := by
  have hindexes : (e.reindexed records).indexes = .build s.indexFields records := by
    rw [reindexed, h.setup_eq]
    split
    · next hempty =>
      rw [h.unindexed (List.isEmpty_iff.mp hempty), List.isEmpty_iff.mp hempty, Indexes.build_nil]
    · rfl
  rw [runSupplied, Setup.answer, ← hindexes, ← h.setup_eq]
  cases e.setup.checkIndexing <;> rfl

/-- A run over the own records answers from scratch if it starts from scores of zero. -/
theorem Coherent.runOwn_eq (h : e.Coherent s) (query : CompiledQuery) {d : Dataset α}
    (hd : e.dataset = some d) (hstart : e.startingSet d = .full d.records.length) :
    (e.runOwn query).1 = s.answer d.records query.tree := by
  rw [runOwn, hd, Setup.answer]
  simp only [h.check_eq hd]
  cases s.checkIndexing with
  | error error => rfl
  | ok _ => simp only [hstart, h.currentIndexes_eq hd, h.setup_eq]

/-- An engine that starts from scores of zero answers from scratch over the records it owns. -/
theorem Coherent.run_own_eq (h : e.Coherent s) (hreset : s.scoreMode = .reset) (query : CompiledQuery)
    {records : List Record} (hown : e.dataset.map Dataset.records = some records) :
    (e.run query none).1 = s.answer records query.tree := by
  obtain ⟨d, hd, rfl⟩ := Option.map_eq_some_iff.mp hown
  exact h.runOwn_eq query hd (h.startingSet_eq hreset hd)

/-- A new engine answers from scratch, whether the records are supplied or its own. -/
theorem run_new (s : Setup) (query : CompiledQuery) (records : List Record) :
    (∀ own, ((new s own : Engine α).run query (some records)).1 = s.answer records query.tree) ∧
      ((new s (some records) : Engine α).run query none).1 = s.answer records query.tree := by
  refine ⟨fun own => (coherent_new s own).runSupplied_eq query records, ?_⟩
  have hnew := coherent_new (α := α) s (some records)
  have hown : (new s (some records) : Engine α).dataset = some (.ofRecords records) := rfl
  have hstart : (new s (some records) : Engine α).startingSet (.ofRecords records) =
      .full records.length := by
    cases hmode : s.scoreMode with
    | reset => exact hnew.startingSet_eq hmode hown
    | accumulate =>
      rw [startingSet, hnew.setup_eq, hmode]
      rfl
  have hanswer := hnew.runOwn_eq query hown hstart
  exact hanswer

/-- The records that a run searches: supplied ones, or else the own ones. -/
def searched (e : Engine α) (supplied : Option (List Record)) : Option (List Record) :=
  supplied.or (e.dataset.map Dataset.records)

/-- What a run over some records may start from: a score of zero for every record, or the stored scores
    if the records are the own ones and scores carry over. -/
inductive StartsFrom (s : Setup) (e : Engine α) :
    Option (List Record) → List Record → WorkingSet α → Prop
  | zero {supplied : Option (List Record)} {records : List Record} :
      StartsFrom s e supplied records (.full records.length)
  | stored {d : Dataset α} (own : e.dataset = some d) (carries : s.scoreMode = .accumulate) :
      StartsFrom s e none d.records d.working

variable {supplied : Option (List Record)} {records : List Record}

theorem run_of_searched_eq_none (h : e.searched supplied = none) (query : CompiledQuery) :
    (e.run query supplied).1 = .error .noDataset := by
  obtain ⟨rfl, hown⟩ := Option.or_eq_none_iff.mp h
  rw [run, runOwn, Option.map_eq_none_iff.mp hown]

/-- A run ranks what a query makes of the records that it searches. -/
theorem Coherent.run_searched (h : e.Coherent s) (hsearched : e.searched supplied = some records) :
    ∃ (indexes : Indexes) (start : WorkingSet α), e.StartsFrom s supplied records start ∧
      ∀ query, (e.run query supplied).1 = s.checkIndexing.map fun _ =>
        rank records (s.eval indexes records query.tree start) := by
  cases supplied with
  | some supplied =>
    obtain rfl : supplied = records := Option.some.inj hsearched
    refine ⟨.build s.indexFields supplied, _, .zero, fun query => ?_⟩
    rw [run, h.runSupplied_eq query supplied, Setup.answer]
    cases s.checkIndexing <;> rfl
  | none =>
    obtain ⟨d, hd, rfl⟩ := Option.map_eq_some_iff.mp hsearched
    refine ⟨(e.currentIndexes d).1, e.startingSet d, ?_, fun query => ?_⟩
    · cases hmode : s.scoreMode with
      | reset =>
        rw [h.startingSet_eq hmode hd]
        exact .zero
      | accumulate =>
        rw [startingSet, h.setup_eq, hmode]
        exact .stored hd hmode
    · have hcheck := h.check_eq hd
      rw [run, runOwn, hd]
      simp only [hcheck]
      cases s.checkIndexing with
      | error error => rfl
      | ok _ => simp only [Except.map, h.setup_eq]

/-- A run starts with all records, in order. -/
theorem Coherent.startsFrom_whole (h : e.Coherent s) {start : WorkingSet α}
    (hstart : e.StartsFrom s supplied records start) :
    start.members = List.range records.length ∧ start.capacity = records.length := by
  cases hstart with
  | zero => exact ⟨rfl, List.length_replicate⟩
  | stored own _ => exact ⟨(h.dataset _ own).members_eq, (h.dataset _ own).capacity_eq⟩

end Answers

/-! ### Operations -/

section Operations

variable [Arithmetic α] {s : Setup} {e : Engine α}

/-- An engine that a run over supplied records leaves is coherent: if it has indexes they are now those
    of the supplied records, and the own ones are marked as not indexed. -/
theorem Coherent.runSupplied (h : e.Coherent s) (query : CompiledQuery) (records : List Record) :
    (e.runSupplied query records).2.Coherent s := by
  rw [Engine.runSupplied]
  cases e.setup.checkIndexing with
  | error error => exact h
  | ok _ =>
    cases hempty : e.setup.indexFields.isEmpty with
    | true =>
      simp only [reindexed, hempty, if_true]
      exact h
    | false =>
      simp only [reindexed, hempty, Bool.false_eq_true, if_false]
      refine ⟨h.setup_eq, fun hnil => ?_, fun d hd => ?_⟩
      · rw [h.setup_eq, hnil] at hempty
        cases hempty
      · obtain ⟨d, hown, rfl⟩ := Option.map_eq_some_iff.mp hd
        have hcoherent := h.dataset d hown
        exact ⟨hcoherent.members_eq, hcoherent.capacity_eq, nofun, nofun⟩

/-- A run over the own records leaves their indexes and takes over the scores. -/
theorem Coherent.runOwn (h : e.Coherent s) (query : CompiledQuery) :
    (e.runOwn query).2.Coherent s := by
  rw [Engine.runOwn]
  cases hd : e.dataset with
  | none => exact h
  | some d =>
    have hcoherent := h.dataset d hd
    have hcheck := h.check_eq hd
    have hcurrent := h.currentIndexes_eq hd
    simp only [hcheck]
    cases hchecked : s.checkIndexing with
    | error error => exact h
    | ok _ =>
      refine ⟨h.setup_eq, fun hnil => ?_, fun d' hd' => ?_⟩
      · simp only [hcurrent, hnil, Indexes.build_nil]
      · obtain rfl := Option.some.inj hd'
        refine ⟨?_, ?_, fun _ => hchecked, fun _ => hcurrent⟩
        · have hstart : (e.startingSet d).members = d.working.members := by
            rw [startingSet]
            split <;> rfl
          exact hstart.trans hcoherent.members_eq
        · have hstart : (e.startingSet d).capacity = d.working.capacity := by
            rw [startingSet]
            split <;> simp [WorkingSet.resetScores, WorkingSet.capacity]
          have hresult := e.setup.capacity_eval (e.currentIndexes d).1 d.records query.tree
            (e.startingSet d)
          exact (hresult.trans hstart).trans hcoherent.capacity_eq

/-- A record that is added is indexed with the others, or all of them are. -/
theorem Coherent.addRecord (h : e.Coherent s) (record : Record) :
    (e.addRecord record).2.Coherent s := by
  have hown : (e.dataset.getD ⟨[], ⟨[], []⟩, false⟩).Coherent s e.indexes := by
    cases hd : e.dataset with
    | none => exact ⟨rfl, rfl, nofun, nofun⟩
    | some d => exact h.dataset d hd
  rw [Engine.addRecord]
  generalize e.dataset.getD ⟨[], ⟨[], []⟩, false⟩ = d at hown
  cases hchecked : e.setup.checkIndexing with
  | error error => exact h
  | ok _ =>
    rw [h.setup_eq] at hchecked
    have hmembers := hown.members_push record
    have hcapacity := hown.capacity_push record
    cases hempty : e.setup.indexFields.isEmpty with
    | true =>
      have hnil : s.indexFields = [] := by rwa [h.setup_eq, List.isEmpty_iff] at hempty
      simp only [if_true]
      refine ⟨h.setup_eq, h.unindexed, fun d' hd' => ?_⟩
      obtain rfl := Option.some.inj hd'
      refine ⟨hmembers, hcapacity, fun _ => hchecked, fun _ => ?_⟩
      rw [h.unindexed hnil, hnil, Indexes.build_nil]
    | false =>
      simp only [Bool.false_eq_true, if_false]
      refine ⟨h.setup_eq, fun hnil => ?_, fun d' hd' => ?_⟩
      · rw [h.setup_eq, hnil] at hempty
        cases hempty
      · obtain rfl := Option.some.inj hd'
        refine ⟨hmembers, hcapacity, fun _ => hchecked, fun _ => ?_⟩
        simp only [h.setup_eq, hown.capacity_eq]
        split
        · next hindexed => rw [hown.current hindexed, Indexes.addRecord_build]
        · rfl

/-- A run over the own records leaves them as they are. -/
theorem records_run_own (e : Engine α) (query : CompiledQuery) :
    (e.run query none).2.dataset.map Dataset.records = e.dataset.map Dataset.records := by
  rw [Engine.run, Engine.runOwn]
  cases hd : e.dataset with
  | none => simp only [hd]
  | some d =>
    simp only
    cases (if d.indexed = true then Except.ok () else e.setup.checkIndexing) with
    | error error => simp only [hd]
    | ok _ => rfl

/-- A record is added after the own ones. -/
theorem records_addRecord {records : List Record} (hchecked : e.setup.checkIndexing = .ok ())
    (hown : e.dataset.map Dataset.records = some records) (record : Record) :
    (e.addRecord record).2.dataset.map Dataset.records = some (records ++ [record]) := by
  obtain ⟨d, hd, rfl⟩ := Option.map_eq_some_iff.mp hown
  rw [Engine.addRecord, hchecked, hd]
  cases hempty : e.setup.indexFields.isEmpty <;> simp

end Operations

end Engine

/-- What may be asked of an engine. -/
inductive Operation where
  | compile (query : String)
  | addRecord (record : Record)
  | run (query : CompiledQuery) (records : Option (List Record))
  | search (query : String) (records : Option (List Record))

namespace Engine

variable [Arithmetic α]

/-- The engine after an operation, whether that succeeds or fails. -/
def after (e : Engine α) : Operation → Engine α
  | .compile _ => e
  | .addRecord record => (e.addRecord record).2
  | .run query records => (e.run query records).2
  | .search query records => (e.search query records).2

/-- The engine after operations in turn. -/
def afterAll (e : Engine α) (operations : List Operation) : Engine α := operations.foldl after e

variable {s : Setup} {e : Engine α}

theorem Coherent.run (h : e.Coherent s) (query : CompiledQuery) :
    ∀ records, (e.run query records).2.Coherent s
  | some records => h.runSupplied query records
  | none => h.runOwn query

theorem Coherent.after (h : e.Coherent s) : ∀ operation, (e.after operation).Coherent s
  | .compile _ => h
  | .addRecord record => h.addRecord record
  | .run query records => h.run query records
  | .search query records => by
      rw [Engine.after, Engine.search]
      cases e.compile query with
      | ok compiled => exact h.run compiled records
      | error error => exact h

theorem Coherent.afterAll (h : e.Coherent s) (operations : List Operation) :
    (e.afterAll operations).Coherent s := by
  induction operations generalizing e with
  | nil => exact h
  | cons operation operations ih => exact ih (h.after operation)

/-- Whatever was asked of an engine before, a run over supplied records answers as that of a new
    engine of the same setup, and so does a run over the own records, if every run starts from
    scores of zero and the new engine has the records that are owned now. -/
theorem run_afterAll (s : Setup) (own : Option (List Record)) (operations : List Operation)
    (query : CompiledQuery) :
    (∀ fresh records, (((new s own : Engine α).afterAll operations).run query (some records)).1 =
      ((new s fresh : Engine α).run query (some records)).1) ∧
    (s.scoreMode = .reset →
      (((new s own : Engine α).afterAll operations).run query none).1 =
        ((new s (((new s own : Engine α).afterAll operations).dataset.map Dataset.records) :
          Engine α).run query none).1) := by
  have hcoherent := (coherent_new (α := α) s own).afterAll operations
  generalize (new s own : Engine α).afterAll operations = e at hcoherent
  refine ⟨fun fresh records => ?_, fun hreset => ?_⟩
  · have hnew := (coherent_new (α := α) s fresh).runSupplied_eq query records
    exact (hcoherent.runSupplied_eq query records).trans hnew.symm
  · cases hd : e.dataset with
    | none =>
      rw [Engine.run, Engine.runOwn, hd]
      rfl
    | some d =>
      have hnew := coherent_new (α := α) s (some d.records)
      have hfresh := hnew.runOwn_eq query rfl (hnew.startingSet_eq hreset rfl)
      exact (hcoherent.runOwn_eq query hd (hcoherent.startingSet_eq hreset hd)).trans hfresh.symm

theorem run_afterAll_indexed :
    let s : Setup := ⟨.fuzzy (.edits 2 true), ["n"], true, .reset⟩
    let query : CompiledQuery := ⟨Query.Tree.atMostFive, "!(n:>5)"⟩
    let seven : Record := .object [("n", .number (.integer 7))]
    let three : Record := .object [("n", .number (.integer 3))]
    (((new s (some [seven]) : Engine Float).afterAll
        [.run query none, .run query (some [three, three]), .addRecord three]).run query none).1 =
      ((new s (some [seven, three]) : Engine Float).run query none).1 :=
  (run_afterAll _ _ _ _).2 rfl

end Engine

end RecordSearch.Search
