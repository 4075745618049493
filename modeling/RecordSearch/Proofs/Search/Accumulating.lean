import RecordSearch.Proofs.Search.History
import RecordSearch.Proofs.Search.Hits
import RecordSearch.Proofs.Search.Indexing
import RecordSearch.Proofs.Search.Scores
import RecordSearch.Proofs.Search.Weights

/-! Scores that carry over from run to run. A term adds to the scores whatever they are, and the joint
    score of a connective weighs its operands with weights that sum to one; so if every record starts
    with some score more, it ends with that much more (`evaluate_raise`). The scores that an engine
    stores are therefore sums: what each run over the own records gives to a record from zero is added
    to what the record has (`scores_afterAll`). Scores are exact here; in doubles additions round. -/

namespace RecordSearch.Search

open RecordSearch.Query (Tree Token)

/-! ### Raised scores -/

/-- Adds to the score of every record what it is given. -/
def WorkingSet.raise (base : Nat → Rat) (w : WorkingSet Rat) : WorkingSet Rat :=
  { w with scores := w.scores.mapIdx fun id score => base id + score }

/-- What is done to a working set does not depend on where the scores start from. -/
def Raises (f : WorkingSet Rat → WorkingSet Rat) : Prop :=
  ∀ base w, f (w.raise base) = (f w).raise base

namespace WorkingSet

variable {base : Nat → Rat} {w : WorkingSet Rat} {id : Nat}

@[simp] theorem members_raise : (w.raise base).members = w.members := rfl

@[simp] theorem getElem?_raise :
    (w.raise base).scores[id]? = (w.scores[id]?).map (base id + ·) := List.getElem?_mapIdx

@[simp] theorem capacity_raise : (w.raise base).capacity = w.capacity := List.length_mapIdx

@[simp] theorem hasMember_raise : (w.raise base).hasMember id = w.hasMember id := by
  have hlength : (w.raise base).scores.length = w.scores.length := capacity_raise
  rw [hasMember, hasMember, hlength, members_raise]

theorem score_raise (hid : id < w.capacity) : (w.raise base).score id = base id + w.score id := by
  rw [score_eq, score_eq, getElem?_raise, List.getElem?_eq_getElem hid]
  rfl

theorem addScore_raise (other : Nat) (delta : Rat) :
    (w.raise base).addScore other delta = (w.addScore other delta).raise base := by
  refine eq_of_getElem? rfl fun id => ?_
  rw [getElem?_addScore, getElem?_raise, getElem?_raise, getElem?_addScore, Option.map_map,
    Option.map_map]
  congr 1
  funext score
  by_cases heq : other = id <;> simp [heq, add_assoc]

theorem addScores_raise (credits : List (Nat × Rat)) :
    (w.raise base).addScores credits = (w.addScores credits).raise base := by
  induction credits generalizing w with
  | nil => rfl
  | cons credit credits ih => rw [addScores_cons, addScores_cons, addScore_raise, ih]

end WorkingSet

namespace Comparator

variable {measure : Measure} {indexFields : List String} {indexes : Indexes} {records : List Record}

theorem raises_rankMatches (flags : Flags) (term : Token) :
    Raises (rankMatches measure indexFields indexes records flags term) := by
  intro base w
  cases hoperator : flags.operator with
  | none =>
    rw [rankMatches_eq_addScores hoperator, rankMatches_eq_addScores hoperator,
      WorkingSet.addScores_raise, WorkingSet.members_raise]
  | some order =>
    have hsome : flags.operator.isSome = true := by rw [hoperator]; rfl
    rw [rankMatches_of_isSome hsome, rankMatches_of_isSome hsome]
    rfl

theorem raises_joinScores {f g : WorkingSet Rat → WorkingSet Rat} (hf : Raises f) (hg : Raises g)
    (hfcapacity : KeepsCapacity f) (hgcapacity : KeepsCapacity g) (connective : Connective) :
    Raises (joinScores connective f g) := by
  intro base w
  refine WorkingSet.eq_of_getElem? ?_ fun id => ?_
  · rw [WorkingSet.members_raise, members_joinScores, members_joinScores, hf, hg]
    simp only [WorkingSet.members_raise, WorkingSet.hasMember_raise]
  rw [WorkingSet.getElem?_raise, getElem?_joinScores, getElem?_joinScores, hf, hg]
  simp only [WorkingSet.members_raise, WorkingSet.getElem?_raise]
  split
  · by_cases hid : id < w.capacity
    · rw [WorkingSet.score_raise (by rwa [hfcapacity w]),
        WorkingSet.score_raise (by rwa [hgcapacity w]), jointScore_add, Option.map_map, Option.map_map]
      rfl
    · rw [List.getElem?_eq_none (Nat.le_of_not_lt hid)]
      rfl
  · rfl

theorem keeps_raises : (fuzzy (α := Rat) measure indexFields indexes records).Keeps
    fun f => Raises f ∧ KeepsCapacity f where
  rest := ⟨fun _ _ => rfl, fun _ => rfl⟩
  clear := ⟨fun _ _ => rfl, fun _ => rfl⟩
  search flags term := ⟨raises_rankMatches flags term, keepsCapacity_rankMatches flags term⟩
  join connective _ _ hf hg := ⟨raises_joinScores hf.1 hg.1 hf.2 hg.2 connective,
    keepsCapacity_joinScores connective⟩

end Comparator

/-- If the scores start higher, ranking by any tree leaves them as much higher. -/
theorem evaluate_raise (measure : Measure) (indexFields : List String) (indexes : Indexes)
    (records : List Record) (t : Tree) (flags : Flags) :
    Raises (evaluate (.fuzzy measure indexFields indexes records) flags t) :=
  (evaluate_keeps Comparator.keeps_raises t flags).1

/-! ### Stored scores -/

section Outside

variable {α : Type} [Arithmetic α] {w : WorkingSet α} {id : Nat}

theorem WorkingSet.score_of_capacity_le (h : w.capacity ≤ id) : w.score id = Arithmetic.zero := by
  rw [score_eq, List.getElem?_eq_none h]
  rfl

/-- A record that is added starts from zero. -/
theorem WorkingSet.score_push : w.push.score id = w.score id := by
  by_cases hid : id < w.capacity
  · rw [score_eq, score_eq, push, List.getElem?_append_left hid]
  · have hout : w.capacity ≤ id := Nat.le_of_not_lt hid
    rw [score_of_capacity_le hout, score_eq, push, List.getElem?_append_right hout]
    cases id - w.scores.length <;> rfl

end Outside

namespace Engine

section Gains

variable {α : Type} [Arithmetic α]

/-- What a query finds in the own records with the indexes of the moment, from scores of zero. -/
def fromZero (e : Engine α) (d : Dataset α) (t : Tree) : WorkingSet α :=
  e.setup.eval (e.currentIndexes d).1 d.records t (.full d.records.length)

/-- The query of an operation that runs over the own records. -/
def ownQuery (e : Engine α) : Operation → Option Tree
  | .run query none => some query.tree
  | .search text none => (e.compile text).toOption.map CompiledQuery.tree
  | _ => none

/-- What an operation gives to a record from zero, if it runs over the own records and the record is
    one of them. -/
def gains (e : Engine α) (id : Nat) (operation : Operation) : List α :=
  match e.dataset, e.ownQuery operation with
  | some d, some t => if id < d.records.length then [(e.fromZero d t).score id] else []
  | _, _ => []

/-- What operations in turn give to a record, each in the engine that those before it leave. -/
def earned (id : Nat) : Engine α → List Operation → List α
  | _, [] => []
  | e, operation :: operations =>
    e.gains id operation ++ earned id (e.after operation) operations

theorem capacity_fromZero (e : Engine α) (d : Dataset α) (t : Tree) :
    (e.fromZero d t).capacity = d.records.length := by
  rw [fromZero, Setup.capacity_eval]
  exact List.length_replicate

theorem gains_of_idle {e : Engine α} {operation : Operation} (h : e.ownQuery operation = none)
    (id : Nat) : e.gains id operation = [] := by
  rw [gains, h]
  cases e.dataset <;> rfl

theorem gains_search {e : Engine α} {text : String} {query : CompiledQuery}
    (h : e.compile text = .ok query) (id : Nat) (records : Option (List Record)) :
    e.gains id (.search text records) = e.gains id (.run query records) := by
  have hsame : e.ownQuery (.search text records) = e.ownQuery (.run query records) := by
    cases records with
    | none => rw [ownQuery, ownQuery, h]; rfl
    | some records => rfl
  rw [gains, gains, hsame]

/-- The score that is stored for a record, zero for one that is not owned. -/
def storedScore (e : Engine α) (id : Nat) : α :=
  (e.dataset.map fun d => d.working.score id).getD Arithmetic.zero

theorem storedScore_addRecord (e : Engine α) (record : Record) (id : Nat) :
    (e.addRecord record).2.storedScore id = e.storedScore id := by
  have hnone : (⟨[], []⟩ : WorkingSet α).score id = Arithmetic.zero :=
    WorkingSet.score_of_capacity_le (Nat.zero_le id)
  rw [addRecord]
  cases e.setup.checkIndexing with
  | error error => rfl
  | ok _ =>
    cases hd : e.dataset <;> cases e.setup.indexFields.isEmpty <;>
      simp [storedScore, hd, WorkingSet.score_push, hnone]

theorem storedScore_runSupplied (e : Engine α) (query : CompiledQuery) (records : List Record)
    (id : Nat) : (e.runSupplied query records).2.storedScore id = e.storedScore id := by
  rw [runSupplied]
  cases e.setup.checkIndexing with
  | error error => rfl
  | ok _ =>
    cases e.setup.indexFields.isEmpty with
    | true => rfl
    | false => cases hd : e.dataset <;> simp [storedScore, hd]

end Gains

variable {s : Setup} {e : Engine Rat} {measure : Measure}

/-- An engine that accumulates starts from zero with the stored scores added. -/
theorem Coherent.startingSet_eq_raise (h : e.Coherent s) (hmode : s.scoreMode = .accumulate)
    {d : Dataset Rat} (hd : e.dataset = some d) :
    e.startingSet d = (WorkingSet.full d.records.length).raise d.working.score := by
  have hcoherent := h.dataset d hd
  rw [startingSet, h.setup_eq, hmode]
  refine WorkingSet.eq_of_getElem? hcoherent.members_eq fun id => ?_
  rw [WorkingSet.getElem?_raise, WorkingSet.full, List.getElem?_replicate, WorkingSet.score_eq,
    ← hcoherent.capacity_eq]
  by_cases hid : id < d.working.capacity
  · rw [if_pos hid, List.getElem?_eq_getElem hid]
    exact congrArg some (add_zero _).symm
  · rw [if_neg hid]
    exact List.getElem?_eq_none (Nat.le_of_not_lt hid)

/-- A query finds over the stored scores what it finds from zero, with the stored scores added. -/
theorem Coherent.eval_startingSet (h : e.Coherent s) (hfuzzy : s.strategy = .fuzzy measure)
    (hmode : s.scoreMode = .accumulate) {d : Dataset Rat} (hd : e.dataset = some d) (t : Tree) :
    e.setup.eval (e.currentIndexes d).1 d.records t (e.startingSet d) =
      (e.fromZero d t).raise d.working.score := by
  rw [h.startingSet_eq_raise hmode hd, fromZero, Setup.eval, Setup.eval, Setup.comparator, h.setup_eq,
    hfuzzy]
  exact evaluate_raise _ _ _ _ _ _ _ _

/-- A run over the own records adds to every stored score what it gives from zero. -/
theorem Coherent.storedScore_runOwn (h : e.Coherent s) (hfuzzy : s.strategy = .fuzzy measure)
    (hmode : s.scoreMode = .accumulate) (query : CompiledQuery) (id : Nat) :
    (e.runOwn query).2.storedScore id =
      e.storedScore id + (e.gains id (.run query none)).sum := by
  cases hd : e.dataset with
  | none => simp [Engine.runOwn, hd, gains, storedScore]
  | some d =>
    have hcheck := h.check_eq hd
    have hcapacity := e.capacity_fromZero d query.tree
    have hstored : (e.runOwn query).2.storedScore id =
        ((e.fromZero d query.tree).raise d.working.score).score id := by
      rw [← h.eval_startingSet hfuzzy hmode hd, Engine.runOwn, hd]
      simp only [hcheck, checkIndexing_fuzzy hfuzzy]
      rfl
    have hbefore : e.storedScore id = d.working.score id := by rw [storedScore, hd]; rfl
    rw [hstored, hbefore]
    simp only [gains, hd, ownQuery]
    by_cases hid : id < d.records.length
    · rw [if_pos hid, WorkingSet.score_raise (hid.trans_eq hcapacity.symm), List.sum_singleton]
    · have hout := Nat.le_of_not_lt hid
      have hraised : ((e.fromZero d query.tree).raise d.working.score).capacity ≤ id := by
        rwa [WorkingSet.capacity_raise, hcapacity]
      rw [if_neg hid, WorkingSet.score_of_capacity_le hraised,
        WorkingSet.score_of_capacity_le ((h.dataset d hd).capacity_eq.trans_le hout)]
      exact (add_zero _).symm

/-- Every operation adds to the stored scores what it gives. -/
theorem Coherent.storedScore_after (h : e.Coherent s) (hfuzzy : s.strategy = .fuzzy measure)
    (hmode : s.scoreMode = .accumulate) (operation : Operation) (id : Nat) :
    (e.after operation).storedScore id = e.storedScore id + (e.gains id operation).sum := by
  have hrun (query : CompiledQuery) (records : Option (List Record)) :
      (e.run query records).2.storedScore id =
        e.storedScore id + (e.gains id (.run query records)).sum := by
    cases records with
    | none => exact h.storedScore_runOwn hfuzzy hmode query id
    | some records =>
      rw [gains_of_idle rfl, List.sum_nil, add_zero]
      exact e.storedScore_runSupplied query records id
  cases operation with
  | compile query =>
    rw [gains_of_idle rfl, List.sum_nil, add_zero]
    rfl
  | addRecord record =>
    rw [gains_of_idle rfl, List.sum_nil, add_zero]
    exact e.storedScore_addRecord record id
  | run query records => exact hrun query records
  | search text records =>
    rw [Engine.after, search]
    cases hcompiled : e.compile text with
    | ok query =>
      rw [gains_search hcompiled]
      exact hrun query records
    | error error =>
      have hidle : e.ownQuery (.search text records) = none := by
        cases records with
        | none => rw [ownQuery, hcompiled]; rfl
        | some records => rfl
      rw [gains_of_idle hidle, List.sum_nil, add_zero]

/-- What operations give adds up. -/
theorem Coherent.storedScore_afterAll (h : e.Coherent s) (hfuzzy : s.strategy = .fuzzy measure)
    (hmode : s.scoreMode = .accumulate) (operations : List Operation) (id : Nat) :
    (e.afterAll operations).storedScore id = e.storedScore id + (e.earned id operations).sum := by
  induction operations generalizing e with
  | nil => exact (add_zero _).symm
  | cons operation operations ih =>
    have hfirst : e.afterAll (operation :: operations) = (e.after operation).afterAll operations := rfl
    rw [hfirst, ih (h.after operation), h.storedScore_after hfuzzy hmode, earned, List.sum_append,
      add_assoc]

theorem storedScore_new (s : Setup) (own : Option (List Record)) (id : Nat) :
    (new s own : Engine Rat).storedScore id = 0 := by
  cases own with
  | none => rfl
  | some records => exact (WorkingSet.unscored_full records.length).score_eq_zero id

/-- Whatever is asked of an engine that ranks and accumulates, the stored score of every own record is
    the sum of what the runs over the own records gave to it, each from zero over the records and
    the indexes of its moment. -/
theorem scores_afterAll (measure : Measure) (indexFields : List String) (recovery : Bool)
    (own : Option (List Record)) (operations : List Operation) {d : Dataset Rat}
    (hd : ((new ⟨.fuzzy measure, indexFields, recovery, .accumulate⟩ own : Engine Rat).afterAll
      operations).dataset = some d) :
    d.working.scores = (List.range d.records.length).map fun id =>
      ((new ⟨.fuzzy measure, indexFields, recovery, .accumulate⟩ own : Engine Rat).earned id
        operations).sum := by
  generalize hs : (⟨.fuzzy measure, indexFields, recovery, .accumulate⟩ : Setup) = s at hd ⊢
  have hfuzzy : s.strategy = .fuzzy measure := by rw [← hs]
  have hmode : s.scoreMode = .accumulate := by rw [← hs]
  have hcoherent := coherent_new (α := Rat) s own
  have hstored (id : Nat) := hcoherent.storedScore_afterAll hfuzzy hmode operations id
  have hcapacity : d.working.scores.length = d.records.length :=
    ((hcoherent.afterAll operations).dataset d hd).capacity_eq
  refine List.ext_getElem (by simp [hcapacity]) fun id hid _ => ?_
  rw [List.getElem_map, List.getElem_range, ← zero_add (List.sum _), ← storedScore_new s own id,
    ← hstored, storedScore, hd, Option.map_some, Option.getD_some, WorkingSet.score_eq,
    List.getElem?_eq_getElem hid, Option.getD_some]

theorem scores_afterAll_starshipOrLarge :
    let ship : Record := .object [("name", .string "Starship")]
    let seven : Record := .object [("n", .number (.integer 7))]
    let query : CompiledQuery := ⟨starshipOrLarge, "name:starshp OR n:>5"⟩
    let e : Engine Rat := new ⟨.fuzzy (.edits 2 true), ["name"], true, .accumulate⟩ (some [ship])
    let operations : List Operation :=
      [.run query none, .addRecord seven, .run query (some [seven]), .run query none]
    ∃ d, (e.afterAll operations).dataset = some d ∧ d.records = [ship, seven] ∧
      d.working.scores = [(e.earned 0 operations).sum, (e.earned 1 operations).sum] ∧
      e.earned 0 operations = [105 / 4, 105 / 4] ∧ e.earned 1 operations = [0] :=
  ⟨_, rfl, rfl, scores_afterAll (.edits 2 true) ["name"] true _ _ rfl, by decide +kernel,
    by decide +kernel⟩

end Engine

end RecordSearch.Search
