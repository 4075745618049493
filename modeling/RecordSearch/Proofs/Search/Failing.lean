import RecordSearch.Proofs.Search.History

/-! Operations that fail. Whether one does, and why, depends on what is asked, on the setup and on
    whether there are own records, and not on what was done before (`Coherent.check_answer`). It is
    found out before anything is changed: an engine is the same after an operation that failed as
    before, so nothing that is asked later tells that it was made (`answers_after_failure`), and of
    any operations only those that succeeded matter (`answers_succeeding`). -/

namespace RecordSearch.Search

/-- What an operation that succeeds answers. -/
inductive Answer (α : Type) where
  | compiled (query : CompiledQuery)
  | added (position : Nat)
  | found (hits : List (Hit α))

/-- Why a query does not compile, if it does not. -/
def Setup.checkQuery (s : Setup) (query : String) : Except EngineError Unit :=
  match Query.compile s.recovery query with
  | .ok _ => .ok ()
  | .error error => .error (.query error)

/-- Why a run fails, if it does: it has nothing to search, or the setup asks for indexes in vain. -/
def Setup.checkRun (s : Setup) (owned : Bool) (supplied : Option (List Record)) :
    Except EngineError Unit :=
  if owned || supplied.isSome then s.checkIndexing else .error .noDataset

/-- Why an operation fails, if it does, with or without own records. -/
def Setup.checkOperation (s : Setup) (owned : Bool) : Operation → Except EngineError Unit
  | .compile query => s.checkQuery query
  | .addRecord _ => s.checkIndexing
  | .run _ supplied => s.checkRun owned supplied
  | .search query supplied => do
    s.checkQuery query
    s.checkRun owned supplied

namespace Engine

variable {α : Type} [Arithmetic α]

/-- The answer to an operation. -/
def answer (e : Engine α) : Operation → Except EngineError (Answer α)
  | .compile query => (e.compile query).map .compiled
  | .addRecord record => (e.addRecord record).1.map .added
  | .run query supplied => (e.run query supplied).1.map .found
  | .search query supplied => (e.search query supplied).1.map .found

/-- The answers to operations in turn. -/
def answers (e : Engine α) : List Operation → List (Except EngineError (Answer α))
  | [] => []
  | operation :: operations => e.answer operation :: (e.after operation).answers operations

variable {s : Setup} {e : Engine α} {error : EngineError}

/-! ### Failures leave the engine alone -/

theorem eq_of_runSupplied_error {query : CompiledQuery} {records : List Record}
    (h : (e.runSupplied query records).1 = .error error) : (e.runSupplied query records).2 = e := by
  rw [runSupplied] at h ⊢
  cases hcheck : e.setup.checkIndexing with
  | error error => rfl
  | ok _ =>
    rw [hcheck] at h
    cases h

theorem eq_of_runOwn_error {query : CompiledQuery} (h : (e.runOwn query).1 = .error error) :
    (e.runOwn query).2 = e := by
  rw [runOwn] at h ⊢
  cases hd : e.dataset with
  | none => rfl
  | some d =>
    rw [hd] at h
    simp only at h ⊢
    split
    · rfl
    · next hcheck =>
      rw [hcheck] at h
      cases h

theorem eq_of_run_error {query : CompiledQuery} : ∀ {supplied : Option (List Record)},
    (e.run query supplied).1 = .error error → (e.run query supplied).2 = e
  | some _ => eq_of_runSupplied_error
  | none => eq_of_runOwn_error

theorem eq_of_search_error {query : String} {supplied : Option (List Record)}
    (h : (e.search query supplied).1 = .error error) : (e.search query supplied).2 = e := by
  rw [search] at h ⊢
  cases hcompile : e.compile query with
  | error error => rfl
  | ok compiled =>
    rw [hcompile] at h
    exact eq_of_run_error h

theorem eq_of_addRecord_error {record : Record} (h : (e.addRecord record).1 = .error error) :
    (e.addRecord record).2 = e := by
  rw [addRecord] at h ⊢
  cases hcheck : e.setup.checkIndexing with
  | error error => rfl
  | ok _ =>
    rw [hcheck] at h
    simp only at h
    split at h <;> cases h

theorem map_eq_error {ε β γ : Type} {x : Except ε β} {f : β → γ} {error : ε}
    (h : x.map f = .error error) : x = .error error := by
  cases x with
  | ok value => cases h
  | error other => exact congrArg Except.error (Except.error.inj h)

/-- An engine is as it was after an operation that failed. -/
theorem after_of_answer_error : ∀ {operation : Operation}, e.answer operation = .error error →
    e.after operation = e
  | .compile _, _ => rfl
  | .addRecord _, h => eq_of_addRecord_error (map_eq_error h)
  | .run _ _, h => eq_of_run_error (map_eq_error h)
  | .search _ _, h => eq_of_search_error (map_eq_error h)

/-! ### Whether an operation fails -/

omit [Arithmetic α] in
theorem Coherent.check_compile (h : e.Coherent s) (query : String) :
    (e.compile query).map (fun _ => ()) = s.checkQuery query := by
  rw [compile, Setup.checkQuery, h.setup_eq]
  cases Query.compile s.recovery query <;> rfl

theorem Coherent.check_run (h : e.Coherent s) (query : CompiledQuery)
    (supplied : Option (List Record)) :
    (e.run query supplied).1.map (fun _ => ()) = s.checkRun e.dataset.isSome supplied := by
  rw [Setup.checkRun]
  cases hsearched : e.searched supplied with
  | none =>
    obtain ⟨rfl, hown⟩ := Option.or_eq_none_iff.mp hsearched
    rw [run_of_searched_eq_none hsearched query, Option.map_eq_none_iff.mp hown]
    rfl
  | some records =>
    obtain ⟨_, _, -, hanswer⟩ := h.run_searched hsearched
    have hsome : (e.dataset.isSome || supplied.isSome) = true := by
      rw [Bool.or_comm, ← Option.isSome_map (f := Dataset.records), ← Option.isSome_or]
      exact Option.isSome_of_eq_some hsearched
    rw [hanswer query, hsome, if_pos rfl]
    cases s.checkIndexing <;> rfl

/-- What is checked before an operation tells whether it fails, and why. -/
theorem Coherent.check_answer (h : e.Coherent s) (operation : Operation) :
    (e.answer operation).map (fun _ => ()) = s.checkOperation e.dataset.isSome operation := by
  cases operation with
  | compile query =>
    rw [answer, Setup.checkOperation, ← h.check_compile query]
    cases e.compile query <;> rfl
  | addRecord record =>
    rw [answer, Setup.checkOperation, Engine.addRecord, h.setup_eq]
    cases s.checkIndexing with
    | error error => rfl
    | ok _ => cases s.indexFields.isEmpty <;> rfl
  | run query supplied =>
    rw [answer, Setup.checkOperation, ← h.check_run query supplied]
    cases (e.run query supplied).1 <;> rfl
  | search query supplied =>
    rw [answer, Setup.checkOperation, search, ← h.check_compile query]
    cases e.compile query with
    | error error => rfl
    | ok compiled =>
      change _ = s.checkRun _ _
      rw [← h.check_run compiled supplied]
      cases (e.run compiled supplied).1 <;> rfl

theorem Coherent.answer_eq_error_iff (h : e.Coherent s) {operation : Operation} :
    e.answer operation = .error error ↔
      s.checkOperation e.dataset.isSome operation = .error error := by
  rw [← h.check_answer operation]
  cases e.answer operation <;> simp [Except.map]

/-! ### What failures leave behind -/

/-- Those of some operations that succeed when all of them are made in turn. -/
def succeeding (e : Engine α) : List Operation → List Operation
  | [] => []
  | operation :: operations =>
    match e.answer operation with
    | .ok _ => operation :: (e.after operation).succeeding operations
    | .error _ => (e.after operation).succeeding operations

/-- To leave out the operations that fail changes neither the engine in the end nor what the others
    answer. -/
theorem answers_succeeding (e : Engine α) (operations : List Operation) :
    e.afterAll (e.succeeding operations) = e.afterAll operations ∧
      e.answers (e.succeeding operations) = (e.answers operations).filter Except.isOk := by
  induction operations generalizing e with
  | nil => exact ⟨rfl, rfl⟩
  | cons operation operations ih =>
    obtain ⟨hafter, hanswers⟩ := ih (e.after operation)
    rw [succeeding, answers]
    cases hanswer : e.answer operation with
    | ok answer =>
      refine ⟨hafter, ?_⟩
      rw [answers, hanswer, hanswers]
      rfl
    | error error =>
      rw [after_of_answer_error hanswer] at hafter hanswers ⊢
      refine ⟨?_, hanswers⟩
      rw [hafter]
      conv => rhs; rw [afterAll, List.foldl_cons, after_of_answer_error hanswer, ← afterAll]

/-- However an engine came to be as it is, an operation that fails, for a reason that its setup and
    whether it has own records tell, leaves it as it is, and whatever is asked later is answered as
    if the operation had not been made. -/
theorem answers_after_failure {own : Option (List Record)} {operations : List Operation}
    {operation : Operation}
    (hfails : ((new s own : Engine α).afterAll operations).answer operation = .error error) :
    ((new s own : Engine α).afterAll operations).after operation =
        (new s own : Engine α).afterAll operations ∧
      (∀ later, (((new s own : Engine α).afterAll operations).after operation).answers later =
        ((new s own : Engine α).afterAll operations).answers later) ∧
      s.checkOperation ((new s own : Engine α).afterAll operations).dataset.isSome operation =
        .error error := by
  have hcoherent := (coherent_new (α := α) s own).afterAll operations
  generalize (new s own : Engine α).afterAll operations = e at hcoherent hfails
  have hsame : e.after operation = e := after_of_answer_error hfails
  refine ⟨hsame, fun later => ?_, hcoherent.answer_eq_error_iff.mp hfails⟩
  rw [hsame]

/-- With the indexes of supplied records but without own ones, a run over the own ones fails. -/
theorem answers_after_failure_noDataset :
    let s : Setup := ⟨.fuzzy (.edits 2 true), ["n"], true, .accumulate⟩
    let query : CompiledQuery := ⟨Query.Tree.atMostFive, "!(n:>5)"⟩
    let seven : Record := .object [("n", .number (.integer 7))]
    let e : Engine Float := (new s none).afterAll [.run query (some [seven])]
    e.answer (.run query none) = .error .noDataset ∧ e.after (.run query none) = e ∧
      (∀ later, (e.after (.run query none)).answers later = e.answers later) ∧
      s.checkOperation e.dataset.isSome (.run query none) = .error .noDataset :=
  ⟨rfl, answers_after_failure rfl⟩

end Engine

end RecordSearch.Search
