import RecordSearch.Proofs.Decimal.Reading
import RecordSearch.Proofs.Search.Building
import RecordSearch.Proofs.Search.Filtering

/-! What queries ask for that are put together by calls. Call after call tells of one record whether it
    is found (`findsAfter`): a search by whether a text stands somewhere at its scope, and a connective
    by how the next search is joined to what was found so far. The tree that calls describe keeps the
    records that they find, under either parity of negations (`tracks_described`). -/

namespace RecordSearch.Search

open RecordSearch.Query (Tree Token Nonterminal)
open RecordSearch.Query.Nonterminal

/-! ### What calls ask for -/

/-- Whether a search finds a record, by whether its operand alone does. -/
def turnedBy (operator : Option TermOperator) (found : Bool) : Bool :=
  match operator with
  | some .exclude => !found
  | _ => found

/-- A scope with that of a search below it. -/
def narrowedTo (path : Option String) (scope : Option String) : Option String :=
  match path with
  | none => scope
  | some path => some (extend scope path)

/-- What was found so far joined with what is found next. -/
def joinedWith (sofar : Option Bool) (waiting : Connective) (next : Bool) : Bool :=
  match sofar with
  | none => next
  | some found => Comparator.keeps waiting found next

mutual

/-- Whether a record is found at a scope by what is searched for. -/
def Wanted.finds (scope : Option String) (record : Record) : Wanted → Bool
  | .text text => atScope (mentions text) scope record
  | .number amount => atScope (mentions (Decimal.Layout.query.text amount)) scope record
  | .group calls => (findsAfter scope record none .and calls).getD true

/-- Whether a record is found at a scope by calls from left to right, after what was found so far and
    the connective that waits: the last one since the last search, or else the conjunction. Without a
    search nothing is said. -/
def findsAfter (scope : Option String) (record : Record) (sofar : Option Bool)
    (waiting : Connective) : List Call → Option Bool
  | [] => sofar
  | .connect c :: calls => findsAfter scope record sofar c calls
  | .search wanted options :: calls =>
    let next := turnedBy options.operator (wanted.finds (narrowedTo options.scope scope) record)
    findsAfter scope record (some (joinedWith sofar waiting next)) .and calls

end

/-- Whether a record is found by a query that calls put together; without a search every one is. -/
def findsRecord (calls : List Call) (record : Record) : Bool :=
  (findsAfter none record none .and calls).getD true

/-- Calls that compare nothing and search for no query without a search. -/
structure PlainCalls (calls : List Call) : Prop where
  uncompared : ∀ {wanted options}, (wanted, options) ∈ searchesOf calls →
    isCompared options.operator = false
  filled : ∀ {inner options}, (.group inner, options) ∈ searchesOf calls →
    ∃ wanted options, Call.search wanted options ∈ inner

theorem PlainCalls.mono {calls calls' : List Call} (h : PlainCalls calls)
    (hsub : searchesOf calls' ⊆ searchesOf calls) : PlainCalls calls' where
  uncompared hmem := h.uncompared (hsub hmem)
  filled hmem := h.filled (hsub hmem)

/-- Without comparisons nothing is read as a part of one, and printed numbers read as themselves. -/
theorem PlainCalls.rereadable {calls : List Call} (h : PlainCalls calls) : Rereadable calls where
  equals hmem hoperator := by
    have huncompared := h.uncompared hmem
    rcases hoperator with hoperator | hoperator
    · rw [hoperator] at huncompared
      cases huncompared
    · rw [hoperator] at huncompared
      cases huncompared
  numbers _ hfinite := Decimal.readFinite_query_text hfinite

/-! ### Trees that keep what passes a test -/

section Trees

variable {α : Type} {records : List Record} {t : Tree} {test : Option String → Record → Bool}

/-- What a tree does to some records is to keep those that pass a test at the scope, or under an odd
    number of negations those that do not. -/
def Means (α : Type) (records : List Record) (t : Tree) (test : Option String → Record → Bool) :
    Prop :=
  ∀ scope exclude, Selects (α := α) records exclude (test scope)
    (evaluate (Comparator.binary records) ⟨scope, exclude, none⟩ t)

theorem Means.only {label below : Nonterminal} (h : Means α records t test)
    (hlabel : label = search ∨ label = searchType ∨ label = term)
    (hsymbol : t.symbol = .nonterminal below) : Means α records (.node label [t]) test := by
  intro scope exclude
  rw [evaluate_only hlabel hsymbol]
  exact h scope exclude

theorem means_word (token : Token) (hword : token.kind = .searchTerm) :
    Means α records (.node searchTerm [.leaf token]) (atScope (mentions token.lexeme)) := by
  intro scope exclude
  rw [evaluate_word hword, ← value_of_term]
  exact selects_search scope exclude none token

theorem Means.inParens (h : Means α records t test) :
    Means α records (.node searchTerm (inParens t)) test := by
  intro scope exclude
  rw [Search.inParens, mark, mark, evaluate_parens rfl]
  exact h scope exclude

theorem Means.listOf (h : Means α records t test) (hne : t.isEmpty = false) :
    Means α records (listOf (some t)) test := by
  intro scope exclude
  rw [Search.listOf, evaluate_more hne]
  exact h scope exclude

theorem Means.underOperator {operator : Option TermOperator} {operand : List Tree}
    (h : Means α records (.node searchTerm operand) test) (hoperator : isCompared operator = false) :
    Means α records (underOperator operator operand)
      fun scope record => turnedBy operator (test scope record) := by
  rcases operator with _ | _ | op
  · exact h.only (.inr (.inr rfl)) rfl
  · intro scope exclude w hw
    rw [Search.underOperator, mark, evaluate_exclude rfl rfl]
    refine (h scope (!exclude) w hw).trans (select_congr hw fun record => ?_)
    exact (Bool.bne_not ..).trans (Bool.not_bne ..).symm
  · cases hoperator

theorem Means.atPath (h : Means α records t test) (hsymbol : t.symbol = .nonterminal term)
    (path : Option String) :
    Means α records (atPath path t) fun scope => test (narrowedTo path scope) := by
  cases path with
  | none => exact h.only (.inr (.inl rfl)) hsymbol
  | some path =>
    have hgroup : Means α records (.node group
        [.leaf (.ofText .searchTerm path 0), mark .groupTerminator, t])
        fun scope => test (narrowedTo (some path) scope) := by
      intro scope exclude
      have hwithin : Flags.within path ⟨scope, exclude, none⟩ =
          ⟨some (extend scope path), exclude, none⟩ := by cases scope <;> rfl
      rw [mark, evaluate_group]
      exact hwithin ▸ h (some (extend scope path)) exclude
    exact hgroup.only (.inr (.inl rfl)) rfl

theorem symbol_underOperator (operator : Option TermOperator) (operand : List Tree) :
    (underOperator operator operand).symbol = .nonterminal term := by
  rcases operator with _ | _ | op <;> rfl

theorem symbol_atPath (path : Option String) (t : Tree) :
    (atPath path t).symbol = .nonterminal searchType := by
  cases path <;> rfl

theorem Means.searchTree {options : SearchOptions} {operand : List Tree}
    (h : Means α records (.node searchTerm operand) test)
    (hoperator : isCompared options.operator = false) :
    Means α records (searchTree options operand)
      fun scope record => turnedBy options.operator (test (narrowedTo options.scope scope) record) := by
  have hterm := h.underOperator hoperator
  have hpath := hterm.atPath (symbol_underOperator _ _) options.scope
  exact hpath.only (.inl rfl) (symbol_atPath _ _)

theorem Means.leftOperand (h : Means α records t test) (hsymbol : t.symbol = .nonterminal search)
    (hne : t.isEmpty = false) : Means α records (leftOperand t) test := by
  unfold Search.leftOperand
  split
  · intro scope exclude
    have hsearch := h scope exclude
    rwa [evaluate_only (.inl rfl) rfl] at hsearch
  · have hparens := (h.listOf hne).inParens
    exact (hparens.only (.inr (.inr rfl)) rfl).only (.inr (.inl rfl)) rfl

theorem Means.joined {lhs rhs : Tree} {test' : Option String → Record → Bool} (c : Connective)
    (h : Means α records lhs test) (hsymbol : lhs.symbol = .nonterminal search)
    (hne : lhs.isEmpty = false) (h' : Means α records rhs test') :
    Means α records (joined lhs c rhs)
      fun scope record => Comparator.keeps c (test scope record) (test' scope record) := by
  have hleft := h.leftOperand hsymbol hne
  have hconnective : Means α records (.node c.label [Search.leftOperand lhs, mark c.kind, rhs])
      fun scope record => Comparator.keeps c (test scope record) (test' scope record) := by
    intro scope exclude
    cases c with
    | and => exact selects_join (hleft scope exclude) (h' scope exclude) .and
    | or => exact selects_join (hleft scope exclude) (h' scope exclude) .or
  exact hconnective.only (.inl rfl) rfl

end Trees

/-! ### Trees of calls -/

/-- The tree that stands so far, if there is one, keeps the records that are found so far. -/
inductive Tracks (α : Type) (records : List Record) (sofar : Option String → Record → Option Bool) :
    Option Tree → Prop
  | nothing (unsaid : ∀ scope record, sofar scope record = none) : Tracks α records sofar none
  | something {t : Tree} {test : Option String → Record → Bool}
      (symbol : t.symbol = .nonterminal search) (nonempty : t.isEmpty = false)
      (means : Means α records t test)
      (said : ∀ scope record, sofar scope record = some (test scope record)) :
      Tracks α records sofar (some t)

section Calls

variable {α : Type} {records : List Record} {sofar : Option String → Record → Option Bool}
  {standing : Option Tree}

theorem tracks_none : Tracks α records (fun _ _ => none) none := .nothing fun _ _ => rfl

/-- Another search is joined to what stands so far. -/
theorem Tracks.search (h : Tracks α records sofar standing) (waiting : Connective)
    {options : SearchOptions} {operand : List Tree} {test : Option String → Record → Bool}
    (hoperand : Means α records (.node searchTerm operand) test)
    (hoperator : isCompared options.operator = false) :
    Tracks α records
      (fun scope record => some (joinedWith (sofar scope record) waiting
        (turnedBy options.operator (test (narrowedTo options.scope scope) record))))
      (some (joinedTo standing waiting (searchTree options operand))) := by
  have hsearch := hoperand.searchTree hoperator
  cases h with
  | nothing unsaid =>
    refine .something rfl rfl hsearch fun scope record => ?_
    rw [unsaid, joinedWith]
  | something symbol nonempty means said =>
    refine .something rfl rfl (means.joined waiting symbol nonempty hsearch) fun scope record => ?_
    rw [said, joinedWith]

theorem exists_described_some : ∀ (calls : List Call) (t : Tree) (waiting : Connective),
    ∃ u, described (some t) waiting calls = some u
  | [], t, _ => ⟨t, by rw [described]⟩
  | .connect c :: calls, t, _ => by
    rw [described]
    exact exists_described_some calls t c
  | .search _ _ :: calls, _, _ => by
    rw [described]
    exact exists_described_some calls _ .and

/-- A search among calls is described. -/
theorem exists_described {wanted : Wanted} {options : SearchOptions} : ∀ {calls : List Call}
    (standing : Option Tree) (waiting : Connective), .search wanted options ∈ calls →
      ∃ u, described standing waiting calls = some u
  | .connect c :: calls, standing, _, .tail _ hmem => by
    rw [described]
    exact exists_described standing c hmem
  | .search _ _ :: calls, _, _, _ => by
    rw [described]
    exact exists_described_some calls _ .and

mutual

/-- An operand keeps the records that it finds. -/
theorem means_wanted : ∀ (wanted : Wanted) {options : SearchOptions} {calls : List Call},
    PlainCalls (.search wanted options :: calls) →
      Means α records (.node searchTerm (wanted.trees (isCompared options.operator)))
        fun scope record => wanted.finds scope record
  | .text text, options, calls, h => by
    rw [h.uncompared mem_searchesOf, Wanted.trees]
    simp only [Wanted.finds]
    exact means_word _ rfl
  | .number amount, options, calls, h => by
    rw [h.uncompared mem_searchesOf, Wanted.trees]
    simp only [Wanted.finds]
    exact means_word _ rfl
  | .group inner, options, calls, h => by
    obtain ⟨wanted, options', hmem⟩ := h.filled mem_searchesOf
    have hinner : PlainCalls inner := h.mono (searchesOf_subset_group inner options calls)
    have htracks := tracks_described inner .and hinner tracks_none
    obtain ⟨t, ht⟩ := exists_described none .and hmem
    rw [Wanted.trees, ht]
    rw [ht] at htracks
    cases htracks with
    | something symbol nonempty means said =>
      simp only [Wanted.finds, said, Option.getD_some]
      exact (means.listOf nonempty).inParens

/-- After calls, what stands keeps the records that the calls find. -/
theorem tracks_described : ∀ (calls : List Call) {sofar : Option String → Record → Option Bool}
    {standing : Option Tree} (waiting : Connective), PlainCalls calls →
      Tracks α records sofar standing →
      Tracks α records (fun scope record => findsAfter scope record (sofar scope record) waiting calls)
        (described standing waiting calls)
  | [], sofar, standing, waiting, _, htracks => by
    simp only [findsAfter, described]
    exact htracks
  | .connect c :: calls, sofar, standing, waiting, h, htracks => by
    simp only [findsAfter, described]
    exact tracks_described calls c (h.mono (searchesOf_subset_cons _ calls)) htracks
  | .search wanted options :: calls, sofar, standing, waiting, h, htracks => by
    simp only [findsAfter, described]
    exact tracks_described calls .and (h.mono (searchesOf_subset_cons _ calls))
      (htracks.search waiting (means_wanted wanted h) (h.uncompared mem_searchesOf))

end

/-- The tree that calls describe keeps the records that they find. -/
theorem selects_treeOf {calls : List Call} (h : PlainCalls calls) :
    Selects (α := α) records false (findsRecord calls)
      (evaluate (Comparator.binary records) .root (treeOf calls)) := by
  have htracks : Tracks α records _ (described none .and calls) :=
    tracks_described calls .and h tracks_none
  rw [treeOf]
  generalize described none .and calls = standing at htracks
  cases htracks with
  | nothing unsaid =>
    refine selects_id fun record => ?_
    rw [findsRecord, unsaid]
    rfl
  | something symbol nonempty means said =>
    have hfinds : findsRecord calls = _ := funext fun record => by
      rw [findsRecord, said, Option.getD_some]
    rw [hfinds]
    exact means.listOf nonempty none false

end Calls

end RecordSearch.Search
