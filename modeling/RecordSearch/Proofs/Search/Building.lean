import RecordSearch.Proofs.Search.Writing

/-! Queries put together by calls mean what the calls describe. After every call the stack of a builder
    holds what stands so far and the connective that waits (`Holds`), so a query that passes its check
    compiles to the tree of its calls, except that a text under `>` or `<` may start with an equals
    sign that is read as a part of the operator. -/

namespace RecordSearch.Search

open RecordSearch.Query

/-! ### The stack -/

/-- A stack holds what stands so far, if it passes its check, and the connective that waits. -/
inductive Holds : List Entry → Option Tree → Connective → Prop
  | nothing {c : Connective} : Holds [] none c
  | finished {e : Expression} {t : Tree} (written : e.check = .ok () → e.WrittenAs t) :
      Holds [.expression e] (some t) .and
  | waiting {e : Expression} {t : Tree} {c : Connective} (written : e.check = .ok () → e.WrittenAs t) :
      Holds [.connective c, .expression e] (some t) c

theorem and_then_eq_ok {ε : Type} {a b : Except ε Unit} :
    (do a; b) = .ok () ↔ a = .ok () ∧ b = .ok () := by
  cases a with
  | error e => exact ⟨nofun, fun h => nomatch h.1⟩
  | ok u => exact ⟨fun h => ⟨rfl, h⟩, And.right⟩

section Stack

variable {b : Builder} {sofar : Option Tree} {waiting : Connective}

theorem Holds.connect (h : Holds b.stack sofar waiting) (c : Connective) :
    Holds (b.connect c).stack sofar c := by
  obtain ⟨stack⟩ := b
  cases h with
  | nothing => exact .nothing
  | finished written => exact .waiting written
  | waiting written => exact .waiting written

theorem Holds.search (h : Holds b.stack sofar waiting) {operand : Operand} {options : SearchOptions}
    {trees : List Tree}
    (hoperand : operand.check options.operator = .ok () →
      OperandReads options.operator operand.written trees) :
    Holds (b.search operand options).stack
      (some (joinedTo sofar waiting (searchTree options trees))) .and := by
  have hsearch : (Expression.search operand options).check = .ok () →
      (Expression.search operand options).WrittenAs (searchTree options trees) := by
    intro hcheck
    rw [Expression.check, and_then_eq_ok] at hcheck
    exact writtenAs_search hcheck.1 (hoperand hcheck.2)
  have hjoined : ∀ {e : Expression} {t : Tree} (c : Connective), (e.check = .ok () → e.WrittenAs t) →
      (Expression.joined e c (.search operand options)).check = .ok () →
        (Expression.joined e c (.search operand options)).WrittenAs
          (joined t c (searchTree options trees)) := by
    intro e t c written hcheck
    rw [Expression.check, and_then_eq_ok] at hcheck
    exact writtenAs_joined c (written hcheck.1) (hsearch hcheck.2)
  obtain ⟨stack⟩ := b
  cases h with
  | nothing => exact .finished hsearch
  | finished written => exact .finished (hjoined .and written)
  | waiting written => exact .finished (hjoined waiting written)

/-- A stack that passes its check is written so that it is read as a list. -/
theorem Holds.written (h : Holds b.stack sofar waiting) (hcheck : b.check = .ok ()) :
    IsPhrase (.nonterminal .list) (listOf sofar) ∧ ReadsAlone b.text (listOf sofar).leaves := by
  obtain ⟨stack⟩ := b
  have hone : ∀ {e : Expression} {t : Tree}, e.WrittenAs t →
      IsPhrase (.nonterminal .list) (listOf (some t)) ∧
        ReadsAlone (" ".intercalate [e.written]) (listOf (some t)).leaves := by
    intro e t hwritten
    have hleaves : (listOf (some t)).leaves = t.leaves := by simp [listOf]
    rw [hleaves, String.intercalate_singleton]
    exact ⟨isPhrase_listOf hwritten.phrase, hwritten.reads⟩
  cases h with
  | nothing =>
    refine ⟨isPhrase_none, fun _ _ _ _ => ?_⟩
    have hleaves : (listOf none).leaves = [] := by simp [listOf]
    rw [hleaves]
    exact .nil
  | finished written =>
    rw [Builder.check, checkEntries, and_then_eq_ok] at hcheck
    exact hone (written hcheck.2)
  | waiting written =>
    rw [Builder.check, checkEntries, checkEntries, and_then_eq_ok] at hcheck
    exact hone (written hcheck.2)

end Stack

/-! ### Calls -/

/-- Nothing that calls search for is read as a part of what stands before it, and the finite numbers
    among it read as themselves. -/
structure Rereadable (calls : List Call) : Prop where
  equals : ∀ {text options}, (.text text, options) ∈ searchesOf calls →
    options.operator = some (.compare .gt) ∨ options.operator = some (.compare .lt) →
      (quoteTerm text).toList.head? ≠ some '='
  numbers : ∀ {x options}, (.number x, options) ∈ searchesOf calls → Decimal.isFinite x = true →
    Decimal.readFinite (Decimal.Layout.query.text x).toList = some x

theorem Rereadable.mono {calls calls' : List Call} (h : Rereadable calls)
    (hsub : searchesOf calls' ⊆ searchesOf calls) : Rereadable calls' where
  equals hmem := h.equals (hsub hmem)
  numbers hmem := h.numbers (hsub hmem)

theorem mem_searchesOf {wanted : Wanted} {options : SearchOptions} {calls : List Call} :
    (wanted, options) ∈ searchesOf (.search wanted options :: calls) := by
  rw [searchesOf]
  exact List.mem_cons_self

theorem searchesOf_subset_cons (call : Call) (calls : List Call) :
    searchesOf calls ⊆ searchesOf (call :: calls) := by
  cases call with
  | search wanted options =>
    rw [searchesOf]
    exact List.subset_cons_of_subset _ (List.subset_append_right _ _)
  | connect c =>
    rw [searchesOf]
    exact List.Subset.refl _

theorem searchesOf_subset_group (inner : List Call) (options : SearchOptions) (calls : List Call) :
    searchesOf inner ⊆ searchesOf (.search (.group inner) options :: calls) := by
  rw [searchesOf, Wanted.searches]
  exact List.subset_cons_of_subset _ (List.subset_append_left _ _)

theorem of_check_group {operator : Option TermOperator} {stack : List Entry}
    (h : (Operand.group stack).check operator = .ok ()) :
    isCompared operator = false ∧ (Builder.mk stack).check = .ok () := by
  rcases operator with _ | _ | op
  · rw [Operand.check] at h
    · exact ⟨rfl, h⟩
    · nofun
  · rw [Operand.check] at h
    · exact ⟨rfl, h⟩
    · nofun
  · rw [Operand.check] at h
    cases h

mutual

theorem operandReads_of_check : ∀ (wanted : Wanted) {options : SearchOptions} {calls : List Call},
    Rereadable (.search wanted options :: calls) → wanted.operand.check options.operator = .ok () →
      OperandReads options.operator wanted.operand.written
        (wanted.trees (isCompared options.operator))
  | .text text, options, calls, h, hcheck => by
    rw [Wanted.operand, Operand.check] at hcheck
    rw [Wanted.operand, Operand.written, Wanted.trees]
    exact operandReads_text hcheck (h.equals mem_searchesOf)
  | .number x, options, calls, h, hcheck => by
    rw [Wanted.operand, Operand.check] at hcheck
    rw [Wanted.operand, Operand.written, Wanted.trees]
    cases hfinite : Decimal.isFinite x with
    | true => exact operandReads_number hfinite (h.numbers mem_searchesOf hfinite)
    | false =>
      rw [hfinite] at hcheck
      cases hcheck
  | .group inner, options, calls, h, hcheck => by
    rw [Wanted.operand] at hcheck ⊢
    obtain ⟨hoperator, hinner⟩ := of_check_group hcheck
    have hrereadable : Rereadable inner := h.mono (searchesOf_subset_group inner options calls)
    obtain ⟨waiting, hholds⟩ := holds_after inner hrereadable (Holds.nothing (c := .and))
    obtain ⟨hphrase, hreads⟩ := hholds.written hinner
    rw [Operand.written, Wanted.trees]
    exact operandReads_group hoperator hphrase hreads

/-- After calls the stack holds what they describe. -/
theorem holds_after : ∀ (calls : List Call) {b : Builder} {sofar : Option Tree}
    {waiting : Connective}, Rereadable calls → Holds b.stack sofar waiting →
      ∃ waiting', Holds (b.after calls).stack (described sofar waiting calls) waiting'
  | [], b, sofar, waiting, _, hholds => by
    rw [Builder.after, described]
    exact ⟨waiting, hholds⟩
  | .connect c :: calls, b, sofar, waiting, h, hholds => by
    rw [Builder.after, described]
    exact holds_after calls (h.mono (searchesOf_subset_cons _ calls)) (hholds.connect c)
  | .search wanted options :: calls, b, sofar, waiting, h, hholds => by
    rw [Builder.after, described]
    exact holds_after calls (h.mono (searchesOf_subset_cons _ calls))
      (hholds.search (operandReads_of_check wanted h))

end

/-- Calls whose query passes its check are written as a text that compiles, without recovery, to the
    tree that the calls describe, places apart. Numbers are taken to read as themselves, and a text
    under `>` or `<` must not be written with an equals sign first. -/
theorem Builder.compile_ofCalls {calls : List Call} (hcheck : (Builder.ofCalls calls).check = .ok ())
    (hequals : ∀ text options, (.text text, options) ∈ searchesOf calls →
      options.operator = some (.compare .gt) ∨ options.operator = some (.compare .lt) →
        (quoteTerm text).toList.head? ≠ some '=')
    (hnumbers : ∀ x options, (.number x, options) ∈ searchesOf calls → Decimal.isFinite x = true →
      Decimal.readFinite (Decimal.Layout.query.text x).toList = some x) :
    ∃ u, compile false (Builder.ofCalls calls).text = .ok u ∧
      u.unplaced = (treeOf calls).unplaced := by
  have hrereadable : Rereadable calls := ⟨hequals _ _, hnumbers _ _⟩
  obtain ⟨waiting, hholds⟩ := holds_after calls hrereadable (Holds.nothing (c := .and))
  obtain ⟨hphrase, hreads⟩ := hholds.written hcheck
  refine compile_of_leaves ⟨hphrase.symbol, hphrase.conforms, rfl⟩ ?_
  exact (hreads none [] rfl (.inl rfl)).tokenize

theorem compile_ofCalls_notEither :
    let calls : List Call := [
      .search (.group [.search (.text "one way") ⟨none, none⟩, .connect .or,
        .search (.number 5) ⟨some "n", some (.compare .gt)⟩]) ⟨none, some .exclude⟩,
      .search (.text "=5") ⟨none, none⟩]
    (Builder.ofCalls calls).check = .ok () ∧
      ∃ u, compile false (Builder.ofCalls calls).text = .ok u ∧
        u.unplaced = (treeOf calls).unplaced := by
  intro calls
  have hcheck : (Builder.ofCalls calls).check = .ok () := by decide +kernel
  have hfive : Decimal.readFinite (Decimal.Layout.query.text 5).toList = some 5 := by
    decide +kernel
  refine ⟨hcheck, Builder.compile_ofCalls hcheck ?_ ?_⟩
  · -- both texts stand under no operator
    intro text options hmem hoperator
    simp [calls, searchesOf, Wanted.searches] at hmem
    rcases hmem with ⟨-, rfl⟩ | ⟨-, rfl⟩ <;> simp at hoperator
  · simp [calls, searchesOf, Wanted.searches, hfive]

/-- A text that starts with an equals sign passes the check, and under `>` it is read as a part of the
    operator: `n` greater than the text `=5` is read as `n` at least the number 5. -/
theorem compile_ofCalls_equals :
    let calls : List Call := [.search (.text "=5") ⟨some "n", some (.compare .gt)⟩]
    let atLeastFive : List Call := [.search (.number 5) ⟨some "n", some (.compare .gte)⟩]
    (Builder.ofCalls calls).check = .ok () ∧ (Builder.ofCalls calls).text = "n:>=5" ∧
      (treeOf calls).unplaced ≠ (treeOf atLeastFive).unplaced ∧
      ∃ u, compile false (Builder.ofCalls calls).text = .ok u ∧
        u.unplaced = (treeOf atLeastFive).unplaced := by
  intro calls atLeastFive
  have htext : (Builder.ofCalls calls).text = "n:>=5" := by decide +kernel
  refine ⟨by decide +kernel, htext, ?_, ?_⟩
  · intro heq
    have hkinds := congrArg (fun t => t.leaves.map Token.kind) heq
    revert hkinds
    decide
  · rw [htext]
    have hoperand : IsPhrase (.terminal .number) (numberLeaf true 5) := ⟨rfl, .leaf _⟩
    have hsearch : IsPhrase (.nonterminal .search)
        (searchTree ⟨some "n", some (.compare .gte)⟩ [numberLeaf true 5]) :=
      isPhrase_searchTree (isPhrase_underOperator (.inr ⟨rfl, hoperand⟩))
    have hphrase : IsPhrase (.nonterminal .list) (treeOf atLeastFive) :=
      isPhrase_listOf hsearch
    exact compile_of_leaves ⟨hphrase.symbol, hphrase.conforms, rfl⟩ rfl

end RecordSearch.Search
