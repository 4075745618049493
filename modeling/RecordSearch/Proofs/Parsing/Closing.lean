import RecordSearch.Proofs.Canonical
import RecordSearch.Proofs.Parsing.Consulting
import RecordSearch.Proofs.Parsing.Unfinished

/-! The hint to close a parenthesis. The parser makes the same reductions at the end as at a closing
    parenthesis, so with parentheses behind the tokens it comes to the place where it stalled without
    them (`Closable.next`). There it closes one, and a state that does this takes nothing else. So the
    hint is given just where parentheses alone are missing, and the repair then adds these
    (`suggestion_closing`). -/

namespace RecordSearch.Query

/-- Closing parentheses at the given places. -/
def parens (places : List Nat) : List Token := places.map (.ofKind .rparen)

/-- Without a term, what a repair adds are parentheses one after the other. -/
theorem added_false (place closings : Nat) :
    added place false closings = parens (List.range' place closings) := by
  rw [added, parens, List.range'_eq_map_range, List.map_map]
  rfl

theorem unplaced_parens (places : List Nat) :
    (parens places).map Token.unplaced = List.replicate places.length (.ofKind .rparen 0) := by
  rw [parens, List.map_map, List.map_eq_replicate_iff]
  exact fun _ _ => rfl

namespace Table

variable {t : Table} {q : Nat}

theorem acceptable_errorAt (cause : Cause) (found : Option Token) :
    (t.errorAt cause q found).acceptable = t.expected q := rfl

/-- Parentheses behind the input do not change a reduction. -/
theorem Steered.reduce_append_parens (hsteered : t.Steered) {j : Nat} {input : List Token}
    (places : List Nat) (h : t.action q (.of input.head?) = some (.reduce j)) :
    t.action q (.of (input ++ parens places).head?) = some (.reduce j) := by
  cases input with
  | cons token rest => exact h
  | nil =>
    cases places with
    | nil => exact h
    | cons place places => exact hsteered.ending_reduce q j h

/-- A state that has an action at a parenthesis but none at the end has no other. -/
theorem Steered.expected_of_closing {g : Grammar} (hsteered : t.Steered) (ha : g.Automaton t)
    (hend : t.action q .endOfInput = none) (hparen : (t.action q (.token .rparen)).isSome = true) :
    t.expected q = [.token .rparen] := by
  obtain ⟨action, haction⟩ := Option.isSome_iff_exists.mp hparen
  cases action with
  | shift q' => exact hsteered.closes_alone q q' haction
  | reduce j => cases (hsteered.closing_reduce q j haction).symm.trans hend
  | accept => cases (ha.of_accept _ _ haction).1

end Table

/-! ### Parentheses behind the tokens -/

namespace Configuration

variable {σ : Type} {g : Grammar} {t : Table} {w : List Token} {places : List Nat}
  {c c' : Configuration σ}

/-- With parentheses behind the tokens the parser comes to the same stack. -/
def Closable (t : Table) (w : List Token) (places : List Nat) (c : Configuration σ) : Prop :=
  Reaches t none (start (w ++ parens places) c.memory) { c with input := c.input ++ parens places }

theorem Closable.start (w : List Token) (places : List Nat) (m : σ) :
    (start w m).Closable t w places := .refl _

theorem Closable.next (ha : g.Automaton t) (hsteered : t.Steered) (hc : c.Valid g t)
    (h : c.Closable t w places) (hs : c.step t none = .next c') : c'.Closable t w places := by
  cases move_of_step ha hc hs (by simp) with
  | @shift token rest q input action =>
    have hinput : ({ c with input := c.input ++ parens places } : Configuration σ).input =
        token :: (rest ++ parens places) := by rw [input]; rfl
    exact h.tail (step_shift hinput action)
  | @reduce j q p frames below action production stack symbols goto =>
    have hlength : frames.length = p.rhs.length := by
      rw [← symbols, List.length_map, List.length_reverse, List.length_map]
    exact h.tail (step_reduce (hsteered.reduce_append_parens places action)
      (ha.productions ▸ production) stack hlength goto)

/-- If the parentheses complete a sentence, the parser goes on at the first of them. -/
theorem Closable.action_rparen (ha : g.Automaton t) (h : c.Closable t w places)
    (hplaces : places ≠ []) (hinput : c.input = []) {tree : Tree}
    (htree : g.IsDerivation (w ++ parens places) tree) :
    (t.action (topState c.stack) (.token .rparen)).isSome = true := by
  rw [Option.isSome_iff_ne_none]
  intro hnone
  obtain ⟨place, places, rfl⟩ := List.exists_cons_of_ne_nil hplaces
  have hstalled : t.action (topState c.stack)
      (.of (c.input ++ parens (place :: places)).head?) = none := by
    rw [hinput]
    exact hnone
  obtain ⟨_, hfails⟩ := h.run (run_done (step_stalled hstalled) 0)
  obtain ⟨_, hruns⟩ := @run_of_isDerivation _ _ _ none ha _ tree htree c.memory
  cases run_unique hruns hfails

/-- Where a parenthesis is all that is wanted, all tokens were read, and the last leaves no term out. -/
theorem Reading.closed_of_expected {c : Configuration Nat} {place : Nat} (h : c.Reading t place w)
    (haction : t.action (topState c.stack) (.of c.input.head?) = none)
    (hwanted : t.expected (topState c.stack) = [.token .rparen]) :
    c.input = [] ∧ (lastKind none c.shifted).any Kind.leavesOpen = false := by
  have hterm : t.takesTerm (topState c.stack) = false := by
    rw [Table.takesTerm, ← Bool.not_eq_true, ← Table.mem_expected, hwanted]
    simp
  have hinput : c.input = [] := by
    rcases h.takes with htakes | hparen | hend
    · rw [hterm] at htakes
      cases htakes
    · have hmem : Lookahead.token .rparen ∈ t.expected (topState c.stack) := by
        rw [hwanted]
        exact List.mem_cons_self
      rw [Table.mem_expected, ← hparen, haction] at hmem
      cases hmem
    · exact input_of_end hend
  have hsettled := h.settled hinput
  rw [Table.settled, hterm, Bool.not_false, Bool.or_true, eq_comm, Bool.not_eq_true'] at hsettled
  exact ⟨hinput, hsettled⟩

end Configuration

section Rejected

variable {w : List Token} {e : ParseError} {places : List Nat} {t : Tree}

/-- If parentheses complete the tokens to a sentence, one of them is all that is wanted next. -/
theorem acceptable_of_isDerivation (h : parseStrict w = .error e) (hplaces : places ≠ [])
    (ht : Grammar.query.IsDerivation (w ++ parens places) t) :
    e.acceptable = [.token .rparen] := by
  have ha := Table.automaton_query
  have hsteered := Table.steered_query
  obtain ⟨_, hrun⟩ := exists_run_of_parseStrict w
  rw [h] at hrun
  obtain ⟨c, hc, ⟨hlocal, hclosable⟩, haction, rfl⟩ := Configuration.exists_stalled ha
    (P := fun c => c.Local Table.query ∧ c.Closable Table.query w places)
    ⟨.start w (), .start w places ()⟩
    (fun _ _ hc h hs => ⟨h.1.next ha hc hs, h.2.next ha hsteered hc hs⟩) hrun
  have hinput := hc.input_of_stalled ha ht.isPrefix hlocal haction
  rw [hinput] at haction
  rw [Table.acceptable_errorAt]
  exact hsteered.expected_of_closing ha haction (hclosable.action_rparen ha hplaces hinput ht)

/-- A parse without a policy is the same whatever is remembered. -/
theorem exists_run_of_error (h : parseStrict w = .error e) (place : Nat) : ∃ fuel m,
    (Configuration.start w place).run Table.query none fuel = some (.error e, m) := by
  obtain ⟨fuel, hrun⟩ := exists_run_of_parseStrict w
  have hsame := Configuration.run_mapMemory_of_step (t := Table.query) (f := fun _ : Nat => ())
    (fun c => Configuration.step_mapMemory_none c) fuel (Configuration.start w place)
  rw [h] at hrun
  obtain ⟨⟨result, m⟩, hplaced, hresult⟩ := Option.map_eq_some_iff.mp (hsame.symm.trans hrun)
  obtain rfl : result = .error e := congrArg Prod.fst hresult
  exact ⟨fuel, m, hplaced⟩

/-- If a parenthesis is all that is wanted, the tokens begin a sentence, and none of them leaves a term
    out. -/
theorem isPrefix_of_acceptable (h : parseStrict w = .error e)
    (hwanted : e.acceptable = [.token .rparen]) :
    Grammar.query.IsPrefix (w.map Token.kind) ∧ (lastKind none w).any Kind.leavesOpen = false := by
  have ha := Table.automaton_query
  have hsteered := Table.steered_query
  obtain ⟨_, _, hrun⟩ := exists_run_of_error h 0
  obtain ⟨c, hc, hreading, haction, rfl⟩ := Configuration.exists_stalled ha
    (P := fun c => c.Reading Table.query 0 w) (.start hsteered w 0)
    (fun _ _ hc h hs => (Configuration.move_of_step ha hc hs (by simp)).reading ha hsteered h) hrun
  rw [Table.acceptable_errorAt] at hwanted
  obtain ⟨hinput, hclosed⟩ := hreading.closed_of_expected haction hwanted
  have hshifted := hc.tokens_eq
  rw [hinput, List.append_nil] at hshifted
  rw [← hshifted]
  exact ⟨hc.valid.isPrefix_shifted Table.query_spec.1 Grammar.yields_query, hclosed⟩

/-- If a parenthesis is all that is wanted, some of them complete the tokens to a sentence. -/
theorem exists_parens_of_acceptable (h : parseStrict w = .error e)
    (hwanted : e.acceptable = [.token .rparen]) :
    ∃ places, places ≠ [] ∧ ∃ t, parseStrict (w ++ parens places) = .ok t := by
  obtain ⟨hviable, hclosed⟩ := isPrefix_of_acceptable h hwanted
  obtain ⟨t, hrepaired, ht⟩ := exists_parseRepaired 0 w
  obtain ⟨closings, hleaves⟩ := leaves_of_isPrefix_eq hviable hrepaired
  rw [hclosed, added_false] at hleaves
  rw [hleaves] at ht
  refine ⟨_, ?_, t, parseStrict_of_isDerivation ht⟩
  intro hnone
  rw [hnone, parens, List.map_nil, List.append_nil] at ht
  cases h.symm.trans (parseStrict_of_isDerivation ht)

/-- A repair closes as many parentheses as complete the tokens to a sentence. -/
theorem exists_parseRepaired_of_parens (h : parseStrict w = .error e)
    (hwanted : e.acceptable = [.token .rparen]) (ht : parseStrict (w ++ parens places) = .ok t)
    (place : Nat) : ∃ u, parseRepaired place w = .ok u ∧
      parseStrict (w ++ parens (List.range' place places.length)) = .ok u ∧
      u.unplaced = t.unplaced := by
  have hderivation := isDerivation_of_parseStrict ht
  have hleaves := hderivation.leaves
  have hplaced : (w ++ parens (List.range' place places.length)).map Token.unplaced =
      t.leaves.map Token.unplaced := by
    rw [hleaves, List.map_append, List.map_append, unplaced_parens, unplaced_parens,
      List.length_range']
  obtain ⟨u, hu, hsame⟩ := exists_isDerivation_of_unplaced (hleaves ▸ hderivation) hplaced
  have hadded : Grammar.query.IsDerivation
      (w ++ added place ((lastKind none w).any Kind.leavesOpen) places.length) u := by
    rw [(isPrefix_of_acceptable h hwanted).2, added_false]
    exact hu
  exact ⟨u, parseRepaired_of_added hadded, parseStrict_of_isDerivation hu, hsame⟩

end Rejected

/-! ### The hint -/

theorem QueryError.suggestion_eq_closing_iff {e : QueryError} :
    e.suggestion = some "Add a closing parenthesis ) to match the opening one" ↔
      e.error.acceptable = [.token .rparen] := by
  rw [suggestion]
  split
  · next hwanted => exact iff_of_true rfl hwanted
  · next hwanted =>
    refine iff_of_false ?_ hwanted
    split
    · simp
    · simp
    · simp
    · split <;> simp
    · simp

/-- The hint to close a parenthesis is given for tokens that are refused just if some number of
    parentheses after them make them right; and then a repair gives the tree of the tokens with as
    many parentheses, each at a place of its own. -/
theorem suggestion_closing {w : List Token} {e : ParseError} (h : parseStrict w = .error e)
    (query : String) :
    ((⟨e, query⟩ : QueryError).suggestion =
        some "Add a closing parenthesis ) to match the opening one" ↔
      ∃ places, places ≠ [] ∧ ∃ t, parseStrict (w ++ parens places) = .ok t) ∧
    ∀ places t, parseStrict (w ++ parens places) = .ok t → ∀ place, ∃ u,
      parseRepaired place w = .ok u ∧
      parseStrict (w ++ parens (List.range' place places.length)) = .ok u ∧
      u.unplaced = t.unplaced := by
  have hwanted_of : ∀ {places t}, parseStrict (w ++ parens places) = .ok t →
      e.acceptable = [.token .rparen] := by
    intro places t ht
    refine acceptable_of_isDerivation h ?_ (isDerivation_of_parseStrict ht)
    rintro rfl
    rw [parens, List.map_nil, List.append_nil, h] at ht
    cases ht
  rw [QueryError.suggestion_eq_closing_iff]
  refine ⟨⟨exists_parens_of_acceptable h, ?_⟩, fun places t ht place =>
    exists_parseRepaired_of_parens h (hwanted_of ht) ht place⟩
  rintro ⟨places, -, t, ht⟩
  exact hwanted_of ht

/-- The tokens of `((a`. -/
def twoOpen : List Token := [.ofKind .lparen 0, .ofKind .lparen 1, .ofText .searchTerm "a" 2]

/-- The tree of `((a` with the two parentheses closed. -/
def Tree.twoClosed : Tree :=
  .node .list [
    .node .search [.node .searchType [.node .term [.node .searchTerm [
      .leaf (.ofKind .lparen 0),
      .node .list [
        .node .search [.node .searchType [.node .term [.node .searchTerm [
          .leaf (.ofKind .lparen 1),
          .node .list [
            .node .search [.node .searchType [.node .term [.node .searchTerm [
              .leaf (.ofText .searchTerm "a" 2)]]]],
            .node .list []],
          .leaf (.ofKind .rparen 3)]]]],
        .node .list []],
      .leaf (.ofKind .rparen 4)]]]],
    .node .list []]

/-- Two parentheses are missing: there is the hint to close one, and a repair closes both. -/
theorem suggestion_closing_twoOpen : ∃ e, parseStrict twoOpen = .error e ∧
    (⟨e, "((a"⟩ : QueryError).suggestion =
      some "Add a closing parenthesis ) to match the opening one" ∧
    ∃ u, parseRepaired 3 twoOpen = .ok u ∧ u.unplaced = Tree.twoClosed.unplaced := by
  have hderivation : Grammar.query.IsDerivation (twoOpen ++ parens [3, 4]) Tree.twoClosed :=
    ⟨rfl, by simp [Tree.twoClosed, Grammar.query, Tree.symbol, Token.ofKind, Token.ofText], rfl⟩
  have hclosed := parseStrict_of_isDerivation hderivation
  cases hparse : parseStrict twoOpen with
  | ok t => exact absurd (depthOf_isDerivation (isDerivation_of_parseStrict hparse)) (by decide)
  | error e =>
    obtain ⟨hhint, hrepair⟩ := suggestion_closing hparse "((a"
    obtain ⟨u, hu, -, hsame⟩ := hrepair [3, 4] Tree.twoClosed hclosed 3
    exact ⟨e, rfl, hhint.mpr ⟨[3, 4], List.cons_ne_nil _ _, _, hclosed⟩, u, hu, hsame⟩

end RecordSearch.Query
