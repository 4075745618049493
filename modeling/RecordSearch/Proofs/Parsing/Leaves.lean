import RecordSearch.Proofs.Decimal.Layout
import RecordSearch.Proofs.Grammar.Forms
import RecordSearch.Proofs.Lexing.Tokens
import RecordSearch.Proofs.Parsing.Repair

/-! The leaves of parsed queries. By the grammar a number stands right after a comparison, and no
    repair breaks what the lexer saw to: a term that is made up of another token carries visible text,
    and a number after a comparison is never made a term, as the parser takes it there. So the leaves
    of a repaired query suit each other like the tokens of one (`suits_of_parseRepaired`). -/

namespace RecordSearch.Query

/-- A number stands after a comparison. -/
def Token.Placed (previous : Option Kind) (t : Token) : Prop :=
  t.kind = .number → previous.any Kind.isComparison = true

theorem sequence_leavesOf {R : Option Kind → Token → Prop} : ∀ {children : List Tree},
    (∀ t ∈ children, ∀ previous, Sequence R previous t.leaves) → ∀ previous,
      Sequence R previous (Tree.leavesOf children)
  | [], _, _ => by rw [Tree.leavesOf_nil]; trivial
  | t :: children, h, previous => by
      rw [Tree.leavesOf_cons, sequence_append]
      exact ⟨h t List.mem_cons_self previous,
        sequence_leavesOf (fun u hu => h u (List.mem_cons_of_mem t hu)) _⟩

theorem number_in_production : ∀ p ∈ Grammar.query.productions, .terminal .number ∈ p.rhs →
    p.rhs = [.nonterminal .comparison, .terminal .number] := by decide

/-- In a derivation tree numbers stand after comparisons. -/
theorem placed_of_conforms {t : Tree} (ht : t.Conforms Grammar.query) : ∀ {n : Nonterminal},
    t.symbol = .nonterminal n → ∀ previous, Sequence Token.Placed previous t.leaves := by
  induction ht with
  | leaf token => intro n hsymbol; cases hsymbol
  | @node label children production conforms ih =>
    intro n _ previous
    rw [Tree.leaves_node]
    by_cases hnumber : .terminal .number ∈ children.map Tree.symbol
    · have hrhs := number_in_production _ production hnumber
      simp only [List.map_eq_cons_iff, List.map_eq_nil_iff] at hrhs
      obtain ⟨operator, _, rfl, hoperator, operand, _, rfl, hoperand, rfl⟩ := hrhs
      obtain ⟨_, rfl⟩ := Tree.exists_node_of_symbol hoperator
      obtain ⟨token, rfl, -⟩ := Tree.exists_leaf_of_symbol hoperand
      cases (conforms _ List.mem_cons_self).form with
      | only label_is => simp at label_is
      | @operator mark mark_is =>
        have hmark : mark.kind ≠ .number := by
          rintro h
          rw [h] at mark_is
          cases mark_is
        simp only [Tree.leavesOf_cons, Tree.leavesOf_nil, Tree.leaves_node, Tree.leaves_leaf]
        exact ⟨fun h => absurd h hmark, fun _ => mark_is, trivial⟩
    · refine sequence_leavesOf (fun t ht previous => ?_) previous
      cases hsymbol : t.symbol with
      | terminal k =>
        obtain ⟨token, rfl, hk⟩ := Tree.exists_leaf_of_symbol hsymbol
        rw [Tree.leaves_leaf]
        refine ⟨fun h => absurd (List.mem_map.mpr ⟨_, ht, ?_⟩) hnumber, trivial⟩
        rw [hsymbol, ← hk, h]
      | nonterminal m => exact ih t ht hsymbol previous

/-! ### Tokens made up by the policy -/

namespace Token

variable {previous previous' : Option Kind} {t : Token}

theorem Suits.weaken (h : t.Suits previous) (hprevious : previous'.any Kind.isComparison = false) :
    t.Suits previous' := by
  cases h with
  | term unquoted visible wordy =>
    exact .term unquoted visible fun hcomparison => by rw [hprevious] at hcomparison; cases hcomparison
  | number finite => exact .number finite
  | mark spelled => exact .mark spelled

/-- A mark or keyword may be taken as a term. -/
theorem suits_literal {k : Kind} {literal : String} (hspelled : k.literal = some literal)
    (previous : Option Kind) (position : Nat) :
    (Token.ofText .searchTerm literal position).Suits previous := by
  cases k <;> cases hspelled
  all_goals exact .term (by decide) (by decide) (fun _ => by decide)

/-- So may the text of a number where no number is taken. -/
theorem suits_number {x : Float} (hx : Decimal.isFinite x = true) (position : Nat)
    (hprevious : previous.any Kind.isComparison = false) :
    (Token.ofText .searchTerm (Decimal.Layout.query.text x) position).Suits previous := by
  refine .term (fun hquote => ?_) (fun hblank => ?_) fun h => by rw [hprevious] at h; cases h
  · have hnumeric := Decimal.isNumeric_of_mem_query_text hx hquote
    revert hnumeric
    decide
  · rw [Decimal.isBlankText_query_text hx] at hblank
    cases hblank

/-- Whatever suits may be taken as a term, except for a number where one is taken. -/
theorem Suits.asTerm (h : t.Suits previous)
    (hnumber : t.kind = .number → previous.any Kind.isComparison = false) (position : Nat) :
    (Token.ofText .searchTerm t.lexeme position).Suits previous := by
  cases h with
  | term unquoted visible wordy => exact .term unquoted visible wordy
  | number finite => exact suits_number finite position (hnumber rfl)
  | mark spelled => exact suits_literal spelled previous position

end Token

theorem sequence_weaken {previous previous' : Option Kind} {tokens : List Token}
    (h : Sequence Token.Suits previous tokens)
    (hprevious : previous'.any Kind.isComparison = false) :
    Sequence Token.Suits previous' tokens := by
  cases tokens with
  | nil => trivial
  | cons token rest => exact ⟨h.1.weaken hprevious, h.2⟩

namespace Configuration

variable {g : Grammar} {t : Table} {c c' : Configuration Nat}

/-- The shifted tokens and those to come suit each other, and after a comparison a number is taken. -/
structure Faithful (t : Table) (c : Configuration Nat) : Prop where
  suits : Sequence Token.Suits none (c.shifted ++ c.input)
  number : (lastKind none c.shifted).any Kind.isComparison = true →
    t.takesNumber (topState c.stack) = true

theorem Faithful.start {tokens : List Token} (h : Sequence Token.Suits none tokens) (m : Nat) :
    (start tokens m).Faithful t where
  suits := h
  number h := by cases h

theorem Move.faithful (ha : g.Automaton t) (hcredited : t.Credited) (h : Move g t c (.next c'))
    (hc : c.Faithful t) : c'.Faithful t := by
  have htokens := h.tokens
  refine ⟨htokens ▸ hc.suits, ?_⟩
  cases h with
  | @shift token rest q input action =>
    intro hcomparison
    rw [shifted, tokensOf_cons, lastKind_append] at hcomparison
    exact hcredited.shift_number _ _ _ action hcomparison
  | reduce action production stack symbols goto =>
    intro hcomparison
    rw [List.append_cancel_right htokens] at hcomparison
    exact hcredited.reduce_number _ _ _ _ _ _ action (ha.productions ▸ production) goto
      (hc.number hcomparison)

/-- What the policy puts in the way suits what was shifted before. -/
theorem Mend.faithful {l : Lookahead} (h : c.Mend l c')
    (haction : t.action (topState c.stack) (.of c.input.head?) = none) (hc : c.Faithful t) :
    c'.Faithful t := by
  obtain ⟨hshifted, hinput⟩ := sequence_append.mp hc.suits
  have htail : ∀ k : Kind, k.isComparison = false →
      Sequence Token.Suits (some k) c.input.tail := fun k hk => by
    cases hc : c.input with
    | nil => trivial
    | cons token rest =>
      rw [hc] at hinput
      exact sequence_weaken hinput.2 hk
  cases h with
  | term =>
    refine ⟨sequence_append.mpr ⟨hshifted, ?_, htail _ rfl⟩, hc.number⟩
    cases hempty : c.input with
    | nil => exact .term (by simp) (fun _ => rfl) fun _ => rfl
    | cons token rest =>
      rw [hempty] at hinput haction
      refine hinput.1.asTerm (fun hnumber => ?_) _
      rw [Bool.eq_false_iff]
      intro hcomparison
      have htakes := hc.number hcomparison
      rw [Table.takesNumber, ← hnumber] at htakes
      rw [List.head?_cons, Lookahead.of] at haction
      rw [haction] at htakes
      cases htakes
  | closing => exact ⟨sequence_append.mpr ⟨hshifted, .mark rfl, htail _ rfl⟩, hc.number⟩
  | stop => exact ⟨sequence_append.mpr ⟨hshifted, trivial⟩, hc.number⟩

theorem Repair.faithful (ha : g.Automaton t) (hcredited : t.Credited)
    (h : Repair g t c (.next c')) (hc : c.Faithful t) : c'.Faithful t := by
  cases h with
  | move move => exact move.faithful ha hcredited hc
  | mend action _ mend => exact mend.faithful action hc

/-- The leaves of the result suit each other. -/
theorem Repair.suits {tree : Tree} {m : Nat} (h : Repair g t c (.done (.ok tree) m))
    (hc : c.Faithful t) : Sequence Token.Suits none tree.leaves := by
  cases h with
  | move move =>
    cases move with
    | accept stack input root =>
      have hsuits := (sequence_append.mp hc.suits).1
      rw [shifted, stack, tokensOf_cons] at hsuits
      exact hsuits

end Configuration

/-- The leaves of a repaired query suit each other when its tokens do. -/
theorem suits_of_parseRepaired {inputLength : Nat} {tokens : List Token} {t : Tree}
    (htokens : Sequence Token.Suits none tokens) (h : parseRepaired inputLength tokens = .ok t) :
    Sequence Token.Suits none t.leaves := by
  have ha := Table.automaton_query
  have hcredited := Table.credited_query
  obtain ⟨c, m, hsteady, hfaithful, hs⟩ := exists_done_of_parseRepaired
    (P := Configuration.Faithful Table.query) (.start htokens inputLength)
    (fun c c' hc hfaithful hs =>
      (hs ▸ Configuration.step_repair ha hcredited hc).faithful ha hcredited hfaithful) h
  exact (hs ▸ Configuration.step_repair ha hcredited hsteady).suits hfaithful

end RecordSearch.Query
