import RecordSearch.Proofs.Lexing.Positions
import RecordSearch.Proofs.Parsing.Leaves
import RecordSearch.Proofs.Parsing.Promises

/-! What a repair keeps of a query and what it adds. A parse under repair reads the tokens, each as it
    is or as a term; at their end it may add one empty term and close parentheses, or it is done at a
    parenthesis that closes nothing and the rest is cut off. These are the stages of a run
    (`Stage`); each step stays in its stage or goes on to a later one (`Repair.stage`). So the leaves
    are the tokens up to some place and what was added (`leaves_of_parseRepaired`). -/

namespace RecordSearch.Query

/-- A token is the other, or the other taken as a term. -/
def Token.Kept (x y : Token) : Prop := y = x ∨ y = .ofText .searchTerm x.lexeme x.position

namespace Token.Kept

variable {x y : Token}

theorem refl (x : Token) : x.Kept x := .inl rfl

theorem position_eq (h : x.Kept y) : y.position = x.position := by
  rcases h with rfl | rfl <;> rfl

theorem lexeme_eq (h : x.Kept y) : y.lexeme = x.lexeme := by
  rcases h with rfl | rfl <;> rfl

/-- What was kept may be taken as a term later on. -/
theorem asTerm (h : x.Kept y) : x.Kept (.ofText .searchTerm y.lexeme y.position) := by
  rw [h.lexeme_eq, h.position_eq]
  exact .inr rfl

/-- Only terms are made up of other tokens. -/
theorem eq_of_kind (h : x.Kept y) (hkind : y.kind ≠ .searchTerm) : y = x := by
  rcases h with rfl | rfl
  · rfl
  · exact absurd rfl hkind

end Token.Kept

/-- The tokens kept of some tokens. -/
abbrev KeptAll : List Token → List Token → Prop := List.Forall₂ Token.Kept

theorem KeptAll.refl (xs : List Token) : KeptAll xs xs := List.forall₂_same.mpr fun x _ => .refl x

theorem KeptAll.map_position {xs ys : List Token} (h : KeptAll xs ys) :
    ys.map Token.position = xs.map Token.position := by
  induction h with
  | nil => rfl
  | cons hxy _ ih => rw [List.map_cons, List.map_cons, hxy.position_eq, ih]

theorem KeptAll.replace {y y' : Token} (hkept : ∀ x : Token, x.Kept y → x.Kept y') :
    ∀ {xs ys zs : List Token}, KeptAll xs (ys ++ y :: zs) → KeptAll xs (ys ++ y' :: zs)
  | _, [], _, .cons h rest => .cons (hkept _ h) rest
  | _, _ :: _, _, .cons h rest => .cons h (KeptAll.replace hkept rest)

/-- Where some of the tokens end, the next one was kept too. -/
theorem KeptAll.split {xs ys zs : List Token} {y : Token} (h : KeptAll xs (ys ++ y :: zs)) :
    KeptAll (xs.take ys.length) ys ∧ ∃ x, xs[ys.length]? = some x ∧ x.Kept y := by
  refine ⟨List.forall₂_take_append _ _ _ h, ?_⟩
  have hdrop := List.forall₂_drop_append _ _ _ h
  cases hrest : xs.drop ys.length with
  | nil => rw [hrest] at hdrop; cases hdrop
  | cons x rest =>
    rw [hrest] at hdrop
    refine ⟨x, ?_, (List.forall₂_cons.mp hdrop).1⟩
    rw [← List.head?_drop, hrest]
    rfl

/-- What a repair adds past the end of a query: an empty term, if one is missing, and parentheses. -/
def added (place : Nat) (term : Bool) (closings : Nat) : List Token :=
  (if term then [.ofText .searchTerm "" place] else []) ++
    (List.range closings).map fun i => .ofKind .rparen (place + (if term then 1 else 0) + i)

theorem length_added (place : Nat) (term : Bool) (closings : Nat) :
    (added place term closings).length = (if term then 1 else 0) + closings := by
  cases term <;> simp [added, Nat.add_comm]

/-- Another parenthesis stands at the next free place. -/
theorem added_succ (place : Nat) (term : Bool) (closings : Nat) :
    added place term (closings + 1) = added place term closings ++
      [.ofKind .rparen (place + (added place term closings).length)] := by
  rw [length_added, ← Nat.add_assoc, added, added, List.range_succ, List.map_append,
    List.append_assoc]
  rfl

theorem map_position_added (place : Nat) (term : Bool) (closings : Nat) :
    (added place term closings).map Token.position =
      List.range' place (added place term closings).length := by
  induction closings with
  | zero => cases term <;> rfl
  | succ closings ih =>
    rw [added_succ, List.map_append, ih, List.length_append, List.length_singleton,
      List.range'_concat, Nat.one_mul]
    rfl

namespace Table

variable {t : Table} {q : Nat}

theorem settled_of_action (h : (t.action q .endOfInput).isSome = true) : t.settled q = true := by
  rw [settled, h, Bool.true_or]

/-- Nothing but a term is put in the way where one is taken. -/
theorem takesTerm_of_mended {l : Lookahead} (h : t.mended q = some l) :
    t.takesTerm q = decide (l = .token .searchTerm) := by
  cases hterm : t.takesTerm q with
  | true =>
    have hmended : t.mended q = some (.token .searchTerm) := if_pos hterm
    rw [Option.some.inj (h.symm.trans hmended)]
    rfl
  | false =>
    symm
    rw [decide_eq_false_iff_not]
    rintro rfl
    rw [takesTerm, action_of_mended h] at hterm
    cases hterm

end Table

namespace Configuration

variable {g : Grammar} {t : Table} {c c' : Configuration Nat} {place : Nat} {xs : List Token}

theorem input_of_end (h : Lookahead.of c.input.head? = .endOfInput) : c.input = [] := by
  cases hinput : c.input with
  | nil => rfl
  | cons token rest => rw [hinput] at h; cases h

/-- Tokens are read: those shifted and those to come are the tokens of the query, as they are or as
    terms. -/
structure Reading (t : Table) (place : Nat) (xs : List Token) (c : Configuration Nat) : Prop where
  kept : KeptAll xs (c.shifted ++ c.input)
  memory : c.memory = place
  /-- A term is taken next unless there is no need for one, -/
  takes : t.takesTerm (topState c.stack) = true ∨
    Lookahead.of c.input.head? = .token .rparen ∨ Lookahead.of c.input.head? = .endOfInput
  /-- and at the end one is missing after a mark that leaves something open. -/
  settled : c.input = [] →
    t.settled (topState c.stack) = !(lastKind none c.shifted).any Kind.leavesOpen

/-- What the last token that was added is going to be used for. -/
inductive Adds (t : Table) (c : Configuration Nat) : Prop
  | done (input : c.input = []) (settled : t.settled (topState c.stack) = true)
  | term {position : Nat} (input : c.input = [.ofText .searchTerm "" position])
      (takes : t.takesTerm (topState c.stack) = true)
  | closing {position q : Nat} (input : c.input = [.ofKind .rparen position])
      (action : t.action (topState c.stack) (.token .rparen) = some (.shift q))

/-- What is missing past the end of the query is added. -/
structure Adding (t : Table) (place : Nat) (xs ys : List Token) (closings : Nat)
    (c : Configuration Nat) : Prop where
  kept : KeptAll xs ys
  tokens : c.shifted ++ c.input =
    ys ++ added place ((lastKind none ys).any Kind.leavesOpen) closings
  memory : c.memory =
    place + (added place ((lastKind none ys).any Kind.leavesOpen) closings).length
  adds : Adds t c

/-- The rest of the query, from a parenthesis on, was cut off. -/
structure Cut (t : Table) (xs : List Token) (k : Nat) (c : Configuration Nat) : Prop where
  kept : KeptAll (xs.take k) c.shifted
  found : xs[k]?.map Token.kind = some .rparen
  input : c.input = []
  accept : t.action (topState c.stack) .endOfInput = some .accept

/-- The stages of a parse under repair. -/
inductive Stage (t : Table) (place : Nat) (xs : List Token) (c : Configuration Nat) : Prop
  | reading (h : c.Reading t place xs)
  | adding {ys : List Token} (closings : Nat) (h : c.Adding t place xs ys closings)
  | cut {k : Nat} (h : c.Cut t xs k)

theorem Reading.start (hsteered : t.Steered) (tokens : List Token) (place : Nat) :
    (start tokens place).Reading t place tokens where
  kept := .refl tokens
  memory := rfl
  takes := .inl hsteered.start_takes
  settled _ := hsteered.start_settled

/-! ### Moves -/

/-- A move takes the next token or makes room for it. -/
theorem Move.reading (ha : g.Automaton t) (hsteered : t.Steered) (h : Move g t c (.next c'))
    (hc : c.Reading t place xs) : c'.Reading t place xs := by
  have htokens := h.tokens
  have hkept := htokens ▸ hc.kept
  cases h with
  | @shift token rest q input action =>
    refine ⟨hkept, hc.memory, .inl (hsteered.shift_takes _ _ _ action), fun _ => ?_⟩
    rw [shifted, tokensOf_cons, lastKind_append]
    exact hsteered.shift_settled _ _ _ action
  | @reduce j q p frames rest action production stack symbols goto =>
    have hproduction := ha.productions ▸ production
    refine ⟨hkept, hc.memory, hsteered.reduce_takes _ _ _ _ _ _ action hproduction goto, ?_⟩
    intro (hinput : c.input = [])
    rw [hinput] at action
    have hsettled : t.settled (topState c.stack) = true :=
      Table.settled_of_action (congrArg Option.isSome action)
    rw [List.append_cancel_right htokens, ← hc.settled hinput, hsettled]
    exact hsteered.reduce_settled _ _ _ _ _ action hproduction goto

/-- A move brings what was added nearer to its use. -/
theorem Move.adds (ha : g.Automaton t) (hsteered : t.Steered) (h : Move g t c (.next c'))
    (hc : Adds t c) : Adds t c' := by
  cases h with
  | @shift token rest q input action =>
    have hsettled := hsteered.shift_settled _ _ _ action
    cases hc with
    | done empty => rw [input] at empty; cases empty
    | term only =>
      obtain ⟨rfl, rfl⟩ := List.cons.inj (input.symm.trans only)
      exact .done rfl hsettled
    | closing only =>
      obtain ⟨rfl, rfl⟩ := List.cons.inj (input.symm.trans only)
      exact .done rfl hsettled
  | @reduce j q p frames rest action production stack symbols goto =>
    have hproduction := ha.productions ▸ production
    cases hc with
    | done empty =>
      rw [empty] at action
      exact .done empty (hsteered.reduce_settled _ _ _ _ _ action hproduction goto)
    | term only =>
      rw [only] at action
      exact .term only (hsteered.reduce_term _ _ _ _ _ action hproduction goto)
    | closing only shifts =>
      rw [only] at action
      cases action.symm.trans shifts

theorem Move.memory_eq (h : Move g t c (.next c')) : c'.memory = c.memory := by
  cases h <;> rfl

theorem Move.adding {ys : List Token} {closings : Nat} (ha : g.Automaton t)
    (hsteered : t.Steered) (h : Move g t c (.next c')) (hc : c.Adding t place xs ys closings) :
    c'.Adding t place xs ys closings where
  kept := hc.kept
  tokens := h.tokens.trans hc.tokens
  memory := h.memory_eq.trans hc.memory
  adds := h.adds ha hsteered hc.adds

/-- What is left after a cut is accepted. -/
theorem Cut.not_move {k : Nat} (hc : c.Cut t xs k) : ¬ Move g t c (.next c') := by
  intro h
  have haccept := hc.accept
  have hinput := hc.input
  cases h with
  | shift input => rw [hinput] at input; cases input
  | reduce action =>
    rw [hinput] at action
    cases action.symm.trans haccept

theorem Move.stage (ha : g.Automaton t) (hsteered : t.Steered) (h : Move g t c (.next c'))
    (hc : c.Stage t place xs) : c'.Stage t place xs := by
  cases hc with
  | reading hc => exact .reading (h.reading ha hsteered hc)
  | adding _ hc => exact .adding _ (h.adding ha hsteered hc)
  | cut hc => exact absurd h hc.not_move

/-! ### Repairs -/

section Mending

variable {l : Lookahead} (haction : t.action (topState c.stack) (.of c.input.head?) = none)
  (hmended : t.mended (topState c.stack) = some l)

include haction hmended

/-- A token without an action becomes a term, the end of the query gets what is missing, and at a
    parenthesis that closes nothing the rest is cut off. -/
theorem Mend.stage_of_reading (hsteered : t.Steered) (h : c.Mend l c')
    (hc : c.Reading t place xs) : c'.Stage t place xs := by
  have hterm := Table.takesTerm_of_mended hmended
  have hknown := Table.action_of_mended hmended
  have hkept := hc.kept
  cases h with
  | term =>
    cases hinput : c.input with
    | nil =>
      rw [hinput] at haction
      have hsettled : t.settled (topState c.stack) = false := by
        rw [Table.settled, hterm, show t.action _ .endOfInput = none from haction]
        rfl
      have hopen : (lastKind none c.shifted).any Kind.leavesOpen = true := by
        have hmissing := hc.settled hinput
        rwa [hsettled, eq_comm, Bool.not_eq_false'] at hmissing
      rw [hinput, List.append_nil] at hkept
      refine .adding 0 ⟨hkept, ?_, ?_, .term rfl hterm⟩
      · rw [hopen, ← hc.memory]
        rfl
      · rw [hopen, ← hc.memory]
        rfl
    | cons token rest =>
      rw [hinput] at hkept
      exact .reading ⟨hkept.replace fun _ hx => hx.asTerm, hc.memory, .inl hterm, nofun⟩
  | closing =>
    have hinput : c.input = [] := by
      rcases hc.takes with htakes | hparen | hend
      · rw [hterm] at htakes
        cases htakes
      · rw [hparen] at haction
        rw [haction] at hknown
        cases hknown
      · exact input_of_end hend
    rw [hinput] at haction
    obtain ⟨q, hshift⟩ := hsteered.closes _ hmended haction
    have hclosed : (lastKind none c.shifted).any Kind.leavesOpen = false := by
      have hsettled := hc.settled hinput
      rw [Table.settled, hterm] at hsettled
      simpa using hsettled
    rw [hinput, List.append_nil] at hkept
    refine .adding 1 ⟨hkept, ?_, ?_, ?_⟩
    · rw [hinput, hclosed, ← hc.memory]
      rfl
    · rw [hinput, hclosed, ← hc.memory]
      rfl
    · rw [hinput]
      exact .closing rfl hshift
  | stop =>
    have hparen : Lookahead.of c.input.head? = .token .rparen := by
      rcases hc.takes with htakes | hparen | hend
      · rw [hterm] at htakes
        cases htakes
      · exact hparen
      · rw [hend] at haction
        rw [haction] at hknown
        cases hknown
    cases hinput : c.input with
    | nil => rw [hinput] at hparen; cases hparen
    | cons token rest =>
      rw [hinput] at hparen hkept
      have hkind : token.kind = .rparen := Lookahead.token.inj hparen
      obtain ⟨hshifted, x, hx, hsame⟩ := hkept.split
      obtain rfl := hsame.eq_of_kind (by rw [hkind]; decide)
      refine .cut ⟨hshifted, ?_, rfl, hsteered.stops _ hmended⟩
      rw [hx, Option.map_some, hkind]

/-- One parenthesis after the other is closed. -/
theorem Mend.stage_of_adding {ys : List Token} {closings : Nat} (hsteered : t.Steered)
    (h : c.Mend l c') (hc : c.Adding t place xs ys closings) : c'.Stage t place xs := by
  have hterm := Table.takesTerm_of_mended hmended
  obtain ⟨hinput, hsettled⟩ : c.input = [] ∧ t.settled (topState c.stack) = true := by
    cases hc.adds with
    | done input settled => exact ⟨input, settled⟩
    | term input takes =>
      rw [input] at haction
      rw [Table.takesTerm, show t.action _ (.token .searchTerm) = none from haction] at takes
      cases takes
    | closing input action =>
      rw [input] at haction
      cases action.symm.trans haction
  rw [hinput] at haction
  have htokens := hc.tokens
  rw [hinput, List.append_nil] at htokens
  cases h with
  | term =>
    rw [Table.settled, hterm, show t.action _ .endOfInput = none from haction] at hsettled
    cases hsettled
  | closing =>
    obtain ⟨q, hshift⟩ := hsteered.closes _ hmended haction
    refine .adding (closings + 1) ⟨hc.kept, ?_, ?_, ?_⟩
    · rw [added_succ, ← hc.memory, ← List.append_assoc, ← htokens, hinput]
      rfl
    · rw [added_succ, List.length_append, ← Nat.add_assoc, ← hc.memory, hinput]
      rfl
    · rw [hinput]
      exact .closing rfl hshift
  | stop =>
    have haccept := hsteered.stops _ hmended
    cases haccept.symm.trans haction

omit hmended in
/-- What is left after a cut needs no repair. -/
theorem Cut.not_stalled {k : Nat} (hc : c.Cut t xs k) : False := by
  rw [hc.input] at haction
  cases hc.accept.symm.trans haction

theorem Mend.stage (hsteered : t.Steered) (h : c.Mend l c') (hc : c.Stage t place xs) :
    c'.Stage t place xs := by
  cases hc with
  | reading hc => exact h.stage_of_reading haction hmended hsteered hc
  | adding _ hc => exact h.stage_of_adding haction hmended hsteered hc
  | cut hc => exact (hc.not_stalled haction).elim

end Mending

/-- A step under repair stays in its stage or goes on to a later one. -/
theorem Repair.stage (ha : g.Automaton t) (hsteered : t.Steered) (h : Repair g t c (.next c'))
    (hc : c.Stage t place xs) : c'.Stage t place xs := by
  cases h with
  | move move => exact move.stage ha hsteered hc
  | mend action mended mend => exact mend.stage action mended hsteered hc

end Configuration

/-! ### Leaves of repaired queries -/

/-- What the leaves of a repaired query are. -/
inductive Repaired (place : Nat) (xs : List Token) : List Token → Prop
  /-- All tokens were kept, and what was missing was added. -/
  | complete {ys : List Token} (kept : KeptAll xs ys) (closings : Nat) :
      Repaired place xs (ys ++ added place ((lastKind none ys).any Kind.leavesOpen) closings)
  /-- The tokens before a parenthesis were kept, and nothing was added. -/
  | cut {k : Nat} {ys : List Token} (kept : KeptAll (xs.take k) ys)
      (found : xs[k]?.map Token.kind = some .rparen) : Repaired place xs ys

namespace Configuration

variable {g : Grammar} {t : Table} {c : Configuration Nat} {place : Nat} {xs : List Token}

/-- A parse that ends well ends with an action of the table, whatever the policy. -/
theorem action_of_done {σ : Type} {policy : Option (Policy σ)} {c : Configuration σ} {tree : Tree}
    {m : σ} (hs : c.step t policy = .done (.ok tree) m) :
    (t.action (topState c.stack) (.of c.input.head?)).isSome = true := by
  rw [Option.isSome_iff_ne_none]
  intro haction
  rw [step_stalled haction] at hs
  cases policy with
  | none => cases hs
  | some policy =>
    simp only [recover] at hs
    split at hs
    · cases hs
    · split at hs <;> cases hs

/-- Where a parse ends, the leaves are what its stage says. -/
theorem Repair.repaired {tree : Tree} {m : Nat} (h : Repair g t c (.done (.ok tree) m))
    (hs : c.step t (some repair) = .done (.ok tree) m) (hc : c.Stage t place xs) :
    Repaired place xs tree.leaves := by
  have hknown := action_of_done hs
  cases h with
  | move move =>
    cases move with
    | accept stack input root =>
      rw [input] at hknown
      have hleaves : c.shifted ++ c.input = tree.leaves := by
        rw [shifted, stack, input, tokensOf_cons, List.append_nil]
        rfl
      rw [← hleaves]
      cases hc with
      | reading hc =>
        have hclosed := hc.settled input
        rw [Table.settled_of_action hknown, eq_comm, Bool.not_eq_true'] at hclosed
        have hcomplete : Repaired place xs _ := .complete hc.kept 0
        rw [input, List.append_nil, hclosed] at hcomplete
        rw [input]
        exact hcomplete
      | adding _ hc =>
        rw [hc.tokens]
        exact .complete hc.kept _
      | cut hc =>
        rw [input, List.append_nil]
        exact .cut hc.kept hc.found

end Configuration

/-- The leaves of a repaired parse are its tokens up to some place and what was added. -/
theorem leaves_of_parseRepaired {place : Nat} {tokens : List Token} {t : Tree}
    (h : parseRepaired place tokens = .ok t) : Repaired place tokens t.leaves := by
  have ha := Table.automaton_query
  have hcredited := Table.credited_query
  have hsteered := Table.steered_query
  obtain ⟨c, m, hsteady, hstage, hs⟩ := exists_done_of_parseRepaired
    (P := Configuration.Stage Table.query place tokens) (.reading (.start hsteered tokens place))
    (fun c c' hc hstage hs =>
      (hs ▸ Configuration.step_repair ha hcredited hc).stage ha hsteered hstage) h
  exact (hs ▸ Configuration.step_repair ha hcredited hsteady).repaired hs hstage

theorem compile_of_parseRepaired {query : String} {t : Tree}
    (h : parseRepaired (Text.byteLength query.toList) (tokenize query) = .ok t) :
    compile true query = .ok t := by
  simp only [compile, if_true, h]
  rfl

theorem pairwise_position_of_repaired {place : Nat} {tokens leaves : List Token}
    (h : Repaired place tokens leaves) (htokens : Within 0 place tokens) :
    (leaves.map Token.position).Pairwise (· < ·) := by
  cases h with
  | @complete ys kept closings =>
    rw [List.map_append, kept.map_position, map_position_added, List.pairwise_append]
    refine ⟨htokens.increasing, List.pairwise_lt_range', ?_⟩
    intro x hx y hy
    obtain ⟨token, htoken, rfl⟩ := List.mem_map.mp hx
    have hbounded := htokens.bounded token htoken
    obtain ⟨i, hi, rfl⟩ := List.mem_range'.mp hy
    omega
  | @cut k ys kept found =>
    rw [kept.map_position, List.map_take]
    exact htokens.increasing.take

/-- A repair loses and reorders nothing: the leaves of a repaired query are the first of its tokens,
    each as it is or taken as a term, and then what was added. Nothing was unless all tokens were
    kept, and otherwise the first token lost is a parenthesis. -/
theorem compile_repaired (query : String) :
    ∃ t, compile true query = .ok t ∧
      (∃ k ≤ (tokenize query).length, ∃ ys zs, t.leaves = ys ++ zs ∧
        KeptAll ((tokenize query).take k) ys ∧
        (k < (tokenize query).length →
          (tokenize query)[k]?.map Token.kind = some .rparen ∧ zs = []) ∧
        (k = (tokenize query).length →
          ∃ term closings, zs = added (Text.byteLength query.toList) term closings)) ∧
      (t.leaves.map Token.position).Pairwise (· < ·) := by
  obtain ⟨t, hparse, -⟩ :=
    exists_parseRepaired (Text.byteLength query.toList) (tokenize query)
  have hrepaired := leaves_of_parseRepaired hparse
  refine ⟨t, compile_of_parseRepaired hparse, ?_,
    pairwise_position_of_repaired hrepaired (tokenize_within query)⟩
  generalize t.leaves = leaves at hrepaired
  cases hrepaired with
  | @complete ys kept closings =>
    refine ⟨_, Nat.le_refl _, ys, _, rfl, ?_, ?_, fun _ => ⟨_, closings, rfl⟩⟩
    · rwa [List.take_length]
    · intro hlt
      exact absurd hlt (Nat.lt_irrefl _)
  | @cut k _ kept found =>
    obtain ⟨x, hx, -⟩ := Option.map_eq_some_iff.mp found
    have hlt : k < (tokenize query).length := (List.getElem?_eq_some_iff.mp hx).1
    refine ⟨k, Nat.le_of_lt hlt, leaves, [], (List.append_nil leaves).symm, kept,
      fun _ => ⟨found, rfl⟩, ?_⟩
    intro heq
    exact absurd hlt (heq ▸ Nat.lt_irrefl _)

end RecordSearch.Query
