import RecordSearch.Proofs.Search.Replacing
import RecordSearch.Proofs.Text.Words

/-! Scopes below scopes. A group adds its segment to the scope as a text, after a dot, and a path is
    followed by cutting its text at dots again and leaving empty names out. The two fit together: a
    joined path leads where its parts lead one after the other, whether these hold dots, are empty, or
    end at something that has no fields (`resolve_intercalate`). So groups in one another are the
    group of the joined path (`evaluate_nested`). -/

namespace RecordSearch.Search

open RecordSearch.Query (Tree Token Nonterminal parseStrict parseStrict_of_isDerivation)
open RecordSearch.Query.Nonterminal

/-! ### Paths -/

theorem pathNames_append (p q : String) : pathNames (p ++ "." ++ q) = pathNames p ++ pathNames q := by
  have htext : (p ++ "." ++ q).toList = p.toList ++ '.' :: q.toList := by
    simp only [String.toList_append, List.append_assoc]
    rfl
  rw [pathNames, htext, Text.segments_append (by decide), List.map_append]
  rfl

/-- A path below another leads on from what that leads to. -/
theorem resolve_append (record : Record) (p q : String) :
    resolve record (p ++ "." ++ q) = (resolve record p).bind (resolve · q) := by
  rw [resolve, pathNames_append, List.foldlM_append]
  rfl

/-- A path that is joined from others leads where they lead, one after the other. -/
theorem resolve_intercalate : ∀ {paths : List String}, paths ≠ [] → ∀ record,
    resolve record (".".intercalate paths) = paths.foldlM resolve record
  | [p], _, record => by
    rw [String.intercalate_singleton, List.foldlM_cons]
    exact (bind_pure _).symm
  | p :: q :: paths, _, record => by
    rw [String.intercalate_cons_cons, resolve_append, List.foldlM_cons]
    exact congrArg _ (funext (resolve_intercalate (List.cons_ne_nil q paths)))

theorem Flags.within_within (flags : Flags) (p q : String) :
    (flags.within p).within q = flags.within (p ++ "." ++ q) := by
  obtain ⟨scope, exclude, operator⟩ := flags
  cases scope with
  | none => rfl
  | some parent => simp only [within, String.append_assoc]

/-! ### Groups -/

/-- The path of a group and the colon after it. -/
structure Segment where
  name : Token
  colon : Token
  name_is : name.kind = .searchTerm
  colon_is : colon.kind = .groupTerminator

/-- A term below a path. -/
def Segment.group (s : Segment) (t : Tree) : Tree := .node .group [.leaf s.name, .leaf s.colon, t]

/-- A term below several paths, each but the first in parentheses, as in `a:(b:(c:term))`. -/
def nested (t : Tree) (outer : Segment) : List (Parens × Segment) → Tree
  | [] => outer.group t
  | (p, inner) :: rest => outer.group (p.term (alone (nested t inner rest)))

/-- The paths of several segments, the outermost first. -/
def pathsOf (outer : Segment) (rest : List (Parens × Segment)) : List String :=
  outer.name.lexeme :: rest.map fun next => next.2.name.lexeme

/-- A tree is a term that searches for a token, under a comparison if the token is a number. -/
inductive TermOf (token : Token) : Option Comparison → Tree → Prop
  | word (token_is : token.kind = .searchTerm) :
      TermOf token none (.node .term [.node searchTerm [.leaf token]])
  | number {sign : Token} {order : Comparison} (sign_is : Comparison.ofKind sign.kind = some order)
      (token_is : token.kind = .number) :
      TermOf token (some order) (.node .term [.node comparison [.leaf sign], .leaf token])
  | compared_word {sign : Token} {order : Comparison}
      (sign_is : Comparison.ofKind sign.kind = some order) (token_is : token.kind = .searchTerm) :
      TermOf token none (.node .term [.node comparison [.leaf sign], .leaf token])

section Groups

variable {δ : Type} {c : Comparator δ} {t : Tree} {outer : Segment} {rest : List (Parens × Segment)}

theorem symbol_nested : (nested t outer rest).symbol = .nonterminal group := by
  cases rest <;> rfl

/-- Below groups in one another a term is evaluated at the joined path. -/
theorem evaluate_nested_eq (flags : Flags) : evaluate c flags (nested t outer rest) =
    evaluate c (flags.within (".".intercalate (pathsOf outer rest))) t := by
  induction rest generalizing outer flags with
  | nil => rfl
  | cons next rest ih =>
    obtain ⟨p, inner⟩ := next
    have hpaths : pathsOf outer ((p, inner) :: rest) = outer.name.lexeme :: pathsOf inner rest := rfl
    rw [nested, Segment.group, evaluate_group, evaluate_term_around, evaluate_alone symbol_nested, ih,
      Flags.within_within, hpaths, pathsOf, String.intercalate_cons_cons]

theorem isPhrase_nested (h : IsPhrase (.nonterminal term) t) :
    IsPhrase (.nonterminal group) (nested t outer rest) := by
  have hgroup {outer : Segment} {t : Tree} (h : IsPhrase (.nonterminal term) t) :
      IsPhrase (.nonterminal group) (outer.group t) :=
    isPhrase_node (by decide)
      (.cons (isPhrase_leaf outer.name_is) (.cons (isPhrase_leaf outer.colon_is) (.cons h .nil)))
  induction rest generalizing outer with
  | nil => exact hgroup h
  | cons next rest ih =>
    exact hgroup (isPhrase_node (by decide) (.cons (isPhrase_around (isPhrase_alone (.inr rfl) ih)) .nil))

variable {token : Token} {operator : Option Comparison}

theorem TermOf.evaluate_eq (h : TermOf token operator t) (scope : Option String) (exclude : Bool) :
    evaluate c ⟨scope, exclude, none⟩ t = c.search ⟨scope, exclude, operator⟩ token := by
  cases h with
  | word token_is => rw [evaluate_only (.inr (.inr rfl)) rfl, evaluate_word token_is]
  | number sign_is token_is => exact evaluate_number sign_is token_is
  | compared_word sign_is token_is => exact evaluate_compared_word sign_is token_is

theorem TermOf.isPhrase (h : TermOf token operator t) : IsPhrase (.nonterminal term) t := by
  have hcomparison {sign : Token} {order : Comparison}
      (h : Comparison.ofKind sign.kind = some order) :
      IsPhrase (.nonterminal comparison) (.node comparison [.leaf sign]) := by
    refine isPhrase_node ?_ (.cons (isPhrase_leaf rfl) .nil)
    cases hkind : sign.kind <;> rw [hkind] at h <;> cases h <;> decide
  cases h with
  | word token_is =>
    have hword : IsPhrase (.nonterminal searchTerm) (.node searchTerm [.leaf token]) :=
      isPhrase_node (by decide) (.cons (isPhrase_leaf token_is) .nil)
    exact isPhrase_node (by decide) (.cons hword .nil)
  | number sign_is token_is =>
    exact isPhrase_node (by decide) (.cons (hcomparison sign_is) (.cons (isPhrase_leaf token_is) .nil))
  | compared_word sign_is token_is =>
    exact isPhrase_node (by decide) (.cons (hcomparison sign_is) (.cons (isPhrase_leaf token_is) .nil))

end Groups

/-- A value at a joined path matches just if the paths lead to one that does, one after the other. -/
theorem record_intercalate (test : TermTest) {paths : List String} (hne : paths ≠ [])
    (record : Record) : test.record (some (".".intercalate paths)) record = true ↔
      ∃ value, paths.foldlM resolve record = some value ∧ test.value value = true := by
  rw [TermTest.record, resolve_intercalate hne, Option.any_eq_true]

/-- A term keeps the members that match it, or under odd negation those that do not. -/
theorem mem_filterMatches {α : Type} {records : List Record} {w : WorkingSet α} {id : Nat}
    {record : Record} (hrecord : records[id]? = some record) (scope : Option String) (exclude : Bool)
    (operator : Option Comparison) (token : Token) :
    id ∈ (Comparator.filterMatches records ⟨scope, exclude, operator⟩ token w).members ↔
      id ∈ w.members ∧
        ((TermTest.of token operator).record scope record = true ↔ exclude = false) := by
  have hmem : id ∈ (Comparator.filterMatches records ⟨scope, exclude, operator⟩ token w).members ↔
      id ∈ w.members ∧ ((records[id]?).any ((TermTest.of token operator).record scope) != exclude) =
        true := List.mem_filter
  rw [hmem, hrecord, Option.any_some]
  cases (TermTest.of token operator).record scope record <;> cases exclude <;> simp

/-- The query of a term below several groups, each in the parentheses of the one before, is parsed, and is
    evaluated like the query of the term below one group of the joined path, whatever the comparator is
    and with any indexes. A filter keeps just the members whose record leads along the paths, from each
    value on to the next, to a value that matches the term; under odd negation it drops just these. -/
theorem evaluate_nested {token : Token} {operator : Option Comparison} {t : Tree}
    (ht : TermOf token operator t) (outer : Segment) (rest : List (Parens × Segment)) :
    let query := alone (nested t outer rest)
    let paths := pathsOf outer rest
    parseStrict query.leaves = .ok query ∧
    (∀ joint : Segment, joint.name.lexeme = ".".intercalate paths →
      ∀ {α : Type} [Arithmetic α] (s : Setup) (indexes : Indexes) (records : List Record)
        (flags : Flags) (w : WorkingSet α),
        evaluate (s.comparator indexes records) flags query w =
          evaluate (s.comparator indexes records) flags (alone (joint.group t)) w) ∧
    ∀ {α : Type} (records : List Record) (w : WorkingSet α) (exclude : Bool) (id : Nat)
      (record : Record), records[id]? = some record →
      (id ∈ (evaluate (.binary records) ⟨none, exclude, none⟩ query w).members ↔
        id ∈ w.members ∧ ((∃ value, paths.foldlM resolve record = some value ∧
          (TermTest.of token operator).value value = true) ↔ exclude = false)) := by
  intro query paths
  have hevaluate {δ : Type} (c : Comparator δ) (flags : Flags) :
      evaluate c flags query = evaluate c (flags.within (".".intercalate paths)) t := by
    rw [evaluate_alone symbol_nested, evaluate_nested_eq]
  refine ⟨?_, fun joint hjoint α _ s indexes records flags w => ?_,
    fun {α} records w exclude id record hrecord => ?_⟩
  · have hphrase : IsPhrase (.nonterminal list) query :=
      isPhrase_alone (.inr rfl) (isPhrase_nested ht.isPhrase)
    exact parseStrict_of_isDerivation ⟨hphrase.symbol, hphrase.conforms, rfl⟩
  · rw [hevaluate, evaluate_alone rfl, Segment.group, evaluate_group, hjoint]
  · have hterm : evaluate (Comparator.binary (α := α) records) ⟨none, exclude, none⟩ query =
        Comparator.filterMatches records ⟨some (".".intercalate paths), exclude, operator⟩ token :=
      (hevaluate _ _).trans (ht.evaluate_eq _ _)
    have hne : paths ≠ [] := List.cons_ne_nil _ _
    rw [hterm, mem_filterMatches hrecord, record_intercalate _ hne]

/-- `a.:(b..c:>5)` is evaluated like `a..b..c:>5`, and keeps a record with a 7 at `a.b.c`. -/
theorem evaluate_nested_large :
    let p : Parens := ⟨.ofKind .lparen 3, .ofKind .rparen 11, rfl, rfl⟩
    let outer : Segment := ⟨.ofText .searchTerm "a." 0, .ofKind .groupTerminator 2, rfl, rfl⟩
    let inner : Segment := ⟨.ofText .searchTerm "b..c" 4, .ofKind .groupTerminator 8, rfl, rfl⟩
    let joint : Segment := ⟨.ofText .searchTerm "a..b..c" 0, .ofKind .groupTerminator 7, rfl, rfl⟩
    let five : Token := ⟨.number, .number 5, 10⟩
    let large : Tree := .node .term [.node comparison [.leaf (.ofKind .gt 9)], .leaf five]
    let query := alone (nested large outer [(p, inner)])
    let record : Record := .object [("a", .object [("b", .object [("c", .number (.integer 7))])])]
    let records : List Record := [record]
    TermOf five (some .gt) large ∧
      joint.name.lexeme = ".".intercalate (pathsOf outer [(p, inner)]) ∧
      records[0]? = some record ∧ parseStrict query.leaves = .ok query ∧
      evaluate (.fuzzy (.edits 2 true) ["a.b.c"] (.build ["a.b.c"] records) records) .root query
          (.full 1 : WorkingSet Rat) =
        evaluate (.fuzzy (.edits 2 true) ["a.b.c"] (.build ["a.b.c"] records) records) .root
          (alone (joint.group large)) (.full 1) ∧
      0 ∈ (evaluate (.binary records) .root query (.full 1 : WorkingSet Rat)).members := by
  intro p outer inner joint five large query record records
  have hlarge : TermOf five (some .gt) large := .number rfl rfl
  have hjoint : joint.name.lexeme = ".".intercalate (pathsOf outer [(p, inner)]) := by decide
  obtain ⟨hparse, hsame, hmem⟩ := evaluate_nested hlarge outer [(p, inner)]
  refine ⟨hlarge, hjoint, rfl, hparse, ?_, (hmem records (.full 1) false 0 _ rfl).mpr ⟨?_, ?_⟩⟩
  · exact hsame joint hjoint ⟨.fuzzy (.edits 2 true), ["a.b.c"], true, .reset⟩ _ records .root (.full 1)
  · decide
  · exact iff_of_true ((Option.any_eq_true _ _).mp (by decide)) rfl

end RecordSearch.Search
