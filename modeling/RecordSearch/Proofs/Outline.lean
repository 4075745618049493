import Mathlib.Data.List.Forall2
import RecordSearch.Proofs.Text.Escaped
import RecordSearch.Query.Tree

/-! A tree shown as text can be told from all others. Each line shows how deep a node is and what it is:
    a leaf with its text, a node with nothing below it, or one with something below it. In an outline of
    such headings what stands below a node ends where a line is no deeper than the node, so an outline
    has one tree (`alike_of_headings`). Texts of leaves are quoted, so each of them is part of one line,
    and the lines are known from the text (`display_eq_display_iff`). -/

namespace RecordSearch.Query

namespace Tree

/-- Trees with the same shape and labels, and leaf by leaf with the same kinds and texts. -/
inductive Alike : Tree → Tree → Prop
  | leaf {x y : Token} (kind : x.kind = y.kind) (lexeme : x.lexeme = y.lexeme) :
      Alike (.leaf x) (.leaf y)
  | node (label : Nonterminal) {ts us : List Tree} (children : List.Forall₂ Alike ts us) :
      Alike (.node label ts) (.node label us)

/-- What a line shows, its depth aside. -/
inductive Heading where
  | leaf (kind : Kind) (lexeme : String)
  | empty (label : Nonterminal)
  | node (label : Nonterminal)

/-- A heading with its depth. -/
abbrev Row := Nat × Heading

mutual

/-- The headings of a tree at some depth. -/
def headings (depth : Nat) : Tree → List Row
  | leaf token => [(depth, .leaf token.kind token.lexeme)]
  | node label [] => [(depth, .empty label)]
  | node label (child :: rest) => (depth, .node label) :: headingsOf (depth + 1) (child :: rest)

/-- The headings of several trees at some depth. -/
def headingsOf (depth : Nat) : List Tree → List Row
  | [] => []
  | t :: ts => t.headings depth ++ headingsOf depth ts

end

@[simp] theorem headingsOf_nil (depth : Nat) : headingsOf depth [] = [] := by rw [headingsOf]

/-! ### Outlines -/

/-- The first of some rows, if there is one, is less deep. -/
def Above (depth : Nat) (rows : List Row) : Prop := ∀ row ∈ rows.head?, row.1 < depth

theorem Above.deeper {depth : Nat} {rows : List Row} (h : Above depth rows) : Above (depth + 1) rows :=
  fun row hrow => Nat.lt_succ_of_lt (h row hrow)

/-- The first row of a tree is at the depth of the tree. -/
theorem exists_headings_eq_cons (depth : Nat) (t : Tree) :
    ∃ heading rows, t.headings depth = (depth, heading) :: rows := by
  match t with
  | leaf token => exact ⟨_, _, by rw [headings]⟩
  | node label [] => exact ⟨_, _, by rw [headings]⟩
  | node label (child :: rest) => exact ⟨_, _, by rw [headings]⟩

/-- After a tree comes another one at its depth or what is less deep. -/
theorem above_headingsOf {depth : Nat} {rows : List Row} (h : Above depth rows) (ts : List Tree) :
    Above (depth + 1) (headingsOf depth ts ++ rows) := by
  cases ts with
  | nil => simpa only [headingsOf, List.nil_append] using h.deeper
  | cons t ts =>
    obtain ⟨heading, more, heq⟩ := exists_headings_eq_cons depth t
    rintro row hrow
    rw [headingsOf, heq] at hrow
    obtain rfl : (depth, heading) = row := by simpa using hrow
    exact Nat.lt_succ_self depth

/-- Below a node there is something deeper. -/
theorem headingsOf_append_ne {depth : Nat} {t : Tree} {ts : List Tree} {rows rows' : List Row}
    (h : Above depth rows') : headingsOf depth (t :: ts) ++ rows ≠ rows' := by
  rintro rfl
  obtain ⟨heading, more, heq⟩ := exists_headings_eq_cons depth t
  have hless := h (depth, heading) (by rw [headingsOf, heq]; rfl)
  exact Nat.lt_irrefl depth hless

mutual

/-- The headings of a tree show the tree and where it ends. -/
theorem alike_of_headings : ∀ (t u : Tree) {depth : Nat} {rows rows' : List Row},
    Above (depth + 1) rows → Above (depth + 1) rows' →
    t.headings depth ++ rows = u.headings depth ++ rows' → t.Alike u ∧ rows = rows'
  | leaf x, leaf y, _, _, _, _, _, h => by
      simp only [headings, List.cons_append, List.nil_append, List.cons.injEq, Prod.mk.injEq,
        Heading.leaf.injEq, true_and] at h
      exact ⟨.leaf h.1.1 h.1.2, h.2⟩
  | node label [], node label' [], _, _, _, _, _, h => by
      simp only [headings, List.cons_append, List.nil_append, List.cons.injEq, Prod.mk.injEq,
        Heading.empty.injEq, true_and] at h
      obtain ⟨rfl, hrows⟩ := h
      exact ⟨.node label .nil, hrows⟩
  | node label (t :: ts), node label' (u :: us), _, _, _, habove, habove', h => by
      rw [headings, headings, List.cons_append, List.cons_append, List.cons.injEq] at h
      obtain ⟨hheading, hrows⟩ := h
      obtain rfl : label = label' := by simpa using hheading
      obtain ⟨hchildren, hrest⟩ := forall₂_alike_of_headingsOf (t :: ts) (u :: us) habove habove' hrows
      exact ⟨.node label hchildren, hrest⟩
  | leaf _, node _ [], _, _, _, _, _, h => by simp [headings] at h
  | leaf _, node _ (_ :: _), _, _, _, _, _, h => by simp [headings] at h
  | node _ [], leaf _, _, _, _, _, _, h => by simp [headings] at h
  | node _ (_ :: _), leaf _, _, _, _, _, _, h => by simp [headings] at h
  | node _ [], node _ (_ :: _), _, _, _, _, _, h => by simp [headings] at h
  | node _ (_ :: _), node _ [], _, _, _, _, _, h => by simp [headings] at h

/-- The headings of several trees show the trees and where the last of them ends. -/
theorem forall₂_alike_of_headingsOf : ∀ (ts us : List Tree) {depth : Nat} {rows rows' : List Row},
    Above depth rows → Above depth rows' →
    headingsOf depth ts ++ rows = headingsOf depth us ++ rows' →
      List.Forall₂ Alike ts us ∧ rows = rows'
  | [], [], _, _, _, _, _, h => by
      simp only [headingsOf_nil, List.nil_append] at h
      exact ⟨.nil, h⟩
  | [], u :: us, _, _, _, habove, _, h => by
      rw [headingsOf_nil, List.nil_append] at h
      exact absurd h.symm (headingsOf_append_ne habove)
  | t :: ts, [], _, _, _, _, habove', h => by
      rw [headingsOf_nil, List.nil_append] at h
      exact absurd h (headingsOf_append_ne habove')
  | t :: ts, u :: us, _, _, _, habove, habove', h => by
      rw [headingsOf, headingsOf, List.append_assoc, List.append_assoc] at h
      obtain ⟨hfirst, hrest⟩ :=
        alike_of_headings t u (above_headingsOf habove ts) (above_headingsOf habove' us) h
      obtain ⟨hothers, hrows⟩ := forall₂_alike_of_headingsOf ts us habove habove' hrest
      exact ⟨.cons hfirst hothers, hrows⟩

end

mutual

/-- Trees that are alike have the same headings. -/
theorem headings_eq_of_alike : ∀ {t u : Tree}, t.Alike u → ∀ depth, t.headings depth = u.headings depth
  | leaf x, leaf y, .leaf kind lexeme, depth => by rw [headings, headings, kind, lexeme]
  | node _ [], node _ [], .node _ .nil, _ => rfl
  | node label (t :: ts), node _ (u :: us), .node _ children, depth => by
      rw [headings, headings, headingsOf_eq_of_alike children]

theorem headingsOf_eq_of_alike : ∀ {ts us : List Tree}, List.Forall₂ Alike ts us →
    ∀ depth, headingsOf depth ts = headingsOf depth us
  | [], [], .nil, _ => rfl
  | t :: ts, u :: us, .cons first others, depth => by
      rw [headingsOf, headingsOf, headings_eq_of_alike first, headingsOf_eq_of_alike others]

end

/-! ### Lines -/

/-- A heading as it is written. -/
def Heading.text : Heading → String
  | leaf kind lexeme => kind.name ++ " " ++ Text.escape lexeme
  | empty label => label.name ++ " ε"
  | node label => label.name

/-- The line of a row. -/
def Row.line (row : Row) : String :=
  String.ofList (List.replicate (2 * row.1) ' ') ++ row.2.text

mutual

theorem lines_eq_map (depth : Nat) : ∀ t : Tree, t.lines depth = (t.headings depth).map Row.line
  | leaf token => by
      simp only [lines, headings, List.map_cons, List.map_nil, Row.line, Heading.text,
        String.append_assoc]
  | node label [] => by
      simp only [lines, headings, List.map_cons, List.map_nil, Row.line, Heading.text,
        String.append_assoc]
  | node label (child :: rest) => by
      rw [lines, headings, List.map_cons, linesOf_eq_map (depth + 1) (child :: rest)]
      rfl

theorem linesOf_eq_map (depth : Nat) : ∀ ts : List Tree,
    linesOf depth ts = (headingsOf depth ts).map Row.line
  | [] => by rw [linesOf, headingsOf_nil, List.map_nil]
  | t :: ts => by
      rw [linesOf, headingsOf, List.map_append, lines_eq_map depth t, linesOf_eq_map depth ts]

end

/-- A name that is one word. -/
structure IsWord (name : String) : Prop where
  nonempty : name.toList ≠ []
  blank : ' ' ∉ name.toList
  newline : '\n' ∉ name.toList

theorem isWord_kind (k : Kind) : IsWord k.name := by
  cases k <;> exact ⟨by decide, by decide, by decide⟩

theorem isWord_label (n : Nonterminal) : IsWord n.name := by
  cases n <;> exact ⟨by decide, by decide, by decide⟩

theorem kind_name_injective : Function.Injective Kind.name := by
  have hnames : ∀ k ∈ Kind.all, ∀ l ∈ Kind.all, k.name = l.name → k = l := by decide
  exact fun k l => hnames k (Kind.mem_all k) l (Kind.mem_all l)

theorem label_name_injective : Function.Injective Nonterminal.name := by
  have hnames : ∀ n ∈ Nonterminal.all, ∀ m ∈ Nonterminal.all, n.name = m.name → n = m := by decide
  exact fun n m => hnames n (Nonterminal.mem_all n) m (Nonterminal.mem_all m)

namespace Heading

/-- The name that a heading begins with. -/
def name : Heading → String
  | leaf kind _ => kind.name
  | empty label => label.name
  | node label => label.name

/-- What stands after the name. -/
def tail : Heading → List Char
  | leaf _ lexeme => ' ' :: (Text.escape lexeme).toList
  | empty _ => [' ', 'ε']
  | node _ => []

theorem isWord_name (h : Heading) : IsWord h.name := by
  cases h with
  | leaf kind => exact isWord_kind kind
  | empty label => exact isWord_label label
  | node label => exact isWord_label label

theorem toList_text (h : Heading) : h.text.toList = h.name.toList ++ h.tail := by
  cases h <;> simp [text, name, tail]

theorem newline_not_mem_text (h : Heading) : '\n' ∉ h.text.toList := by
  have htail : '\n' ∉ h.tail := by
    cases h with
    | leaf _ lexeme => simpa [tail] using Text.newline_not_mem_escape lexeme
    | empty => simp [tail]
    | node => exact List.not_mem_nil
  rw [toList_text, List.mem_append]
  exact fun hmem => hmem.elim h.isWord_name.newline htail

theorem head?_text (h : Heading) : h.text.toList.head? ≠ some ' ' := by
  rw [toList_text, List.head?_append_of_ne_nil _ h.isWord_name.nonempty]
  exact fun hhead => h.isWord_name.blank (List.mem_of_mem_head? hhead)

/-- The quotes of a leaf set it apart from a node with nothing below it. -/
theorem escape_ne_epsilon (lexeme : String) : (Text.escape lexeme).toList ≠ ['ε'] := by
  intro h
  simp [Text.escape] at h

/-- What has a blank in it is not one word. -/
theorem append_blank_ne {word before after : List Char} (h : ' ' ∉ word) :
    before ++ ' ' :: after ≠ word ++ [] := by
  rw [List.append_nil]
  rintro rfl
  exact h (List.mem_append_right _ List.mem_cons_self)

/-- A heading is known from its text. -/
theorem text_injective : Function.Injective text := by
  intro h h' heq
  have hlists : h.name.toList ++ h.tail = h'.name.toList ++ h'.tail := by
    rw [← toList_text, ← toList_text, heq]
  have hblank := h.isWord_name.blank
  have hblank' := h'.isWord_name.blank
  cases h with
  | leaf kind lexeme =>
    cases h' with
    | leaf kind' lexeme' =>
      obtain ⟨hname, hescape⟩ := Text.append_separator_inj hblank hblank' hlists
      rw [kind_name_injective (String.toList_injective hname),
        Text.escape_injective (String.toList_injective hescape)]
    | empty => exact absurd (Text.append_separator_inj hblank hblank' hlists).2 (escape_ne_epsilon _)
    | node => exact absurd hlists (append_blank_ne hblank')
  | empty label =>
    cases h' with
    | leaf =>
      exact absurd (Text.append_separator_inj hblank hblank' hlists).2.symm (escape_ne_epsilon _)
    | empty label' =>
      obtain ⟨hname, -⟩ := Text.append_separator_inj hblank hblank' hlists
      rw [label_name_injective (String.toList_injective hname)]
    | node => exact absurd hlists (append_blank_ne hblank')
  | node label =>
    cases h' with
    | leaf => exact absurd hlists.symm (append_blank_ne hblank)
    | empty => exact absurd hlists.symm (append_blank_ne hblank)
    | node label' =>
      have hname : label.name.toList = label'.name.toList := by simpa [name, tail] using hlists
      rw [label_name_injective (String.toList_injective hname)]

end Heading

/-- A run at the beginning is known from the whole. -/
theorem replicate_append_inj {α : Type} {a : α} : ∀ {m n : Nat} {xs ys : List α},
    xs.head? ≠ some a → ys.head? ≠ some a →
    List.replicate m a ++ xs = List.replicate n a ++ ys → m = n ∧ xs = ys
  | 0, 0, _, _, _, _, h => ⟨rfl, h⟩
  | 0, n + 1, _, _, hxs, _, h => absurd (congrArg List.head? h) hxs
  | m + 1, 0, _, _, _, hys, h => absurd (congrArg List.head? h).symm hys
  | m + 1, n + 1, _, _, hxs, hys, h => by
      obtain ⟨rfl, hrest⟩ := replicate_append_inj hxs hys (List.cons.inj h).2
      exact ⟨rfl, hrest⟩

theorem line_injective : Function.Injective Row.line := by
  rintro ⟨depth, h⟩ ⟨depth', h'⟩ heq
  have hlists := congrArg String.toList heq
  simp only [Row.line, String.toList_append, String.toList_ofList] at hlists
  obtain ⟨hdepth, htext⟩ := replicate_append_inj h.head?_text h'.head?_text hlists
  rw [Heading.text_injective (String.toList_injective htext), Nat.eq_of_mul_eq_mul_left (by decide) hdepth]

theorem newline_not_mem_line (row : Row) : '\n' ∉ row.line.toList := by
  simp [Row.line, row.2.newline_not_mem_text]

/-- Lines are known from the text that they make. -/
theorem join_lines_inj : ∀ {ls ls' : List String}, (∀ l ∈ ls, '\n' ∉ l.toList) →
    (∀ l ∈ ls', '\n' ∉ l.toList) →
    String.join (ls.map (· ++ "\n")) = String.join (ls'.map (· ++ "\n")) → ls = ls'
  | [], [], _, _, _ => rfl
  | [], l :: ls', _, _, h => by
      have hlists := congrArg String.toList h
      simp at hlists
  | l :: ls, [], _, _, h => by
      have hlists := congrArg String.toList h
      simp at hlists
  | l :: ls, l' :: ls', hl, hl', h => by
      have hlists := congrArg String.toList h
      simp only [List.map_cons, String.join_cons, String.toList_append, List.append_assoc] at hlists
      obtain ⟨hfirst, hrest⟩ := Text.append_separator_inj (hl l List.mem_cons_self)
        (hl' l' List.mem_cons_self) hlists
      rw [String.toList_injective hfirst,
        join_lines_inj (fun l hmem => hl l (List.mem_cons_of_mem _ hmem))
          (fun l hmem => hl' l (List.mem_cons_of_mem _ hmem)) (String.toList_injective hrest)]

/-- The text of a tree shows its headings. -/
theorem headings_eq_of_display {t u : Tree} (h : t.display = u.display) :
    t.headings 0 = u.headings 0 := by
  have hlines : t.lines 0 = u.lines 0 := by
    refine join_lines_inj ?_ ?_ h
    all_goals
      intro l hl
      rw [lines_eq_map] at hl
      obtain ⟨row, -, rfl⟩ := List.mem_map.mp hl
      exact newline_not_mem_line row
  rw [lines_eq_map, lines_eq_map] at hlines
  exact List.map_injective_iff.mpr line_injective hlines

/-- Two trees are shown as the same text exactly if they are alike. -/
theorem display_eq_display_iff (t u : Tree) : t.display = u.display ↔ t.Alike u := by
  constructor
  · intro h
    have hrows : t.headings 0 ++ [] = u.headings 0 ++ [] := by rw [headings_eq_of_display h]
    have hnone : Above 1 [] := fun _ hrow => nomatch hrow
    exact (alike_of_headings t u hnone hnone hrows).1
  · intro h
    rw [display, display, lines_eq_map, lines_eq_map, headings_eq_of_alike h]

end Tree

end RecordSearch.Query
