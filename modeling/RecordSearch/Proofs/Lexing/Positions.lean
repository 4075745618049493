import RecordSearch.Proofs.Lexing.Pieces

/-! Where the tokens of a query are found. A lexeme is the text that is left up to some place past its
    first character, and its token is found where it begins. So the tokens of a query come one after
    the other, all of them before its end (`tokenize_within`). -/

namespace RecordSearch.Query

theorem byteLength_append (cs ds : List Char) :
    Text.byteLength (cs ++ ds) = Text.byteLength cs + Text.byteLength ds := by
  induction cs with
  | nil => exact (Nat.zero_add _).symm
  | cons c cs ih => rw [List.cons_append, byteLength_cons, byteLength_cons, ih, Nat.add_assoc]

namespace Lexeme

variable {previous : Option Kind} {position : Nat}

theorem position_operand (content : List Char) :
    (operand previous position content).position = position := by
  rw [operand]
  split <;> rfl

variable (previous position) in
/-- The source of the first lexeme is what the text begins with. -/
theorem first_source (c : Char) (cs : List Char) :
    ∃ more, (first previous position c cs).source = c :: more ∧ more <+: cs := by
  unfold first
  split
  · exact ⟨_, rfl, List.takeWhile_prefix _⟩
  · split
    · exact ⟨[], rfl, List.nil_prefix⟩
    · exact ⟨[], rfl, List.nil_prefix⟩
    · exact ⟨[], rfl, List.nil_prefix⟩
    · exact ⟨[], rfl, List.nil_prefix⟩
    · split
      · next heq => exact ⟨['='], rfl, List.singleton_prefix_iff_head?_eq_some.mpr heq⟩
      · exact ⟨[], rfl, List.nil_prefix⟩
    · split
      · next heq => exact ⟨['='], rfl, List.singleton_prefix_iff_head?_eq_some.mpr heq⟩
      · exact ⟨[], rfl, List.nil_prefix⟩
    · refine ⟨_, rfl, ?_⟩
      -- the quoted text and, if there is one, the quote that ends it
      conv => rhs; rw [← List.takeWhile_append_dropWhile (p := (· != '"')) (l := cs)]
      exact (List.prefix_append_right_inj _).mpr (List.take_prefix 1 _)
    · exact ⟨_, rfl, List.takeWhile_prefix _⟩

/-- The token of the first lexeme is found where the text begins. -/
theorem position_first {c : Char} {cs : List Char} {token : Token}
    (h : (first previous position c cs).token = some token) : token.position = position := by
  have hmark : ∀ {k : Kind}, (punctuation k position).token = some token →
      token.position = position := by
    rintro k htoken
    rw [← Option.some.inj htoken]
    rfl
  unfold first at h
  split at h
  · cases h
  · split at h
    · exact hmark h
    · exact hmark h
    · exact hmark h
    · exact hmark h
    · exact hmark h
    · exact hmark h
    · rw [quoted] at h
      simp only at h
      split at h
      · cases h
      · rw [← Option.some.inj h, position_operand]
    · rw [word, Option.some.injEq] at h
      split at h
      · rw [← h]; rfl
      · split at h
        · rw [← h]; rfl
        · rw [← h, position_operand]

end Lexeme

/-- The tokens stand one after the other, from one place on and all before another. -/
structure Within (start finish : Nat) (tokens : List Token) : Prop where
  increasing : (tokens.map Token.position).Pairwise (· < ·)
  bounded : ∀ token ∈ tokens, start ≤ token.position ∧ token.position < finish

theorem Within.nil (start finish : Nat) : Within start finish [] where
  increasing := .nil
  bounded _ h := by cases h

theorem Within.after {start next finish : Nat} {tokens : List Token}
    (h : Within next finish tokens) (hnext : start ≤ next) : Within start finish tokens where
  increasing := h.increasing
  bounded token hmem := ⟨Nat.le_trans hnext (h.bounded token hmem).1, (h.bounded token hmem).2⟩

theorem Within.cons {next finish : Nat} {token : Token} {tokens : List Token}
    (h : Within next finish tokens) (hnext : token.position < next) (hfinish : next ≤ finish) :
    Within token.position finish (token :: tokens) where
  increasing := by
    rw [List.map_cons, List.pairwise_cons]
    refine ⟨fun position hmem => ?_, h.increasing⟩
    obtain ⟨other, hother, rfl⟩ := List.mem_map.mp hmem
    exact Nat.lt_of_lt_of_le hnext (h.bounded other hother).1
  bounded other hmem := by
    rcases List.mem_cons.mp hmem with rfl | hmem
    · omega
    · have hbounded := h.bounded other hmem
      omega

/-- The tokens of a text lie within the text. -/
theorem lexemes_within : ∀ (cs : List Char) (previous : Option Kind) (position skip : Nat),
    Within position (position + Text.byteLength (cs.drop skip))
      ((lexemes previous position skip cs).filterMap Lexeme.token)
  | [], _, _, _ => by rw [lexemes]; exact .nil _ _
  | _ :: cs, previous, position, skip + 1 => by
      rw [lexemes, List.drop_succ_cons]
      exact lexemes_within cs previous position skip
  | c :: cs, previous, position, 0 => by
      obtain ⟨more, hsource, rest, rfl⟩ :=
        Lexeme.first_source previous position c cs
      have hpositive : 0 < c.utf8Size := c.utf8Size_pos
      simp only [lexemes, hsource, List.length_cons, Nat.add_sub_cancel, List.drop_zero]
      have hrest := fun previous => lexemes_within (more ++ rest) previous
        (position + Text.byteLength (c :: more)) more.length
      simp only [List.drop_left] at hrest
      have hfinish : position + Text.byteLength (c :: (more ++ rest)) =
          position + Text.byteLength (c :: more) + Text.byteLength rest := by
        rw [← List.cons_append, byteLength_append, Nat.add_assoc]
      have hnext : position < position + Text.byteLength (c :: more) := by
        rw [byteLength_cons]
        omega
      rw [hfinish]
      cases htoken : (Lexeme.first previous position c (more ++ rest)).token with
      | none =>
        rw [List.filterMap_cons_none htoken]
        exact (hrest _).after (Nat.le_of_lt hnext)
      | some token =>
        rw [List.filterMap_cons_some htoken]
        obtain rfl := Lexeme.position_first htoken
        exact (hrest _).cons hnext (Nat.le_add_right _ _)

/-- The tokens of a query lie within the query. -/
theorem tokenize_within (query : String) :
    Within 0 (Text.byteLength query.toList) (tokenize query) := by
  have hwithin := lexemes_within query.toList none 0 0
  rwa [List.drop_zero, Nat.zero_add] at hwithin

end RecordSearch.Query
