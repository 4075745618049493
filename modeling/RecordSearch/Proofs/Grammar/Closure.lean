import Mathlib.Data.List.Basic
import RecordSearch.Query.Grammar.Loops

/-! Loops that add to selections until nothing is new. A pass either changes nothing or makes what is known
    longer, and there is a bound to that, so a loop with enough fuel ends where a further pass changes
    nothing (`pass_settle`) and neither does any step of one (`settle_foldl`). Among these loops are the
    rounds of `saturate`: `mem_closureOf_of_rule` is the closure of what they end with under the rule, and
    `closureOf_induction` that it holds nothing else. -/

namespace RecordSearch.Query

/-! ### Loops -/

section Settle

variable {σ : Type} [DecidableEq σ] {pass : σ → σ} {s : σ}

theorem settle_succ (fuel : Nat) (s : σ) : settle pass (fuel + 1) s =
    if pass s = s then s else settle pass fuel (pass s) := rfl

theorem settle_of_fixed (h : pass s = s) : ∀ fuel, settle pass fuel s = s
  | 0 => rfl
  | fuel + 1 => by rw [settle_succ, if_pos h]

theorem settle_add : ∀ (fuel more : Nat) (s : σ),
    settle pass (fuel + more) s = settle pass more (settle pass fuel s)
  | 0, more, s => by rw [Nat.zero_add, settle]
  | fuel + 1, more, s => by
      rw [Nat.add_right_comm, settle_succ, settle_succ]
      split
      · next h => exact (settle_of_fixed h more).symm
      · exact settle_add fuel more _

/-- What every pass preserves holds where the loop ends. -/
theorem settle_induction {P : σ → Prop} (hpass : ∀ s, P s → P (pass s)) :
    ∀ (fuel : Nat) {s : σ}, P s → P (settle pass fuel s)
  | 0, _, hs => hs
  | fuel + 1, s, hs => by
      rw [settle_succ]
      split
      · exact hs
      · exact settle_induction hpass fuel (hpass s hs)

/-- A loop whose passes preserve an invariant, and lengthen what they change up to a bound, ends where a
    further pass changes nothing. -/
theorem pass_settle {Inv : σ → Prop} {size : σ → Nat} {bound : Nat}
    (hinv : ∀ s, Inv s → Inv (pass s)) (hbound : ∀ s, Inv s → size s ≤ bound)
    (hgrows : ∀ s, Inv s → pass s = s ∨ size s < size (pass s)) :
    ∀ (fuel : Nat) {s : σ}, Inv s → bound ≤ fuel + size s →
      pass (settle pass fuel s) = settle pass fuel s
  | 0, s, hs, hfuel => by
      refine (hgrows s hs).resolve_right fun hlt => ?_
      have hle := hbound (pass s) (hinv s hs)
      omega
  | fuel + 1, s, hs, hfuel => by
      rw [settle_succ]
      split
      · assumption
      · next h =>
        have hlt := (hgrows s hs).resolve_left h
        exact pass_settle hinv hbound hgrows fuel (hinv s hs) (by omega)

end Settle

/-- Steps that each either change nothing or lengthen what is known do so together, and change nothing
    together only if none of them does. -/
theorem foldl_grows {σ β : Type} {step : σ → β → σ} {Inv : σ → Prop} {size : σ → Nat} :
    ∀ {bs : List β} {s : σ}, (∀ b ∈ bs, ∀ s, Inv s →
      Inv (step s b) ∧ (step s b = s ∨ size s < size (step s b))) → Inv s →
      Inv (bs.foldl step s) ∧
        ((bs.foldl step s = s ∧ ∀ b ∈ bs, step s b = s) ∨ size s < size (bs.foldl step s))
  | [], s, _, hs => ⟨hs, .inl ⟨rfl, nofun⟩⟩
  | b :: bs, s, hstep, hs => by
      obtain ⟨hb, hbs⟩ := List.forall_mem_cons.mp hstep
      obtain ⟨hinv, hgrows⟩ := hb s hs
      obtain ⟨hrest, hrestGrows⟩ := foldl_grows hbs hinv
      refine ⟨hrest, ?_⟩
      rw [List.foldl_cons]
      rcases hgrows with hsame | hlt
      · rw [hsame] at hrestGrows ⊢
        refine hrestGrows.imp_left fun h => ⟨h.1, List.forall_mem_cons.mpr ⟨hsame, h.2⟩⟩
      · refine .inr ?_
        rcases hrestGrows with ⟨hsame, -⟩ | hrestLt
        · rwa [hsame]
        · exact Nat.lt_trans hlt hrestLt

/-- A loop over steps that each preserve an invariant, and lengthen what they change up to a bound, ends
    where no step changes anything. -/
theorem settle_foldl {σ β : Type} [DecidableEq σ] {step : σ → β → σ} {bs : List β} {Inv : σ → Prop}
    {size : σ → Nat} {bound fuel : Nat} {s : σ}
    (hstep : ∀ b ∈ bs, ∀ s, Inv s → Inv (step s b) ∧ (step s b = s ∨ size s < size (step s b)))
    (hbound : ∀ s, Inv s → size s ≤ bound) (hfuel : bound ≤ fuel) (hs : Inv s) :
    Inv (settle (fun s => bs.foldl step s) fuel s) ∧ ∀ b ∈ bs,
      step (settle (fun s => bs.foldl step s) fuel s) b = settle (fun s => bs.foldl step s) fuel s := by
  have hinv : ∀ s, Inv s → Inv (bs.foldl step s) := fun s hs => (foldl_grows hstep hs).1
  have hend := settle_induction hinv fuel hs
  refine ⟨hend, ?_⟩
  have hfixed := pass_settle hinv hbound (fun s hs => (foldl_grows hstep hs).2.imp_left And.left) fuel hs
    (Nat.le_add_right_of_le hfuel)
  rcases (foldl_grows hstep hend).2 with ⟨-, hall⟩ | hlonger
  · exact hall
  · rw [hfixed] at hlonger
    exact absurd hlonger (Nat.lt_irrefl _)

/-! ### Selections -/

section Selections

variable {α : Type} [DecidableEq α] {domain s t : List α} {more : α → Bool}

/-- Some members of a domain, in its order. -/
def IsSelection (domain s : List α) : Prop := domain.filter (fun a => s.contains a) = s

theorem mem_enlarge {a : α} : a ∈ enlarge domain more s ↔ a ∈ domain ∧ (a ∈ s ∨ more a = true) := by
  simp [enlarge]

theorem IsSelection.sublist (h : IsSelection domain s) : s.Sublist domain := by
  rw [← h]
  exact List.filter_sublist

/-- Selections are known by their members. -/
theorem IsSelection.ext (hs : IsSelection domain s) (ht : IsSelection domain t)
    (h : ∀ a, a ∈ s ↔ a ∈ t) : s = t := by
  rw [← hs, ← ht]
  refine List.filter_congr fun a _ => ?_
  rw [Bool.eq_iff_iff, List.contains_iff_mem, List.contains_iff_mem, h a]

theorem isSelection_filter (p : α → Bool) : IsSelection domain (domain.filter p) := by
  refine List.filter_congr fun a ha => ?_
  rw [Bool.eq_iff_iff, List.contains_iff_mem, List.mem_filter, and_iff_right ha]

theorem sublist_enlarge (h : s.Sublist domain) : s.Sublist (enlarge domain more s) := by
  have hs : s.filter (fun a => s.contains a || more a) = s := by
    rw [List.filter_eq_self]
    intro a ha
    simp [ha]
  have henlarge : (s.filter fun a => s.contains a || more a).Sublist (enlarge domain more s) :=
    h.filter _
  rwa [hs] at henlarge

/-- A part of the domain either stays as it is or becomes longer. -/
theorem enlarge_grows (h : s.Sublist domain) :
    enlarge domain more s = s ∨ s.length < (enlarge domain more s).length := by
  rcases Nat.eq_or_lt_of_le (sublist_enlarge h).length_le with heq | hlt
  · exact .inl ((sublist_enlarge h).eq_of_length heq).symm
  · exact .inr hlt

/-- Some members of a domain, all of them among the given ones. -/
structure PartOf (domain all s : List α) : Prop where
  selection : IsSelection domain s
  mem : ∀ a ∈ s, a ∈ all

variable {all : List α}

theorem partOf_nil : PartOf domain all [] := ⟨by simp [IsSelection], nofun⟩

theorem PartOf.enlarge (h : PartOf domain all s) (hmore : ∀ a, more a = true → a ∈ all) :
    PartOf domain all (enlarge domain more s) :=
  ⟨isSelection_filter _, fun a ha => (mem_enlarge.mp ha).2.elim (h.mem a) (hmore a)⟩

theorem PartOf.sublist (h : PartOf domain all s) : s.Sublist domain := h.selection.sublist

end Selections

/-! ### Rounds -/

variable {α : Type} [DecidableEq α] (domain : List α) (rule : List α → α → Bool)

/-- One round: what was selected, and what the rule adds. -/
def grow (s : List α) : List α := enlarge domain (rule s) s

theorem saturate_eq_settle : ∀ (fuel : Nat) (s : List α),
    saturate domain rule fuel s = settle (grow domain rule) fuel s
  | 0, _ => rfl
  | fuel + 1, s => by
      rw [settle_succ, ← saturate_eq_settle fuel]
      rfl

variable {domain rule}

theorem mem_grow {s : List α} {a : α} :
    a ∈ grow domain rule s ↔ a ∈ domain ∧ (a ∈ s ∨ rule s a = true) := mem_enlarge

theorem grow_closureOf (seeds : List α) :
    grow domain rule (closureOf domain rule seeds) = closureOf domain rule seeds := by
  rw [closureOf, saturate_eq_settle, settle_succ]
  split
  · assumption
  · have hfilter : ∀ s, (grow domain rule s).Sublist domain := fun _ => List.filter_sublist
    exact pass_settle (fun s _ => hfilter s) (fun s hs => hs.length_le) (fun s hs => enlarge_grows hs)
      domain.length (hfilter seeds) (Nat.le_add_right _ _)

theorem isSelection_closureOf (seeds : List α) :
    IsSelection domain (closureOf domain rule seeds) := by
  rw [← grow_closureOf]
  exact isSelection_filter _

/-- The rounds of a closure come to an end: however many more are allowed, they change nothing. -/
theorem saturate_eq_closureOf (seeds : List α) (more : Nat) :
    saturate domain rule (domain.length + 1 + more) seeds = closureOf domain rule seeds := by
  have hclosure : settle (grow domain rule) (domain.length + 1) seeds = closureOf domain rule seeds :=
    (saturate_eq_settle domain rule _ seeds).symm
  rw [saturate_eq_settle, settle_add, hclosure]
  exact settle_of_fixed (grow_closureOf seeds) more

/-! ### Membership -/

/-- The closure holds what the rule gives for it. -/
theorem mem_closureOf_of_rule {seeds : List α} {a : α} (ha : a ∈ domain)
    (h : rule (closureOf domain rule seeds) a = true) : a ∈ closureOf domain rule seeds := by
  rw [← grow_closureOf]
  exact mem_grow.mpr ⟨ha, Or.inr h⟩

/-- The closure holds the seeds. -/
theorem mem_closureOf_of_seed {seeds : List α} {a : α} (ha : a ∈ domain) (h : a ∈ seeds) :
    a ∈ closureOf domain rule seeds := by
  rw [closureOf, saturate_eq_settle]
  exact settle_induction (P := (a ∈ ·)) (fun s hs => mem_grow.mpr ⟨ha, .inl hs⟩) _ h

/-- What holds of the seeds and is handed on by the rule holds of the whole closure. -/
theorem closureOf_induction {P : α → Prop} {seeds : List α} (hseeds : ∀ a ∈ seeds, P a)
    (hrule : ∀ s a, (∀ b ∈ s, P b) → rule s a = true → P a) :
    ∀ a ∈ closureOf domain rule seeds, P a := by
  rw [closureOf, saturate_eq_settle]
  refine settle_induction (P := fun s => ∀ a ∈ s, P a) (fun s hs a ha => ?_) _ hseeds
  exact (mem_grow.mp ha).2.elim (hs a) (hrule s a hs)

/-- A part of the closure that holds the seeds and whatever the rule gives for parts of it is all of it. -/
theorem PartOf.eq_closureOf {seeds s : List α} (h : PartOf domain (closureOf domain rule seeds) s)
    (hseeds : ∀ a ∈ seeds, a ∈ s) (hrule : ∀ t a, (∀ b ∈ t, b ∈ s) → rule t a = true → a ∈ s) :
    s = closureOf domain rule seeds :=
  h.selection.ext (isSelection_closureOf seeds) fun a =>
    ⟨h.mem a, closureOf_induction hseeds hrule a⟩

end RecordSearch.Query
