import RecordSearch.Proofs.Grammar.Lookahead

/-! The passes of the analysis find the selections of a grammar. Whatever a visit adds is among them, since
    what is known at that time is, and a rule that goes by less gives no more (`allAmong_mono`,
    `begins_mono`). A pass that changes nothing has left out nothing that the rules give for what is known,
    and so the passes end with all of it, whatever the order of the productions (`analyse_eq`). -/

namespace RecordSearch.Query

namespace Grammar

variable {g : Grammar}

/-! ### Beginnings -/

theorem allAmong_mono {ns ms : List Nonterminal} (h : ∀ n ∈ ns, n ∈ ms) :
    ∀ {rest : List Symbol}, allAmong ns rest = true → allAmong ms rest = true
  | [], _ => rfl
  | .terminal _ :: _, hrest => by cases hrest
  | .nonterminal n :: rest, hrest => by
      rw [allAmong_cons, Bool.and_eq_true, List.contains_iff_mem] at hrest ⊢
      exact ⟨h n hrest.1, allAmong_mono h hrest.2⟩

theorem begins_mono {ns ms : List Nonterminal} {s t : List (Nonterminal × Kind)} {k : Kind}
    (hns : ∀ n ∈ ns, n ∈ ms) (hs : ∀ a ∈ s, a ∈ t) :
    ∀ {rest : List Symbol}, begins ns s k rest = true → begins ms t k rest = true
  | .terminal _ :: _, hrest => hrest
  | .nonterminal n :: rest, hrest => by
      rw [begins_cons] at hrest ⊢
      exact hrest.imp (hs (n, k)) (And.imp (hns n) (begins_mono hns hs))

/-- What is known of the beginnings is found by the analysis too. -/
structure Beginnings.Sound (g : Grammar) (b : Beginnings) : Prop where
  nullable : PartOf Nonterminal.all g.nullable b.nullable
  first : PartOf firstDomain g.first b.first

def Beginnings.size (b : Beginnings) : Nat := b.nullable.length + b.first.length

theorem Beginnings.Sound.size_le {b : Beginnings} (h : b.Sound g) :
    b.size ≤ Nonterminal.all.length + firstDomain.length :=
  Nat.add_le_add h.nullable.sublist.length_le h.first.sublist.length_le

theorem visit_nullable (b : Beginnings) (p : Production) : (b.visit p).nullable =
    enlarge Nonterminal.all (fun n => p.lhs = n && allAmong b.nullable p.rhs) b.nullable := rfl

theorem visit_first (b : Beginnings) (p : Production) : (b.visit p).first =
    enlarge firstDomain (fun (n, k) => p.lhs = n && begins b.nullable b.first k p.rhs) b.first := by
  rw [Beginnings.visit]

theorem Beginnings.Sound.visit {b : Beginnings} (h : b.Sound g) {p : Production}
    (hp : p ∈ g.productions) : (b.visit p).Sound g where
  nullable := by
    rw [visit_nullable]
    refine h.nullable.enlarge fun n hn => ?_
    rw [Bool.and_eq_true, decide_eq_true_eq] at hn
    obtain ⟨rfl, hrhs⟩ := hn
    exact nullable_of_production hp (allAmong_mono h.nullable.mem hrhs)
  first := by
    rw [visit_first]
    refine h.first.enlarge fun (n, k) hn => ?_
    rw [Bool.and_eq_true, decide_eq_true_eq] at hn
    obtain ⟨rfl, hrhs⟩ := hn
    exact first_of_production hp (begins_mono h.nullable.mem h.first.mem hrhs)

theorem Beginnings.Sound.visit_grows {b : Beginnings} (h : b.Sound g) (p : Production) :
    b.visit p = b ∨ b.size < (b.visit p).size := by
  have hnullable : b.nullable.Sublist (b.visit p).nullable := sublist_enlarge h.nullable.sublist
  have hfirst : b.first.Sublist (b.visit p).first := sublist_enlarge h.first.sublist
  rcases enlarge_grows h.nullable.sublist with hsame | hlonger
  · rcases enlarge_grows h.first.sublist with hsame' | hlonger
    · exact .inl (congrArg₂ Beginnings.mk hsame hsame')
    · exact .inr (Nat.add_lt_add_of_le_of_lt hnullable.length_le hlonger)
  · exact .inr (Nat.add_lt_add_of_lt_of_le hlonger hfirst.length_le)

/-- Where no production adds anything, everything that the analysis finds is known. -/
theorem Beginnings.Sound.eq_beginnings {b : Beginnings} (h : b.Sound g)
    (hfixed : ∀ p ∈ g.productions, b.visit p = b) : b = g.beginnings := by
  have hnullable : b.nullable = g.nullable := by
    refine h.nullable.eq_closureOf (by simp) fun ns n hns hn => ?_
    obtain ⟨p, hp, hn⟩ := List.any_eq_true.mp hn
    rw [← hfixed p hp, visit_nullable]
    refine mem_enlarge.mpr ⟨Nonterminal.mem_all n, .inr ?_⟩
    rw [Bool.and_eq_true] at hn ⊢
    exact ⟨hn.1, allAmong_mono hns hn.2⟩
  have hfirst : b.first = g.first := by
    refine h.first.eq_closureOf (by simp) fun s (n, k) hs hn => ?_
    obtain ⟨p, hp, hn⟩ := List.any_eq_true.mp hn
    rw [← hfixed p hp, visit_first]
    refine mem_enlarge.mpr ⟨mem_firstDomain n k, .inr ?_⟩
    rw [Bool.and_eq_true] at hn ⊢
    exact ⟨hn.1, begins_mono (fun m hm => hnullable ▸ hm) hs hn.2⟩
  exact congrArg₂ Beginnings.mk hnullable hfirst

theorem settle_passFirst {fuel : Nat} (hfuel : Nonterminal.all.length + firstDomain.length ≤ fuel) :
    settle g.passFirst fuel ⟨[], []⟩ = g.beginnings := by
  have hstart : Beginnings.Sound g ⟨[], []⟩ := ⟨partOf_nil, partOf_nil⟩
  obtain ⟨hsound, hfixed⟩ := settle_foldl
    (fun p hp _ hb => ⟨Beginnings.Sound.visit hb hp, Beginnings.Sound.visit_grows hb p⟩)
    (fun _ hb => hb.size_le) hfuel hstart
  exact hsound.eq_beginnings hfixed

/-! ### Places -/

theorem mem_placesIn {lhs : Nonterminal} {place : Place} : ∀ {rhs : List Symbol},
    place ∈ placesIn lhs rhs ↔
      place.lhs = lhs ∧ ∃ u, rhs = u ++ .nonterminal place.label :: place.rest
  | [] => by simp [placesIn]
  | .terminal k :: rhs => by
      rw [placesIn, mem_placesIn]
      refine and_congr_right fun _ => ⟨?_, ?_⟩
      · rintro ⟨u, rfl⟩
        exact ⟨.terminal k :: u, rfl⟩
      · rintro ⟨u, hu⟩
        obtain ⟨-, hcons⟩ | ⟨w, rfl, rfl⟩ := List.cons_eq_append_iff.mp hu
        · cases hcons
        · exact ⟨w, rfl⟩
  | .nonterminal n :: rhs => by
      rw [placesIn, List.mem_cons, mem_placesIn]
      constructor
      · rintro (rfl | ⟨hlhs, u, rfl⟩)
        · exact ⟨rfl, [], rfl⟩
        · exact ⟨hlhs, .nonterminal n :: u, rfl⟩
      · rintro ⟨rfl, u, hu⟩
        obtain ⟨-, hcons⟩ | ⟨w, rfl, rfl⟩ := List.cons_eq_append_iff.mp hu
        · cases hcons
          exact .inl rfl
        · exact .inr ⟨rfl, w, rfl⟩

theorem mem_places {place : Place} : place ∈ g.places ↔ ∃ p ∈ g.productions, place.lhs = p.lhs ∧
    ∃ u, p.rhs = u ++ .nonterminal place.label :: place.rest := by
  simp only [places, List.mem_flatMap, mem_placesIn]

/-! ### Lookaheads -/

/-- What is known to follow is found by the analysis too, and the end of the input is known to follow the
    start symbol. -/
structure KnownToFollow (g : Grammar) (s : List (Nonterminal × Lookahead)) : Prop where
  part : PartOf followDomain g.follow s
  start : (g.start, .endOfInput) ∈ s

theorem knownToFollow_start : g.KnownToFollow [(g.start, .endOfInput)] where
  part := by
    refine ⟨?_, fun a ha => List.mem_singleton.mp ha ▸ follow_start⟩
    cases g.start <;> rfl
  start := List.mem_singleton_self _

theorem KnownToFollow.visitPlace {s : List (Nonterminal × Lookahead)} (h : g.KnownToFollow s)
    {place : Place} (hplace : place ∈ g.places) :
    g.KnownToFollow (g.beginnings.visitPlace s place) where
  part := by
    refine h.part.enlarge fun (n, l) hn => ?_
    rw [Bool.and_eq_true, decide_eq_true_eq, comesNext_iff] at hn
    obtain ⟨rfl, hnext⟩ := hn
    obtain ⟨p, hp, hlhs, u, hrhs⟩ := mem_places.mp hplace
    refine follow_of_production hp (followsIn_iff.mpr ⟨u, _, hrhs, ?_⟩)
    refine hnext.imp_right (And.imp_right fun hafter => ?_)
    rw [List.contains_iff_mem] at hafter ⊢
    exact hlhs ▸ h.part.mem _ hafter
  start := mem_enlarge.mpr ⟨mem_followDomain _ _, .inl h.start⟩

theorem KnownToFollow.eq_follow {s : List (Nonterminal × Lookahead)} (h : g.KnownToFollow s)
    (hfixed : ∀ place ∈ g.places, g.beginnings.visitPlace s place = s) : s = g.follow := by
  refine h.part.eq_closureOf (by simpa using h.start) fun t (n, l) ht hn => ?_
  obtain ⟨p, hp, hn⟩ := List.any_eq_true.mp hn
  obtain ⟨u, v, hrhs, hnext⟩ := followsIn_iff.mp hn
  have hplace : (⟨p.lhs, n, v⟩ : Place) ∈ g.places := mem_places.mpr ⟨p, hp, rfl, u, hrhs⟩
  rw [← hfixed _ hplace]
  refine mem_enlarge.mpr ⟨mem_followDomain n l, .inr ?_⟩
  rw [Bool.and_eq_true, comesNext_iff]
  refine ⟨decide_eq_true rfl, hnext.imp_right (And.imp_right fun hafter => ?_)⟩
  rw [List.contains_iff_mem] at hafter ⊢
  exact ht _ hafter

theorem settle_passFollow {fuel : Nat} (hfuel : followDomain.length ≤ fuel) :
    settle (g.passFollow g.beginnings) fuel [(g.start, .endOfInput)] = g.follow := by
  obtain ⟨hknown, hfixed⟩ := settle_foldl
    (fun _ hplace _ hs => ⟨KnownToFollow.visitPlace hs hplace, enlarge_grows hs.part.sublist⟩)
    (fun _ hs => hs.part.sublist.length_le) hfuel knownToFollow_start
  exact hknown.eq_follow hfixed

/-! ### The analysis -/

/-- The passes come to an end, with the selections of the analysis. -/
theorem analyse_eq {fuel : Nat}
    (hfuel : Nonterminal.all.length + firstDomain.length + followDomain.length ≤ fuel) :
    g.analyse fuel = (⟨g.nullable, g.first⟩, g.follow) := by
  have hfirst := settle_passFirst (g := g) (Nat.le_of_add_right_le hfuel)
  have hfollow := settle_passFollow (g := g) (Nat.le_of_add_left_le hfuel)
  rw [analyse, hfirst]
  exact congrArg (Prod.mk _) hfollow

end Grammar

end RecordSearch.Query
