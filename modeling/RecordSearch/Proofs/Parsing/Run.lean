import Mathlib.Logic.Relation
import RecordSearch.Query.Parser

/-! Runs of the parser, whatever the table and the policy are. A run that ends keeps its answer under
    more fuel, so there is one answer; what every step keeps holds where the run ends
    (`run_invariant`); and a number that every step makes smaller is fuel enough
    (`run_of_decreasing`). -/

namespace RecordSearch.Query

namespace Configuration

variable {σ : Type} {t : Table} {policy : Option (Policy σ)}

/-- One configuration is reached from another by steps. -/
def Reaches (t : Table) (policy : Option (Policy σ)) : Configuration σ → Configuration σ → Prop :=
  Relation.ReflTransGen fun c c' => c.step t policy = .next c'

theorem Reaches.refl (c : Configuration σ) : c.Reaches t policy c := Relation.ReflTransGen.refl

theorem Reaches.trans {a b c : Configuration σ} (h : a.Reaches t policy b)
    (h' : b.Reaches t policy c) : a.Reaches t policy c := Relation.ReflTransGen.trans h h'

theorem Reaches.tail {a b c : Configuration σ} (h : a.Reaches t policy b)
    (h' : b.step t policy = .next c) : a.Reaches t policy c := Relation.ReflTransGen.tail h h'

theorem Reaches.single {c c' : Configuration σ} (h : c.step t policy = .next c') :
    c.Reaches t policy c' := (refl c).tail h

theorem run_next {c c' : Configuration σ} (h : c.step t policy = .next c') (fuel : Nat) :
    c.run t policy (fuel + 1) = c'.run t policy fuel := by rw [run, h]

theorem run_done {c : Configuration σ} {result : Except ParseError Tree} {m : σ}
    (h : c.step t policy = .done result m) (fuel : Nat) :
    c.run t policy (fuel + 1) = some (result, m) := by rw [run, h]

theorem run_succ {c : Configuration σ} {r : Except ParseError Tree × σ} :
    ∀ {fuel : Nat}, c.run t policy fuel = some r → c.run t policy (fuel + 1) = some r := by
  intro fuel
  induction fuel generalizing c with
  | zero => intro h; simp [run] at h
  | succ fuel ih =>
    intro h
    cases hstep : c.step t policy with
    | next c' =>
      rw [run_next hstep] at h ⊢
      exact ih h
    | done result m =>
      rw [run_done hstep] at h ⊢
      exact h

/-- More fuel does not change an answer. -/
theorem run_mono {c : Configuration σ} {r : Except ParseError Tree × σ} {fuel fuel' : Nat}
    (h : c.run t policy fuel = some r) (hle : fuel ≤ fuel') : c.run t policy fuel' = some r := by
  induction hle with
  | refl => exact h
  | step _ ih => exact run_succ ih

theorem run_unique {c : Configuration σ} {r r' : Except ParseError Tree × σ} {fuel fuel' : Nat}
    (h : c.run t policy fuel = some r) (h' : c.run t policy fuel' = some r') : r = r' := by
  have hl := run_mono h (Nat.le_max_left fuel fuel')
  have hr := run_mono h' (Nat.le_max_right fuel fuel')
  exact Option.some.inj (hl.symm.trans hr)

theorem Reaches.run {c c' : Configuration σ} (h : c.Reaches t policy c') {fuel : Nat}
    {r : Except ParseError Tree × σ} (hr : c'.run t policy fuel = some r) :
    ∃ fuel', c.run t policy fuel' = some r := by
  induction h using Relation.ReflTransGen.head_induction_on with
  | refl => exact ⟨fuel, hr⟩
  | head hstep _ ih =>
    obtain ⟨fuel', hr'⟩ := ih
    exact ⟨fuel' + 1, by rw [run_next hstep, hr']⟩

/-- What is reached gives the answer too. -/
theorem Reaches.run_eq {c c' : Configuration σ} (h : c.Reaches t policy c') {fuel : Nat}
    {r : Except ParseError Tree × σ} (hr : c.run t policy fuel = some r) :
    ∃ fuel', c'.run t policy fuel' = some r := by
  induction h with
  | refl => exact ⟨fuel, hr⟩
  | tail _ hstep ih =>
    obtain ⟨fuel', hr'⟩ := ih
    cases fuel' with
    | zero => simp [Configuration.run] at hr'
    | succ fuel' => exact ⟨fuel', (run_next hstep fuel').symm.trans hr'⟩

/-- What every step keeps holds of what is reached. -/
theorem Reaches.invariant {P : Configuration σ → Prop}
    (hstep : ∀ c c', P c → c.step t policy = .next c' → P c') {c c' : Configuration σ}
    (h : c.Reaches t policy c') (hc : P c) : P c' := by
  induction h with
  | refl => exact hc
  | tail _ hs ih => exact hstep _ _ ih hs

/-- What every step keeps holds where a run ends. -/
theorem run_invariant {P : Configuration σ → Prop}
    (hstep : ∀ c c', P c → c.step t policy = .next c' → P c') {fuel : Nat} {c : Configuration σ}
    {result : Except ParseError Tree} {m : σ} (hc : P c)
    (hrun : c.run t policy fuel = some (result, m)) :
    ∃ c', P c' ∧ c'.step t policy = .done result m := by
  induction fuel generalizing c with
  | zero => simp [Configuration.run] at hrun
  | succ fuel ih =>
    cases hs : c.step t policy with
    | next c' =>
      rw [run_next hs] at hrun
      exact ih (hstep c c' hc hs) hrun
    | done result' m' =>
      rw [run_done hs, Option.some.injEq, Prod.mk.injEq] at hrun
      obtain ⟨rfl, rfl⟩ := hrun
      exact ⟨c, hc, hs⟩

/-- What every step makes smaller is fuel enough. -/
theorem run_of_decreasing {P : Configuration σ → Prop} {measure : Configuration σ → Nat}
    (hstep : ∀ c c', P c → c.step t policy = .next c' → P c' ∧ measure c' < measure c) :
    ∀ {fuel : Nat} {c : Configuration σ}, P c → measure c < fuel →
      ∃ r, c.run t policy fuel = some r
  | 0, c, _, hlt => absurd hlt (Nat.not_lt_zero _)
  | fuel + 1, c, hc, hlt => by
      cases hs : c.step t policy with
      | next c' =>
        obtain ⟨hc', hless⟩ := hstep c c' hc hs
        rw [run_next hs]
        exact run_of_decreasing hstep hc' (by omega)
      | done result m => exact ⟨_, run_done hs fuel⟩

end Configuration

end RecordSearch.Query
