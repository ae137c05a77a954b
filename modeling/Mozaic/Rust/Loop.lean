import Mathlib

/-! Loops that end. The passes are counted down from a bound, so a loop computes,
and the bound is never reached. -/
namespace Mozaic.Rust

variable {σ ρ : Type}

/-- What a pass through the body of a loop comes to. -/
inductive Flow (σ ρ : Type) where
  | next (s : σ)
  | done (r : ρ)

/-- A loop of which every pass leaves less to do. -/
structure Loop (σ ρ : Type) where
  body : σ → Flow σ ρ
  rest : σ → Nat
  closer : ∀ s t, body s = .next t → rest t < rest s

namespace Loop
variable (l : Loop σ ρ)

/-- The result, if it takes no more than `fuel` passes. -/
def within : Nat → σ → Option ρ
  | 0, _ => none
  | fuel + 1, s =>
    match l.body s with
    | .next t => within fuel t
    | .done r => some r

/-- The rule for loops: what holds when the loop is left and goes back through each pass
holds of the state it starts in. -/
theorem within_rule {P : σ → ρ → Prop} (hdone : ∀ s r, l.body s = .done r → P s r)
    (hnext : ∀ s t r, l.body s = .next t → P t r → P s r) {fuel : Nat} {s : σ}
    (h : l.rest s < fuel) : ∃ r, l.within fuel s = some r ∧ P s r := by
  induction fuel generalizing s with
  | zero => exact absurd h (Nat.not_lt_zero _)
  | succ fuel ih =>
    cases hbody : l.body s with
    | done r => exact ⟨r, by simp [within, hbody], hdone s r hbody⟩
    | next t =>
      have hlt := l.closer s t hbody
      obtain ⟨r, hr, hP⟩ := ih (s := t) (by omega)
      refine ⟨r, ?_, hnext s t r hbody hP⟩
      simp [within, hbody, hr]

theorem within_isSome {fuel : Nat} {s : σ} (h : l.rest s < fuel) : (l.within fuel s).isSome := by
  obtain ⟨r, hr, -⟩ := l.within_rule (P := fun _ _ => True) (fun _ _ _ => trivial)
    (fun _ _ _ _ _ => trivial) h
  simp [hr]

def run (s : σ) : ρ := (l.within (l.rest s + 1) s).get (l.within_isSome (Nat.lt_succ_self _))

theorem run_rule {P : σ → ρ → Prop} (hdone : ∀ s r, l.body s = .done r → P s r)
    (hnext : ∀ s t r, l.body s = .next t → P t r → P s r) (s : σ) : P s (l.run s) := by
  obtain ⟨r, hr, hP⟩ := l.within_rule hdone hnext (Nat.lt_succ_self (l.rest s))
  have hrun : l.run s = r := by simp [run, hr]
  rw [hrun]
  exact hP

/-- Any number of passes that is enough comes to the same. -/
theorem run_eq_of_within (fuel : Nat) {s : σ} {r : ρ} (h : l.within fuel s = some r) :
    l.run s = r := by
  have hunique := l.run_rule (P := fun s r => ∀ fuel r', l.within fuel s = some r' → r' = r)
    ?_ ?_ s
  · exact (hunique fuel r h).symm
  · intro s r hbody fuel r' hr'
    cases fuel with
    | zero => cases hr'
    | succ fuel =>
      rw [within, hbody] at hr'
      exact (Option.some.inj hr').symm
  · intro s t r hbody ih fuel r' hr'
    cases fuel with
    | zero => cases hr'
    | succ fuel =>
      rw [within, hbody] at hr'
      exact ih fuel r' hr'

theorem run_of_next {s t : σ} (h : l.body s = .next t) : l.run s = l.run t := by
  obtain ⟨r, hr⟩ := Option.isSome_iff_exists.mp (l.within_isSome (Nat.lt_succ_self (l.rest t)))
  rw [l.run_eq_of_within _ hr]
  apply l.run_eq_of_within (l.rest t + 1 + 1)
  rw [within, h]
  exact hr

end Loop
end Mozaic.Rust
