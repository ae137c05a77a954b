import Mozaic.Rules.Arrivals

/-! The expedition loop as a map on the expeditions, and what it delivers. -/
namespace Mozaic.Rules
open Rust Outcome

variable {F : Type}

/-- From `s` to `t` the expeditions with more than a turn to go came a turn closer, and the
others were delivered to their targets, one after the other and each once. -/
structure Delivers (s t : PlanetWars F) (arrived : List Expedition) : Prop where
  expeditions : t.expeditions.Perm ((s.expeditions.filter (2 ≤ ·.turnsRemaining)).map fun e =>
    { e with turnsRemaining := e.turnsRemaining - 1 })
  landed : arrived.Perm (s.expeditions.filter (·.turnsRemaining ≤ 1))
  planets : arrived.foldlM deliver s.planets = .ok t.planets

theorem landing_iff (e : Expedition) : e.landing = decide (e.turnsRemaining ≤ 1) := rfl

theorem not_landing_iff (e : Expedition) : (!e.landing) = decide (2 ≤ e.turnsRemaining) := by
  rw [landing_iff, ← decide_not, decide_eq_decide]
  omega

/-- Landing expeditions change planets, and the others only expeditions and players. -/
theorem foldlM_visit {es : List Expedition} {s t : PlanetWars F}
    (h : es.foldlM PlanetWars.visit s = .ok t) :
    t.expeditions = s.expeditions ++ (es.filter (!·.landing)).map Expedition.advance ∧
      (es.filter (·.landing)).foldlM deliver s.planets = .ok t.planets := by
  induction es generalizing s with
  | nil =>
    cases h
    exact ⟨(List.append_nil _).symm, rfl⟩
  | cons e es ih =>
    rw [List.foldlM_cons] at h
    obtain ⟨u, hvisit, hrest⟩ := bind_eq_ok.mp h
    obtain ⟨hexpeditions, hplanets⟩ := ih hrest
    rw [PlanetWars.visit] at hvisit
    by_cases hland : e.landing = true
    · rw [if_pos hland] at hvisit
      obtain ⟨planets, hdeliver, hu⟩ := bind_eq_ok.mp hvisit
      cases hu
      refine ⟨by simpa [hland] using hexpeditions, ?_⟩
      rw [List.filter_cons_of_pos hland, List.foldlM_cons, hdeliver, ok_bind]
      exact hplanets
    · rw [if_neg hland] at hvisit
      obtain ⟨players, -, hu⟩ := bind_eq_ok.mp hvisit
      cases hu
      refine ⟨by simpa [hland] using hexpeditions, ?_⟩
      rw [List.filter_cons_of_neg hland]
      exact hplanets

/-- Wherever swap-removal moves them, no expedition is passed over and none comes twice. -/
theorem PlanetWars.stepExpeditions_delivers {s t : PlanetWars F} (h : s.stepExpeditions = .ok t) :
    ∃ arrived, Delivers s t arrived := by
  have hperm := sweepOrder_perm Expedition.landing s.expeditions
  rw [stepExpeditions_eq] at h
  obtain ⟨hexpeditions, hplanets⟩ := foldlM_visit h
  refine ⟨(sweepOrder Expedition.landing s.expeditions).filter (·.landing), ?_, ?_, hplanets⟩
  · rw [hexpeditions, List.nil_append]
    simp only [not_landing_iff]
    exact (hperm.filter _).map _
  · simp only [landing_iff]
    exact hperm.filter _

end Mozaic.Rules
