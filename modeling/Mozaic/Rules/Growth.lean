import Mozaic.Rules.Arrivals

/-! What `repopulate` does: every occupied planet gets one more ship. -/
namespace Mozaic.Rules
open Rust Outcome

variable {F : Type}

/-- A planet after it built a ship, if somebody is there to build one. -/
def Planet.grown (p : Planet F) : Planet F :=
  if p.owner.isSome then
    { p with fleets := p.fleets.modifyHead fun f => { f with shipCount := f.shipCount + 1 } }
  else p

def PlanetWars.grown (s : PlanetWars F) : PlanetWars F :=
  { s with planets := s.planets.map Planet.grown }

theorem Planet.grown_of_owner {p : Planet F} {f : Fleet} {fleets : List Fleet}
    (hf : p.fleets = f :: fleets) (ho : f.owner.isSome) :
    p.grown = { p with fleets := { f with shipCount := f.shipCount + 1 } :: fleets } := by
  simp [grown, owner, hf, ho]

/-- Nothing grows on neutral and on empty planets. -/
theorem Planet.grown_of_neutral {p : Planet F} (h : p.owner = none) : p.grown = p := by
  simp [grown, h]

@[simp] theorem Planet.map_owner_grown (p : Planet F) :
    p.grown.fleets.map (·.owner) = p.fleets.map (·.owner) := by
  rw [grown]
  split
  · cases p.fleets <;> rfl
  · rfl

@[simp] theorem Planet.length_fleets_grown (p : Planet F) :
    p.grown.fleets.length = p.fleets.length := by
  rw [← List.length_map, map_owner_grown, List.length_map]

theorem Planet.repopulate_safe (p : Planet F) :
    Safe (fun e => e = .addOverflow .shipCount ∧ p.owner.isSome ∧ 2 ^ 64 ≤ p.shipCount + 1)
      (· = p.grown) p.repopulate := by
  rw [repopulate]
  split
  · rename_i ho
    rcases hf : p.fleets with - | ⟨f, fleets⟩
    · simp [owner, hf] at ho
    · have hfo : f.owner.isSome := by simpa [owner, hf] using ho
      rw [index_of_getElem? (List.getElem?_cons_zero ..), ok_bind]
      refine Safe.bind (P := (· = f.shipCount + 1)) ?_ ?_
      · exact checkedAdd_safe (fun h => ⟨rfl, ho, by simpa [shipCount, hf] using h⟩) fun _ => rfl
      · intro _ heq
        subst heq
        simp [grown_of_owner hf hfo]
  · rename_i ho
    exact (grown_of_neutral (by simpa using ho)).symm

/-- A planet is so full that it cannot build another ship. -/
def GrowthOverflow (s : PlanetWars F) (e : Panic) : Prop :=
  e = .addOverflow .shipCount ∧ ∃ p ∈ s.planets, p.owner.isSome ∧ 2 ^ 64 ≤ p.shipCount + 1

theorem PlanetWars.repopulate_safe (s : PlanetWars F) :
    Safe (GrowthOverflow s) (· = s.grown) s.repopulate := by
  rw [repopulate]
  refine Safe.bind (P := (· = s.planets.map Planet.grown)) ?_ ?_
  · refine Safe.weaken (Safe.mapM (T := fun p q => q = p.grown) fun p hp => ?_) fun l hl => ?_
    · exact p.repopulate_safe.mono (fun e he => ⟨he.1, p, hp, he.2⟩) fun _ h => h
    · have hmap : List.Forall₂ Eq (s.planets.map Planet.grown) l :=
        List.forall₂_map_left_iff.mpr (hl.imp fun _ _ h => h.symm)
      rw [List.forall₂_eq_eq_eq] at hmap
      exact hmap.symm
  · intro _ heq
    subst heq
    rfl

end Mozaic.Rules
