import Mozaic.Game.Invariant
import Mozaic.Rules.Serializer

/-! What the serializer writes about a valid state, and how what a player is sent
relates to what is logged: the same state, with the players renumbered. -/
namespace Mozaic
open Rust Rules Outcome

variable {F : Type}

/-- The number of player `i` among `n`, rotated by `offset`. -/
def rotate (n offset : Nat) (i : PlayerId) : Nat := (i + offset) % n + 1

def Rules.Planet.view (n offset : Nat) (p : Planet F) : Proto.Planet F where
  shipCount := p.shipCount
  x := p.x
  y := p.y
  owner := p.owner.map (rotate n offset)
  name := p.name

def planetName (planets : List (Planet F)) (i : Nat) : String := (planets[i]?.map (·.name)).getD ""

def Rules.Expedition.view (planets : List (Planet F)) (n offset : Nat) (e : Expedition) :
    Proto.Expedition where
  id := e.id
  shipCount := e.fleet.shipCount
  origin := planetName planets e.origin
  destination := planetName planets e.target
  owner := (e.fleet.owner.map (rotate n offset)).getD 0
  turnsRemaining := e.turnsRemaining

/-- The state as a message, with player numbers rotated by `offset`. -/
def Rules.PlanetWars.view (s : PlanetWars F) (offset : Nat) : Proto.State F where
  planets := s.planets.map (Planet.view s.players.length offset)
  expeditions := s.expeditions.map (Expedition.view s.planets s.players.length offset)

/-! ## The serializer -/

private theorem mapM_eq_map {α β : Type} {l : List α} {f : α → Except Panic β} {g : α → β}
    (h : ∀ a ∈ l, f a = .ok (g a)) : l.mapM f = .ok (l.map g) := by
  induction l with
  | nil => rfl
  | cons a l ih =>
    rw [List.mapM_cons, h a List.mem_cons_self, ih fun b hb => h b (List.mem_cons_of_mem a hb)]
    rfl

private theorem playerNum_eq (s : PlanetWars F) (offset : Nat) {i : PlayerId}
    (hi : i < s.players.length) :
    Serializer.playerNum ⟨s, offset⟩ i = .ok (rotate s.players.length offset i) := by
  rw [Serializer.playerNum, checkedRem_of_pos (Nat.zero_lt_of_lt hi)]
  rfl

/-- Serializing a valid state does not fail. -/
theorem serializeRotated_eq {s : PlanetWars F} (hs : Valid s) (offset : Nat) :
    serializeRotated s offset = .ok (s.view offset) := by
  have hplanets : s.planets.mapM (Serializer.serializePlanet ⟨s, offset⟩) =
      .ok (s.planets.map (Planet.view s.players.length offset)) := by
    refine mapM_eq_map fun p hp => ?_
    unfold Serializer.serializePlanet Planet.view
    cases ho : p.owner with
    | none => rfl
    | some i =>
      obtain ⟨f, hf, hfo⟩ := Planet.owner_mem ho
      simp [playerNum_eq s offset (hs.owners p hp f hf i hfo), pure, Except.pure]
  have hexpeditions : s.expeditions.mapM (Serializer.serializeExpedition ⟨s, offset⟩) =
      .ok (s.expeditions.map (Expedition.view s.planets s.players.length offset)) := by
    refine mapM_eq_map fun e he => ?_
    obtain ⟨⟨i, ho, hi⟩, horigin, htarget, _⟩ := hs.expeditions e he
    have h₁ := List.getElem?_eq_getElem horigin
    have h₂ := List.getElem?_eq_getElem htarget
    simp [Serializer.serializeExpedition, Expedition.view, planetName, ho,
      playerNum_eq s offset hi, index_of_getElem? h₁, index_of_getElem? h₂, h₁, h₂, pure,
      Except.pure]
  rw [serializeRotated, Serializer.serializeState, hplanets, hexpeditions]
  rfl

theorem serialize_eq {s : PlanetWars F} (hs : Valid s) : serialize s = .ok (s.view 0) :=
  serializeRotated_eq hs 0

/-! ## Renumbering -/

/-- Player number `k`, of `n` players, as player `p` knows it. -/
def renumber (n p k : Nat) : Nat := (((k : Int) - 1 - p) % n).toNat + 1

/-- A state with every owner number replaced. -/
def relabel (f : Nat → Nat) (s : Proto.State F) : Proto.State F where
  planets := s.planets.map fun p => { p with owner := p.owner.map f }
  expeditions := s.expeditions.map fun e => { e with owner := f e.owner }

theorem rotate_eq_renumber {n p i : Nat} (hi : i < n) (hp : p < n) :
    rotate n (n - p) i = renumber n p (rotate n 0 i) := by
  have hcast : ((i + (n - p) : Nat) : Int) = (i : Int) - p + n := by omega
  have hrot : rotate n 0 i = i + 1 := by simp [rotate, Nat.mod_eq_of_lt hi]
  have hmod : (((i + (n - p)) % n : Nat) : Int) = ((i : Int) - p) % n := by
    rw [Int.natCast_emod, hcast, Int.add_emod_right]
  have hk : ((i + 1 : Nat) : Int) - 1 - p = (i : Int) - p := by omega
  rw [hrot, renumber, hk, ← hmod, Int.toNat_natCast, rotate]

/-- A player is sent what is logged, with every owner number replaced. -/
theorem view_eq_relabel {s : PlanetWars F} (hs : Valid s) {p : PlayerId}
    (hp : p < s.players.length) :
    s.view (s.players.length - p) = relabel (renumber s.players.length p) (s.view 0) := by
  simp only [PlanetWars.view, relabel, List.map_map, Proto.State.mk.injEq]
  refine ⟨List.map_congr_left fun q hq => ?_, List.map_congr_left fun e he => ?_⟩
  · simp only [Planet.view, Function.comp_apply, Option.map_map, Proto.Planet.mk.injEq, true_and,
      and_true]
    cases ho : q.owner with
    | none => rfl
    | some i =>
      obtain ⟨f, hf, hfo⟩ := Planet.owner_mem ho
      exact congrArg some (rotate_eq_renumber (hs.owners q hq f hf i hfo) hp)
  · obtain ⟨i, ho, hi⟩ := (hs.expeditions e he).owner
    simp only [Expedition.view, Function.comp_apply, ho, Option.map_some, Option.getD_some,
      rotate_eq_renumber hi hp]

/-- Every player sees itself as number 1. -/
theorem renumber_self (n p : Nat) : renumber n p (p + 1) = 1 := by
  simp [renumber]

/-- Renumbering confuses no two players. -/
theorem renumber_bijOn {n p : Nat} (hp : p < n) :
    Set.BijOn (renumber n p) (Set.Icc 1 n) (Set.Icc 1 n) := by
  have hn : (0 : Int) < n := by omega
  have hmaps : Set.MapsTo (renumber n p) (Set.Icc 1 n) (Set.Icc 1 n) := by
    intro k _
    have hnn := Int.emod_nonneg ((k : Int) - 1 - p) (Int.ne_of_gt hn)
    have hlt := Int.emod_lt_of_pos ((k : Int) - 1 - p) hn
    simp only [renumber, Set.mem_Icc]
    omega
  have hinj : Set.InjOn (renumber n p) (Set.Icc 1 n) := by
    intro j hj k hk h
    have hj' := Int.emod_nonneg ((j : Int) - 1 - p) (Int.ne_of_gt hn)
    have hk' := Int.emod_nonneg ((k : Int) - 1 - p) (Int.ne_of_gt hn)
    simp only [renumber, Set.mem_Icc] at hj hk h
    have hmod : (j : Int) - 1 - p ≡ (k : Int) - 1 - p [ZMOD n] := by
      rw [Int.ModEq]
      omega
    have hzero := Int.eq_zero_of_abs_lt_dvd hmod.dvd (abs_lt.mpr (by constructor <;> omega))
    omega
  refine ⟨hmaps, hinj, ?_⟩
  have hcoe : Set.Icc 1 n = (Finset.Icc 1 n : Set Nat) := (Finset.coe_Icc 1 n).symm
  rw [hcoe] at hmaps hinj ⊢
  exact Finset.surjOn_of_injOn_of_card_le _ hmaps hinj (Nat.le_refl _)

end Mozaic
