import Mozaic.Game.Turn
import Mozaic.Game.View

/-! A map, loaded and written out again. An owner is kept in the fleet of a planet, so a
planet has to have one. -/
namespace Mozaic
open Rust Rules Outcome

variable {F : Type}

namespace Proto.Planet

/-- The planet in a game of `n` players: what belongs to anybody else is nobody's. -/
def among (n : Nat) (planet : Planet F) : Planet F :=
  { planet with owner := planet.owner.filter fun k => 1 ≤ k ∧ k ≤ n }

/-- The owner gets through: there is no player 0, and a player's planet has ships. -/
def Loadable (n : Nat) (planet : Planet F) : Prop :=
  planet.owner ≠ some 0 ∧ ∀ k, planet.owner = some k → k ≤ n → 0 < planet.shipCount

/-- The planet as it enters a game of `n` players. -/
def loaded (n num : Nat) (planet : Planet F) : Rules.Planet F where
  id := num
  name := planet.name
  fleets :=
    if planet.shipCount > 0 then
      [⟨planet.owner.bind fun k => if k - 1 < n then some (k - 1) else none, planet.shipCount⟩]
    else []
  x := planet.x
  y := planet.y

end Proto.Planet

theorem Rules.Config.loadPlanet_safe (n num : Nat) (planet : Proto.Planet F) :
    Safe (fun _ => planet.owner = some 0)
      (fun p => planet.owner ≠ some 0 ∧ planet.loaded n num = p)
      (Config.loadPlanet n planet num) := by
  rw [loadPlanet]
  cases ho : planet.owner with
  | none => exact ⟨by simp, by simp [Proto.Planet.loaded, ho]⟩
  | some k =>
    by_cases hk : 1 ≤ k
    · simp only [checkedSub_of_le hk, ok_bind, pure_bind]
      exact ⟨by simpa using Nat.one_le_iff_ne_zero.mp hk, by simp [Proto.Planet.loaded, ho]⟩
    · have hzero : k = 0 := by omega
      simp [checkedSub, hzero]

/-- Loading a map only fails where a planet belongs to player 0. -/
theorem Rules.Config.createGame_loaded [External F] {c : Config} {map : Proto.Map F}
    (hmap : c.readMap = some map) (n : Nat) :
    Safe (fun _ => ∃ planet ∈ map.planets, planet.owner = some 0)
      (fun s : PlanetWars F => (∀ planet ∈ map.planets, planet.owner ≠ some 0) ∧
        s.planets = map.planets.zipIdx.map fun x => x.1.loaded n x.2)
      (c.createGame n) := by
  rw [createGame, loadMap, hmap]
  refine Safe.bind (P := fun planets =>
    List.Forall₂ (fun x p => x.1.owner ≠ some 0 ∧ x.1.loaded n x.2 = p) map.planets.zipIdx planets)
    (Safe.mapM fun x hx => ?_) fun planets hplanets => ?_
  · refine (loadPlanet_safe n x.2 x.1).mono (fun _ he => ⟨x.1, ?_, he⟩) fun _ h => h
    exact List.fst_mem_of_mem_zipIdx hx
  · obtain ⟨howners, hloaded⟩ := (List.forall₂_and_left _ _).mp hplanets
    refine ⟨fun planet hplanet => ?_, ?_⟩
    · obtain ⟨i, hi⟩ := List.mem_iff_getElem?.mp hplanet
      exact howners (planet, i) (List.mk_mem_zipIdx_iff_getElem?.mpr hi)
    · rw [← List.forall₂_map_left_iff, List.forall₂_eq_eq_eq] at hloaded
      exact hloaded.symm

section Loading
variable {n : Nat} {planet : Proto.Planet F}

theorem Proto.Planet.shipCount_loaded (planet : Proto.Planet F) (n num : Nat) :
    (planet.loaded n num).shipCount = planet.shipCount := by
  rw [loaded, Rules.Planet.shipCount]
  split
  · rfl
  · exact (Nat.eq_zero_of_not_pos ‹_›).symm

/-- The owner of a loaded planet is known by its fleet. -/
theorem Proto.Planet.owner_loaded (planet : Proto.Planet F) (n num : Nat) :
    (planet.loaded n num).owner = if 0 < planet.shipCount then
      planet.owner.bind fun k => if k - 1 < n then some (k - 1) else none else none := by
  rw [loaded, Rules.Planet.owner]
  split <;> rfl

/-- An owner number that is written out is the one in the file, if there are ships. -/
theorem map_rotate_loaded_iff {k : Nat} (hk : k ≠ 0) :
    (if 0 < planet.shipCount then
        (some k).bind fun k => if k - 1 < n then some (k - 1) else none
      else none).map (rotate n 0) = (some k).filter (fun k => 1 ≤ k ∧ k ≤ n) ↔
      (k ≤ n → 0 < planet.shipCount) := by
  have hfilter : (some k).filter (fun k => decide (1 ≤ k ∧ k ≤ n)) =
      if k ≤ n then some k else none := by
    simp [Option.filter_some, Nat.one_le_iff_ne_zero.mpr hk]
  rw [hfilter]
  by_cases hn : k ≤ n
  · have hrotate : rotate n 0 (k - 1) = k := by
      rw [rotate, Nat.add_zero, Nat.mod_eq_of_lt (by omega)]
      omega
    have hlt : k - 1 < n := by omega
    by_cases hpos : 0 < planet.shipCount
    · simp [hn, hlt, hpos, hrotate]
    · simp [hn, hpos]
  · have hge : ¬ k - 1 < n := by omega
    simp [hn, hge]

/-- Written out, a loaded planet is what the file said of it. -/
theorem Proto.Planet.view_loaded_iff (h : planet.owner ≠ some 0) (num : Nat) :
    (planet.loaded n num).view n 0 = planet.among n ↔ planet.Loadable n := by
  have hview : (planet.loaded n num).view n 0 = planet.among n ↔
      (planet.loaded n num).owner.map (rotate n 0) =
        planet.owner.filter fun k => 1 ≤ k ∧ k ≤ n := by
    simp only [Rules.Planet.view, among, shipCount_loaded, mk.injEq]
    simp [loaded]
  rw [hview, owner_loaded, Loadable]
  cases ho : planet.owner with
  | none => simp
  | some k =>
    rw [ho] at h
    rw [map_rotate_loaded_iff fun hzero => h (congrArg some hzero)]
    simp only [ne_eq, h, not_false_iff, true_and, Option.some.injEq, forall_eq']

end Loading

/-- Creating the game of `n` players from the map, and writing the result out, gives the
planets of the map back. -/
def Preserved [External F] (c : Config) (n : Nat) (map : Proto.Map F) : Prop :=
  ∃ (s : PlanetWars F) (st : Proto.State F), c.createGame n = .ok s ∧ serialize s = .ok st ∧
    st.planets = map.planets.map (·.among n)

theorem preserved_iff [External F] {c : Config} {map : Proto.Map F} (hmap : c.readMap = some map)
    (n : Nat) : Preserved c n map ↔ ∀ planet ∈ map.planets, planet.Loadable n := by
  have hcreate := Config.createGame_loaded hmap n
  have hcreated := c.createGame_safe (F := F) n
  cases hc : c.createGame (F := F) n with
  | error e =>
    obtain ⟨planet, hplanet, howner⟩ := hcreate.of_error hc
    constructor
    · rintro ⟨s, st, hs, -⟩
      rw [hc] at hs
      cases hs
    · intro hall
      exact absurd howner (hall planet hplanet).1
  | ok s =>
    obtain ⟨howners, hplanets⟩ := hcreate.of_ok hc
    have hs := hcreated.of_ok hc
    have hview : (s.view 0).planets =
        map.planets.map fun planet => (planet.loaded n 0).view n 0 := by
      have hplayers : s.players.length = n := by rw [hs.players, List.length_map, List.length_range]
      rw [PlanetWars.view, hplayers, hplanets, List.map_map]
      conv_rhs => rw [← List.zipIdx_map_fst 0 map.planets, List.map_map]
      rfl
    constructor
    · rintro ⟨s', st, hs', hst, hpreserved⟩ planet hplanet
      rw [hc] at hs'
      cases hs'
      rw [serialize_eq hs.settled.toValid] at hst
      cases hst
      rw [hview] at hpreserved
      exact (planet.view_loaded_iff (howners planet hplanet) 0).mp
        (List.map_inj_left.mp hpreserved planet hplanet)
    · intro hall
      refine ⟨s, s.view 0, hc, serialize_eq hs.settled.toValid, ?_⟩
      rw [hview]
      exact List.map_congr_left fun planet hplanet =>
        (planet.view_loaded_iff (howners planet hplanet) 0).mpr (hall planet hplanet)

/-! ## Two maps -/

section Colonies

/-- A server with one map, the file of which has this text. -/
@[reducible] def serving (text : String) (map : Proto.Map Int) : External Int where
  readFile path := if path = "m" then some text else none
  mapFromStr text' := if text' = text then some map else none
  configFromSlice _ := none
  actionFromSlice _ := .error "expected value at line 1 column 1"
  decodeLobbyMessage _ := none

def colonyText : String :=
  "\x7b\"planets\":[\x7b\"ship_count\":6,\"x\":0,\"y\":0,\"owner\":1,\"name\":\"a\"\x7d," ++
    "\x7b\"ship_count\":0,\"x\":1,\"y\":2,\"owner\":null,\"name\":\"b\"\x7d," ++
    "\x7b\"ship_count\":0,\"x\":3,\"y\":4,\"owner\":3,\"name\":\"c\"\x7d]\x7d"

/-- Besides player 1's planet there is a deserted one, and one of a player who is not here. -/
def colonies : Proto.Map Int :=
  ⟨[⟨6, 0, 0, some 1, "a"⟩, ⟨0, 1, 2, none, "b"⟩, ⟨0, 3, 4, some 3, "c"⟩]⟩

theorem preserved_colonies : @Preserved Int (serving colonyText colonies) ⟨"m", 9⟩ 2 colonies := by
  have hread : @Config.readMap Int (serving colonyText colonies) ⟨"m", 9⟩ = some colonies := by
    decide +kernel
  refine (@preserved_iff Int (serving colonyText colonies) _ _ hread 2).mpr ?_
  simp [colonies, Proto.Planet.Loadable]

def outpostText : String :=
  "\x7b\"planets\":[\x7b\"ship_count\":0,\"x\":0,\"y\":0,\"owner\":1,\"name\":\"a\"\x7d]\x7d"

/-- Player 1 owns a planet, but has no ships on it. -/
def outpost : Proto.Map Int := ⟨[⟨0, 0, 0, some 1, "a"⟩]⟩

theorem not_preserved_outpost :
    @Config.readMap Int (serving outpostText outpost) ⟨"m", 9⟩ = some outpost ∧
      ¬ @Preserved Int (serving outpostText outpost) ⟨"m", 9⟩ 2 outpost := by
  refine ⟨by decide +kernel, ?_⟩
  rintro ⟨s, st, hs, hst, hplanets⟩
  have hloaded : (@Config.createGame Int (serving outpostText outpost) ⟨"m", 9⟩ 2 >>=
      serialize).toOption.map (·.planets) = some [⟨0, 0, 0, none, "a"⟩] := by
    decide +kernel
  rw [hs, ok_bind, hst] at hloaded
  cases hloaded.symm.trans (congrArg some hplanets)

end Colonies

end Mozaic
