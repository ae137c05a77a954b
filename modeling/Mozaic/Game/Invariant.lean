import Mozaic.Game.Execution
import Mozaic.Rules.Growth
import Mozaic.Rules.Step

/-! What holds of a game in the middle of a turn, and what more holds between turns. -/
namespace Mozaic
open Rust Rules Network Outcome

variable {F : Type}

/-- In a game of `players` and `planets`, `e` belongs to somebody and leads somewhere. -/
structure ValidExpedition (players planets : Nat) (e : Expedition) : Prop where
  owner : ∃ i, e.fleet.owner = some i ∧ i < players
  origin : e.origin < planets
  target : e.target < planets
  ships : 0 < e.fleet.shipCount

theorem ValidExpedition.addressed {players planets : Nat} {e : Expedition}
    (h : ValidExpedition players planets e) : Addressed players planets e := by
  obtain ⟨i, ho, hi⟩ := h.owner
  refine ⟨h.target, fun p hp => ?_⟩
  rw [ho] at hp
  exact Option.some.inj hp ▸ hi

/-- A state while commands are executed: a turn's combat is over, the next one is
still to come. -/
structure Valid (s : PlanetWars F) : Prop where
  fleets : ∀ p ∈ s.planets, p.fleets.length ≤ 1
  owners : OwnersBelow s.players.length s.planets
  expeditions : ∀ e ∈ s.expeditions, ValidExpedition s.players.length s.planets.length e
  idsDistinct : (s.expeditions.map (·.id)).Nodup
  idsBelow : ∀ e ∈ s.expeditions, e.id < s.expeditionNum
  playerIds : s.players.map (·.id) = List.range s.players.length

/-- A state between two turns. -/
structure Settled (s : PlanetWars F) : Prop extends Valid s where
  flying : ∀ e ∈ s.expeditions, 1 ≤ e.turnsRemaining

theorem Valid.addressed {s : PlanetWars F} (h : Valid s) :
    ∀ e ∈ s.expeditions, Addressed s.players.length s.planets.length e :=
  fun e he => (h.expeditions e he).addressed

/-- Who owns the fleets, and how many there are, is all `Valid` asks of planets. -/
private theorem Valid.of_planets {s t : PlanetWars F} (h : Valid s)
    (howners : ∀ p ∈ t.planets, ∃ q ∈ s.planets, p.fleets.map (·.owner) = q.fleets.map (·.owner))
    (hcount : t.planets.length = s.planets.length) (hplayers : t.players = s.players)
    (hexp : t.expeditions = s.expeditions) (hnum : t.expeditionNum = s.expeditionNum) :
    Valid t where
  fleets := fun p hp => by
    obtain ⟨q, hq, ho⟩ := howners p hp
    have := congrArg List.length ho
    simp only [List.length_map] at this
    exact this ▸ h.fleets q hq
  owners := fun p hp f hf o ho => by
    obtain ⟨q, hq, hmap⟩ := howners p hp
    have hm : f.owner ∈ q.fleets.map (·.owner) := hmap ▸ List.mem_map_of_mem hf
    obtain ⟨f', hf', hfo⟩ := List.mem_map.mp hm
    exact hplayers ▸ h.owners q hq f' hf' o (hfo.trans ho)
  expeditions := by
    rw [hexp, hplayers, hcount]
    exact h.expeditions
  idsDistinct := hexp ▸ h.idsDistinct
  idsBelow := by
    rw [hexp, hnum]
    exact h.idsBelow
  playerIds := hplayers ▸ h.playerIds

theorem Valid.grown {s : PlanetWars F} (h : Valid s) : Valid s.grown := by
  refine h.of_planets (fun p hp => ?_) (by simp [PlanetWars.grown]) rfl rfl rfl
  obtain ⟨q, hq, rfl⟩ := List.mem_map.mp hp
  exact ⟨q, hq, q.map_owner_grown⟩

theorem map_owner_depart {planets : List (Planet F)} {e : Expedition} {p : Planet F}
    (hp : p ∈ depart planets e) :
    ∃ q ∈ planets, p.fleets.map (·.owner) = q.fleets.map (·.owner) := by
  obtain ⟨i, hi⟩ := List.mem_iff_getElem?.mp hp
  rw [getElem?_depart] at hi
  split at hi
  · obtain ⟨q, hq, rfl⟩ := Option.map_eq_some_iff.mp hi
    refine ⟨q, List.mem_of_getElem? hq, ?_⟩
    rw [Planet.send]
    cases q.fleets <;> rfl
  · exact ⟨p, List.mem_of_getElem? hi, rfl⟩

theorem Valid.launch {s : PlanetWars F} (h : Valid s) {e : Expedition}
    (he : Admissible s.planets e) : Valid (s.launch e) := by
  have hplanets : Valid { s with planets := depart s.planets e } :=
    h.of_planets (fun p hp => map_owner_depart hp) (length_depart ..) rfl rfl rfl
  have hvalid : ValidExpedition s.players.length s.planets.length e := by
    obtain ⟨p, hp, ho, _⟩ := he.origin
    obtain ⟨i, hi⟩ := Option.isSome_iff_exists.mp he.owned
    obtain ⟨f, hf, hfo⟩ := Planet.owner_mem (ho.trans hi)
    exact
      { owner := ⟨i, hi, h.owners p (List.mem_of_getElem? hp) f hf i hfo⟩
        origin := (List.getElem?_eq_some_iff.mp hp).1
        target := he.target
        ships := he.ships }
  exact
    { fleets := hplanets.fleets
      owners := hplanets.owners
      expeditions := fun e' he' => by
        simp only [PlanetWars.launch, length_depart, List.mem_append, List.mem_singleton] at he' ⊢
        rcases he' with he' | rfl
        · exact h.expeditions e' he'
        · exact ⟨hvalid.owner, hvalid.origin, hvalid.target, hvalid.ships⟩
      idsDistinct := by
        simp only [PlanetWars.launch, List.map_append, List.map_cons, List.map_nil]
        refine List.nodup_append.mpr ⟨h.idsDistinct, List.nodup_singleton _, fun a ha b hb => ?_⟩
        obtain ⟨e', he', rfl⟩ := List.mem_map.mp ha
        rw [List.mem_singleton.mp hb]
        exact Nat.ne_of_lt (h.idsBelow e' he')
      idsBelow := fun e' he' => by
        simp only [PlanetWars.launch, List.mem_append, List.mem_singleton] at he' ⊢
        rcases he' with he' | rfl
        · exact Nat.lt_succ_of_lt (h.idsBelow e' he')
        · exact Nat.lt_succ_self _
      playerIds := h.playerIds }

theorem Valid.launchAll {s : PlanetWars F} (h : Valid s) {es : List Expedition}
    (hes : AdmissibleAll s.planets es) : Valid (s.launchAll es) := by
  induction es generalizing s with
  | nil => exact h
  | cons e es ih => exact ih (h.launch hes.1) hes.2

theorem length_players_of_stepped {s t : PlanetWars F} (h : Stepped s t) :
    t.players.length = s.players.length :=
  length_of_getElem?_map h.players

/-- Combat restores what the landings of a turn broke. -/
theorem Valid.stepped {s t : PlanetWars F} (h : Valid s) (hst : Stepped s t) : Settled t := by
  have hlen := length_players_of_stepped hst
  have hexp : ∀ e ∈ t.expeditions, ∃ e₀ ∈ s.expeditions, ¬ e₀.landing ∧ e = e₀.advance := by
    intro e he
    obtain ⟨e₀, he₀, rfl⟩ := List.mem_map.mp (hst.expeditions.mem_iff.mp he)
    obtain ⟨he₀, hl⟩ := List.mem_filter.mp he₀
    exact ⟨e₀, he₀, by simpa using hl, rfl⟩
  exact
    { fleets := fun p hp => by
        obtain ⟨i, hi⟩ := List.mem_iff_getElem?.mp hp
        obtain ⟨_, q, _, _, rfl⟩ := hst.planets i p hi
        exact length_combat_le q.fleets
      owners := fun p hp f hf o ho => by
        obtain ⟨i, hi⟩ := List.mem_iff_getElem?.mp hp
        obtain ⟨p₀, q, hp₀, hr, rfl⟩ := hst.planets i p hi
        have hq : ∃ f' ∈ q.fleets, f'.owner = some o := by
          rcases combat_cases q.fleets with hc | ⟨f', hf', n, hc⟩
          · simp [hc] at hf
          · simp only [Planet.afterCombat_fleets, hc, List.mem_singleton] at hf
            subst hf
            exact ⟨f', hf', ho⟩
        obtain ⟨f', hf', hfo⟩ := hq
        rw [hlen]
        rcases (hr.owners _).mp (List.mem_map_of_mem hf') with hm | hm
        · obtain ⟨f'', hf'', ho''⟩ := List.mem_map.mp hm
          exact h.owners p₀ (List.mem_of_getElem? hp₀) f'' hf'' o (ho''.trans hfo)
        · obtain ⟨f'', hf'', ho''⟩ := List.mem_map.mp hm
          obtain ⟨e, he, _, _, rfl⟩ := mem_arrivalsAt.mp hf''
          exact (h.expeditions e he).addressed.2 o (ho''.trans hfo)
      expeditions := fun e he => by
        obtain ⟨e₀, he₀, _, rfl⟩ := hexp e he
        rw [hlen, hst.planetCount]
        obtain ⟨howner, horigin, htarget, hships⟩ := h.expeditions e₀ he₀
        exact ⟨howner, horigin, htarget, hships⟩
      idsDistinct := by
        rw [(hst.expeditions.map _).nodup_iff, List.map_map]
        exact h.idsDistinct.sublist (List.filter_sublist.map fun e : Expedition => e.id)
      idsBelow := fun e he => by
        obtain ⟨e₀, he₀, _, rfl⟩ := hexp e he
        rw [hst.expeditionNum]
        exact h.idsBelow e₀ he₀
      playerIds := by
        rw [hlen, ← h.playerIds]
        refine List.ext_getElem? fun i => ?_
        simp only [List.getElem?_map, hst.players, Option.map_map]
        rfl
      flying := fun e he => by
        obtain ⟨e₀, _, hl, rfl⟩ := hexp e he
        simp only [Expedition.landing, decide_eq_true_eq] at hl
        simp only [Expedition.advance]
        omega }

end Mozaic
