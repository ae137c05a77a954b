import Mozaic.Game.Invariant

/-! A turn as one statement, and the induction over whole games. -/
namespace Mozaic
open Rust Rules Network Outcome

variable {F : Type}

/-! ## The start of a game -/

/-- How creating a game may fail: no usable map, or an owner number 0 in it. -/
def CreationPanic (e : Panic) : Prop := (∃ msg, e = .expect msg) ∨ e = .subOverflow

/-- A new game of `n` players. -/
structure Created (c : Config) (n : Nat) (s : PlanetWars F) : Prop where
  settled : Settled s
  players : s.players = (List.range n).map fun id => { id, alive := true }
  expeditions : s.expeditions = []
  turnNum : s.turnNum = 0
  maxTurns : s.maxTurns = c.maxTurns
  planetIds : s.planets.map (·.id) = List.range s.planets.length

/-- A planet of the map file as it enters the game. -/
private def Loaded (n num : Nat) (p : Planet F) : Prop :=
  p.id = num ∧ p.fleets.length ≤ 1 ∧ ∀ f ∈ p.fleets, ∀ o, f.owner = some o → o < n

private theorem loadPlanet_safe (n : Nat) (planet : Proto.Planet F) (num : Nat) :
    Safe CreationPanic (Loaded n num) (Config.loadPlanet n planet num) := by
  have hloaded (owner : Option PlayerId) (howner : ∀ o, owner = some o → o < n) :
      Loaded n num ⟨num, planet.name,
        if planet.shipCount > 0 then [⟨owner, planet.shipCount⟩] else [], planet.x, planet.y⟩ := by
    refine ⟨rfl, ?_, ?_⟩
    · dsimp only
      split <;> simp
    · dsimp only
      split
      · exact fun f hf o ho => howner o (by simp_all)
      · simp
  rw [Config.loadPlanet]
  cases planet.owner with
  | none => exact hloaded none (by simp)
  | some o =>
    by_cases ho : 1 ≤ o
    · simp only [checkedSub_of_le ho, ok_bind, pure_bind]
      refine hloaded _ fun i hi => ?_
      split at hi
      · exact Option.some.inj hi ▸ ‹_›
      · cases hi
    · simp [checkedSub, ho, CreationPanic]

private theorem loadMap_safe [External F] (c : Config) (n : Nat) :
    Safe CreationPanic (fun planets : List (Planet F) =>
      planets.map (·.id) = List.range planets.length ∧ ∀ p ∈ planets, ∃ num, Loaded n num p)
      (c.loadMap n) := by
  unfold Config.loadMap expect
  cases c.readMap (F := F) with
  | none => exact .inl ⟨_, rfl⟩
  | some map =>
    rw [ok_bind]
    refine Safe.weaken (Safe.mapM fun x _ => loadPlanet_safe n x.1 x.2) fun planets h => ?_
    refine ⟨?_, fun p hp => ?_⟩
    · have hids : List.Forall₂ Eq (map.planets.zipIdx.map Prod.snd) (planets.map (·.id)) :=
        List.forall₂_map_left_iff.mpr (List.forall₂_map_right_iff.mpr
          (h.imp fun _ _ h => h.1.symm))
      rw [List.forall₂_eq_eq_eq] at hids
      rw [← hids, List.zipIdx_map_snd, ← h.length_eq, List.length_zipIdx, List.range_eq_range']
    · obtain ⟨x, _, hx⟩ := exists_of_mem_forall₂ h hp
      exact ⟨x.2, hx⟩

theorem Rules.Config.createGame_safe [External F] (c : Config) (n : Nat) :
    Safe CreationPanic (Created (F := F) c n) (c.createGame n) := by
  rw [createGame]
  refine Safe.bind (loadMap_safe c n) fun planets ⟨hids, hloaded⟩ => ?_
  exact
    { settled :=
        { fleets := fun p hp => (hloaded p hp).elim fun _ h => h.2.1
          owners := fun p hp f hf o ho => by
            obtain ⟨_, h⟩ := hloaded p hp
            simpa using h.2.2 f hf o ho
          expeditions := by simp
          idsDistinct := by simp
          idsBelow := by simp
          playerIds := by simp [Function.comp_def]
          flying := by simp }
      players := rfl
      expeditions := rfl
      turnNum := rfl
      maxTurns := rfl
      planetIds := hids }

/-! ## One turn -/

/-- A game between two turns. -/
structure Game.Consistent (g : Game F) : Prop where
  settled : Settled g.state
  mapped : g.Mapped

theorem Game.consistent_ofState {c : Config} {n : Nat} {s : PlanetWars F} (h : Created c n s) :
    (Game.ofState s).Consistent where
  settled := h.settled
  mapped := fun name i hi => by
    obtain ⟨p, hp, hpi⟩ := List.mem_map.mp (HashMap.mem_of_lookup_collect hi)
    have hmem : p.id ∈ s.planets.map (·.id) := List.mem_map_of_mem hp
    rw [h.planetIds, List.mem_range] at hmem
    simp only [Prod.mk.injEq] at hpi
    exact hpi.2 ▸ hmem

section Turn
variable [F64 F] [External F]

/-- The game when the fleets set out: the planets have grown, the orders are launched. -/
def Game.ordered (g : Game F) (messages : List (PlayerId × ResponseValue)) : Game F :=
  Game.launchAll { g with state := g.state.grown }
    (orders g.planetMap g.state.grown.planets messages)

/-- The game `g'` a turn after `g`, and what was reported. -/
structure TurnTaken (g : Game F) (messages : List (PlayerId × ResponseValue)) (g' : Game F)
    (actions : List (PlayerId × Proto.PlayerAction)) : Prop where
  planetMap : g'.planetMap = g.planetMap
  actions : actions = reports g.planetMap g.state.grown.planets messages
  step : (g.ordered messages).state.step = .ok g'.state
  stepped : Stepped (g.ordered messages).state g'.state

/-- How a turn may fail: some counter is at its limit. -/
def TurnOverflow (g : Game F) (messages : List (PlayerId × ResponseValue)) (e : Panic) : Prop :=
  GrowthOverflow g.state e ∨ e = .addOverflow .expeditionNum ∨
    (e = .addOverflow .turnNum ∧ 2 ^ 64 ≤ g.state.turnNum + 1) ∨
    ArrivalOverflow (g.ordered messages).state e

theorem TurnOverflow.overflow {g : Game F} {messages : List (PlayerId × ResponseValue)} {e : Panic}
    (h : TurnOverflow g messages e) : ∃ counter, e = .addOverflow counter := by
  rcases h with ⟨rfl, _⟩ | rfl | ⟨rfl, _⟩ | ⟨rfl, _⟩ <;> exact ⟨_, rfl⟩

variable {g g' : Game F} {messages : List (PlayerId × ResponseValue)}
  {actions : List (PlayerId × Proto.PlayerAction)}

theorem Game.Consistent.valid_ordered (hg : g.Consistent) (hnd : (messages.map Prod.fst).Nodup) :
    Valid (g.ordered messages).state :=
  hg.settled.toValid.grown.launchAll (orders_admissible _ _ hnd)

theorem Game.length_planets_ordered (g : Game F) (messages : List (PlayerId × ResponseValue)) :
    (g.ordered messages).state.planets.length = g.state.planets.length := by
  simp [Game.ordered, PlanetWars.grown]

@[simp] theorem Game.players_ordered (g : Game F) (messages : List (PlayerId × ResponseValue)) :
    (g.ordered messages).state.players = g.state.players := by
  simp [Game.ordered, Game.launchAll, PlanetWars.launchAll_eq, PlanetWars.grown]

@[simp] theorem Game.turnNum_ordered (g : Game F) (messages : List (PlayerId × ResponseValue)) :
    (g.ordered messages).state.turnNum = g.state.turnNum := by
  simp [Game.ordered, Game.launchAll, PlanetWars.launchAll_eq, PlanetWars.grown]

@[simp] theorem Game.maxTurns_ordered (g : Game F) (messages : List (PlayerId × ResponseValue)) :
    (g.ordered messages).state.maxTurns = g.state.maxTurns := by
  simp [Game.ordered, Game.launchAll, PlanetWars.launchAll_eq, PlanetWars.grown]

theorem Game.Consistent.taken (hg : g.Consistent) (hnd : (messages.map Prod.fst).Nodup)
    (h : TurnTaken g messages g' actions) : g'.Consistent where
  settled := (hg.valid_ordered hnd).stepped h.stepped
  mapped := fun name i hi => by
    rw [h.planetMap] at hi
    rw [h.stepped.planetCount, Game.length_planets_ordered]
    exact hg.mapped name i hi

theorem TurnTaken.length_players (h : TurnTaken g messages g' actions) :
    g'.state.players.length = g.state.players.length := by
  rw [length_players_of_stepped h.stepped, Game.players_ordered]

theorem TurnTaken.length_planets (h : TurnTaken g messages g' actions) :
    g'.state.planets.length = g.state.planets.length := by
  rw [h.stepped.planetCount, Game.length_planets_ordered]

/-- Everybody who sent something is told about it. -/
theorem TurnTaken.map_fst_actions (h : TurnTaken g messages g' actions) :
    actions.map Prod.fst = messages.map Prod.fst := by
  rw [h.actions, reports, List.map_map]
  rfl

theorem TurnTaken.turnNum (h : TurnTaken g messages g' actions) :
    g'.state.turnNum = g.state.turnNum + 1 := by
  rw [h.stepped.turnNum, Game.turnNum_ordered]

theorem TurnTaken.maxTurns (h : TurnTaken g messages g' actions) :
    g'.state.maxTurns = g.state.maxTurns := by
  rw [h.stepped.maxTurns, Game.maxTurns_ordered]

omit [F64 F] [External F] in
theorem map_name_grown (s : PlanetWars F) :
    s.grown.planets.map (·.name) = s.planets.map (·.name) := by
  rw [PlanetWars.grown, List.map_map]
  apply List.map_congr_left
  intro p _
  rw [Function.comp_apply, Planet.grown]
  split <;> rfl

omit [F64 F] [External F] in
theorem map_name_departAll (planets : List (Planet F)) (es : List Expedition) :
    (departAll planets es).map (·.name) = planets.map (·.name) := by
  induction es generalizing planets with
  | nil => rfl
  | cons e es ih =>
    rw [departAll_cons, ih]
    apply List.ext_getElem?
    intro i
    rw [List.getElem?_map, List.getElem?_map, getElem?_depart]
    split
    · rw [Option.map_map]
      rfl
    · rfl

omit [F64 F] [External F] in
theorem map_name_of_stepped {s t : PlanetWars F} (h : Stepped s t) :
    t.planets.map (·.name) = s.planets.map (·.name) := by
  apply List.ext_getElem
  · rw [List.length_map, List.length_map, h.planetCount]
  · intro i hi hi'
    rw [List.length_map] at hi
    obtain ⟨p, q, hp, hreceived, heq⟩ := h.planets i _ (List.getElem?_eq_getElem hi)
    obtain ⟨hlt, rfl⟩ := List.getElem?_eq_some_iff.mp hp
    rw [List.getElem_map, List.getElem_map, heq]
    exact hreceived.name

/-- Planets keep their names. -/
theorem TurnTaken.map_name (h : TurnTaken g messages g' actions) :
    g'.state.planets.map (·.name) = g.state.planets.map (·.name) := by
  rw [map_name_of_stepped h.stepped]
  change (Game.launchAll { g with state := g.state.grown } _).state.planets.map _ = _
  rw [Game.planets_launchAll, map_name_departAll, map_name_grown]

namespace Game

omit [F64 F] [External F] in
theorem Consistent.mapped_grown (hg : g.Consistent) : Mapped { g with state := g.state.grown } :=
  fun name i hi => by simpa [PlanetWars.grown] using hg.mapped name i hi

theorem Consistent.executeMessages_safe (hg : g.Consistent) (hnd : (messages.map Prod.fst).Nodup) :
    Safe (fun e => e = .addOverflow .expeditionNum)
      (· = (g.ordered messages, reports g.planetMap g.state.grown.planets messages))
      ({ g with state := g.state.grown }.executeMessages messages) := by
  rw [executeMessages_eq hg.mapped_grown hnd]
  exact (reserve_safe _ _).map fun _ _ => rfl

/-- A turn can only fail by an overflow. -/
theorem turn_safe (hg : g.Consistent) (input : TurnInput) :
    Safe (TurnOverflow g (input.messages.entriesIn input.drainOrder))
      (fun r => TurnTaken g (input.messages.entriesIn input.drainOrder) r.1 r.2)
      (g.turn input) := by
  have hnd := HashMap.nodup_fst_entriesIn input.drainOrder input.messages
  have hvalid := hg.valid_ordered hnd
  set messages := input.messages.entriesIn input.drainOrder
  rw [turn]
  refine (g.state.repopulate_safe.mono (fun e he => .inl he) fun _ h => h).bind ?_
  intro _ heq
  subst heq
  refine ((hg.executeMessages_safe hnd).mono (fun e he => .inr (.inl he)) fun _ h => h).bind ?_
  intro _ heq
  subst heq
  refine Safe.bind_eq ((PlanetWars.step_safe _ hvalid.owners hvalid.addressed).mono ?_
    fun _ h => h) fun t hstep ht => ?_
  · intro e h
    rcases h with ⟨rfl, he⟩ | he
    · exact .inr (.inr (.inl ⟨rfl, by simpa using he⟩))
    · exact .inr (.inr (.inr he))
  · exact { planetMap := rfl, actions := rfl, step := hstep, stepped := ht }

/-! ## Whole games -/

/-- Play the given turns. -/
def play (g : Game F) (inputs : List TurnInput) : Except Panic (Game F) :=
  inputs.foldlM (fun g input => Prod.fst <$> g.turn input) g

end Game
end Turn
end Mozaic
