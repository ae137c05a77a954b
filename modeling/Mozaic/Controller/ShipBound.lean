import Mozaic.Controller.Deserted
import Mozaic.Game.ShipAccounting

/-! How many ships there are in a match, and when their counts cannot overflow. -/
namespace Mozaic.Controller
open Rust Rules Network Outcome

variable {F : Type}

/-- A state of the game that started as `start`. -/
structure Bounded (start s : PlanetWars F) : Prop where
  planets : s.planets.length = start.planets.length
  maxTurns : s.maxTurns = start.maxTurns
  ships : s.totalShips ≤ start.totalShips + s.turnNum * start.planets.length

theorem Bounded.taken [F64 F] [External F] {start : PlanetWars F} {g g' : Game F}
    {messages : List (PlayerId × ResponseValue)} {actions : List (PlayerId × Proto.PlayerAction)}
    (h : Bounded start g.state) (hnd : (messages.map Prod.fst).Nodup)
    (ht : TurnTaken g messages g' actions) : Bounded start g'.state where
  planets := ht.length_planets.trans h.planets
  maxTurns := ht.maxTurns.trans h.maxTurns
  ships := by
    have hle := ht.totalShips_le hnd
    rw [ht.turnNum, Nat.succ_mul]
    have := h.planets
    have := h.ships
    omega

/-- A game that is waiting for responses has a turn left, if it ever had one. -/
theorem InTurn.turnNum_lt {roster : List ClientId} {answered : List (RequestId × ResponseValue)}
    {t : Turn F} {older : List (Turn F)} {c : PwController F} (h : InTurn roster answered t older c)
    (hturns : 1 ≤ c.state.maxTurns) : c.state.turnNum < c.state.maxTurns := by
  rcases h.going with hold | hgoing
  · rw [h.turnNum, hold]
    exact hturns
  · simp only [PlanetWars.isFinished, Bool.or_eq_false_iff, decide_eq_false_iff_not] at hgoing
    omega

variable [F64 F] [External F] {rt : Runtime} {lobby : Lobby F}

/-! ## All matches -/

theorem PwController.Stepped.bounded {messages : HashMap PlayerId ResponseValue}
    {start : PlanetWars F} {c c' : PwController F} (h : Bounded start c.state)
    (hc : PwController.Stepped rt messages c c') : Bounded start c'.state := by
  obtain ⟨g, actions, htaken, hc⟩ := hc
  have hg := h.taken (HashMap.nodup_fst_entriesIn _ _) htaken
  split at hc
  · exact hc.toGame ▸ hg
  · exact hc.toGame ▸ hg

/-- While a turn is left, a ship count can only overflow if the bound is too high. -/
theorem DeliveryPanic.no_overflow {start : PlanetWars F} {c : PwController F}
    (hb : Bounded start c.state) (hlt : c.state.turnNum < start.maxTurns)
    (hsmall : start.totalShips + start.maxTurns * start.planets.length < 2 ^ 64) {e : Panic}
    (he : DeliveryPanic c e) : e ≠ .addOverflow .shipCount := by
  intro heq
  subst heq
  rcases he with he | ⟨messages, hnd, hover⟩
  · cases he
  · have hbig := hover.ships_ge rfl hnd
    have hmul : (c.state.turnNum + 1) * start.planets.length ≤
        start.maxTurns * start.planets.length := Nat.mul_le_mul_right _ hlt
    rw [Nat.succ_mul] at hmul
    have := hb.ships
    rw [hb.planets] at hbig
    omega

/-- No ship count overflows unless the bound is too high. -/
def SmallFleets (start : PlanetWars F) (e : Panic) : Prop :=
  1 ≤ start.maxTurns → start.totalShips + start.maxTurns * start.planets.length < 2 ^ 64 →
    e ≠ .addOverflow .shipCount

omit [F64 F] in
theorem StartPanic.smallFleets {start : PlanetWars F}
    (hstart : PwController.createGame lobby = .ok start) {e : Panic} (he : StartPanic lobby e) :
    SmallFleets start e := by
  intro _ _ heq
  subst heq
  rcases he with he | he
  · rw [hstart] at he
    cases he
  · cases he

/-- The game of the match is bounded. -/
def PwMatchState.Bounded (start : PlanetWars F) (m : PwMatchState F) : Prop :=
  ∀ state, m.game? = some state → Controller.Bounded start state

omit [F64 F] [External F] in
theorem PwMatchState.bounded_polled {start : PlanetWars F} {c : PwController F}
    (h : Controller.Bounded start c.state) :
    PwMatchState.Bounded start (if c.state.isFinished then .finished c else .playing c) := by
  intro state hstate
  split at hstate <;> cases hstate <;> exact h

private theorem run_bounded_of_players (hne : lobby.players ≠ ∅) {start : PlanetWars F}
    (hstart : PwController.createGame lobby = .ok start) (inputs : List (Runtime × Input)) :
    Safe (SmallFleets start) (fun s => s.game.Bounded start) (System.run rt lobby inputs) := by
  refine Safe.weaken (System.run_safe (I := fun _ s => s.game.Bounded start) hne
    (fun _ he => he.smallFleets hstart) ?_ ?_ ?_ inputs) fun s hs => hs.2
  · intro c t hc _ state h
    cases h
    rw [hc.state_eq hstart]
    exact ⟨rfl, rfl, Nat.le_add_right _ _⟩
  · intro done rt' input answered t older c h hI
    have hb : Bounded start c.state := hI c.state rfl
    refine ⟨fun e he hturns hsmall => he.no_overflow hb ?_ hsmall, fun s hs => ?_⟩
    · exact hb.maxTurns ▸ h.turnNum_lt (hb.maxTurns ▸ hturns)
    · cases hs with
      | noticed => exact PwMatchState.bounded_polled hb
      | dropped => exact hI
      | @heard i _ v =>
        exact PwMatchState.bounded_polled (c := c.heard i v) hb
      | @stepped i _ v _ _ _ _ hc' =>
        exact PwMatchState.bounded_polled
          (hc'.bounded (c := { c.heard i v with commands := ∅ }) hb)
  · exact fun _ _ _ _ h => h

private theorem run_bounded_of_empty (hempty : lobby.players = ∅) {start : PlanetWars F}
    (hstart : PwController.createGame lobby = .ok start) (inputs : List (Runtime × Input)) :
    Safe (SmallFleets start) (fun s => s.game.Bounded start) (System.run rt lobby inputs) := by
  have hb {c : PwController F} (hc : Started rt lobby c) : Bounded start c.state := by
    rw [hc.state_eq hstart]
    exact ⟨rfl, rfl, Nat.le_add_right _ _⟩
  refine (System.run_safe_of_empty (I := fun c => Bounded start c.state) hempty
    (fun _ he => he.smallFleets hstart) (fun _ => hb) ?_ inputs).weaken fun s hs state hstate => ?_
  · intro c hc
    have hzero : c.state.turnNum = 0 := by
      obtain ⟨_, state, _, hcreated, hprompted⟩ := hc.opened
      exact (congrArg (fun g : Game F => g.state.turnNum) hprompted.toGame).trans hcreated.turnNum
    refine ⟨fun e he hturns hsmall => he.no_overflow (hb hc) (hzero ▸ hturns) hsmall, ?_⟩
    exact fun rt' c' hc' => hc'.bounded (hb hc)
  · obtain ⟨c, hc, rfl⟩ := PwMatchState.controller?_of_game? hstate
    exact hs c hc

/-- Every state of a match is bounded, and while the bound is below the limit no ship
count overflows. -/
theorem run_bounded (rt : Runtime) (lobby : Lobby F) {start : PlanetWars F}
    (hstart : PwController.createGame lobby = .ok start) (inputs : List (Runtime × Input)) :
    Safe (SmallFleets start) (fun s => s.game.Bounded start) (System.run rt lobby inputs) := by
  by_cases h : lobby.players = ∅
  · exact run_bounded_of_empty h hstart inputs
  · exact run_bounded_of_players h hstart inputs

/-! ## Ship accounting -/

omit [F64 F] [External F] in
/-- Ships are only built on planets with an owner, one on each. -/
theorem repopulate_ships (s : PlanetWars F) :
    Safe (fun _ => True) (fun t => t.totalShips = s.totalShips + s.occupied ∧
        ∀ (i : Nat) (p : Planet F), s.planets[i]? = some p → p.owner = none →
          t.planets[i]? = some p)
      s.repopulate := by
  refine s.repopulate_safe.mono (fun _ _ => trivial) ?_
  intro _ heq
  subst heq
  refine ⟨totalShips_grown s, fun i p hp ho => ?_⟩
  simp [PlanetWars.grown, hp, Planet.grown_of_neutral ho]

omit [F64 F] [External F] in
theorem resolveCombat_ships (p : Planet F) :
    Safe (fun _ => False) (fun q =>
        (q.fleets.map (·.shipCount)).sum = largest p.fleets - secondLargest p.fleets ∧
        ∀ o, shipsOf o q.fleets ≤ shipsOf o p.fleets)
      p.resolveCombat := by
  rw [p.resolveCombat_eq]
  refine ⟨sum_combat p.fleets, fun o => ?_⟩
  rw [shipsOf_eq_shipsWhere, shipsOf_eq_shipsWhere]
  exact shipsWhere_combat_le _ p.fleets

/-- Where ships come from and where they go, in each of the operations of a turn, and
what this means for a match as a whole. -/
theorem ship_accounting :
    (∀ s : PlanetWars F, Safe (fun _ => True) (fun t => t.totalShips = s.totalShips + s.occupied ∧
        ∀ (i : Nat) (p : Planet F), s.planets[i]? = some p → p.owner = none →
          t.planets[i]? = some p) s.repopulate) ∧
    (∀ (s : PlanetWars F) (d : Dispatch) (o : Option PlayerId),
      Safe (fun _ => True) (fun t => t.shipsOwnedBy o = s.shipsOwnedBy o) (s.dispatch d)) ∧
    (∀ (s : PlanetWars F) (o : Option PlayerId),
      Safe (fun _ => True) (fun t => t.shipsOwnedBy o = s.shipsOwnedBy o) s.stepExpeditions) ∧
    (∀ p : Planet F, Safe (fun _ => False) (fun q =>
        (q.fleets.map (·.shipCount)).sum = largest p.fleets - secondLargest p.fleets ∧
        ∀ o, shipsOf o q.fleets ≤ shipsOf o p.fleets) p.resolveCombat) ∧
    ∀ (rt : Runtime) (lobby : Lobby F) (start : PlanetWars F),
      PwController.createGame lobby = .ok start → ∀ inputs : List (Runtime × Input),
        Safe (SmallFleets start)
          (fun s => ∀ state, s.game.game? = some state → state.totalShips ≤
            start.totalShips + state.turnNum * start.planets.length)
          (System.run rt lobby inputs) :=
  ⟨repopulate_ships, fun s d _ => tally_dispatch s d _, fun s _ => tally_stepExpeditions _ s,
    resolveCombat_ships, fun rt lobby _ hstart inputs =>
      (run_bounded rt lobby hstart inputs).weaken fun _ h state hstate => (h state hstate).ships⟩

theorem ship_accounting_skirmish :
    Safe (fun e => e ≠ .addOverflow .shipCount)
      (fun s => ∀ state, s.game.game? = some state → state.totalShips ≤ 12 + state.turnNum * 2)
      (System.run skirmishRuntime (skirmishLobby [[1], [2]])
        [(skirmishRuntime, .response ⟨⟨1⟩, 0⟩ (.ok [])), (skirmishRuntime, .disconnected ⟨2⟩)]) :=
  (ship_accounting.2.2.2.2 skirmishRuntime (skirmishLobby [[1], [2]]) skirmishStart
    createGame_skirmish _).mono (fun _ he => he (by decide) (by decide)) fun _ h => h

end Mozaic.Controller
