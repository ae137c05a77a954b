import Mozaic.Controller.Reachable
import Mozaic.Game.Flight

/-! What the players order in a match, and what becomes of the ships they send. -/
namespace Mozaic
open Rust Rules Network Outcome

variable {F : Type} [F64 F] [External F]

/-- A player's response is executed on `g`, with this result and report. -/
inductive Responded (g : Game F) (i : PlayerId) :
    ResponseValue → Game F → Proto.PlayerAction → Prop
  | timeout : Responded g i (.error .timeout) g .timeout
  | parseError {message : Bytes} {err : String}
      (h : External.actionFromSlice F message = .error err) :
      Responded g i (.ok message) g (.parseError err)
  | commands {message : Bytes} {action : Proto.Action} {g' : Game F}
      {reports : List Proto.PlayerCommand} (h : External.actionFromSlice F message = .ok action)
      (hexecuted : Executed i g action.commands g' reports) :
      Responded g i (.ok message) g' (.commands reports)

omit [External F] in
/-- There is a report for each command, in order. -/
theorem Executed.map_command {g g' : Game F} {i : PlayerId} {mvs : List Proto.Command}
    {reports : List Proto.PlayerCommand} (h : Executed i g mvs g' reports) :
    reports.map (·.command) = mvs := by
  induction h with
  | nil => rfl
  | accepted _ _ _ ih => rw [List.map_cons, ih]
  | rejected _ _ _ ih => rw [List.map_cons, ih]

/-- The commands of a response. -/
def commandsOf (F : Type) [External F] : ResponseValue → List Proto.Command
  | .error .timeout => []
  | .ok message =>
    match External.actionFromSlice F message with
    | .error _ => []
    | .ok action => action.commands

theorem Game.executeAction_safe {g : Game F} (hg : g.Mapped) (hs : Valid g.state) (i : PlayerId)
    (response : ResponseValue) :
    Safe (fun e => e = .addOverflow .expeditionNum ∧
        2 ^ 64 ≤ g.state.expeditionNum + (commandsOf F response).length)
      (fun r => Responded g i response r.1 r.2) (g.executeAction i response) := by
  unfold executeAction commandsOf
  rcases response with ⟨⟨⟩⟩ | message
  · exact .timeout
  · dsimp only
    cases haction : External.actionFromSlice F message with
    | error err => exact .parseError haction
    | ok action =>
      refine Safe.bind (executeCommands_safe hg hs i [] action.commands) ?_
      rintro ⟨g', reported⟩ ⟨reports, hreported, hexecuted⟩
      rw [List.nil_append] at hreported
      exact .commands haction (hreported ▸ hexecuted)

namespace Controller

variable {lobby : Lobby F} {c : PwController F}

/-- In the middle of any turn, a player's commands are executed one after the other, and
what the commands of a turn take from a planet was there. -/
theorem commands_sequential (h : Reachable lobby c) {state : PlanetWars F}
    (hstate : c.state.repopulate = .ok state) {messages : List (PlayerId × ResponseValue)}
    {g : Game F} {actions : List (PlayerId × Proto.PlayerAction)}
    (hg : { c.toGame with state }.executeMessages messages = .ok (g, actions)) :
    (∀ i response,
      Safe (fun e => e = .addOverflow .expeditionNum ∧
          2 ^ 64 ≤ g.state.expeditionNum + (commandsOf F response).length)
        (fun r => Responded g i response r.1 r.2) (g.executeAction i response)) ∧
    (∀ i mvs g' reports, Executed i g mvs g' reports → reports.map (·.command) = mvs) ∧
    ∀ o p, state.planets[o]? = some p → ∃ p', g.state.planets[o]? = some p' ∧
      shipsFrom o (g.state.expeditions.drop state.expeditions.length) + p'.shipCount =
        p.shipCount := by
  obtain ⟨hc, -⟩ := h.consistent_seated
  obtain rfl := c.state.repopulate_safe.of_ok hstate
  have hlaunches := (Game.executeMessages_launches hc.mapped_grown [] messages).of_ok hg
  refine ⟨fun i response => ?_, fun _ _ _ _ hexecuted => hexecuted.map_command, ?_⟩
  · exact g.executeAction_safe (hlaunches.mapped hc.mapped_grown)
      (hlaunches.valid hc.settled.toValid.grown) i response
  · obtain ⟨es, hes, rfl⟩ := hlaunches
    intro o p hp
    obtain ⟨p', hp', hsum⟩ := shipsFrom_departAll hes hp
    refine ⟨p', ?_, ?_⟩
    · rw [Game.planets_launchAll]
      exact hp'
    · rw [Game.launchAll, PlanetWars.launchAll_eq]
      dsimp only
      rw [List.drop_left, shipsFrom_numbered, hsum]

/-- Every expedition is under way as long as its distance says and then arrives, once;
and the expedition loop misses none. -/
theorem expedition_arrives (h : Reachable lobby c) :
    (∀ input i mv g₁ g₂, AcceptedIn c.toGame input i mv g₁ g₂ →
      ∃ e, Accepted i mv e g₁ g₂ ∧
        (∀ later g, c.toGame.play (input :: later) = .ok g →
          withId e.id g.state.expeditions = e.inFlight (later.length + 1)) ∧
        ∀ inputs next g g' actions, (inputs ++ [next]).head? = some input →
          c.toGame.play inputs = .ok g → g.turn next = .ok (g', actions) →
            ∃ arrived, TurnDelivers g next g' arrived ∧
              withId e.id arrived = e.arriving inputs.length) ∧
    ∀ s t : PlanetWars F, s.stepExpeditions = .ok t → ∃ arrived, Delivers s t arrived := by
  obtain ⟨hc, -⟩ := h.consistent_seated
  refine ⟨fun input i mv g₁ g₂ haccepted => ?_, fun s t => s.stepExpeditions_delivers⟩
  obtain ⟨e, he, hfirst⟩ := haccepted.departs hc
  have hplayed (later : List TurnInput) (g : Game F)
      (hplay : c.toGame.play (input :: later) = .ok g) : Underway e (later.length + 1) g := by
    obtain ⟨g₃, actions, hturn, hrest⟩ := play_cons_eq_ok.mp hplay
    exact (hfirst g₃ actions hturn).1.play hrest
  refine ⟨e, he, fun later g hplay => (hplayed later g hplay).inFlight, ?_⟩
  intro inputs next g g' actions hhead hplay hturn
  rcases inputs with - | ⟨first, later⟩
  · cases hplay
    cases hhead
    exact (hfirst g' actions hturn).2
  · cases hhead
    exact ((hplayed later g hplay).turn hturn).2

/-! ## One order -/

section March

/-- The player of `a` sends the order twice. -/
def marchInput : TurnInput where
  drainOrder := skirmishRuntime.drainOrder
  messages := HashMap.collect [(0, .ok [1])]

theorem reachable_march : ∃ c, Reachable marchLobby c ∧ c.toGame = Game.ofState marchStart := by
  have hcreate : PwController.createGame marchLobby = .ok marchStart := by decide +kernel
  have hok : (PwController.new skirmishRuntime marchLobby).toOption.isSome := by decide +kernel
  cases h : PwController.new skirmishRuntime marchLobby with
  | ok c =>
    obtain ⟨_, state, hstate, -, hprompted⟩ := ((new_safe _ marchLobby).of_ok h).opened
    rw [hcreate] at hstate
    cases hstate
    exact ⟨c, .started h, hprompted.toGame⟩
  | error e =>
    rw [h] at hok
    cases hok

/-- The first of the two orders leaves three of seven ships, too few for the second. -/
theorem commands_sequential_march :
    ∃ g actions p', { Game.ofState marchStart with state := marchStart.grown }.executeMessages
        [(0, .ok [1])] = .ok (g, actions) ∧
      g.state.planets[0]? = some p' ∧ shipsFrom 0 g.state.expeditions + p'.shipCount = 7 ∧
      Safe (fun e => e = .addOverflow .expeditionNum ∧ 2 ^ 64 ≤ g.state.expeditionNum + 2)
        (fun r => Responded g 0 (.ok [1]) r.1 r.2) (g.executeAction 0 (.ok [1])) := by
  obtain ⟨c, hc, hgame⟩ := reachable_march
  have hstate : c.state.repopulate = .ok marchStart.grown := by
    rw [hgame]
    decide +kernel
  have hok : ({ Game.ofState marchStart with state := marchStart.grown }.executeMessages
      [(0, .ok [1])]).toOption.isSome := by
    decide +kernel
  cases h : { Game.ofState marchStart with state := marchStart.grown }.executeMessages
      [(0, .ok [1])] with
  | error e =>
    rw [h] at hok
    cases hok
  | ok r =>
    obtain ⟨hsafe, -, hships⟩ := commands_sequential hc hstate (hgame.symm ▸ h)
    obtain ⟨p', hp', hsum⟩ := hships 0 ⟨0, "a", [⟨some 0, 7⟩], (0 : Int), (0 : Int)⟩ rfl
    exact ⟨r.1, r.2, p', rfl, hp', hsum, hsafe 0 (.ok [1])⟩

/-- A turn in which nobody answers. -/
def quietInput : TurnInput where
  drainOrder := skirmishRuntime.drainOrder
  messages := ∅

/-- The turn with the orders, and three more. -/
def marchInputs : List TurnInput := marchInput :: List.replicate 3 quietInput

theorem accepted_march : ∃ g₂, AcceptedIn (Game.ofState marchStart) marchInput 0 march
    { Game.ofState marchStart with state := marchStart.grown } g₂ := by
  have hmoved : (Game.executeCommand 0
      ({ Game.ofState marchStart with state := marchStart.grown }, []) march).toOption.map
      Prod.snd = some [{ command := march, error := none }] := by
    decide +kernel
  cases h : Game.executeCommand 0
      ({ Game.ofState marchStart with state := marchStart.grown }, []) march with
  | error e =>
    rw [h] at hmoved
    cases hmoved
  | ok r =>
    obtain ⟨g₂, reports⟩ := r
    rw [h] at hmoved
    cases hmoved
    exact ⟨g₂, marchStart.grown, [], [1], [], _, [], by decide +kernel, by decide +kernel, rfl,
      ⟨[march, march]⟩, [], [march], [], rfl, rfl, rfl, h⟩

theorem turnsRemaining_march {e : Expedition} {g₂ : Game Grid}
    (he : Accepted 0 march e { Game.ofState marchStart with state := marchStart.grown } g₂) :
    e.turnsRemaining = 5 := by
  have horigin : some 0 = some e.origin :=
    (by decide +kernel : (Game.ofState marchStart).planetMap.lookup "a" = some 0).symm.trans
      he.origin
  have htarget : some 1 = some e.target :=
    (by decide +kernel : (Game.ofState marchStart).planetMap.lookup "b" = some 1).symm.trans
      he.target
  obtain ⟨p, q, hp, hq, hdistance⟩ := he.distance
  rw [← Option.some.inj horigin] at hp
  rw [← Option.some.inj htarget] at hq
  cases hp
  cases hq
  rw [hdistance]
  decide +kernel

/-- The first of the two orders goes from `a` to `b`, which are five turns apart. It is under way
for four turns, and arrives in the next one. -/
theorem expedition_arrives_march :
    ∃ (c : PwController Grid) (g₁ g₂ g g' : Game Grid) (e : Expedition) (arrived : List Expedition),
      AcceptedIn c.toGame marchInput 0 march g₁ g₂ ∧ Accepted 0 march e g₁ g₂ ∧
      c.toGame.play marchInputs = .ok g ∧ withId e.id g.state.expeditions = [e.after 4] ∧
      TurnDelivers g quietInput g' arrived ∧ withId e.id arrived = [e.after 4] := by
  obtain ⟨c, hc, hgame⟩ := reachable_march
  obtain ⟨g₂, haccepted⟩ := accepted_march
  rw [← hgame] at haccepted
  obtain ⟨e, he, hflying, harriving⟩ := (expedition_arrives hc).1 _ _ _ _ _ haccepted
  have hturns := turnsRemaining_march (hgame ▸ he)
  have hplayed : ((Game.ofState marchStart).play marchInputs >>= fun g =>
      g.turn quietInput).toOption.isSome := by
    decide +kernel
  rw [← hgame] at hplayed
  cases hplay : c.toGame.play marchInputs with
  | error _ =>
    rw [hplay] at hplayed
    cases hplayed
  | ok g =>
    rw [hplay, ok_bind] at hplayed
    cases hturn : g.turn quietInput with
    | error _ =>
      rw [hturn] at hplayed
      cases hplayed
    | ok r =>
      obtain ⟨arrived, hdelivers, harrived⟩ :=
        harriving marchInputs quietInput g r.1 r.2 rfl hplay hturn
      refine ⟨c, _, g₂, g, r.1, e, arrived, haccepted, he, hplay, ?_, hdelivers, ?_⟩
      · rw [hflying _ g hplay, Expedition.inFlight, hturns]
        rfl
      · rw [harrived, Expedition.arriving, hturns]
        rfl

end March

end Controller
end Mozaic
