import Mozaic.Controller.Seating
import Mozaic.Controller.Streams

/-! The control stream of a match as the course of its game: every state that was logged
comes from the one before, and the last one is where the game is. -/
namespace Mozaic.Controller
open Rust Rules Network Outcome

variable {F : Type}

/-! ## What a turn logs -/

/-- Prompting the players logs nothing. -/
theorem PwController.Prompted.logged {rt : Runtime} {c c' : PwController F}
    (h : Prompted rt c c') : logged c'.channels = logged c.channels := by
  rw [h.channels]
  apply logged_append_silent
  intro s hs
  obtain ⟨e, _, rfl⟩ := List.mem_map.mp hs
  rw [promptSent_eq]
  exact loggedState?_stateSent _ _ _ _

theorem PwController.Finished.logged {rt : Runtime} {c c' : PwController F}
    (h : Finished rt c c') : logged c'.channels = logged c.channels := by
  rw [h.channels]
  apply logged_append_silent
  intro s hs
  obtain ⟨e, _, rfl⟩ := List.mem_map.mp hs
  rfl

theorem PwController.logged_played {c : PwController F} (hc : c.ctrlHandle.clientId = ctrlId)
    (messages : HashMap PlayerId ResponseValue) (g : Game F)
    (actions : List (PlayerId × Proto.PlayerAction)) :
    logged (c.played messages g actions).channels = logged c.channels ++ [g.state.view 0] := by
  change logged (c.channels ++ actions.map (actionSent c.players) ++ [logSent c.ctrlHandle g.state]) = _
  rw [logged_append, logged_logSent hc, logged_append_silent]
  intro s hs
  obtain ⟨a, _, rfl⟩ := List.mem_map.mp hs
  rfl

section Turn
variable [F64 F] [External F]

/-- A turn logs the state it leads to. -/
theorem PwController.Stepped.logged {rt : Runtime} {messages : HashMap PlayerId ResponseValue}
    {c c' : PwController F} (h : Stepped rt messages c c') (hc : c.ctrlHandle.clientId = ctrlId) :
    ∃ actions, TurnTaken c.toGame (messages.entriesIn rt.drainOrder) c'.toGame actions ∧
      logged c'.channels = logged c.channels ++ [c'.state.view 0] := by
  obtain ⟨g, actions, htaken, h⟩ := h
  have hplayed := PwController.logged_played hc messages g actions
  split at h
  · have hgame : c'.toGame = g := h.toGame
    subst hgame
    exact ⟨actions, htaken, h.logged.trans hplayed⟩
  · have hgame : c'.toGame = g := h.toGame
    subst hgame
    exact ⟨actions, htaken, h.logged.trans hplayed⟩

end Turn

/-! ## The course of the game -/

/-- The game was in state `s` before it was in state `t`. -/
structure Earlier (s t : PlanetWars F) : Prop where
  inPlay : ∀ i, InPlay t i → InPlay s i
  names : t.planets.map (·.name) = s.planets.map (·.name)

theorem Earlier.refl (s : PlanetWars F) : Earlier s s := ⟨fun _ h => h, rfl⟩

theorem Earlier.trans {s t u : PlanetWars F} (h : Earlier s t) (h' : Earlier t u) : Earlier s u :=
  ⟨fun i hi => h.inPlay i (h'.inPlay i hi), h'.names.trans h.names⟩

/-- The states of the game that was logged, from the first one to the current one. -/
structure Chronicle (start : PlanetWars F) (states : List (PlanetWars F)) (c : PwController F) :
    Prop where
  logged : logged c.channels = states.map (·.view 0)
  opening : states.head? = some start
  current : states.getLast? = some c.state
  length : states.length = c.state.turnNum + 1
  valid : ∀ s ∈ states, Valid s
  earlier : ∀ s ∈ states, Earlier start s
  flags : 1 ≤ c.state.turnNum → FlagsExact c.state

section Run
variable [F64 F] [External F] {rt : Runtime} {lobby : Lobby F} {start : PlanetWars F}

omit [F64 F] in
theorem Started.chronicle {c : PwController F} (h : Started rt lobby c)
    (hstart : PwController.createGame lobby = .ok start) : Chronicle start [start] c := by
  have hstate := h.state_eq hstart
  have hvalid := h.consistent.settled.toValid
  obtain ⟨conf, state, hcreate, hcreated, hprompted⟩ := h.opened
  rw [hstart] at hcreate
  cases hcreate
  rw [hstate] at hvalid
  refine ⟨?_, rfl, by rw [hstate]; rfl, by rw [hstate, hcreated.turnNum]; rfl, ?_, ?_, ?_⟩
  · rw [hprompted.logged]
    exact logged_opening lobby start
  · intro s hs
    rwa [List.mem_singleton.mp hs]
  · intro s hs
    rw [List.mem_singleton.mp hs]
    exact .refl start
  · intro hturn
    rw [hstate, hcreated.turnNum] at hturn
    cases hturn

/-- A turn adds the state it leads to. -/
theorem Chronicle.stepped {states : List (PlanetWars F)} {c c' : PwController F} {rt' : Runtime}
    {messages : HashMap PlayerId ResponseValue} (h : Chronicle start states c) (hc : c.Orderly)
    (hstep : PwController.Stepped rt' messages { c with commands := ∅ } c') :
    Chronicle start (states ++ [c'.state]) c' := by
  obtain ⟨actions, htaken, hlogged⟩ := hstep.logged hc.control
  have hnd := HashMap.nodup_fst_entriesIn rt'.drainOrder messages
  have hmem : c.state ∈ states := List.mem_of_getLast? h.current
  have hearlier : Earlier start c'.state :=
    (h.earlier c.state hmem).trans
      ⟨fun _ hi => inPlay_taken hc.consistent hnd htaken hi, htaken.map_name⟩
  refine ⟨?_, ?_, List.getLast?_concat, ?_, ?_, ?_, fun _ i p hp => alive_iff_of_stepped htaken.stepped hp⟩
  · rw [hlogged, List.map_append]
    exact congrArg (· ++ [c'.state.view 0]) h.logged
  · rw [List.head?_append, h.opening]
    rfl
  · have hturn : c'.state.turnNum = c.state.turnNum + 1 := htaken.turnNum
    rw [List.length_append, h.length, hturn]
    rfl
  · intro s hs
    rcases List.mem_append.mp hs with hs | hs
    · exact h.valid s hs
    · rw [List.mem_singleton.mp hs]
      exact (hc.consistent.taken hnd htaken).settled.toValid
  · intro s hs
    rcases List.mem_append.mp hs with hs | hs
    · exact h.earlier s hs
    · rw [List.mem_singleton.mp hs]
      exact hearlier

/-- What was logged of a match is the course of its game. -/
theorem run_chronicle (hstart : PwController.createGame lobby = .ok start)
    (inputs : List (Runtime × Input)) :
    Safe (fun _ => True)
      (fun s => ∀ c, s.game.controller? = some c → ∃ states, Chronicle start states c)
      (System.run rt lobby inputs) := by
  apply System.run_orderly
  · intro c hc
    exact ⟨_, hc.chronicle hstart⟩
  · intro c i v hc
    obtain ⟨states, h⟩ := hc
    exact ⟨states, h.logged, h.opening, h.current, h.length, h.valid, h.earlier, h.flags⟩
  · intro rt' messages c c' horderly hstep hc
    obtain ⟨states, h⟩ := hc
    exact ⟨_, h.stepped horderly hstep⟩

end Run
end Mozaic.Controller
