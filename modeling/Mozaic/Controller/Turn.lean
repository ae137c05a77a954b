import Mozaic.Controller.Basic
import Mozaic.Game.Turn
import Mozaic.Game.View

/-! What each operation of the controller does, as one statement each. -/
namespace Mozaic
open Rust Rules Network Outcome

variable {F : Type}

def Rules.PlanetWars.aliveAt (s : PlanetWars F) (i : PlayerId) : Bool :=
  (s.players[i]?.map (·.alive)).getD false

namespace Controller

namespace Player

/-- The state as this player is shown it. -/
def viewOf (p : Player) (s : PlanetWars F) : Proto.State F := s.view (s.players.length - p.id)

/-- The player after one more request. -/
def prompted (p : Player) : Player :=
  { p with handle := { p.handle with requestCounter := p.handle.requestCounter + 1 } }

/-- The id of the next request. -/
def requestId (p : Player) : RequestId := ⟨p.handle.clientId, p.handle.requestCounter⟩

@[simp] theorem prompted_id (p : Player) : p.prompted.id = p.id := rfl
@[simp] theorem prompted_clientId (p : Player) :
    p.prompted.handle.clientId = p.handle.clientId := rfl

theorem serializedState_eq {p : Player} {s : PlanetWars F} (hs : Valid s)
    (hp : p.id ≤ s.players.length) : p.serializedState s = .ok (p.viewOf s) := by
  rw [serializedState, checkedSub_of_le hp, ok_bind, serializeRotated_eq hs, viewOf]

end Player

/-! ## What is sent -/

/-- A state is logged on the control channel. -/
def logSent (handle : ClientHandle) (s : PlanetWars F) : Sent F :=
  ⟨handle.clientId, .message (.control (.gameState (s.view 0)))⟩

/-- A player gets the concluding state. -/
def finalSent (s : PlanetWars F) (p : Player) : Sent F :=
  ⟨p.handle.clientId, .message (.server (.finalState (p.viewOf s)))⟩

/-- A player is prompted. -/
def requestSent (s : PlanetWars F) (deadline : Instant) (p : Player) : Sent F :=
  ⟨p.handle.clientId, .request p.handle.requestCounter (.server (.gameState (p.viewOf s))) deadline⟩

/-- What `prompt_players` sends to one player. -/
def promptSent (s : PlanetWars F) (deadline : Instant) (e : PlayerId × Player) : Sent F :=
  if s.aliveAt e.1 then requestSent s deadline e.2 else finalSent s e.2

/-- The requests `prompt_players` issues. -/
def requestsTo (s : PlanetWars F) (entries : List (PlayerId × Player)) :
    List (PlayerId × RequestId) :=
  (entries.filter fun e => s.aliveAt e.1).map fun e => (e.1, e.2.requestId)

/-- What `execute_messages` sends about one message. -/
def actionSent (players : HashMap PlayerId Player) (a : PlayerId × Proto.PlayerAction) : Sent F :=
  ⟨((players.lookup a.1).map (·.handle.clientId)).getD ctrlId,
    .message (.server (.playerAction a.2))⟩

namespace PwController

/-- Players are kept under their own id, which belongs to the game. -/
def Seated (c : PwController F) : Prop :=
  ∀ i p, c.players.lookup i = some p → p.id = i ∧ i < c.state.players.length

theorem logState_eq {c : PwController F} (hs : Valid c.state) :
    c.logState = .ok { c with channels := c.channels ++ [logSent c.ctrlHandle c.state] } := by
  rw [logState, serialize_eq hs, ok_bind]
  rfl

/-! ## Prompting -/

/-- The controller `c'` after `c` prompted its players. -/
structure Prompted (rt : Runtime) (c c' : PwController F) : Prop where
  toGame : c'.toGame = c.toGame
  ctrlHandle : c'.ctrlHandle = c.ctrlHandle
  clientPlayer : c'.clientPlayer = c.clientPlayer
  commands : c'.commands = c.commands
  players : ∀ i, c'.players.lookup i =
    if c.state.aliveAt i then (c.players.lookup i).map Player.prompted else none
  waitingFor : ∀ i, i ∈ c'.waitingFor ↔ i ∈ c.waitingFor ∨ c.state.aliveAt i ∧ i ∈ c.players
  channels : c'.channels = c.channels ++
    (c.players.entriesIn rt.retainOrder).map (promptSent c.state (rt.now + fromSecs 1))
  turns : c'.turns = ⟨c.state, requestsTo c.state (c.players.entriesIn rt.retainOrder), []⟩ :: c.turns

/-- The controller after the players `done` were prompted. -/
private structure Prompting (deadline : Instant) (c : PwController F)
    (done : List (PlayerId × Player)) (t : PwController F) : Prop where
  toGame : t.toGame = c.toGame
  ctrlHandle : t.ctrlHandle = c.ctrlHandle
  clientPlayer : t.clientPlayer = c.clientPlayer
  commands : t.commands = c.commands
  players : ∀ i, t.players.lookup i =
    if i ∈ done.map Prod.fst then
      if c.state.aliveAt i then (c.players.lookup i).map Player.prompted else none
    else c.players.lookup i
  waitingFor : ∀ i, i ∈ t.waitingFor ↔
    i ∈ c.waitingFor ∨ c.state.aliveAt i ∧ i ∈ done.map Prod.fst
  channels : t.channels = c.channels ++ done.map (promptSent c.state deadline)
  turns : t.turns = ⟨c.state, requestsTo c.state done, []⟩ :: c.turns

private theorem Prompting.step {deadline : Instant} {c t : PwController F}
    {done : List (PlayerId × Player)} (hs : Valid c.state) (hseat : c.Seated)
    (h : Prompting deadline c done t) {i : PlayerId} {p : Player}
    (hp : c.players.lookup i = some p) :
    Safe (fun e => e = .addOverflow .requestCounter) (Prompting deadline c (done ++ [(i, p)]))
      (promptPlayer deadline t (i, p)) := by
  obtain ⟨hid, hi⟩ := hseat i p hp
  have hplayer := List.getElem?_eq_getElem hi
  have hview : p.serializedState c.state = .ok (p.viewOf c.state) :=
    Player.serializedState_eq hs (hid ▸ Nat.le_of_lt hi)
  have halive : c.state.aliveAt i = c.state.players[i].alive := by
    simp [PlanetWars.aliveAt, hplayer]
  have hmem (j : PlayerId) : j ∈ (done ++ [(i, p)]).map Prod.fst ↔ j ∈ done.map Prod.fst ∨ j = i := by
    simp
  simp only [promptPlayer, h.toGame, index_of_getElem? hplayer, ok_bind, ← halive]
  split
  · rename_i ha
    simp only [Player.prompt, hview, ok_bind, ClientHandle.request, bind_assoc, pure_bind]
    refine Safe.bind (P := (· = p.handle.requestCounter + 1))
      (checkedAdd_safe (fun _ => rfl) fun _ => rfl) ?_
    intro _ heq
    subst heq
    exact
      { toGame := rfl
        ctrlHandle := h.ctrlHandle
        clientPlayer := h.clientPlayer
        commands := h.commands
        players := fun j => by
          simp only [HashMap.lookup_insert_eq, hmem, h.players]
          by_cases hj : j = i
          · subst j
            simp [ha, hp, Player.prompted]
          · simp only [hj, or_false, if_false]
        waitingFor := fun j => by
          simp only [Finset.mem_insert, h.waitingFor, hmem, hid]
          constructor
          · intro h
            rcases h with rfl | h | ⟨h₁, h₂⟩
            · exact .inr ⟨ha, .inr rfl⟩
            · exact .inl h
            · exact .inr ⟨h₁, .inl h₂⟩
          · intro h
            rcases h with h | ⟨h₁, h₂ | rfl⟩
            · exact .inr (.inl h)
            · exact .inr (.inr ⟨h₁, h₂⟩)
            · exact .inl rfl
        channels := by simp [h.channels, promptSent, ha, requestSent]
        turns := by simp [h.turns, Turn.request, requestsTo, ha, Player.requestId] }
  · rename_i ha
    simp only [Player.sendFinalState, hview, ok_bind, pure_bind]
    exact
      { toGame := rfl
        ctrlHandle := h.ctrlHandle
        clientPlayer := h.clientPlayer
        commands := h.commands
        players := fun j => by
          simp only [HashMap.lookup_erase_eq, hmem, h.players]
          by_cases hj : j = i
          · subst j
            simp [ha]
          · simp only [hj, or_false, if_false]
        waitingFor := fun j => by
          simp only [h.waitingFor, hmem]
          constructor
          · exact fun h => h.imp_right fun h => ⟨h.1, .inl h.2⟩
          · intro h
            rcases h with h | ⟨h₁, h₂ | rfl⟩
            · exact .inl h
            · exact .inr ⟨h₁, h₂⟩
            · exact absurd h₁ ha
        channels := by simp [h.channels, promptSent, ha, finalSent, ClientHandle.send]
        turns := by simp [h.turns, requestsTo, ha] }

/-- Prompting can only fail by too many requests. -/
theorem promptPlayers_safe {rt : Runtime} {c : PwController F} (hs : Valid c.state)
    (hseat : c.Seated) :
    Safe (fun e => e = .addOverflow .requestCounter) (Prompted rt c) (c.promptPlayers rt) := by
  rw [promptPlayers]
  refine Safe.weaken (Safe.foldlM_prefix (I := Prompting (rt.now + fromSecs 1) c) ?_ ?_) ?_
  · exact
      { toGame := rfl
        ctrlHandle := rfl
        clientPlayer := rfl
        commands := rfl
        players := by simp
        waitingFor := by simp
        channels := by simp
        turns := rfl }
  · rintro done ⟨i, p⟩ rest hl t ht
    have hmem : (i, p) ∈ c.players.entriesIn rt.retainOrder := by simp [hl]
    exact ht.step hs hseat (HashMap.mem_entriesIn.mp hmem)
  · intro c' h
    have hkeys (i : PlayerId) :
        i ∈ (c.players.entriesIn rt.retainOrder).map Prod.fst ↔ i ∈ c.players := by
      rw [HashMap.map_fst_entriesIn, HashMap.mem_order_keys]
    exact
      { toGame := h.toGame
        ctrlHandle := h.ctrlHandle
        clientPlayer := h.clientPlayer
        commands := h.commands
        players := fun i => by
          simp only [h.players, hkeys]
          split
          · rfl
          · rename_i hi
            simp [Finmap.lookup_eq_none.mpr hi]
        waitingFor := fun i => by rw [h.waitingFor, hkeys]
        channels := h.channels
        turns := h.turns }

/-! ## Finishing -/

/-- The controller `c'` after `c` sent everybody the concluding state. -/
structure Finished (rt : Runtime) (c c' : PwController F) : Prop where
  toGame : c'.toGame = c.toGame
  clientPlayer : c'.clientPlayer = c.clientPlayer
  players : c'.players = ∅
  channels : c'.channels =
    c.channels ++ (c.players.entriesIn rt.retainOrder).map fun e => finalSent c.state e.2
  turns : c'.turns = c.turns

/-- The controller after the players `done` got the concluding state. -/
private structure Finishing (c : PwController F) (done : List (PlayerId × Player))
    (t : PwController F) : Prop where
  toGame : t.toGame = c.toGame
  clientPlayer : t.clientPlayer = c.clientPlayer
  players : ∀ i, t.players.lookup i =
    if i ∈ done.map Prod.fst then none else c.players.lookup i
  channels : t.channels = c.channels ++ done.map fun e => finalSent c.state e.2
  turns : t.turns = c.turns

/-- Finishing a game does not fail. -/
theorem finishGame_safe {A : Panic → Prop} {rt : Runtime} {c : PwController F}
    (hs : Valid c.state) (hseat : c.Seated) : Safe A (Finished rt c) (c.finishGame rt) := by
  rw [finishGame]
  refine Safe.weaken (Safe.foldlM_prefix (I := Finishing c) ?_ ?_) ?_
  · exact { toGame := rfl, clientPlayer := rfl, players := by simp, channels := by simp, turns := rfl }
  · rintro done ⟨i, p⟩ rest hl t ht
    have hmem : (i, p) ∈ c.players.entriesIn rt.retainOrder := by simp [hl]
    obtain ⟨hid, hi⟩ := hseat i p (HashMap.mem_entriesIn.mp hmem)
    have hview : p.serializedState c.state = .ok (p.viewOf c.state) :=
      Player.serializedState_eq hs (hid ▸ Nat.le_of_lt hi)
    simp only [finishPlayer, ht.toGame, Player.sendFinalState, hview, ok_bind, pure_bind]
    exact
      { toGame := rfl
        clientPlayer := ht.clientPlayer
        players := fun j => by
          simp only [HashMap.lookup_erase_eq, ht.players, List.map_append, List.map_singleton,
            List.mem_append, List.mem_singleton]
          by_cases hj : j = i
          · simp only [hj, if_true, or_true]
          · simp only [hj, if_false, or_false]
        channels := by simp [ht.channels, finalSent, ClientHandle.send]
        turns := ht.turns }
  · intro c' h
    exact
      { toGame := h.toGame
        clientPlayer := h.clientPlayer
        players := Finmap.ext_lookup fun i => by
          simp only [h.players, HashMap.map_fst_entriesIn, HashMap.mem_order_keys,
            Finmap.lookup_empty]
          split
          · rfl
          · exact Finmap.lookup_eq_none.mpr ‹_›
        channels := h.channels
        turns := h.turns }

/-! ## Playing a turn -/

section Playing
variable [F64 F] [External F]

/-- The controller once the game moved on to `g` and the players were told about
their actions. -/
def reported (c : PwController F) (g : Game F)
    (actions : List (PlayerId × Proto.PlayerAction)) : PwController F :=
  { c with toGame := g, channels := c.channels ++ actions.map (actionSent c.players) }

/-- What happens to the game while messages are executed is what `Game.executeMessages`
says. -/
theorem executeMessages_eq {c : PwController F} {messages : HashMap PlayerId ResponseValue}
    (h : ∀ i, i ∈ messages → i ∈ c.players) (rt : Runtime) :
    c.executeMessages rt messages =
      (fun r => c.reported r.1 r.2) <$>
        c.toGame.executeMessages (messages.entriesIn rt.drainOrder) := by
  have hstep : ∀ m ∈ messages.entriesIn rt.drainOrder,
      ∀ s : Game F × List (PlayerId × Proto.PlayerAction),
      (fun r => c.reported r.1 r.2) <$> Game.executeMessage s m =
        executeMessage (c.reported s.1 s.2) m := by
    rintro ⟨i, result⟩ hm ⟨g, actions⟩
    have hi : i ∈ c.players := h i (Finmap.mem_iff.mpr ⟨_, HashMap.mem_entriesIn.mp hm⟩)
    obtain ⟨p, hp⟩ := Finmap.mem_iff.mp hi
    simp only [Game.executeMessage, executeMessage, reported, hp, unwrap_some, ok_bind]
    cases g.executeAction i result with
    | error e => rfl
    | ok r =>
      simp [pure, Except.pure, actionSent, hp, Player.sendAction, ClientHandle.send]
  have hrun := map_foldlM (g := id) hstep (c.toGame, [])
  rw [List.map_id] at hrun
  rw [executeMessages, Game.executeMessages, hrun]
  simp [reported]

/-- What a turn of the controller does to the game is what `Game.turn` says. -/
theorem step_eq {c : PwController F} {messages : HashMap PlayerId ResponseValue}
    (h : ∀ i, i ∈ messages → i ∈ c.players) (rt : Runtime) :
    c.step rt messages = c.toGame.turn ⟨rt.drainOrder, messages⟩ >>= fun r =>
      logState { c.reported r.1 r.2 with turns := Turn.call messages c.turns } >>= fun c' =>
        if c'.state.isFinished then c'.finishGame rt else c'.promptPlayers rt := by
  unfold step Game.turn
  simp only [bind_assoc]
  congr 1
  funext state
  set c₁ : PwController F := { c with turns := Turn.call messages c.turns, state := state }
  have hexec : c₁.executeMessages rt messages = (fun r => c₁.reported r.1 r.2) <$>
      ({ c.toGame with state } : Game F).executeMessages (messages.entriesIn rt.drainOrder) :=
    executeMessages_eq (c := c₁) h rt
  rw [hexec]
  cases ({ c.toGame with state } : Game F).executeMessages (messages.entriesIn rt.drainOrder) with
  | error e => rfl
  | ok r =>
    simp only [map_ok, ok_bind, reported]
    cases r.1.state.step <;> rfl

/-- The controller when the turn's result was logged. -/
def played (c : PwController F) (messages : HashMap PlayerId ResponseValue) (g : Game F)
    (actions : List (PlayerId × Proto.PlayerAction)) : PwController F :=
  { c with
    toGame := g
    channels := c.channels ++ actions.map (actionSent c.players) ++ [logSent c.ctrlHandle g.state]
    turns := Turn.call messages c.turns }

/-- The controller `c'` a turn after `c`. -/
def Stepped (rt : Runtime) (messages : HashMap PlayerId ResponseValue)
    (c c' : PwController F) : Prop :=
  ∃ g actions, TurnTaken c.toGame (messages.entriesIn rt.drainOrder) g actions ∧
    if g.state.isFinished then Finished rt (c.played messages g actions) c'
    else Prompted rt (c.played messages g actions) c'

/-- A turn can only fail by an overflow. -/
theorem step_safe (rt : Runtime) {c : PwController F} {messages : HashMap PlayerId ResponseValue}
    (hc : c.toGame.Consistent) (hseat : c.Seated) (h : ∀ i, i ∈ messages → i ∈ c.players) :
    Safe (fun e => TurnOverflow c.toGame (messages.entriesIn rt.drainOrder) e ∨
        e = .addOverflow .requestCounter)
      (Stepped rt messages c) (c.step rt messages) := by
  have hnd := HashMap.nodup_fst_entriesIn rt.drainOrder messages
  rw [step_eq h]
  refine ((Game.turn_safe hc ⟨rt.drainOrder, messages⟩).mono (fun _ he => .inl he)
    fun _ h => h).bind ?_
  rintro ⟨g, actions⟩ htaken
  have hvalid := (hc.taken hnd htaken).settled.toValid
  have hseat' : (c.played messages g actions).Seated := fun i p hp => by
    obtain ⟨hid, hi⟩ := hseat i p hp
    exact ⟨hid, htaken.length_players ▸ hi⟩
  rw [logState_eq (c := { c.reported g actions with turns := Turn.call messages c.turns }) hvalid,
    ok_bind]
  change Safe _ _ (if g.state.isFinished then (c.played messages g actions).finishGame rt
    else (c.played messages g actions).promptPlayers rt)
  split
  · rename_i hfin
    refine (finishGame_safe hvalid hseat').weaken fun c' h => ⟨g, actions, htaken, ?_⟩
    rwa [if_pos hfin]
  · rename_i hfin
    refine (promptPlayers_safe hvalid hseat').mono (fun _ he => .inr he) fun c' h =>
      ⟨g, actions, htaken, ?_⟩
    rwa [if_neg hfin]

end Playing
end PwController
end Controller
end Mozaic
