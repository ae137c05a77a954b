import Mozaic.Game.Basic
import Mozaic.Rules.Serializer

/-! The match: a lobby, then a game of turns driven by the events of its clients,
then nothing. -/
namespace Mozaic.Controller
open Rust Rules Network

/-- What the runtime decides while one event is handled: the clock, and the order
in which each hash map is run through. -/
structure Runtime where
  now : Instant
  lobbyOrder : IterOrder ClientId
  drainOrder : IterOrder PlayerId
  retainOrder : IterOrder PlayerId

variable {F : Type}

/-! ## The lobby -/

/-- The control client. -/
def ctrlId : ClientId := ⟨0⟩

/-- Every client in the lobby has its own handle, through which nothing was requested. -/
def HandlesFresh (players : HashMap ClientId ClientHandle) (counter : Nat) : Prop :=
  ∀ c h, players.lookup c = some h → h = ⟨c, 0⟩ ∧ c ≠ ctrlId ∧ c.num < counter

/-- Nothing was sent but plain messages to the control client, none about a game. -/
def OnlyControl (channels : Channels F) : Prop :=
  ∀ s ∈ channels, s.clientId = ctrlId ∧ s.command.requestNum? = none ∧
    s.command.loggedState? = none

structure Lobby (F : Type) where
  ctrlHandle : ClientHandle
  routingTable : RoutingTable
  gameData : Option Bytes
  players : HashMap ClientId ClientHandle
  clientCounter : Nat
  channels : Channels F
  control : ctrlHandle = ⟨ctrlId, 0⟩
  started : 0 < clientCounter
  fresh : HandlesFresh players clientCounter
  quiet : OnlyControl channels

theorem handlesFresh_empty (counter : Nat) : HandlesFresh ∅ counter := by
  intro c h hl
  simp at hl

theorem HandlesFresh.insert {players : HashMap ClientId ClientHandle} {counter : Nat}
    (h : HandlesFresh players counter) (hc : 0 < counter) :
    HandlesFresh (players.insert ⟨counter⟩ ⟨⟨counter⟩, 0⟩) (counter + 1) := by
  intro c h' hl
  rw [HashMap.lookup_insert_eq] at hl
  split at hl
  · subst c
    refine ⟨(Option.some.inj hl).symm, fun h => ?_, Nat.lt_succ_self _⟩
    exact Nat.ne_of_gt hc (congrArg ClientId.num h)
  · obtain ⟨heq, hne, hlt⟩ := h c h' hl
    exact ⟨heq, hne, Nat.lt_succ_of_lt hlt⟩

theorem HandlesFresh.erase {players : HashMap ClientId ClientHandle} {counter : Nat}
    (h : HandlesFresh players counter) (c : ClientId) : HandlesFresh (players.erase c) counter := by
  intro c' h' hl
  rw [HashMap.lookup_erase_eq] at hl
  split at hl
  · cases hl
  · exact h c' h' hl

theorem OnlyControl.append {channels : Channels F} (h : OnlyControl channels) {s : Sent F}
    (hs : s.clientId = ctrlId ∧ s.command.requestNum? = none ∧ s.command.loggedState? = none) :
    OnlyControl (channels ++ [s]) := by
  intro s' hs'
  rcases List.mem_append.mp hs' with hs' | hs'
  · exact h s' hs'
  · exact List.mem_singleton.mp hs' ▸ hs

namespace Lobby

def new (ctrlToken : Bytes) (routingTable : RoutingTable) : Lobby F where
  ctrlHandle := ⟨ctrlId, 0⟩
  routingTable := routingTable.register ctrlToken ctrlId
  gameData := none
  players := ∅
  -- start counter at 1, because 0 is the control client
  clientCounter := 1
  channels := []
  control := rfl
  started := Nat.one_pos
  fresh := handlesFresh_empty 1
  quiet := by simp [OnlyControl]

/-- The lobby once the next client entered. -/
def enter (l : Lobby F) (connectionToken : Bytes) : Lobby F :=
  let clientId : ClientId := ⟨l.clientCounter⟩
  { l with
    clientCounter := l.clientCounter + 1
    routingTable := l.routingTable.register connectionToken clientId
    players := l.players.insert clientId ⟨clientId, 0⟩
    started := Nat.succ_pos _
    fresh := l.fresh.insert l.started }

/-- `generate_client_id` and the rest of `add_player`. -/
def addPlayer (l : Lobby F) (connectionToken : Bytes) : Except Panic (ClientId × Lobby F) := do
  let _ ← checkedAdd .clientCounter l.clientCounter 1
  pure (⟨l.clientCounter⟩, l.enter connectionToken)

/-- What `handle_message` keeps of a `StartGame` request. -/
def configure (l : Lobby F) (payload : Bytes) : Lobby F := { l with gameData := some payload }

def removePlayer (l : Lobby F) (clientId : ClientId) : Lobby F :=
  { l with players := l.players.erase clientId, fresh := l.fresh.erase clientId }

def respond (l : Lobby F) (messageId : MessageId) (response : Proto.LobbyResponse) : Lobby F :=
  { l with
    channels := l.ctrlHandle.respond messageId (.lobby response) l.channels
    quiet := l.quiet.append ⟨congrArg ClientHandle.clientId l.control, rfl, rfl⟩ }

def send (l : Lobby F) (msg : Proto.ControlMessage F)
    (hmsg : (Command.message (.control msg)).loggedState? = none) : Lobby F :=
  { l with
    channels := l.ctrlHandle.send (.control msg) l.channels
    quiet := l.quiet.append ⟨congrArg ClientHandle.clientId l.control, rfl, hmsg⟩ }

variable [External F]

def handleMessage (l : Lobby F) (messageId : MessageId) (content : Bytes) :
    Except Panic (Lobby F) :=
  match External.decodeLobbyMessage F content with
  | none => pure l -- skip
  | some none => pure l -- skip
  | some (some (.addPlayer token)) => do
    let (clientId, l) ← l.addPlayer token
    pure (l.respond messageId (.addPlayer clientId.num))
  | some (some (.removePlayer clientId)) =>
    pure ((l.removePlayer ⟨clientId⟩).respond messageId .removePlayer)
  | some (some (.startGame payload)) =>
    pure ((l.configure payload).respond messageId .startGame)

def handleEvent (l : Lobby F) (event : Event) : Except Panic (Lobby F) :=
  match event.content with
  | .connected =>
    if event.clientId ∈ l.players then pure (l.send (.playerConnected event.clientId.num) rfl)
    else pure l
  | .disconnected =>
    if event.clientId ∈ l.players then pure (l.send (.playerDisconnected event.clientId.num) rfl)
    else pure l
  | .message messageId data =>
    if event.clientId = l.ctrlHandle.clientId then l.handleMessage messageId data else pure l
  | .response .. => pure l

end Lobby

/-! ## The players of a game -/

structure Player where
  id : PlayerId
  handle : ClientHandle
deriving DecidableEq, Repr

namespace Player

def serializedState (p : Player) (state : PlanetWars F) : Except Panic (Proto.State F) := do
  let offset ← checkedSub state.players.length p.id
  serializeRotated state offset

def prompt (p : Player) (state : PlanetWars F) (deadline : Instant) (channels : Channels F) :
    Except Panic (RequestId × Player × Channels F) := do
  let s ← p.serializedState state
  let (requestId, handle, channels) ← p.handle.request (.server (.gameState s)) deadline channels
  pure (requestId, { p with handle }, channels)

def sendFinalState (p : Player) (state : PlanetWars F) (channels : Channels F) :
    Except Panic (Channels F) := do
  let s ← p.serializedState state
  pure (p.handle.send (.server (.finalState s)) channels)

def sendAction (p : Player) (action : Proto.PlayerAction) (channels : Channels F) : Channels F :=
  p.handle.send (.server (.playerAction action)) channels

end Player

/-! ## The controller -/

/-- What happened in a turn: the state the players were prompted with, the requests
this took, and the maps `step` was then called with. No function reads it. -/
structure Turn (F : Type) where
  state : PlanetWars F
  requests : List (PlayerId × RequestId)
  calls : List (HashMap PlayerId ResponseValue)

structure PwController (F : Type) extends Game F where
  ctrlHandle : ClientHandle
  clientPlayer : HashMap ClientId PlayerId
  players : HashMap PlayerId Player
  waitingFor : Finset PlayerId
  commands : HashMap PlayerId ResponseValue
  channels : Channels F
  /-- The turns so far, the current one first. -/
  turns : List (Turn F)

namespace Turn

def request (playerId : PlayerId) (requestId : RequestId) : List (Turn F) → List (Turn F)
  | turn :: turns => { turn with requests := turn.requests ++ [(playerId, requestId)] } :: turns
  | [] => []

def call (messages : HashMap PlayerId ResponseValue) : List (Turn F) → List (Turn F)
  | turn :: turns => { turn with calls := turn.calls ++ [messages] } :: turns
  | [] => []

end Turn

namespace PwController

def logState (c : PwController F) : Except Panic (PwController F) := do
  let serializedState ← serialize c.state
  pure { c with channels := c.ctrlHandle.send (.control (.gameState serializedState)) c.channels }

/-- What `prompt_players` does about one player. -/
def promptPlayer (deadline : Instant) (c : PwController F) :
    PlayerId × Player → Except Panic (PwController F)
  | (playerId, player) => do
    if (← index c.state.players playerId).alive then
      let waitingFor := insert player.id c.waitingFor
      let (requestId, player, channels) ← player.prompt c.state deadline c.channels
      -- keep this player in the game
      pure { c with
        waitingFor
        channels
        players := c.players.insert playerId player
        turns := Turn.request playerId requestId c.turns }
    else
      let channels ← player.sendFinalState c.state c.channels
      -- this player is dead, kick him!
      pure { c with channels, players := c.players.erase playerId }

def promptPlayers (rt : Runtime) (c : PwController F) : Except Panic (PwController F) :=
  let deadline := rt.now + fromSecs 1
  (c.players.entriesIn rt.retainOrder).foldlM (promptPlayer deadline)
    { c with turns := ⟨c.state, [], []⟩ :: c.turns }

/-- What `finish_game` does about one player. -/
def finishPlayer (c : PwController F) : PlayerId × Player → Except Panic (PwController F)
  | (playerId, player) => do
    let channels ← player.sendFinalState c.state c.channels
    -- the game is over, we are kicking everyone.
    pure { c with channels, players := c.players.erase playerId }

def finishGame (rt : Runtime) (c : PwController F) : Except Panic (PwController F) :=
  (c.players.entriesIn rt.retainOrder).foldlM finishPlayer c

def startGame (rt : Runtime) (c : PwController F) : Except Panic (PwController F) := do
  let c ← c.logState
  c.promptPlayers rt

section
variable [External F]

/-- The game `PwController::new` creates. -/
def createGame (lobby : Lobby F) : Except Panic (PlanetWars F) := do
  let rawConf ← expect "game data not present in lobby" lobby.gameData
  let conf ← expect "could not parse game data" (External.configFromSlice F rawConf)
  conf.createGame lobby.players.keys.card

def new (rt : Runtime) (lobby : Lobby F) : Except Panic (PwController F) := do
  let state ← createGame lobby
  let clients := (lobby.players.entriesIn rt.lobbyOrder).zipIdx
  let controller : PwController F :=
    { toGame := Game.ofState state
      ctrlHandle := lobby.ctrlHandle
      clientPlayer := HashMap.collect (clients.map fun ((clientId, _), playerNum) =>
        (clientId, playerNum))
      players := HashMap.collect (clients.map fun ((_, clientHandle), playerNum) =>
        (playerNum, ⟨playerNum, clientHandle⟩))
      waitingFor := ∅
      commands := ∅
      channels := lobby.channels
      turns := [] }
  controller.startGame rt

variable [F64 F]

/-- One round of the loop of `execute_messages`. -/
def executeMessage (c : PwController F) :
    PlayerId × ResponseValue → Except Panic (PwController F)
  | (playerId, result) => do
    let (game, playerAction) ← c.toGame.executeAction playerId result
    let player ← unwrap (c.players.lookup playerId)
    pure { c with toGame := game, channels := player.sendAction playerAction c.channels }

def executeMessages (rt : Runtime) (c : PwController F) (msgs : HashMap PlayerId ResponseValue) :
    Except Panic (PwController F) :=
  (msgs.entriesIn rt.drainOrder).foldlM executeMessage c

/-- Advance the game by one turn. -/
def step (rt : Runtime) (c : PwController F) (messages : HashMap PlayerId ResponseValue) :
    Except Panic (PwController F) := do
  let c := { c with turns := Turn.call messages c.turns }
  let state ← c.state.repopulate
  let c ← executeMessages rt { c with state } messages
  let state ← c.state.step
  let c ← logState { c with state }
  if c.state.isFinished then c.finishGame rt else c.promptPlayers rt

/-- Note a response, if the event is one. -/
def receive (c : PwController F) (event : Event) : Except Panic (PwController F) :=
  match event.content with
  | .connected => pure c
  | .disconnected => pure c
  | .message .. => pure c
  | .response _ value => do
    -- we only send requests to players
    let playerId ← unwrap (c.clientPlayer.lookup event.clientId)
    pure { c with
      commands := c.commands.insert playerId value
      waitingFor := c.waitingFor.erase playerId }

def handleEvent (rt : Runtime) (c : PwController F) (event : Event) :
    Except Panic (PwController F) := do
  let c ← c.receive event
  if c.waitingFor = ∅ then step rt { c with commands := ∅ } c.commands else pure c

end
end PwController

/-! ## The match -/

/-- A finished match has dropped its controller; it is kept here for what it sent. -/
inductive PwMatchState (F : Type) where
  | lobby (lobby : Lobby F)
  | playing (controller : PwController F)
  | finished (controller : PwController F)

namespace PwMatchState

def channels : PwMatchState F → Channels F
  | lobby l => l.channels
  | playing c => c.channels
  | finished c => c.channels

/-- The turns of the game, the last one first. -/
def turns : PwMatchState F → List (Turn F)
  | lobby _ => []
  | playing c => c.turns
  | finished c => c.turns

variable [External F] [F64 F]

/-- One iteration of `PwMatch::poll`, on one event. It is ready once the state is
`finished`. -/
def poll (rt : Runtime) (event : Event) : PwMatchState F → Except Panic (PwMatchState F)
  | lobby l => do
    let l ← l.handleEvent event
    if l.gameData.isSome then playing <$> PwController.new rt l else pure (lobby l)
  | playing c => do
    let c ← c.handleEvent rt event
    pure (if c.state.isFinished then finished c else playing c)
  | finished c => pure (finished c)

end PwMatchState
end Mozaic.Controller
