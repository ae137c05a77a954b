import Mozaic.Controller.Turn

/-! A match together with the request handlers of its clients, from the start of the
game on. A handler turns an issued request into at most one response. -/
namespace Mozaic.Controller
open Rust Rules Network Outcome

variable {F : Type}

/-- What the handlers of the clients may report, in any order. -/
inductive Input where
  | connected (clientId : ClientId)
  | disconnected (clientId : ClientId)
  | message (clientId : ClientId) (messageId : MessageId) (data : Bytes)
  | response (requestId : RequestId) (value : ResponseValue)

def Input.answers : Input → List (RequestId × ResponseValue)
  | .response requestId value => [(requestId, value)]
  | _ => []

/-- The requests on the channels. -/
def issued (channels : Channels F) : List RequestId :=
  channels.filterMap fun s => s.command.requestNum?.map fun num => ⟨s.clientId, num⟩

@[simp] theorem issued_append (channels channels' : Channels F) :
    issued (channels ++ channels') = issued channels ++ issued channels' := by
  simp [issued]

/-- A match and the responses it was given so far. -/
structure System (F : Type) where
  game : PwMatchState F
  answered : List (RequestId × ResponseValue)

namespace System

/-- The event an input leads to. Only a request that was issued and not answered yet
has a response. -/
def event (s : System F) : Input → Option Event
  | .connected clientId => some ⟨clientId, .connected⟩
  | .disconnected clientId => some ⟨clientId, .disconnected⟩
  | .message clientId messageId data => some ⟨clientId, .message messageId data⟩
  | .response requestId value =>
    if requestId ∈ issued s.game.channels ∧ requestId ∉ s.answered.map Prod.fst then
      some ⟨requestId.clientId, .response requestId value⟩
    else none

variable [F64 F] [External F]

/-- A match that is finished is not polled again. -/
def deliver (s : System F) (rt : Runtime) (input : Input) : Except Panic (System F) :=
  match s.game, s.event input with
  | .finished _, _ => pure s
  | _, none => pure s
  | game, some event => do
    let game ← game.poll rt event
    pure ⟨game, s.answered ++ input.answers⟩

/-- The match right after its game was started. -/
def start (rt : Runtime) (lobby : Lobby F) : Except Panic (System F) := do
  let controller ← PwController.new rt lobby
  pure ⟨.playing controller, []⟩

def run (rt : Runtime) (lobby : Lobby F) (inputs : List (Runtime × Input)) :
    Except Panic (System F) := do
  let s ← start rt lobby
  inputs.foldlM (fun s input => s.deliver input.1 input.2) s

end System

/-! ## The start of a game -/

/-- The clients in the order of their player ids. -/
def roster (rt : Runtime) (lobby : Lobby F) : List ClientId :=
  rt.lobbyOrder.order lobby.players.keys

theorem nodup_roster (rt : Runtime) (lobby : Lobby F) : (roster rt lobby).Nodup :=
  rt.lobbyOrder.nodup _

theorem ctrlId_not_mem_roster (rt : Runtime) (lobby : Lobby F) : ctrlId ∉ roster rt lobby := by
  intro h
  obtain ⟨handle, hl⟩ := Finmap.mem_iff.mp (HashMap.mem_order_keys.mp h)
  exact (lobby.fresh _ _ hl).2.1 rfl

theorem length_roster (rt : Runtime) (lobby : Lobby F) :
    (roster rt lobby).length = lobby.players.keys.card := by
  rw [roster, ← HashMap.map_fst_entriesIn, List.length_map, HashMap.length_entriesIn]

/-- The controller before it starts the game. -/
def enrolled (rt : Runtime) (lobby : Lobby F) (state : PlanetWars F) : PwController F where
  toGame := Game.ofState state
  ctrlHandle := lobby.ctrlHandle
  clientPlayer := HashMap.collect
    ((lobby.players.entriesIn rt.lobbyOrder).zipIdx.map fun e => (e.1.1, e.2))
  players := HashMap.collect
    ((lobby.players.entriesIn rt.lobbyOrder).zipIdx.map fun e => (e.2, ⟨e.2, e.1.2⟩))
  waitingFor := ∅
  commands := ∅
  channels := lobby.channels
  turns := []

private theorem mem_zipIdx_clients {rt : Runtime} {lobby : Lobby F} {c : ClientId}
    {handle : ClientHandle} {i : Nat} :
    ((c, handle), i) ∈ (lobby.players.entriesIn rt.lobbyOrder).zipIdx ↔
      (roster rt lobby)[i]? = some c ∧ handle = ⟨c, 0⟩ := by
  have hfresh {j : Nat} {c : ClientId} {handle : ClientHandle}
      (h : (lobby.players.entriesIn rt.lobbyOrder)[j]? = some (c, handle)) : handle = ⟨c, 0⟩ :=
    (lobby.fresh _ _ (HashMap.mem_entriesIn.mp (List.mem_of_getElem? h))).1
  rw [List.mk_mem_zipIdx_iff_getElem?, roster, ← HashMap.map_fst_entriesIn, List.getElem?_map]
  constructor
  · intro h
    exact ⟨by rw [h]; rfl, hfresh h⟩
  · intro h
    obtain ⟨h, rfl⟩ := h
    obtain ⟨⟨c', handle⟩, he, rfl⟩ := Option.map_eq_some_iff.mp h
    rw [he, hfresh he]

theorem lookup_clientPlayer_enrolled {rt : Runtime} {lobby : Lobby F} (state : PlanetWars F)
    {c : ClientId} {i : PlayerId} :
    (enrolled rt lobby state).clientPlayer.lookup c = some i ↔ (roster rt lobby)[i]? = some c := by
  have hkeys : ((lobby.players.entriesIn rt.lobbyOrder).zipIdx.map fun e => (e.1.1, e.2)).map
      Prod.fst = (lobby.players.entriesIn rt.lobbyOrder).map Prod.fst := by
    conv_rhs => rw [← List.zipIdx_map_fst 0 (lobby.players.entriesIn rt.lobbyOrder)]
    rw [List.map_map, List.map_map]
    rfl
  rw [enrolled, HashMap.lookup_collect_of_nodup (hkeys ▸ HashMap.nodup_fst_entriesIn _ _)]
  simp only [List.mem_map, Prod.exists, Prod.mk.injEq, mem_zipIdx_clients]
  constructor
  · intro h
    obtain ⟨_, _, _, ⟨h, _⟩, rfl, rfl⟩ := h
    exact h
  · exact fun h => ⟨c, ⟨c, 0⟩, i, ⟨h, rfl⟩, rfl, rfl⟩

theorem lookup_players_enrolled {rt : Runtime} {lobby : Lobby F} (state : PlanetWars F)
    {i : PlayerId} {p : Player} :
    (enrolled rt lobby state).players.lookup i = some p ↔
      ∃ c, (roster rt lobby)[i]? = some c ∧ p = ⟨i, ⟨c, 0⟩⟩ := by
  have hkeys : ((lobby.players.entriesIn rt.lobbyOrder).zipIdx.map fun e =>
      (e.2, (⟨e.2, e.1.2⟩ : Player))).map Prod.fst =
      List.range' 0 (lobby.players.entriesIn rt.lobbyOrder).length := by
    rw [← List.zipIdx_map_snd, List.map_map]
    rfl
  rw [enrolled, HashMap.lookup_collect_of_nodup (hkeys ▸ List.nodup_range')]
  simp only [List.mem_map, Prod.exists, Prod.mk.injEq, mem_zipIdx_clients]
  constructor
  · intro h
    obtain ⟨c, _, _, ⟨h, rfl⟩, rfl, rfl⟩ := h
    exact ⟨c, h, rfl⟩
  · intro h
    obtain ⟨c, h, rfl⟩ := h
    exact ⟨c, ⟨c, 0⟩, i, ⟨h, rfl⟩, rfl, rfl⟩

/-- The controller `c` of a game that was just started. -/
structure Started [External F] (rt : Runtime) (lobby : Lobby F) (c : PwController F) : Prop where
  opened : ∃ conf state, PwController.createGame lobby = .ok state ∧
    Created conf lobby.players.keys.card state ∧
    PwController.Prompted rt { enrolled rt lobby state with
      channels := lobby.channels ++ [logSent lobby.ctrlHandle state] } c

theorem Started.state_eq [External F] {rt : Runtime} {lobby : Lobby F} {c : PwController F}
    (h : Started rt lobby c) {start : PlanetWars F}
    (hstart : PwController.createGame lobby = .ok start) : c.state = start := by
  obtain ⟨_, state, hstate, _, hprompted⟩ := h.opened
  rw [hstart] at hstate
  cases hstate
  exact congrArg Game.state hprompted.toGame

/-- How starting a game may fail. -/
def StartPanic [External F] (lobby : Lobby F) (e : Panic) : Prop :=
  PwController.createGame lobby = .error e ∨ e = .addOverflow .requestCounter

theorem createGame_created [External F] {lobby : Lobby F} {state : PlanetWars F}
    (h : PwController.createGame lobby = .ok state) :
    ∃ conf, Created conf lobby.players.keys.card state := by
  simp only [PwController.createGame, bind_eq_ok] at h
  obtain ⟨_, _, conf, _, hstate⟩ := h
  exact ⟨conf, (conf.createGame_safe _).of_ok hstate⟩

theorem new_safe [External F] (rt : Runtime) (lobby : Lobby F) :
    Safe (StartPanic lobby) (Started rt lobby) (PwController.new rt lobby) := by
  rw [PwController.new]
  cases hc : PwController.createGame lobby with
  | error e => exact .inl hc
  | ok state =>
    obtain ⟨conf, hs⟩ := createGame_created hc
    have hvalid : Valid state := hs.settled.toValid
    rw [ok_bind]
    change Safe _ _ ((enrolled rt lobby state).startGame rt)
    rw [PwController.startGame, PwController.logState_eq (c := enrolled rt lobby state) hvalid,
      ok_bind]
    refine (PwController.promptPlayers_safe hvalid fun i p hp => ?_).mono
      (fun _ he => .inr he) fun c h => ⟨conf, state, hc, hs, h⟩
    obtain ⟨cl, hcl, rfl⟩ := (lookup_players_enrolled state).mp hp
    have hlt := (List.getElem?_eq_some_iff.mp hcl).1
    rw [length_roster] at hlt
    have hlen : state.players.length = lobby.players.keys.card := by simp [hs.players]
    exact ⟨rfl, hlen ▸ hlt⟩

/-! ## A small match -/

section Skirmish

/-- Whole coordinates, with the distances that are whole. -/
instance : F64 Int where
  sub := (· - ·)
  add := (· + ·)
  powi := (· ^ ·)
  sqrt := Int.sqrt
  ceil := id
  asU64 := Int.toNat

def skirmishMap : String :=
  "\x7b\"planets\":[\x7b\"ship_count\":6,\"x\":0,\"y\":0,\"owner\":1,\"name\":\"a\"\x7d," ++
    "\x7b\"ship_count\":6,\"x\":3,\"y\":4,\"owner\":2,\"name\":\"b\"\x7d]\x7d"

/-- `{"map_file":"m","max_turns":9}` in ASCII. -/
def skirmishConf : Bytes :=
  [123, 34, 109, 97, 112, 95, 102, 105, 108, 101, 34, 58, 34, 109, 34, 44, 34, 109, 97, 120, 95,
    116, 117, 114, 110, 115, 34, 58, 57, 125]

/-- A server with one map, on which nobody has anything to say. -/
instance : External Int where
  readFile path := if path = "m" then some skirmishMap else none
  mapFromStr text :=
    if text = skirmishMap then some ⟨[⟨6, 0, 0, some 1, "a"⟩, ⟨6, 3, 4, some 2, "b"⟩]⟩ else none
  configFromSlice data := if data = skirmishConf then some ⟨"m", 9⟩ else none
  actionFromSlice _ := .error "expected value at line 1 column 1"
  decodeLobbyMessage _ := none

def skirmishRuntime : Runtime where
  now := 0
  lobbyOrder := .ascending ClientId.num ClientId.mk (fun _ => rfl) fun _ _ => congrArg ClientId.num
  drainOrder := .ascending id id (fun _ => rfl) Function.injective_id
  retainOrder := .ascending id id (fun _ => rfl) Function.injective_id

/-- A lobby with a client for each of the tokens. -/
def skirmishLobby (tokens : List Bytes) : Lobby Int :=
  (tokens.foldl Lobby.enter (Lobby.new [0] .new)).configure skirmishConf

/-- The game of two clients. -/
def skirmishStart : PlanetWars Int where
  players := [⟨0, true⟩, ⟨1, true⟩]
  planets := [⟨0, "a", [⟨some 0, 6⟩], 0, 0⟩, ⟨1, "b", [⟨some 1, 6⟩], 3, 4⟩]
  expeditions := []
  expeditionNum := 0
  turnNum := 0
  maxTurns := 9

theorem createGame_skirmish :
    PwController.createGame (skirmishLobby [[1], [2]]) = .ok skirmishStart := by
  decide +kernel

end Skirmish

section March

/-- The grid of the small match, on which players do have something to say. -/
def Grid : Type := Int

instance : DecidableEq Grid := inferInstanceAs (DecidableEq Int)

instance : F64 Grid := inferInstanceAs (F64 Int)

def march : Proto.Command := { origin := "a", destination := "b", shipCount := 4 }

instance : External Grid where
  readFile path := if path = "m" then some skirmishMap else none
  mapFromStr text :=
    if text = skirmishMap then
      some ⟨[⟨6, (0 : Int), (0 : Int), some 1, "a"⟩, ⟨6, (3 : Int), (4 : Int), some 2, "b"⟩]⟩
    else none
  configFromSlice data := if data = skirmishConf then some ⟨"m", 9⟩ else none
  actionFromSlice data :=
    if data = [1] then .ok ⟨[march, march]⟩ else .error "expected value at line 1 column 1"
  decodeLobbyMessage _ := none

def marchLobby : Lobby Grid :=
  ([[1], [2]].foldl Lobby.enter (Lobby.new [0] .new)).configure skirmishConf

def marchStart : PlanetWars Grid where
  players := [⟨0, true⟩, ⟨1, true⟩]
  planets := [⟨0, "a", [⟨some 0, 6⟩], (0 : Int), (0 : Int)⟩,
    ⟨1, "b", [⟨some 1, 6⟩], (3 : Int), (4 : Int)⟩]
  expeditions := []
  expeditionNum := 0
  turnNum := 0
  maxTurns := 9

end March
end Mozaic.Controller
