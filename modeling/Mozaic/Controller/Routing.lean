import Mozaic.Controller.System
import Mozaic.Network.Connection

/-! Clients and the server: the match, the routing table, the handler of every client that
was ever registered, and the connections that come in. -/
namespace Mozaic.Controller
open Rust Rules Network Outcome

variable {F : Type}

/-! ## Whom a game sends to -/

/-- The controller knows and has sent to these clients only. -/
structure PwController.Within (ids : ClientId → Prop) (c : PwController F) : Prop where
  control : ids c.ctrlHandle.clientId
  players : ∀ i p, c.players.lookup i = some p → ids p.handle.clientId
  channels : ∀ s ∈ c.channels, ids s.clientId

section Within
variable {ids : ClientId → Prop} {c : PwController F}

private theorem sent_concat {channels : Channels F} (h : ∀ s ∈ channels, ids s.clientId)
    {s : Sent F} (hs : ids s.clientId) : ∀ s' ∈ channels ++ [s], ids s'.clientId := by
  intro s' hs'
  rcases List.mem_append.mp hs' with hs' | hs'
  · exact h s' hs'
  · exact List.mem_singleton.mp hs' ▸ hs

namespace PwController

theorem Within.logState (h : c.Within ids) : Safe (fun _ => True) (Within ids) c.logState :=
  (safe_true _).bind fun _ _ => ⟨h.control, h.players, sent_concat h.channels h.control⟩

/-- A player that was put back. -/
theorem Within.insert (h : c.Within ids) {i : PlayerId} {p : Player} {channels : Channels F}
    (hp : ids p.handle.clientId) (hchannels : ∀ s ∈ channels, ids s.clientId)
    (waitingFor : Finset PlayerId) (turns : List (Turn F)) :
    Within ids { c with players := c.players.insert i p, channels, waitingFor, turns } := by
  refine ⟨h.control, fun j q hq => ?_, hchannels⟩
  rw [HashMap.lookup_insert_eq] at hq
  split at hq
  · exact Option.some.inj hq ▸ hp
  · exact h.players j q hq

theorem Within.erase (h : c.Within ids) (i : PlayerId) {channels : Channels F}
    (hchannels : ∀ s ∈ channels, ids s.clientId) :
    Within ids { c with players := c.players.erase i, channels } := by
  refine ⟨h.control, fun j q hq => ?_, hchannels⟩
  rw [HashMap.lookup_erase_eq] at hq
  split at hq
  · cases hq
  · exact h.players j q hq

theorem Within.promptPlayer (h : c.Within ids) (deadline : Instant) {e : PlayerId × Player}
    (he : ids e.2.handle.clientId) :
    Safe (fun _ => True) (Within ids) (c.promptPlayer deadline e) := by
  apply (safe_true _).bind
  intro player _
  split
  · apply Safe.bind (P := fun r => ids r.2.1.handle.clientId ∧ ∀ s ∈ r.2.2, ids s.clientId)
    · apply (safe_true _).bind
      intro state _
      apply Safe.bind (P := fun r => ids r.2.1.clientId ∧ ∀ s ∈ r.2.2, ids s.clientId)
      · exact (safe_true _).bind fun _ _ => ⟨he, sent_concat h.channels he⟩
      · exact fun _ hr => hr
    · exact fun r hr => h.insert hr.1 hr.2 _ _
  · apply Safe.bind (P := fun r => ∀ s ∈ r, ids s.clientId)
    · exact (safe_true _).bind fun _ _ => sent_concat h.channels he
    · exact fun r hr => h.erase _ hr

theorem Within.finishPlayer (h : c.Within ids) {e : PlayerId × Player}
    (he : ids e.2.handle.clientId) : Safe (fun _ => True) (Within ids) (c.finishPlayer e) := by
  apply Safe.bind (P := fun r => ∀ s ∈ r, ids s.clientId)
  · exact (safe_true _).bind fun _ _ => sent_concat h.channels he
  · exact fun r hr => h.erase _ hr

theorem Within.entry (h : c.Within ids) {ord : IterOrder PlayerId} {e : PlayerId × Player}
    (he : e ∈ c.players.entriesIn ord) : ids e.2.handle.clientId :=
  h.players e.1 e.2 (HashMap.mem_entriesIn.mp he)

theorem Within.promptPlayers (h : c.Within ids) (rt : Runtime) :
    Safe (fun _ => True) (Within ids) (c.promptPlayers rt) :=
  Safe.foldlM ⟨h.control, h.players, h.channels⟩ fun _ he _ hc => hc.promptPlayer _ (h.entry he)

theorem Within.finishGame (h : c.Within ids) (rt : Runtime) :
    Safe (fun _ => True) (Within ids) (c.finishGame rt) :=
  Safe.foldlM h fun _ he _ hc => hc.finishPlayer (h.entry he)

theorem Within.startGame (h : c.Within ids) (rt : Runtime) :
    Safe (fun _ => True) (Within ids) (c.startGame rt) :=
  h.logState.bind fun _ hc => hc.promptPlayers rt

variable [External F] [F64 F]

theorem Within.executeMessage (h : c.Within ids) (m : PlayerId × ResponseValue) :
    Safe (fun _ => True) (Within ids) (c.executeMessage m) := by
  apply (safe_true _).bind
  intro r _
  cases hp : c.players.lookup m.1 with
  | none => simp [unwrap]
  | some p => exact ⟨h.control, h.players, sent_concat h.channels (h.players _ p hp)⟩

theorem Within.step (h : c.Within ids) (rt : Runtime) (messages : HashMap PlayerId ResponseValue) :
    Safe (fun _ => True) (Within ids) (c.step rt messages) := by
  apply (safe_true _).bind
  intro state _
  apply Safe.bind (P := Within ids)
  · exact Safe.foldlM ⟨h.control, h.players, h.channels⟩ fun m _ _ hc => hc.executeMessage m
  · intro c hc
    apply (safe_true _).bind
    intro state _
    apply Safe.bind (P := Within ids)
    · exact Within.logState ⟨hc.control, hc.players, hc.channels⟩
    · intro c hc
      split
      · exact hc.finishGame rt
      · exact hc.promptPlayers rt

theorem Within.handleEvent (h : c.Within ids) (rt : Runtime) (event : Event) :
    Safe (fun _ => True) (Within ids) (c.handleEvent rt event) := by
  apply Safe.bind (P := Within ids)
  · rw [receive]
    split
    · exact h
    · exact h
    · exact h
    · cases hc : c.clientPlayer.lookup event.clientId with
      | none => simp [unwrap]
      | some i => exact ⟨h.control, h.players, h.channels⟩
  · intro c hc
    have hc' : Within ids { c with commands := ∅ } := ⟨hc.control, hc.players, hc.channels⟩
    split
    · exact hc'.step rt _
    · exact hc

end PwController
end Within

/-! ## Whom a match knows -/

namespace PwMatchState

/-- The control client and the players that are in the lobby or in the game. -/
def Member : PwMatchState F → ClientId → Prop
  | .lobby l, id => id = l.ctrlHandle.clientId ∨ id ∈ l.players
  | .playing c, id =>
    id = c.ctrlHandle.clientId ∨ ∃ i p, c.players.lookup i = some p ∧ p.handle.clientId = id
  | .finished _, _ => False

/-- The match knows and has sent to these clients only. -/
structure Within (ids : ClientId → Prop) (m : PwMatchState F) : Prop where
  members : ∀ id, m.Member id → ids id
  channels : ∀ s ∈ m.channels, ids s.clientId

variable [External F]

/-- The client, and its token, that an event adds to the lobby. -/
def spawned? (m : PwMatchState F) (event : Event) : Option (ClientId × Bytes) :=
  match m, event.content with
  | .lobby l, .message _ data =>
    if event.clientId = l.ctrlHandle.clientId then
      match External.decodeLobbyMessage F data with
      | some (some (.addPlayer token)) => some (⟨l.clientCounter⟩, token)
      | _ => none
    else none
  | _, _ => none

end PwMatchState

/-- Only lobbies add clients, each under the next number. -/
theorem PwMatchState.lobby_of_spawned [External F] {m : PwMatchState F} {event : Event}
    {spawned : ClientId × Bytes} (h : m.spawned? event = some spawned) :
    ∃ l, m = .lobby l ∧ spawned.1 = ⟨l.clientCounter⟩ := by
  obtain ⟨clientId, content⟩ := event
  cases m with
  | playing c | finished c => cases h
  | lobby l =>
    cases content with
    | connected | disconnected | response => cases h
    | message messageId data =>
      simp only [spawned?] at h
      split at h
      · split at h
        · obtain rfl := Option.some.inj h
          exact ⟨l, rfl, rfl⟩
        · cases h
      · cases h

section Poll
variable {ids : ClientId → Prop}

theorem PwController.within_playing {c : PwController F} (h : c.Within ids) :
    PwMatchState.Within ids (.playing c) where
  members := by
    rintro id (rfl | ⟨i, p, hp, rfl⟩)
    · exact h.control
    · exact h.players i p hp
  channels := h.channels

theorem PwMatchState.Within.controller {c : PwController F}
    (h : PwMatchState.Within ids (.playing c)) : c.Within ids where
  control := h.members _ (.inl rfl)
  players := fun i p hp => h.members _ (.inr ⟨i, p, hp, rfl⟩)
  channels := h.channels

variable [External F]

/-- What an event does to a lobby. -/
structure Lobby.Handled (event : Event) (l l' : Lobby F) : Prop where
  routingTable : l'.routingTable = ((PwMatchState.lobby l).spawned? event).elim l.routingTable
    fun spawned => l.routingTable.register spawned.2 spawned.1
  counter : l'.clientCounter =
    l.clientCounter + ((PwMatchState.lobby l).spawned? event).isSome.toNat
  players : ∀ id ∈ l'.players, id ∈ l.players ∨
    id ∈ ((PwMatchState.lobby l).spawned? event).map Prod.fst

theorem Lobby.handleEvent_safe (l : Lobby F) (event : Event) :
    Safe (fun _ => True) (l.Handled event) (l.handleEvent event) := by
  have hquiet {l' : Lobby F} (hs : (PwMatchState.lobby l).spawned? event = none)
      (htable : l'.routingTable = l.routingTable) (hcounter : l'.clientCounter = l.clientCounter)
      (hplayers : ∀ id ∈ l'.players, id ∈ l.players) : l.Handled event l' :=
    ⟨by rw [hs]; exact htable, by rw [hs]; exact hcounter, fun id hid => .inl (hplayers id hid)⟩
  obtain ⟨clientId, content⟩ := event
  cases content with
  | connected | disconnected =>
    rw [handleEvent]
    dsimp only
    split
    · exact hquiet rfl rfl rfl fun _ h => h
    · exact hquiet rfl rfl rfl fun _ h => h
  | response => exact hquiet rfl rfl rfl fun _ h => h
  | message messageId data =>
    rw [handleEvent]
    dsimp only
    split
    · rename_i hctrl
      rw [handleMessage]
      rcases hdecode : External.decodeLobbyMessage F data with
        - | - | ⟨token⟩ | ⟨clientId⟩ | ⟨payload⟩
      · exact hquiet (by simp [PwMatchState.spawned?, hdecode]) rfl rfl fun _ h => h
      · exact hquiet (by simp [PwMatchState.spawned?, hdecode]) rfl rfl fun _ h => h
      · have hs : (PwMatchState.lobby l).spawned? ⟨clientId, .message messageId data⟩ =
            some (⟨l.clientCounter⟩, token) := by
          simp [PwMatchState.spawned?, hctrl, hdecode]
        apply Safe.bind (P := fun r => r.2 = l.enter token)
        · exact (safe_true _).bind fun _ _ => rfl
        · rintro ⟨id, _⟩ rfl
          refine ⟨by rw [hs]; rfl, by rw [hs]; rfl, fun id hid => ?_⟩
          rw [hs]
          rcases Finmap.mem_insert.mp hid with rfl | hid
          · exact .inr rfl
          · exact .inl hid
      · refine hquiet (by simp [PwMatchState.spawned?, hdecode]) rfl rfl fun id hid => ?_
        exact (Finmap.mem_erase.mp hid).2
      · exact hquiet (by simp [PwMatchState.spawned?, hdecode]) rfl rfl fun _ h => h
    · rename_i hctrl
      exact hquiet (by simp [PwMatchState.spawned?, hctrl]) rfl rfl fun _ h => h

/-- A game that starts knows the clients of its lobby. -/
theorem Lobby.within_new {l : Lobby F} (h : PwMatchState.Within ids (.lobby l)) (rt : Runtime) :
    Safe (fun _ => True) (PwController.Within ids) (PwController.new rt l) := by
  apply (safe_true _).bind
  intro state _
  apply PwController.Within.startGame
  refine ⟨h.members _ (.inl rfl), fun i p hp => ?_, h.channels⟩
  obtain ⟨⟨⟨clientId, handle⟩, num⟩, hmem, heq⟩ :=
    List.mem_map.mp (HashMap.mem_of_lookup_collect hp)
  cases heq
  have hlookup : l.players.lookup clientId = some handle :=
    HashMap.mem_entriesIn.mp (List.fst_mem_of_mem_zipIdx hmem)
  have hfresh : handle = ⟨clientId, 0⟩ := (l.fresh _ _ hlookup).1
  rw [hfresh]
  exact h.members _ (.inr (Finmap.mem_iff.mpr ⟨handle, hlookup⟩))

variable [F64 F]

/-- A match that handles an event knows nobody new but the client the event adds. -/
theorem PwMatchState.Within.poll {m : PwMatchState F} (h : m.Within ids) (rt : Runtime)
    {event : Event} (hspawned : ∀ spawned ∈ m.spawned? event, ids spawned.1) :
    Safe (fun _ => True) (Within ids) (m.poll rt event) := by
  cases m with
  | lobby l =>
    apply (l.handleEvent_safe event).bind
    intro l' hl'
    have hctrl : ids ctrlId := by
      have hmem := h.members _ (.inl rfl)
      rwa [l.control] at hmem
    have hwithin : PwMatchState.Within ids (.lobby l') := by
      constructor
      · rintro id (rfl | hid)
        · rw [l'.control]
          exact hctrl
        · rcases hl'.players id hid with hid | hid
          · exact h.members _ (.inr hid)
          · obtain ⟨spawned, hs, rfl⟩ := Option.map_eq_some_iff.mp hid
            exact hspawned spawned hs
      · intro sent hsent
        rw [(l'.quiet sent hsent).1]
        exact hctrl
    split
    · exact (Lobby.within_new hwithin rt).map fun _ hc => PwController.within_playing hc
    · exact hwithin
  | playing c =>
    apply (h.controller.handleEvent rt event).bind
    intro c' hc'
    split
    · exact ⟨fun _ hid => hid.elim, hc'.channels⟩
    · exact PwController.within_playing hc'
  | finished c => exact h

theorem PwMatchState.lobby_of_poll {m : PwMatchState F} {rt : Runtime} {event : Event} {l' : Lobby F}
    (h : m.poll rt event = .ok (.lobby l')) :
    ∃ l, m = .lobby l ∧ l.handleEvent event = .ok l' := by
  cases m with
  | lobby l =>
    simp only [poll, bind_eq_ok] at h
    obtain ⟨l'', hl'', h⟩ := h
    split at h
    · cases hnew : PwController.new rt l'' with
      | error e =>
        rw [hnew] at h
        cases h
      | ok c =>
        rw [hnew] at h
        cases h
    · cases h
      exact ⟨l, rfl, hl''⟩
  | playing c =>
    simp only [poll, bind_eq_ok] at h
    obtain ⟨c', _, h⟩ := h
    split at h <;> cases h
  | finished c => cases h

end Poll

/-! ## The server -/

/-- The handler of a client, as far as its connection goes. It runs until it panics. -/
structure Handler where
  token : Bytes
  connection : Connection
  panic : Option Panic

/-- The panic of a handler that has an event for a match that is over. -/
def eventChannelBroke : Panic := .expect "event channel broke"

structure Server (F : Type) where
  game : PwMatchState F
  routingTable : RoutingTable
  handlers : HashMap ClientId Handler
  /-- Connections that were accepted for a client and not handed over yet. -/
  accepting : List ClientId

/-- What can stop the task of the match. -/
inductive ServerPanic where
  | inMatch (e : Panic)
  | connectionHandleBroke
deriving DecidableEq, Repr

namespace Server

def new (ctrlToken : Bytes) : Server F :=
  let lobby : Lobby F := .new ctrlToken .new
  { game := .lobby lobby
    routingTable := lobby.routingTable
    handlers := (∅ : HashMap ClientId Handler).insert ctrlId ⟨ctrlToken, .new, none⟩
    accepting := [] }

/-- A sender of the routing channel of a handler is in the table, under its token, or with
a connection that was accepted. -/
def routed (s : Server F) (clientId : ClientId) (h : Handler) : Bool :=
  s.routingTable.get h.token = some clientId || clientId ∈ s.accepting

/-- A command can be sent to the handler of this client. -/
def listens (s : Server F) (clientId : ClientId) : Bool :=
  (s.handlers.lookup clientId).any (·.panic.isNone)

/-- `RoutingTable::register`, in the constructor of a client that is added. -/
def spawn (s : Server F) : Option (ClientId × Bytes) → Server F
  | some (clientId, token) =>
    { s with
      routingTable := s.routingTable.register token clientId
      handlers := s.handlers.insert clientId ⟨token, .new, none⟩ }
  | none => s

inductive Op where
  /-- The match handles an event. -/
  | event (rt : Runtime) (event : Event)
  /-- A handler executes a command, which queues a message. -/
  | command (clientId : ClientId) (data : Bytes)
  /-- A handler polls its connection, and this is what the transport will answer. -/
  | poll (clientId : ClientId) (inner : Transport)
  /-- Somebody connects with this token. -/
  | connect (token : Bytes)
  /-- A connection that was accepted is handed over to its client. -/
  | handOver (clientId : ClientId) (transport : Transport)
  /-- A connection that was accepted breaks before that. -/
  | breakOff (clientId : ClientId)

section Handlers
variable [PacketFormat]

/-- Replace the connection of a handler that runs. -/
def onConnection (s : Server F) (clientId : ClientId) (f : Handler → Handler) : Server F :=
  match s.handlers.lookup clientId with
  | some h => if h.panic.isNone then { s with handlers := s.handlers.insert clientId (f h) } else s
  | none => s

/-- One round of `poll_client_connection`. An event goes to the match, if there still is one. -/
def pollHandler (isOver : Bool) (routed : Bool) (inner : Transport) (h : Handler) : Handler :=
  let connection := h.connection.answer inner
  let connection := { connection with
    routingChan := { connection.routingChan with closed := !routed } }
  match connection.poll with
  | .error e => { h with panic := some e }
  | .ok (.notReady, connection) => { h with connection }
  | .ok (.ready _, connection) =>
    { h with connection, panic := if isOver then some eventChannelBroke else none }

variable [F64 F] [External F]

def handle (s : Server F) (rt : Runtime) (event : Event) : Except ServerPanic (Server F) :=
  match s.game.poll rt event with
  | .error e => .error (.inMatch e)
  | .ok game =>
    let sent := game.channels.drop s.game.channels.length
    let s := { s.spawn (s.game.spawned? event) with game }
    if sent.all fun command => s.listens command.clientId then .ok s
    else .error .connectionHandleBroke

/-- The match is over. -/
def isOver (s : Server F) : Bool :=
  match s.game with
  | .finished _ => true
  | _ => false

def step (s : Server F) : Op → Except ServerPanic (Server F)
  | .event rt event => s.handle rt event
  | .command clientId data =>
    pure (s.onConnection clientId fun h => { h with connection := h.connection.send data })
  | .poll clientId inner =>
    pure (s.onConnection clientId fun h => pollHandler s.isOver (s.routed clientId h) inner h)
  | .connect token =>
    pure { s with accepting := s.accepting ++ (s.routingTable.get token).toList }
  | .handOver clientId transport =>
    if clientId ∈ s.accepting then
      let s := { s with accepting := s.accepting.erase clientId }
      pure (s.onConnection clientId fun h =>
        { h with connection := h.connection.route transport })
    else pure s
  | .breakOff clientId => pure { s with accepting := s.accepting.erase clientId }

def run (ctrlToken : Bytes) (ops : List Op) : Except ServerPanic (Server F) :=
  ops.foldlM step (new ctrlToken)

/-- No client was registered under the token of the client that this adds. -/
def fresh (s : Server F) : Op → Bool
  | .event _ event =>
    (s.game.spawned? event).all fun spawned => (s.routingTable.get spawned.2).isNone
  | _ => true

/-- Every client is added under a token of its own. -/
def freshRun (s : Server F) : List Op → Bool
  | [] => true
  | op :: ops =>
    s.fresh op && match s.step op with
      | .ok t => t.freshRun ops
      | .error _ => true

end Handlers

/-- Connections with the token of a client that is in the match are handed to its own
handler, and no handler was cut off. -/
structure Reaches (s : Server F) : Prop where
  routes : ∀ clientId, s.game.Member clientId → ∃ h, s.handlers.lookup clientId = some h ∧
    h.panic = none ∧ s.routingTable.get h.token = some clientId
  connected : ∀ clientId h, s.handlers.lookup clientId = some h → h.panic ≠ some Connection.channelClosed

/-! ## Clients of their own -/

/-- A handler is registered under its token and is in order; it stopped at most because the
match is over. -/
structure HandlerSound [PacketFormat] (s : Server F) (clientId : ClientId) (h : Handler) : Prop where
  registered : s.routingTable.get h.token = some clientId
  delivers : ∃ queued, h.connection.Delivers queued
  panic : h.panic = none ∨ (s.isOver = true ∧ h.panic = some eventChannelBroke)

structure Sound [PacketFormat] (s : Server F) : Prop where
  within : s.game.Within (· ∈ s.handlers)
  handlers : ∀ clientId h, s.handlers.lookup clientId = some h → s.HandlerSound clientId h
  lobby : ∀ l, s.game = .lobby l → l.routingTable = s.routingTable ∧
    ∀ clientId ∈ s.handlers, clientId.num < l.clientCounter

section Sound
variable [PacketFormat] {s : Server F}

theorem Sound.reaches (h : s.Sound) : s.Reaches where
  routes := by
    intro clientId hid
    obtain ⟨handler, hhandler⟩ := Finmap.mem_iff.mp (h.within.members clientId hid)
    have hsound := h.handlers clientId handler hhandler
    refine ⟨handler, hhandler, hsound.panic.resolve_right ?_, hsound.registered⟩
    intro hover
    cases hgame : s.game with
    | finished c =>
      rw [hgame] at hid
      exact hid
    | lobby | playing => simp [isOver, hgame] at hover
  connected := by
    intro clientId handler hhandler hpanic
    rcases (h.handlers clientId handler hhandler).panic with hnone | ⟨_, hbroke⟩
    · rw [hnone] at hpanic
      cases hpanic
    · rw [hbroke] at hpanic
      exact absurd hpanic (by decide)

theorem sound_new (ctrlToken : Bytes) : (new (F := F) ctrlToken).Sound where
  within := by
    constructor
    · rintro clientId (rfl | hid)
      · exact Finmap.mem_insert.mpr (.inl rfl)
      · exact absurd hid Finmap.notMem_empty
    · exact fun sent hsent => absurd hsent List.not_mem_nil
  handlers := by
    intro clientId h hlookup
    rw [new, HashMap.lookup_insert_eq] at hlookup
    split at hlookup
    · rename_i hid
      subst hid
      obtain rfl := Option.some.inj hlookup
      exact ⟨Finmap.lookup_insert _, ⟨_, Connection.delivers_new⟩, .inl rfl⟩
    · simp at hlookup
  lobby := by
    intro l hl
    cases hl
    refine ⟨rfl, fun clientId hid => ?_⟩
    rcases Finmap.mem_insert.mp hid with rfl | hid
    · exact Nat.one_pos
    · exact absurd hid Finmap.notMem_empty

/-- What happens to one handler alone. -/
theorem Sound.onConnection (h : s.Sound) (clientId : ClientId) {f : Handler → Handler}
    (hf : ∀ handler, handler.panic = none → s.HandlerSound clientId handler →
      s.HandlerSound clientId (f handler)) : (s.onConnection clientId f).Sound := by
  rw [Server.onConnection]
  cases hlookup : s.handlers.lookup clientId with
  | none => exact h
  | some handler =>
    dsimp only
    split
    · rename_i hrun
      have hmem : clientId ∈ s.handlers := Finmap.mem_iff.mpr ⟨handler, hlookup⟩
      have hsame (id : ClientId) : id ∈ s.handlers.insert clientId (f handler) ↔ id ∈ s.handlers := by
        rw [Finmap.mem_insert, or_iff_right_of_imp]
        rintro rfl
        exact hmem
      refine ⟨?_, fun id handler' hid => ?_, fun l hl => ?_⟩
      · exact ⟨fun id hid => (hsame id).mpr (h.within.members id hid),
          fun sent hsent => (hsame _).mpr (h.within.channels sent hsent)⟩
      · have hlift {handler' : Handler} (hsound : s.HandlerSound id handler') :
            HandlerSound { s with handlers := s.handlers.insert clientId (f handler) } id handler' :=
          ⟨hsound.registered, hsound.delivers, hsound.panic⟩
        rw [HashMap.lookup_insert_eq] at hid
        split at hid
        · rename_i heq
          subst heq
          obtain rfl := Option.some.inj hid
          exact hlift (hf handler (by simpa using hrun) (h.handlers _ _ hlookup))
        · exact hlift (h.handlers id handler' hid)
      · obtain ⟨htable, hbelow⟩ := h.lobby l hl
        exact ⟨htable, fun id hid => hbelow id ((hsame id).mp hid)⟩
    · exact h

/-- A handler that can be routed to is not cut off. -/
theorem HandlerSound.pollHandler {clientId : ClientId} {h : Handler}
    (hs : s.HandlerSound clientId h) (hrun : h.panic = none) (inner : Transport) :
    s.HandlerSound clientId (pollHandler s.isOver (s.routed clientId h) inner h) := by
  obtain ⟨queued, hdelivers⟩ := hs.delivers
  have hrouted : s.routed clientId h = true := by simp [routed, hs.registered]
  have hanswer := (Connection.step_safe hdelivers (.answer inner)).of_ok rfl
  have hpoll := Connection.poll_safe (c := { h.connection.answer inner with
    routingChan := { (h.connection.answer inner).routingChan with closed := !s.routed clientId h } })
    ⟨hanswer.streams, hanswer.waiting, hanswer.queued⟩
  rw [Server.pollHandler]
  rcases hres : Connection.poll _ with e | ⟨_ | _, connection⟩
  all_goals rw [hres] at hpoll
  · simp [hrouted] at hpoll
  · refine ⟨hs.registered, ⟨_, hpoll⟩, ?_⟩
    dsimp only
    split
    · exact .inr ⟨‹_›, rfl⟩
    · exact .inl rfl
  · exact ⟨hs.registered, ⟨_, hpoll⟩, .inl hrun⟩

/-- The next client number is not taken. -/
theorem Sound.spawned_new [External F] (h : s.Sound) {event : Event} {spawned : ClientId × Bytes}
    (hs : s.game.spawned? event = some spawned) : spawned.1 ∉ s.handlers := by
  obtain ⟨l, hgame, hid⟩ := PwMatchState.lobby_of_spawned hs
  intro hmem
  have hlt := (h.lobby l hgame).2 _ hmem
  rw [hid] at hlt
  exact Nat.lt_irrefl _ hlt

/-- Adding a client under a token of its own cuts nobody off. -/
theorem Sound.spawn (h : s.Sound) {spawned : Option (ClientId × Bytes)}
    (hnew : ∀ e ∈ spawned, e.1 ∉ s.handlers) (hfresh : ∀ e ∈ spawned, s.routingTable.get e.2 = none)
    {clientId : ClientId} {handler : Handler}
    (hlookup : (s.spawn spawned).handlers.lookup clientId = some handler) :
    (s.spawn spawned).HandlerSound clientId handler := by
  rcases spawned with - | ⟨id, token⟩
  · exact h.handlers clientId handler hlookup
  · rw [Server.spawn, HashMap.lookup_insert_eq] at hlookup
    split at hlookup
    · rename_i heq
      subst heq
      obtain rfl := Option.some.inj hlookup
      exact ⟨Finmap.lookup_insert _, ⟨_, Connection.delivers_new⟩, .inl rfl⟩
    · have hsound := h.handlers clientId handler hlookup
      have hne : handler.token ≠ token := by
        intro heq
        have hnone := hfresh (id, token) rfl
        rw [← heq, hsound.registered] at hnone
        cases hnone
      exact ⟨(Finmap.lookup_insert_of_ne _ hne).trans hsound.registered, hsound.delivers,
        hsound.panic⟩

omit [PacketFormat] in
theorem isOver_spawn (spawned : Option (ClientId × Bytes)) : (s.spawn spawned).isOver = s.isOver := by
  cases spawned <;> rfl

omit [PacketFormat] in
theorem mem_spawn {spawned : Option (ClientId × Bytes)} {clientId : ClientId} :
    clientId ∈ (s.spawn spawned).handlers ↔
      clientId ∈ s.handlers ∨ clientId ∈ spawned.map Prod.fst := by
  rcases spawned with - | ⟨id, token⟩
  · simp [Server.spawn]
  · simp [Server.spawn, Finmap.mem_insert, or_comm, eq_comm]

variable [F64 F] [External F]

/-- An event of which the new client has a token of its own. -/
theorem Sound.handle (h : s.Sound) (rt : Runtime) {event : Event}
    (hfresh : s.fresh (.event rt event) = true) :
    Safe (fun e => ∃ p, e = .inMatch p) Sound (s.handle rt event) := by
  have hnew : ∀ e ∈ s.game.spawned? event, e.1 ∉ s.handlers :=
    fun e he => h.spawned_new he
  have hunregistered : ∀ e ∈ s.game.spawned? event, s.routingTable.get e.2 = none := by
    intro e he
    rw [fresh, Option.mem_def.mp he] at hfresh
    simpa using hfresh
  have hwithin : s.game.Within (· ∈ (s.spawn (s.game.spawned? event)).handlers) :=
    ⟨fun id hid => mem_spawn.mpr (.inl (h.within.members id hid)),
      fun sent hsent => mem_spawn.mpr (.inl (h.within.channels sent hsent))⟩
  have hpoll : Safe (fun _ => True) (PwMatchState.Within _) (s.game.poll rt event) :=
    hwithin.poll rt fun e he => mem_spawn.mpr (.inr (Option.mem_map_of_mem Prod.fst he))
  rw [Server.handle]
  cases hgame : s.game.poll rt event with
  | error e => exact ⟨e, rfl⟩
  | ok game =>
    rw [hgame] at hpoll
    have hover : s.isOver = true → game = s.game ∧ isOver { s with game } = true := by
      intro hover
      cases hs : s.game with
      | finished c =>
        rw [hs] at hgame
        cases hgame
        exact ⟨rfl, rfl⟩
      | lobby | playing => simp [isOver, hs] at hover
    have hlistens : ((game.channels.drop s.game.channels.length).all fun command =>
        listens { s.spawn (s.game.spawned? event) with game } command.clientId) = true := by
      rw [List.all_eq_true]
      intro sent hsent
      obtain ⟨handler, hlookup⟩ :=
        Finmap.mem_iff.mp (hpoll.channels sent (List.mem_of_mem_drop hsent))
      rcases (h.spawn hnew hunregistered hlookup).panic with hnone | ⟨hs, _⟩
      · simp [listens, hlookup, hnone]
      · rw [isOver_spawn] at hs
        rw [(hover hs).1, List.drop_length] at hsent
        cases hsent
    simp only [hlistens, if_true]
    refine ⟨hpoll, fun clientId handler hlookup => ?_, fun l' hl' => ?_⟩
    · have hsound := h.spawn hnew hunregistered hlookup
      refine ⟨hsound.registered, hsound.delivers, hsound.panic.imp_right fun hs => ?_⟩
      rw [isOver_spawn] at hs
      exact ⟨(hover hs.1).2, hs.2⟩
    · cases hl'
      obtain ⟨l, hl, hevent⟩ := PwMatchState.lobby_of_poll hgame
      have hhandled := (l.handleEvent_safe event).of_ok hevent
      obtain ⟨htable, hbelow⟩ := h.lobby l hl
      have htable' := hhandled.routingTable
      have hcounter := hhandled.counter
      rw [← hl] at htable' hcounter
      rw [htable', htable]
      refine ⟨by cases s.game.spawned? event <;> rfl, fun id hid => ?_⟩
      rcases mem_spawn.mp hid with hid | hid
      · have hlt := hbelow id hid
        omega
      · obtain ⟨spawned, hs, rfl⟩ := Option.map_eq_some_iff.mp hid
        obtain ⟨l'', hl'', hnum⟩ := PwMatchState.lobby_of_spawned hs
        rw [hl] at hl''
        cases hl''
        rw [hnum, hcounter, hs]
        exact Nat.lt_succ_self _

/-- The other operations concern a handler or a connection that comes in. -/
theorem Sound.step (h : s.Sound) {op : Op} (hfresh : s.fresh op = true) :
    Safe (fun e => ∃ p, e = .inMatch p) Sound (s.step op) := by
  have haccepting (accepting : List ClientId) : Sound { s with accepting } :=
    ⟨h.within, fun id handler hid =>
      ⟨(h.handlers id handler hid).registered, (h.handlers id handler hid).delivers,
        (h.handlers id handler hid).panic⟩, h.lobby⟩
  cases op with
  | event rt event => exact h.handle rt hfresh
  | command clientId data =>
    refine h.onConnection clientId fun handler _ hs => ?_
    obtain ⟨queued, hdelivers⟩ := hs.delivers
    exact ⟨hs.registered, ⟨_, (Connection.step_safe hdelivers (.send data)).of_ok rfl⟩, hs.panic⟩
  | poll clientId inner =>
    exact h.onConnection clientId fun handler hrun hs => hs.pollHandler hrun inner
  | connect token => exact haccepting _
  | handOver clientId transport =>
    rw [Server.step]
    split
    · refine (haccepting _).onConnection clientId fun handler _ hs => ?_
      obtain ⟨queued, hdelivers⟩ := hs.delivers
      exact ⟨hs.registered, ⟨_, (Connection.step_safe hdelivers (.connecting transport)).of_ok rfl⟩,
        hs.panic⟩
    · exact h
  | breakOff clientId => exact haccepting _

theorem Sound.run (h : s.Sound) {ops : List Op} (hfresh : s.freshRun ops = true) :
    Safe (fun e => ∃ p, e = .inMatch p) Sound (ops.foldlM Server.step s) := by
  induction ops generalizing s with
  | nil => exact h
  | cons op ops ih =>
    rw [freshRun, Bool.and_eq_true] at hfresh
    obtain ⟨hop, hrest⟩ := hfresh
    rw [List.foldlM_cons]
    refine (h.step hop).bind_eq fun t ht hsound => ih hsound ?_
    rwa [ht] at hrest

/-- If every client is added under a token of its own, all clients of the match stay
reachable, no handler is cut off, and a command can always be sent. -/
theorem run_reaches (ctrlToken : Bytes) (ops : List Op)
    (hfresh : (new (F := F) ctrlToken).freshRun ops = true) :
    Safe (fun e => e ≠ .connectionHandleBroke) Reaches (run (F := F) ctrlToken ops) := by
  refine ((sound_new ctrlToken).run hfresh).mono ?_ fun s hs => hs.reaches
  rintro _ ⟨p, rfl⟩
  simp

end Sound

section Skirmish

/-- Packets that are their own bytes. -/
@[reducible] def plainPackets : PacketFormat where
  encode packet :=
    match packet.payload with
    | some (.message data) => data
    | _ => []
  decode bytes := .ok ⟨some (.message bytes)⟩

/-- A server that reads `1` and a token as the wish to add a player, and `2` as the start of
the game. -/
@[reducible] def tokenServer : External Int :=
  { (inferInstance : External Int) with
    decodeLobbyMessage data :=
      match data with
      | 1 :: token => some (some (.addPlayer token))
      | [2] => some (some (.startGame skirmishConf))
      | _ => none }

def control (data : Bytes) : Op := .event skirmishRuntime ⟨ctrlId, .message 0 data⟩

theorem run_reaches_skirmish :
    letI := plainPackets
    letI := tokenServer
    Safe (fun e => e ≠ .connectionHandleBroke) Reaches
      (run (F := Int) [0] [control [1, 1], .connect [1], control [1, 2], control [2]]) := by
  let := plainPackets
  let := tokenServer
  exact run_reaches [0] _ (by decide +kernel)

/-- The client that connections with the token of this one are for, if it is in the lobby. -/
def routeOf? (s : Server F) (clientId : ClientId) : Option (Option ClientId) :=
  match s.game with
  | .lobby l =>
    if clientId ∈ l.players then
      (s.handlers.lookup clientId).map fun h => s.routingTable.get h.token
    else none
  | _ => none

theorem not_reaches_of_routeOf? {s : Server F} {clientId other : ClientId}
    (h : s.routeOf? clientId = some (some other)) (hne : other ≠ clientId) :
    s.game.Member clientId ∧ ¬ s.Reaches := by
  rw [routeOf?] at h
  cases hgame : s.game with
  | playing | finished => simp [hgame] at h
  | lobby l =>
    simp only [hgame] at h
    split at h
    · rename_i hmem
      refine ⟨.inr hmem, fun hreaches => ?_⟩
      obtain ⟨handler, hlookup, _, hroute⟩ :=
        hreaches.routes clientId (by rw [hgame]; exact .inr hmem)
      rw [hlookup, Option.map_some, hroute] at h
      exact hne (Option.some.inj (Option.some.inj h)).symm
    · cases h

/-- Two players have one token. Connections of the first one go to the second one, the
handler of the first one panics, and so does the match when it is to be prompted. -/
theorem not_reaches_repeated :
    letI := plainPackets
    letI := tokenServer
    (∃ s, run (F := Int) [0] [control [1, 1], control [1, 1]] = .ok s ∧ s.game.Member ⟨1⟩ ∧
      ¬ s.Reaches) ∧
    (∃ s h, run (F := Int) [0] [control [1, 1], control [1, 1], .poll ⟨1⟩ ⟨[], [], []⟩] = .ok s ∧
      s.handlers.lookup ⟨1⟩ = some h ∧ h.panic = some Connection.channelClosed) ∧
    run (F := Int) [0] [control [1, 1], control [1, 1], .poll ⟨1⟩ ⟨[], [], []⟩, control [2]] =
      .error .connectionHandleBroke := by
  let := plainPackets
  let := tokenServer
  have hroute : ((run (F := Int) [0] [control [1, 1], control [1, 1]]).toOption.map
      (·.routeOf? ⟨1⟩)) = some (some (some ⟨2⟩)) := by
    decide +kernel
  have hpanic : ((run (F := Int) [0] [control [1, 1], control [1, 1],
      .poll ⟨1⟩ ⟨[], [], []⟩]).toOption.map fun s => (s.handlers.lookup ⟨1⟩).map (·.panic)) =
      some (some (some Connection.channelClosed)) := by
    decide +kernel
  have hbroke : failure? (run (F := Int) [0] [control [1, 1], control [1, 1],
      .poll ⟨1⟩ ⟨[], [], []⟩, control [2]]) = some .connectionHandleBroke := by
    decide +kernel
  refine ⟨?_, ?_, eq_error_of_failure? hbroke⟩
  · cases hrun : run (F := Int) [0] [control [1, 1], control [1, 1]] with
    | error e =>
      rw [hrun] at hroute
      cases hroute
    | ok s =>
      rw [hrun] at hroute
      exact ⟨s, rfl, not_reaches_of_routeOf? (Option.some.inj hroute) (by decide)⟩
  · cases hrun : run (F := Int) [0] [control [1, 1], control [1, 1], .poll ⟨1⟩ ⟨[], [], []⟩] with
    | error e =>
      rw [hrun] at hpanic
      cases hpanic
    | ok s =>
      rw [hrun] at hpanic
      obtain ⟨h, hlookup, hh⟩ := Option.map_eq_some_iff.mp (Option.some.inj hpanic)
      exact ⟨s, h, rfl, hlookup, hh⟩

end Skirmish
end Server
end Mozaic.Controller
