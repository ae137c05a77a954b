import Mozaic.Controller.Routing
import Mozaic.Controller.Seating
import Mozaic.Network.OpenRequests

/-! The tasks of a server: the match, and a handler for every client. Commands wait on the
control channels of the handlers, and events on the channel of the match. -/
namespace Mozaic.Controller
open Rust Rules Network Outcome

variable {F : Type}

/-! ## What a match sends comes after what it sent -/

/-- Nothing that is sent to a client changes it, except for a response. -/
def KeptBySends (I : Channels F → Prop) : Prop :=
  ∀ channels sent, ClientHandler.numbers sent.command = true → I channels → I (channels ++ [sent])

theorem keptBySends_grows (before : Channels F) : KeptBySends fun channels => before <+: channels :=
  fun _ _ _ h => h.trans (List.prefix_append _ _)

section Sends
variable {I : Channels F → Prop} (hI : KeptBySends I) {c : PwController F}
include hI

namespace PwController

theorem kept_logState (h : I c.channels) :
    Safe (fun _ => True) (fun c' => I c'.channels) c.logState :=
  (safe_true _).bind fun _ _ => hI _ _ rfl h

theorem kept_promptPlayer (h : I c.channels) (deadline : Instant) (e : PlayerId × Player) :
    Safe (fun _ => True) (fun c' => I c'.channels) (c.promptPlayer deadline e) := by
  apply (safe_true _).bind
  intro player _
  split
  · apply Safe.bind (P := fun r => I r.2.2)
    · apply (safe_true _).bind
      intro state _
      apply Safe.bind (P := fun r => I r.2.2)
      · exact (safe_true _).bind fun _ _ => hI _ _ rfl h
      · exact fun _ hr => hr
    · exact fun _ hr => hr
  · apply Safe.bind (P := I)
    · exact (safe_true _).bind fun _ _ => hI _ _ rfl h
    · exact fun _ hr => hr

theorem kept_promptPlayers (h : I c.channels) (rt : Runtime) :
    Safe (fun _ => True) (fun c' => I c'.channels) (c.promptPlayers rt) :=
  Safe.foldlM h fun e _ _ hc => kept_promptPlayer hI hc _ e

theorem kept_finishGame (h : I c.channels) (rt : Runtime) :
    Safe (fun _ => True) (fun c' => I c'.channels) (c.finishGame rt) := by
  refine Safe.foldlM (I := fun c : PwController F => I c.channels) h fun e _ c hc => ?_
  apply Safe.bind (P := I)
  · exact (safe_true _).bind fun _ _ => hI _ _ rfl hc
  · exact fun _ hr => hr

variable [External F]

theorem kept_new (rt : Runtime) {lobby : Lobby F} (h : I lobby.channels) :
    Safe (fun _ => True) (fun c => I c.channels) (PwController.new rt lobby) := by
  apply (safe_true _).bind
  intro state _
  apply Safe.bind (P := fun c : PwController F => I c.channels)
  · exact kept_logState hI h
  · exact fun c hc => kept_promptPlayers hI hc rt

variable [F64 F]

theorem kept_step (h : I c.channels) (rt : Runtime) (messages : HashMap PlayerId ResponseValue) :
    Safe (fun _ => True) (fun c' => I c'.channels) (c.step rt messages) := by
  apply (safe_true _).bind
  intro state _
  apply Safe.bind (P := fun c : PwController F => I c.channels)
  · refine Safe.foldlM (I := fun c : PwController F => I c.channels) h fun m _ c hc => ?_
    apply (safe_true _).bind
    intro r _
    exact (safe_true _).bind fun _ _ => hI _ _ rfl hc
  · intro c hc
    apply (safe_true _).bind
    intro state _
    apply Safe.bind (P := fun c : PwController F => I c.channels)
    · exact kept_logState hI hc
    · intro c hc
      split
      · exact kept_finishGame hI hc rt
      · exact kept_promptPlayers hI hc rt

theorem kept_handleEvent (h : I c.channels) (rt : Runtime) (event : Event) :
    Safe (fun _ => True) (fun c' => I c'.channels) (c.handleEvent rt event) := by
  apply Safe.bind (P := fun c : PwController F => I c.channels)
  · rw [receive]
    split
    · exact h
    · exact h
    · exact h
    · exact (safe_true _).bind fun _ _ => h
  · intro c hc
    split
    · exact kept_step hI (c := { c with commands := ∅ }) hc rt _
    · exact hc

end PwController
end Sends

section Grows
variable [External F]

theorem Lobby.grows_handleEvent (l : Lobby F) (event : Event) :
    Safe (fun _ => True) (fun l' => l.channels <+: l'.channels) (l.handleEvent event) := by
  rw [handleEvent]
  split
  · split
    · exact List.prefix_append _ _
    · exact List.prefix_rfl
  · split
    · exact List.prefix_append _ _
    · exact List.prefix_rfl
  · split
    · rw [handleMessage]
      split
      · exact List.prefix_rfl
      · exact List.prefix_rfl
      · apply Safe.bind (P := fun r => r.2.channels = l.channels)
        · exact (safe_true _).bind fun _ _ => rfl
        · intro r hr
          change l.channels <+: r.2.channels ++ _
          rw [hr]
          exact List.prefix_append _ _
      · exact List.prefix_append _ _
      · exact List.prefix_append _ _
    · exact List.prefix_rfl
  · exact List.prefix_rfl

variable [F64 F]

theorem PwMatchState.grows_poll (m : PwMatchState F) (rt : Runtime) (event : Event) :
    Safe (fun _ => True) (fun m' => m.channels <+: m'.channels) (m.poll rt event) := by
  cases m with
  | lobby l =>
    apply (l.grows_handleEvent event).bind
    intro l' hl'
    split
    · exact (PwController.kept_new (keptBySends_grows _) rt hl').map fun _ hc => hc
    · exact hl'
  | playing c =>
    apply (PwController.kept_handleEvent (keptBySends_grows _) List.prefix_rfl rt event).bind
    intro c' hc'
    split <;> exact hc'
  | finished c => exact List.prefix_rfl

end Grows

/-! ## The routes to the handlers -/

/-- The routing table, and the senders of routing channels that are not in it. -/
structure Routes where
  table : RoutingTable
  /-- The token that the connection of a handler was registered under. -/
  tokens : HashMap ClientId Bytes
  /-- Connections that were accepted for a client and that its handler has not taken yet. -/
  accepting : List ClientId

namespace Routes

def empty : Routes := ⟨.new, ∅, []⟩

/-- `RoutingTable::register`, in the constructor of the handler of a client that is added. -/
def register (r : Routes) : Option (ClientId × Bytes) → Routes
  | some (clientId, token) =>
    { r with
      table := r.table.register token clientId
      tokens := r.tokens.insert clientId token }
  | none => r

/-- Somebody connects with this token. -/
def accept (r : Routes) (token : Bytes) : Routes :=
  { r with accepting := r.accepting ++ (r.table.get token).toList }

/-- A connection that was accepted is not there any more. -/
def dismiss (r : Routes) (clientId : ClientId) : Routes :=
  { r with accepting := r.accepting.erase clientId }

/-- The handler of the client takes a connection from its routing channel. -/
def took (r : Routes) (clientId : ClientId) : ConnectionEvent → Routes
  | .connected => r.dismiss clientId
  | .packet _ => r
  | .disconnected => r

/-- The table still has the connection of the client, under its token. -/
def Registered (r : Routes) (clientId : ClientId) : Prop :=
  ∃ token, r.tokens.lookup clientId = some token ∧ r.table.get token = some clientId

/-- Something can still come out of the routing channel of the client. -/
def isOpen (r : Routes) (clientId : ClientId) : Bool :=
  (r.tokens.lookup clientId).any (fun token => r.table.get token = some clientId) ||
    clientId ∈ r.accepting

variable {r : Routes} {clientId : ClientId}

theorem Registered.isOpen (h : r.Registered clientId) : r.isOpen clientId = true := by
  obtain ⟨token, htoken, hget⟩ := h
  simp [Routes.isOpen, htoken, hget]

theorem took_table (r : Routes) (clientId : ClientId) (event : ConnectionEvent) :
    (r.took clientId event).table = r.table := by
  cases event <;> rfl

theorem took_tokens (r : Routes) (clientId : ClientId) (event : ConnectionEvent) :
    (r.took clientId event).tokens = r.tokens := by
  cases event <;> rfl

theorem registered_register (r : Routes) (clientId : ClientId) (token : Bytes) :
    (r.register (some (clientId, token))).Registered clientId :=
  ⟨token, Finmap.lookup_insert _, Finmap.lookup_insert _⟩

/-- Nobody is cut off by a client with a token of its own. -/
theorem Registered.register (h : r.Registered clientId) {spawned : Option (ClientId × Bytes)}
    (hfresh : ∀ e ∈ spawned, r.table.get e.2 = none) : (r.register spawned).Registered clientId := by
  rcases spawned with - | ⟨id, token⟩
  · exact h
  · by_cases hid : clientId = id
    · subst hid
      exact registered_register r clientId token
    · obtain ⟨token', htoken, hget⟩ := h
      have hne : token' ≠ token := by
        rintro rfl
        have hnone := hfresh (id, token') rfl
        rw [hget] at hnone
        cases hnone
      exact ⟨token', (Finmap.lookup_insert_of_ne _ hid).trans htoken,
        (Finmap.lookup_insert_of_ne _ hne).trans hget⟩

end Routes

/-! ## The tasks -/

/-- The panic of a match that has a command for a handler that is not there. -/
def connectionHandleBroke : Panic := .expect "connection handle broke"

structure Tasks (F : Type) where
  game : PwMatchState F
  /-- The commands that no handler has taken off its control channel yet. -/
  waiting : Channels F
  /-- The handlers that did not panic. -/
  handlers : HashMap ClientId ClientHandler
  /-- The events that the match has not taken off its channel yet. -/
  events : List Event
  routes : Routes
  /-- What the handlers handed to their connections. -/
  written : List (ClientId × Bytes)
  /-- The responses that the match was told about. No function reads them. -/
  answered : List (RequestId × ResponseValue)

namespace Tasks

/-- The responses an event tells about. -/
def responses (e : Event) : List (RequestId × ResponseValue) :=
  match e.content with
  | .response requestId value => [(requestId, value)]
  | _ => []

def new (ctrlToken : Bytes) (now : Instant) : Tasks F where
  game := .lobby (.new ctrlToken .new)
  waiting := []
  handlers := (∅ : HashMap ClientId ClientHandler).insert ctrlId ⟨ctrlId, .new now, []⟩
  events := []
  routes := Routes.empty.register (some (ctrlId, ctrlToken))
  written := []
  answered := []

inductive Op where
  /-- The match takes an event off its channel. -/
  | poll (rt : Runtime)
  /-- A handler takes a command off its control channel. -/
  | command (clientId : ClientId)
  /-- A handler looks for requests that are due. -/
  | timeouts (clientId : ClientId) (now : Instant)
  /-- A handler polls its connection, which has something to tell. -/
  | connection (clientId : ClientId) (event : ConnectionEvent)
  /-- A handler polls its connection, which has nothing to tell. -/
  | silence (clientId : ClientId)
  /-- Somebody connects with this token, and is accepted if it is known. -/
  | connect (token : Bytes)
  /-- A connection that was accepted breaks before it is handed over. -/
  | breakOff (clientId : ClientId)

/-- The match is over, and nobody listens to events. -/
def isOver (s : Tasks F) : Bool :=
  match s.game with
  | .finished _ => true
  | _ => false

/-- A handler goes on, with what it reports on the channel of the match. Without a match to
report to it panics. -/
def goOn (s : Tasks F) (h : ClientHandler) : Tasks F :=
  if s.isOver ∧ h.eventChannel ≠ [] then { s with handlers := s.handlers.erase h.clientId }
  else
    { s with
      handlers := s.handlers.insert h.clientId { h with eventChannel := [] }
      events := s.events ++ h.eventChannel }

/-- `poll_routing_chan` panics when the routing channel of the handler is closed. Nobody takes
what was sent to the handler then. -/
def cutOff (s : Tasks F) (clientId : ClientId) : Tasks F :=
  { s with handlers := s.handlers.erase clientId }

/-- The handler of a client that is added. -/
def spawn (handlers : HashMap ClientId ClientHandler) (now : Instant) :
    Option (ClientId × Bytes) → HashMap ClientId ClientHandler
  | some (clientId, _) => handlers.insert clientId ⟨clientId, .new now, []⟩
  | none => handlers

section Step
variable [Prost] [F64 F] [External F] (stringify : Payload F → Bytes)
  (ord : DeadlineOrder MessageId)

def pollMatch (s : Tasks F) (rt : Runtime) (event : Event) (events : List Event) :
    Except Panic (Tasks F) := do
  let game ← s.game.poll rt event
  let sent := game.channels.drop s.game.channels.length
  let spawned := s.game.spawned? event
  let handlers := spawn s.handlers rt.now spawned
  if sent.all fun command => decide (command.clientId ∈ handlers) then
    pure { s with
      game, events, handlers
      routes := s.routes.register spawned
      waiting := s.waiting ++ sent
      answered := s.answered ++ responses event }
  else .error connectionHandleBroke

def onConnection (h : ClientHandler) : ConnectionEvent → ClientHandler
  | .connected => h.dispatchEvent .connected
  | .packet data => h.handlePacket data
  | .disconnected => h.dispatchEvent .disconnected

/-- One task does one thing. A panic of the match stops the run, one of a handler does not. -/
def step (s : Tasks F) : Op → Except Panic (Tasks F)
  | .poll rt =>
    match s.isOver, s.events with
    | false, event :: events => s.pollMatch rt event events
    | _, _ => pure s
  | .command clientId =>
    match s.handlers.lookup clientId, s.waiting.find? (·.clientId = clientId) with
    | some h, some sent => do
      let (msg, h) ← h.handleCommand stringify sent.command
      pure { s with
        waiting := s.waiting.eraseP (·.clientId = clientId)
        handlers := s.handlers.insert clientId h
        written := s.written ++ [(clientId, msg)] }
    | _, _ => pure s
  | .timeouts clientId now =>
    match s.handlers.lookup clientId with
    | some h => pure (s.goOn (h.handleTimeouts ord now))
    | none => pure s
  | .connection clientId event =>
    match s.handlers.lookup clientId with
    | some h =>
      if s.routes.isOpen clientId then
        pure ({ s with routes := s.routes.took clientId event }.goOn (onConnection h event))
      else pure (s.cutOff clientId)
    | none => pure s
  | .silence clientId => pure (if s.routes.isOpen clientId then s else s.cutOff clientId)
  | .connect token => pure { s with routes := s.routes.accept token }
  | .breakOff clientId => pure { s with routes := s.routes.dismiss clientId }

def runFrom (s : Tasks F) (ops : List Op) : Except Panic (Tasks F) :=
  ops.foldlM (step stringify ord) s

def run (ctrlToken : Bytes) (now : Instant) (ops : List Op) : Except Panic (Tasks F) :=
  runFrom stringify ord (new ctrlToken now) ops

/-- A client that is added has a token that no client was added under before. -/
def fresh (s : Tasks F) : Op → Bool
  | .poll _ =>
    match s.events with
    | event :: _ => (s.game.spawned? event).all fun spawned =>
        (s.routes.table.get spawned.2).isNone
    | [] => true
  | _ => true

/-- Every client is added under a token of its own. -/
def freshRun (s : Tasks F) : List Op → Bool
  | [] => true
  | op :: ops =>
    s.fresh op && match s.step stringify ord op with
      | .ok t => t.freshRun ops
      | .error _ => true

end Step

/-! ## What becomes of commands -/

/-- The bytes are what a handler makes of a command. -/
def Carries [Prost] (stringify : Payload F → Bytes) (sent : Sent F) (bytes : Bytes) : Prop :=
  ∃ messageId, bytes = encodePayload (ClientHandler.payload stringify messageId sent.command)

/-- The match sends commands, or a handler takes one and writes it. -/
inductive Passes [Prost] (stringify : Payload F → Bytes) (s t : Tasks F) : Prop
  | sends (sent : Channels F) (hchannels : s.game.channels ++ sent = t.game.channels)
      (hwaiting : t.waiting = s.waiting ++ sent) (hwritten : t.written = s.written)
  | takes {clientId : ClientId} {sent : Sent F} {msg : Bytes}
      (hsent : s.waiting.find? (·.clientId = clientId) = some sent)
      (hmsg : Carries stringify sent msg) (hchannels : t.game.channels = s.game.channels)
      (hwaiting : t.waiting = s.waiting.eraseP (·.clientId = clientId))
      (hwritten : t.written = s.written ++ [(clientId, msg)])

theorem goOn_game (s : Tasks F) (h : ClientHandler) : (s.goOn h).game = s.game ∧
    (s.goOn h).answered = s.answered := by
  rw [goOn]
  split <;> exact ⟨rfl, rfl⟩

theorem goOn_commands (s : Tasks F) (h : ClientHandler) :
    (s.goOn h).waiting = s.waiting ∧ (s.goOn h).written = s.written := by
  rw [goOn]
  split <;> exact ⟨rfl, rfl⟩

section Passes
variable [Prost] (stringify : Payload F → Bytes) {s : Tasks F}

theorem handleCommand_carries (h : ClientHandler) (sent : Sent F) :
    Safe (fun _ => True) (fun r => Carries stringify sent r.1)
      (h.handleCommand stringify sent.command) := by
  have hid := h.messageHandler.nextMessageId_safe.mono (fun _ _ => trivial) fun _ h => h
  unfold Carries
  cases sent.command with
  | message data =>
    apply Safe.bind (P := fun r =>
      r.1 = encodeMessage h.messageHandler.messageCounter (stringify data))
    · apply hid.bind
      rintro _ rfl
      exact rfl
    · rintro ⟨msg, messageHandler⟩ rfl
      exact ⟨_, rfl⟩
  | request requestNum data deadline =>
    apply Safe.bind (P := fun r =>
      r.1 = encodeMessage h.messageHandler.messageCounter (stringify data))
    · apply hid.bind
      rintro _ rfl
      exact rfl
    · rintro ⟨msg, messageHandler⟩ rfl
      exact ⟨_, rfl⟩
  | response messageId data => exact ⟨messageId, rfl⟩

/-- Nothing was sent, and nothing was taken. -/
theorem passes_of_eq {t : Tasks F} (hgame : t.game = s.game) (hwaiting : t.waiting = s.waiting)
    (hwritten : t.written = s.written) : s.Passes stringify t :=
  .sends [] (by rw [hgame, List.append_nil]) (by rw [hwaiting, List.append_nil]) hwritten

theorem passes_goOn (routes : Routes) (handler : ClientHandler) :
    s.Passes stringify ({ s with routes }.goOn handler) :=
  passes_of_eq stringify (goOn_game _ handler).1 (goOn_commands _ handler).1
    (goOn_commands _ handler).2

variable [F64 F] [External F]

theorem step_passes (ord : DeadlineOrder MessageId) (op : Op) :
    Safe (fun _ => True) (s.Passes stringify) (s.step stringify ord op) := by
  have hsame : s.Passes stringify s := passes_of_eq stringify rfl rfl rfl
  cases op with
  | poll rt =>
    rw [step]
    split
    · rename_i event events _ _
      apply (s.game.grows_poll rt event).bind
      rintro game ⟨sent, hsent⟩
      dsimp only
      split
      · refine .sends sent hsent ?_ rfl
        rw [← hsent, List.drop_left]
      · trivial
    · exact hsame
  | command clientId =>
    rw [step]
    split
    · rename_i handler sent _ hsent
      apply (handleCommand_carries stringify handler sent).bind
      rintro ⟨msg, handler'⟩ hmsg
      exact .takes hsent hmsg rfl rfl rfl
    · exact hsame
  | timeouts clientId now =>
    rw [step]
    split
    · exact passes_goOn stringify s.routes _
    · exact hsame
  | connection clientId event =>
    rw [step]
    split
    · split
      · exact passes_goOn stringify (s.routes.took clientId event) _
      · exact passes_of_eq stringify rfl rfl rfl
    · exact hsame
  | silence clientId =>
    rw [step]
    split
    · exact hsame
    · exact passes_of_eq stringify rfl rfl rfl
  | connect | breakOff => exact passes_of_eq stringify rfl rfl rfl

end Passes
end Tasks
end Mozaic.Controller
