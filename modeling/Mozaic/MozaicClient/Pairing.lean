import Mozaic.MozaicClient.WireFormat
import Mozaic.Network.ClientHandler

/-! A client handler and the client of a bot, with a connection between them that keeps the
order of what is sent. -/
namespace Mozaic.MozaicClient
open Rust Rules Outcome Network

variable {F : Type}

/-- Both sides of a connection and what is under way between them. -/
structure Link (F : Type) where
  handle : ClientHandle
  /-- Commands that the handler has not executed yet. -/
  channels : Channels F
  handler : ClientHandler
  /-- The requests that the handler made. -/
  created : List Created
  toClient : List Bytes
  /-- What the client received. -/
  arrived : List Bytes
  client : Client F
  toServer : List Bytes

inductive LinkStep (F : Type) where
  | send (data : Payload F)
  | request (data : Payload F) (deadline : Instant)
  | respond (messageId : MessageId) (data : Payload F)
  | command
  | timeouts (now : Instant)
  | deliver
  | packet
  | line (response : String)

/-- The step is a message to the client that takes a number. -/
def LinkStep.numbers : LinkStep F → Bool
  | .send _ => true
  | .request _ _ => true
  | _ => false

/-- A game state as a text, with nothing in it. -/
def emptyStateText : String :=
  "\x7b\"type\":\"game_state\",\"content\":\x7b\"planets\":[],\"expeditions\":[]\x7d\x7d"

namespace Link

def start (clientId : ClientId) (now : Instant) : Link F where
  handle := ⟨clientId, 0⟩
  channels := []
  handler := ⟨clientId, .new now, []⟩
  created := []
  toClient := []
  arrived := []
  client := .new
  toServer := []

section Run
variable [Prost] [Protobufjs] [Json F]

def step (ord : DeadlineOrder MessageId) (l : Link F) : LinkStep F → Except Panic (Link F)
  | .send data => pure { l with channels := l.handle.send data l.channels }
  | .request data deadline => do
    let (_, handle, channels) ← l.handle.request data deadline l.channels
    pure { l with handle, channels }
  | .respond messageId data =>
    pure { l with channels := l.handle.respond messageId data l.channels }
  | .command =>
    match l.channels with
    | [] => pure l
    | sent :: channels => do
      let (msg, handler) ← l.handler.handleCommand Json.stringify sent.command
      pure { l with
        channels
        handler
        created := l.created ++ (ClientHandler.created? l.handler.messageHandler.messageCounter
          sent.command).toList
        toClient := l.toClient ++ [msg] }
  | .timeouts now => pure { l with handler := l.handler.handleTimeouts ord now }
  | .deliver =>
    match l.toClient with
    | [] => pure l
    | data :: toClient =>
      pure { l with toClient, arrived := l.arrived ++ [data], client := l.client.onMessage data }
  | .packet =>
    match l.toServer with
    | [] => pure l
    | data :: toServer => pure { l with toServer, handler := l.handler.handlePacket data }
  | .line response =>
    let (client, sent) := l.client.onLine response
    pure { l with client, toServer := l.toServer ++ sent }

def run (ord : DeadlineOrder MessageId) (clientId : ClientId) (now : Instant)
    (steps : List (LinkStep F)) : Except Panic (Link F) :=
  steps.foldlM (step ord) (start clientId now)

/-- The line of the bot that a step hands to a waiting handler. -/
def takes (l : Link F) : LinkStep F → Option String
  | .line response => if l.client.botRunner.handlerQueue = [] then none else some response
  | _ => none

/-- The lines among these steps that find a waiting handler, in order. -/
def linesTaken (ord : DeadlineOrder MessageId) : Link F → List (LinkStep F) → List String
  | _, [] => []
  | l, s :: steps => (l.takes s).toList ++
      match l.step ord s with
      | .ok l' => linesTaken ord l' steps
      | .error _ => []

end Run

/-! ## What both sides agree on -/

/-- The message carries a game state, and has this number. -/
def asks? (F : Type) [Protobufjs] [Json F] (bytes : Bytes) : Option MessageId := do
  let msg ← Protobufjs.decode bytes
  let message ← msg.message
  guard message.messageId.truthy
  match (Json.parse message.data : Option (Proto.ServerMessage F)) with
  | some (.gameState _) => some message.messageId.toNumber
  | _ => none

/-- The game states that the client received, in order. -/
def asked [Protobufjs] [Json F] (l : Link F) : List MessageId := l.arrived.filterMap (asks? F)

/-- Responses of the bot and the requests they are for, after a run in which these lines found a
waiting handler. They were handed to the handlers of game states in the order these came in. A
value that the server hears for a request is the line that was handed to the handler of the
message of that same request. -/
structure Paired [Protobufjs] [Json F] (lines : List String) (l : Link F) : Prop where
  queue : l.asked = l.client.botRunner.served.map Prod.fst ++ l.client.botRunner.handlerQueue
  served : l.client.botRunner.served.map Prod.snd = lines
  asked : l.asked.Nodup
  messages : (l.created.map Created.messageId).Nodup
  requests : (l.created.map Created.requestNum).Nodup
  values : ∀ clientId requestId value,
    ⟨clientId, .response requestId (.ok value)⟩ ∈ l.handler.eventChannel →
      ∃ c ∈ l.created, ∃ line, c.requestNum = requestId.requestNum ∧
        (c.messageId, line) ∈ l.client.botRunner.served ∧ value = utf8 line

/-- The number that a message takes. -/
def number? : Proto.Payload → Option MessageId
  | .message message => some message.messageId
  | .response _ => none

/-- What is under way to the client has numbers that grow, and so had what it was asked. -/
structure Ordered [Prost] (asked : List MessageId) (toClient : List Bytes) (counter : Nat)
    (payloads : List Proto.Payload) : Prop where
  bytes : toClient = payloads.map encodePayload
  growing : (asked ++ payloads.filterMap number?).Pairwise (· < ·)
  below : ∀ messageId ∈ asked ++ payloads.filterMap number?, messageId < counter

/-- After `n` messages with a number: what both sides and the connection hold. -/
structure Consistent [Prost] [Protobufjs] [Json F] (n : Nat) (l : Link F) : Prop where
  counter : l.handler.messageHandler.messageCounter +
    l.channels.countP (fun sent => ClientHandler.numbers sent.command) ≤ n
  requestCounter : l.handle.requestCounter ≤ n
  fresh : ∀ c ∈ l.created, c.messageId < l.handler.messageHandler.messageCounter
  messages : (l.created.map Created.messageId).Nodup
  requests : l.created.map Created.requestNum ++
    l.channels.filterMap (fun sent => sent.command.requestNum?) = List.range l.handle.requestCounter
  known : ∀ messageId requestNum,
    l.handler.messageHandler.requests.lookup messageId = some requestNum →
      ∃ c ∈ l.created, c.messageId = messageId ∧ c.requestNum = requestNum
  toClient : ∃ payloads,
    Ordered l.asked l.toClient l.handler.messageHandler.messageCounter payloads
  queue : l.asked = l.client.botRunner.served.map Prod.fst ++ l.client.botRunner.handlerQueue
  toServer : ∀ bytes ∈ l.toServer, ∃ a ∈ l.client.botRunner.served,
    bytes = Client.encodeResponse a.1 (utf8 a.2)
  values : ∀ clientId requestId value,
    ⟨clientId, .response requestId (.ok value)⟩ ∈ l.handler.eventChannel →
      ∃ c ∈ l.created, ∃ line, c.requestNum = requestId.requestNum ∧
        (c.messageId, line) ∈ l.client.botRunner.served ∧ value = utf8 line

section Invariants
variable [Prost] [Protobufjs] [Json F] {l : Link F} {n : Nat}

theorem Consistent.paired (h : Consistent n l) {lines : List String}
    (hserved : l.client.botRunner.served.map Prod.snd = lines) : Paired lines l where
  queue := h.queue
  served := hserved
  asked := by
    obtain ⟨payloads, hordered⟩ := h.toClient
    exact (List.pairwise_append.mp hordered.growing).1.imp Nat.ne_of_lt
  messages := h.messages
  requests := by
    have hnodup := List.nodup_range (n := l.handle.requestCounter)
    rw [← h.requests] at hnodup
    exact hnodup.of_append_left
  values := h.values

theorem consistent_start (clientId : ClientId) (now : Instant) :
    Consistent 0 (start clientId now : Link F) where
  counter := le_rfl
  requestCounter := le_rfl
  fresh := by simp [start]
  messages := by simp [start]
  requests := by simp [start]
  known := by simp [start, MessageHandler.new]
  toClient := ⟨[], rfl, by simp [asked, start], by simp [asked, start]⟩
  queue := rfl
  toServer := by simp [start]
  values := by simp [start]

/-! ## The server's steps -/

theorem Consistent.send (h : Consistent n l) (data : Payload F) :
    Consistent (n + 1) { l with channels := l.handle.send data l.channels } :=
  { h with
    counter := by
      have hcounter := h.counter
      simp only [ClientHandle.send, List.countP_append, List.countP_singleton,
        ClientHandler.numbers_message, if_true]
      omega
    requestCounter := Nat.le_succ_of_le h.requestCounter
    requests := by simpa [ClientHandle.send, Command.requestNum?] using h.requests }

theorem Consistent.respond (h : Consistent n l) (messageId : MessageId) (data : Payload F) :
    Consistent n { l with channels := l.handle.respond messageId data l.channels } :=
  { h with
    counter := by simpa [ClientHandle.respond] using h.counter
    requests := by simpa [ClientHandle.respond, Command.requestNum?] using h.requests }

theorem Consistent.request (h : Consistent n l) (hn : n < 2 ^ 53) (data : Payload F)
    (deadline : Instant) :
    ∃ r, l.handle.request data deadline l.channels = .ok r ∧
      Consistent (n + 1) { l with handle := r.2.1, channels := r.2.2 } := by
  have hlt : l.handle.requestCounter + 1 < 2 ^ 64 := by
    have hle := h.requestCounter
    omega
  refine ⟨_, by rw [ClientHandle.request, checkedAdd, if_pos hlt]; rfl, ?_⟩
  exact { h with
    counter := by
      have hcounter := h.counter
      simp only [List.countP_append, List.countP_singleton, ClientHandler.numbers_request, if_true]
      omega
    requestCounter := Nat.succ_le_succ h.requestCounter
    requests := by
      have hrequests := h.requests
      simp [Command.requestNum?, List.range_succ, ← hrequests] }

omit [Prost] [Protobufjs] [Json F] in
theorem number?_payload (stringify : Payload F → Bytes) (counter : Nat) (command : Command F) :
    number? (ClientHandler.payload stringify counter command) =
      if ClientHandler.numbers command then some counter else none := by
  cases command <;> rfl

omit [Protobufjs] [Json F] in
/-- A command that is executed puts its message at the end of what is under way. -/
theorem Ordered.append {asked : List MessageId} {toClient : List Bytes} {counter : Nat}
    {payloads : List Proto.Payload} (h : Ordered asked toClient counter payloads)
    (stringify : Payload F → Bytes) (command : Command F) :
    Ordered asked (toClient ++ [encodePayload (ClientHandler.payload stringify counter command)])
      (counter + (ClientHandler.numbers command).toNat)
      (payloads ++ [ClientHandler.payload stringify counter command]) := by
  have hnumbers := number?_payload stringify counter command
  cases hnum : ClientHandler.numbers command with
  | false =>
    rw [hnum, if_neg Bool.false_ne_true] at hnumbers
    have hsame : (payloads ++ [ClientHandler.payload stringify counter command]).filterMap number? =
        payloads.filterMap number? := by
      simp [List.filterMap_append, List.filterMap_cons_none hnumbers]
    exact ⟨by simp [h.bytes], hsame ▸ h.growing, hsame ▸ h.below⟩
  | true =>
    rw [hnum, if_pos rfl] at hnumbers
    have hmore : (payloads ++ [ClientHandler.payload stringify counter command]).filterMap number? =
        payloads.filterMap number? ++ [counter] := by
      simp [List.filterMap_append, List.filterMap_cons_some hnumbers]
    refine ⟨by simp [h.bytes], ?_, ?_⟩
    · rw [hmore, ← List.append_assoc]
      refine List.pairwise_append.mpr ⟨h.growing, List.pairwise_singleton _ _, fun a ha b hb => ?_⟩
      rw [List.mem_singleton.mp hb]
      exact h.below a ha
    · rw [hmore, ← List.append_assoc]
      intro messageId hmem
      rcases List.mem_append.mp hmem with hmem | hmem
      · exact Nat.lt_succ_of_lt (h.below messageId hmem)
      · rw [List.mem_singleton.mp hmem]
        exact Nat.lt_succ_self counter

theorem Consistent.command (h : Consistent n l) (hn : n < 2 ^ 53) {sent : Sent F}
    {channels : Channels F} (hchannels : l.channels = sent :: channels) :
    ∃ msg, l.handler.handleCommand Json.stringify sent.command =
        .ok (msg, l.handler.executed sent.command) ∧
      Consistent n { l with
        channels
        handler := l.handler.executed sent.command
        created := l.created ++ (ClientHandler.created? l.handler.messageHandler.messageCounter
          sent.command).toList
        toClient := l.toClient ++ [msg] } := by
  have hcounter := h.counter
  have hlt : l.handler.messageHandler.messageCounter + 1 < 2 ^ 64 := by omega
  refine ⟨_, ClientHandler.handleCommand_eq hlt, ?_⟩
  have hnew {c : Created} (hc : c ∈ (ClientHandler.created?
      l.handler.messageHandler.messageCounter sent.command).toList) :=
    ClientHandler.mem_created? (Option.mem_toList.mp hc)
  obtain ⟨payloads, hordered⟩ := h.toClient
  exact { h with
    counter := by
      rw [hchannels, List.countP_cons] at hcounter
      rw [ClientHandler.messageCounter_executed]
      cases hnum : ClientHandler.numbers sent.command <;> simp [hnum] at hcounter ⊢ <;> omega
    fresh := by
      intro c hc
      rw [ClientHandler.messageCounter_executed]
      rcases List.mem_append.mp hc with hc | hc
      · exact Nat.lt_add_right _ (h.fresh c hc)
      · obtain ⟨hid, hnum⟩ := hnew hc
        simp [hid, hnum]
    messages := by
      rw [List.map_append]
      refine List.nodup_append.mpr ⟨h.messages, ?_, fun a ha b hb => ?_⟩
      · cases ClientHandler.created? l.handler.messageHandler.messageCounter sent.command <;> simp
      · obtain ⟨c, hc, rfl⟩ := List.mem_map.mp ha
        obtain ⟨d, hd, rfl⟩ := List.mem_map.mp hb
        rw [(hnew hd).1]
        exact Nat.ne_of_lt (h.fresh c hc)
    requests := by
      have hrequests := h.requests
      rw [hchannels, List.filterMap_cons] at hrequests
      rw [List.map_append, ClientHandler.map_created?, List.append_assoc]
      cases hnum : sent.command.requestNum? <;> simpa [hnum] using hrequests
    known := by
      intro messageId requestNum hlookup
      rw [ClientHandler.lookup_executed] at hlookup
      split at hlookup
      · rename_i hid
        have hmem : requestNum ∈ (ClientHandler.created?
            l.handler.messageHandler.messageCounter sent.command).toList.map Created.requestNum := by
          simp [ClientHandler.map_created?, hlookup]
        obtain ⟨c, hc, hnum⟩ := List.mem_map.mp hmem
        exact ⟨c, List.mem_append_right _ hc, (hnew hc).1.trans hid.1.symm, hnum⟩
      · obtain ⟨c, hc, hid⟩ := h.known messageId requestNum hlookup
        exact ⟨c, List.mem_append_left _ hc, hid⟩
    toClient := by
      rw [ClientHandler.messageCounter_executed]
      exact ⟨_, hordered.append Json.stringify sent.command⟩
    values := by
      intro clientId requestId value hmem
      rw [ClientHandler.eventChannel_executed] at hmem
      obtain ⟨c, hc, line, hpair⟩ := h.values clientId requestId value hmem
      exact ⟨c, List.mem_append_left _ hc, line, hpair⟩ }

/-- Nothing new becomes pending, and the events are those that were there or no values. -/
theorem Consistent.settles (h : Consistent n l) {handler : ClientHandler}
    (hsettles : ClientHandler.Settles l.handler handler) {toServer : List Bytes}
    (hsub : toServer ⊆ l.toServer)
    (hvalues : ∀ clientId requestId value,
      ⟨clientId, .response requestId (.ok value)⟩ ∈ handler.eventChannel →
        ⟨clientId, .response requestId (.ok value)⟩ ∈ l.handler.eventChannel ∨
          ∃ a ∈ l.client.botRunner.served, value = utf8 a.2 ∧
            l.handler.messageHandler.requests.lookup a.1 = some requestId.requestNum) :
    Consistent n { l with handler, toServer } :=
  { h with
    counter := by
      rw [hsettles.counter]
      exact h.counter
    fresh := by
      rw [hsettles.counter]
      exact h.fresh
    known := fun messageId requestNum hlookup =>
      h.known messageId requestNum (hsettles.pending messageId requestNum hlookup)
    toClient := by
      rw [hsettles.counter]
      exact h.toClient
    toServer := fun bytes hmem => h.toServer bytes (hsub hmem)
    values := by
      intro clientId requestId value hmem
      rcases hvalues clientId requestId value hmem with hold | ⟨a, ha, hvalue, hlookup⟩
      · exact h.values clientId requestId value hold
      · obtain ⟨c, hc, hid, hnum⟩ := h.known a.1 requestId.requestNum hlookup
        exact ⟨c, hc, a.2, hnum, hid ▸ ha, hvalue⟩ }

theorem Consistent.timeouts (h : Consistent n l) (ord : DeadlineOrder MessageId) (now : Instant) :
    Consistent n { l with handler := l.handler.handleTimeouts ord now } := by
  obtain ⟨hsettles, hevents⟩ := ClientHandler.settles_handleTimeouts ord now l.handler
  apply h.settles hsettles (List.Subset.refl _)
  intro clientId requestId value hmem
  rcases hevents _ hmem with hold | ⟨clientId', requestNum, htimeout⟩
  · exact .inl hold
  · simp [ClientHandler.timedOut] at htimeout

/-! ## The client's steps -/

theorem Consistent.served_lt (h : Consistent n l) {a : Nat × String}
    (ha : a ∈ l.client.botRunner.served) :
    a.1 < l.handler.messageHandler.messageCounter := by
  obtain ⟨payloads, hordered⟩ := h.toClient
  apply hordered.below
  apply List.mem_append_left
  rw [h.queue]
  exact List.mem_append_left _ (List.mem_map_of_mem ha)

/-- An answer is for the request of the message that was answered, or it is too late. -/
theorem Consistent.packet [Transcodes] (h : Consistent n l) (hn : n < 2 ^ 53) {data : Bytes}
    {toServer : List Bytes} (htoServer : l.toServer = data :: toServer) :
    Consistent n { l with toServer, handler := l.handler.handlePacket data } := by
  obtain ⟨a, ha, rfl⟩ := h.toServer data (by simp [htoServer])
  have hlt : a.1 < 2 ^ 53 := by
    have hcounter := h.counter
    have hserved := h.served_lt ha
    omega
  have hdecode := Transcodes.answer a.1 hlt (utf8 a.2)
  obtain ⟨hsettles, hevents⟩ := ClientHandler.settles_handlePacket (h := l.handler) hdecode
  apply h.settles hsettles
  · rw [htoServer]
    exact List.subset_cons_self _ _
  · intro clientId requestId value hmem
    rcases hevents with hsame | ⟨requestNum, hlookup, hnew⟩
    · rw [hsame] at hmem
      exact .inl hmem
    · rw [hnew] at hmem
      rcases List.mem_append.mp hmem with hold | hlast
      · exact .inl hold
      · simp only [List.mem_singleton, Event.mk.injEq, EventContent.response.injEq,
          Except.ok.injEq] at hlast
        obtain ⟨-, rfl, rfl⟩ := hlast
        exact .inr ⟨a, ha, rfl, hlookup⟩

theorem Consistent.line (h : Consistent n l) (response : String) :
    Consistent n { l with
      client := (l.client.onLine response).1
      toServer := l.toServer ++ (l.client.onLine response).2 } := by
  rcases hqueue : l.client.botRunner.handlerQueue with - | ⟨handler, handlers⟩
  · have hsame : l.client.onLine response = (l.client, []) := by
      simp [Client.onLine, BotRunner.onLine, hqueue]
    rw [hsame, List.append_nil]
    exact h
  · have hqueue' := h.queue
    have hserved : (l.client.onLine response).1.botRunner =
        { handlerQueue := handlers, served := l.client.botRunner.served ++ [(handler, response)] } := by
      simp [Client.onLine, BotRunner.onLine, hqueue]
    have hsent : (l.client.onLine response).2 = [Client.encodeResponse handler (utf8 response)] := by
      simp [Client.onLine, BotRunner.onLine, hqueue]
    exact { h with
      queue := by
        rw [hqueue] at hqueue'
        change l.asked = _
        simpa [hserved] using hqueue'
      toServer := by
        intro bytes hmem
        rw [hsent] at hmem
        rw [hserved]
        rcases List.mem_append.mp hmem with hmem | hmem
        · obtain ⟨a, ha, hbytes⟩ := h.toServer bytes hmem
          exact ⟨a, List.mem_append_left _ ha, hbytes⟩
        · exact ⟨(handler, response), by simp, List.mem_singleton.mp hmem⟩
      values := by
        intro clientId requestId value hmem
        obtain ⟨c, hc, line, hnum, hpair, hvalue⟩ := h.values clientId requestId value hmem
        rw [hserved]
        exact ⟨c, hc, line, hnum, List.mem_append_left _ hpair, hvalue⟩ }

/-- A game state takes its place in the queue of handlers, and nothing else does. -/
theorem botRunner_onMessage [Transcodes] (c : Client F) (payload : Proto.Payload)
    (hlt : ∀ messageId ∈ number? payload, messageId < 2 ^ 53) :
    (c.onMessage (encodePayload payload)).botRunner =
      { c.botRunner with
        handlerQueue := c.botRunner.handlerQueue ++ (asks? F (encodePayload payload)).toList } ∧
      ∀ messageId ∈ asks? F (encodePayload payload), messageId ∈ number? payload := by
  cases payload with
  | message message =>
    have hdecode := Transcodes.message message.messageId message.data
    have hnumber : toDouble message.messageId = message.messageId :=
      toDouble_eq (hlt message.messageId rfl)
    rw [encodeMessage] at hdecode
    cases hparse : (Json.parse message.data : Option (Proto.ServerMessage F)) with
    | none =>
      simp [Client.onMessage, Client.handleMessage, asks?, hdecode, hparse, UInt64Value.truthy]
    | some msg =>
      cases msg <;>
        simp [Client.onMessage, Client.handleMessage, asks?, hdecode, hparse, UInt64Value.truthy,
          UInt64Value.toNumber, hnumber, Client.handleGameMessage, Client.handleGameState,
          Client.handlePlayerAction, Client.handleFinalState, Client.logState, BotRunner.request,
          number?]
  | response response =>
    have hdecode := Transcodes.response response.messageId response.data
    rw [encodeResponse] at hdecode
    simp [Client.onMessage, asks?, hdecode]

theorem Consistent.deliver [Transcodes] (h : Consistent n l) (hn : n < 2 ^ 53) {data : Bytes}
    {toClient : List Bytes} (htoClient : l.toClient = data :: toClient) :
    Consistent n { l with
      toClient, arrived := l.arrived ++ [data], client := l.client.onMessage data } := by
  obtain ⟨payloads, hordered⟩ := h.toClient
  have hcounter := h.counter
  rcases payloads with - | ⟨payload, payloads⟩
  · have hbytes := hordered.bytes
    rw [htoClient] at hbytes
    cases hbytes
  obtain ⟨rfl, rfl⟩ : data = encodePayload payload ∧ toClient = payloads.map encodePayload := by
    have hbytes := hordered.bytes
    rw [htoClient] at hbytes
    simpa using hbytes
  have hlt : ∀ messageId ∈ number? payload, messageId < 2 ^ 53 := by
    intro messageId hmem
    have hbelow := hordered.below messageId <| by
      apply List.mem_append_right
      exact List.mem_filterMap.mpr ⟨payload, List.mem_cons_self, hmem⟩
    exact Nat.lt_of_lt_of_le hbelow (by omega)
  obtain ⟨hbot, hasks⟩ := botRunner_onMessage l.client payload hlt
  have hasked : asked { l with
      toClient := payloads.map encodePayload
      arrived := l.arrived ++ [encodePayload payload]
      client := l.client.onMessage (encodePayload payload) } =
      l.asked ++ (asks? F (encodePayload payload)).toList := by
    simp only [asked, List.filterMap_append]
    cases hq : asks? F (encodePayload payload) <;> simp [hq]
  -- what was under way and is asked now keeps its place
  have hsub : (l.asked ++ (asks? F (encodePayload payload)).toList ++
      payloads.filterMap number?).Sublist (l.asked ++ (payload :: payloads).filterMap number?) := by
    rw [List.append_assoc]
    apply List.Sublist.append_left
    cases hq : asks? F (encodePayload payload) with
    | none =>
      rw [List.filterMap_cons]
      cases number? payload <;> simp
    | some messageId =>
      rw [List.filterMap_cons_some (hasks messageId hq)]
      simp
  exact { h with
    toClient := by
      refine ⟨payloads, rfl, ?_, fun messageId hmem => ?_⟩
      · rw [hasked]
        exact hordered.growing.sublist hsub
      · rw [hasked] at hmem
        exact hordered.below messageId (hsub.subset hmem)
    queue := by
      rw [hasked, hbot, h.queue, List.append_assoc]
    toServer := by
      rw [hbot]
      exact h.toServer
    values := by
      rw [hbot]
      exact h.values }

/-! ## Every run -/

/-- The number of messages that take a number. -/
def numbersTaken (steps : List (LinkStep F)) : Nat := steps.countP LinkStep.numbers

theorem Consistent.step [Transcodes] (h : Consistent n l) (ord : DeadlineOrder MessageId)
    (s : LinkStep F) (hn : n + s.numbers.toNat < 2 ^ 53) :
    Safe (fun _ => False) (Consistent (n + s.numbers.toNat)) (l.step ord s) := by
  cases s with
  | send data => exact h.send data
  | request data deadline =>
    obtain ⟨r, hr, hnext⟩ := h.request (by omega) data deadline
    rw [Link.step, hr]
    exact hnext
  | respond messageId data => exact h.respond messageId data
  | command =>
    rw [Link.step]
    split
    · exact h
    · rename_i sent channels hchannels
      obtain ⟨msg, hmsg, hnext⟩ := h.command hn hchannels
      rw [hmsg]
      exact hnext
  | timeouts now => exact h.timeouts ord now
  | deliver =>
    rw [Link.step]
    split
    · exact h
    · rename_i data toClient htoClient
      exact h.deliver hn htoClient
  | packet =>
    rw [Link.step]
    split
    · exact h
    · rename_i data toServer htoServer
      exact h.packet hn htoServer
  | line response => exact h.line response

theorem consistent_run [Transcodes] (ord : DeadlineOrder MessageId) (clientId : ClientId)
    (now : Instant) (steps : List (LinkStep F)) (hn : numbersTaken steps < 2 ^ 53) :
    Safe (fun _ => False) (Consistent (numbersTaken steps)) (run ord clientId now steps) := by
  apply Safe.foldlM_prefix (I := fun done => Consistent (numbersTaken done))
  · exact consistent_start clientId now
  · intro done s rest hsteps l hl
    have hcount : numbersTaken (done ++ [s]) = numbersTaken done + s.numbers.toNat := by
      cases hs : s.numbers <;> simp [numbersTaken, hs]
    have hle : numbersTaken (done ++ [s]) ≤ numbersTaken steps := by
      have hsub : (done ++ [s]).Sublist steps := by
        rw [hsteps]
        simp
      exact hsub.countP_le
    rw [hcount] at hle ⊢
    exact hl.step ord s (by omega)

/-! ## The lines of the bot -/

omit [Prost] in
theorem served_onMessage (c : Client F) (data : Bytes) :
    (c.onMessage data).botRunner.served = c.botRunner.served := by
  rw [Client.onMessage]
  split
  · rfl
  · split
    · rename_i message _
      rw [Client.handleMessage]
      split
      · rfl
      · dsimp only
        split
        · rename_i serverMessage _
          cases serverMessage <;> rfl
        · rfl
    · rfl
    · rfl

/-- What a step hands to a handler, and nothing else, is counted as served. -/
theorem served_step (ord : DeadlineOrder MessageId) (l : Link F) (s : LinkStep F) :
    Safe (fun _ => True) (fun l' => l'.client.botRunner.served.map Prod.snd =
      l.client.botRunner.served.map Prod.snd ++ (l.takes s).toList) (l.step ord s) := by
  cases s with
  | send data => simp [step, takes]
  | respond messageId data => simp [step, takes]
  | timeouts now => simp [step, takes]
  | request data deadline =>
    rw [step]
    refine (safe_true _).bind fun _ _ => ?_
    simp [takes]
  | command =>
    rw [step]
    split
    · simp [takes]
    · refine (safe_true _).bind fun _ _ => ?_
      simp [takes]
  | deliver =>
    rw [step]
    split <;> simp [takes, served_onMessage]
  | packet =>
    rw [step]
    split <;> simp [takes]
  | line response =>
    rw [step, takes, Client.onLine, BotRunner.onLine]
    cases hqueue : l.client.botRunner.handlerQueue <;> simp

theorem served_foldlM (ord : DeadlineOrder MessageId) (steps : List (LinkStep F)) (l : Link F) :
    Safe (fun _ => True) (fun l' => l'.client.botRunner.served.map Prod.snd =
      l.client.botRunner.served.map Prod.snd ++ linesTaken ord l steps)
        (steps.foldlM (step ord) l) := by
  induction steps generalizing l with
  | nil => simp [linesTaken]
  | cons s steps ih =>
    rw [List.foldlM_cons]
    refine (served_step ord l s).bind_eq fun l' hl' hserved => ?_
    refine (ih l').weaken fun l'' hrest => ?_
    rw [hrest, hserved, linesTaken, hl', List.append_assoc]

/-- Requests and the lines of the bot stay together, whatever is late and whatever times
out. -/
theorem run_paired [Transcodes] (ord : DeadlineOrder MessageId) (clientId : ClientId)
    (now : Instant) (steps : List (LinkStep F)) (hn : numbersTaken steps < 2 ^ 53) :
    ∃ l, run ord clientId now steps = .ok l ∧
      Paired (linesTaken ord (start clientId now) steps) l := by
  have hsafe := consistent_run ord clientId now steps hn
  have hlines := served_foldlM ord steps (start clientId now)
  cases hrun : run ord clientId now steps with
  | error e => exact (hsafe.of_error hrun).elim
  | ok l =>
    refine ⟨l, rfl, (hsafe.of_ok hrun).paired ?_⟩
    exact hlines.of_ok hrun

end Invariants

/-- The texts of a game state without planets, which are all that is needed for one turn. -/
@[reducible] def emptyStateJson : Json Unit where
  stringify
    | .server (.gameState ⟨[], []⟩) => utf8 emptyStateText
    | _ => []
  parse text := if text = utf8 emptyStateText then some (.gameState ⟨[], []⟩) else none

/-- The bot answers after its request timed out, while the next one waits for its own line. -/
def lateSteps : List (LinkStep Unit) :=
  [.request (.server (.gameState ⟨[], []⟩)) 5, .command, .deliver, .timeouts 6,
    .request (.server (.gameState ⟨[], []⟩)) 15, .command, .deliver, .line "late", .line "pass",
    .line "nobody asked", .packet, .packet]

theorem run_paired_late :
    ∃ l, @run Unit prostWire protobufjsWire emptyStateJson (.oldest Deadline.instant) ⟨1⟩ 0
        lateSteps = .ok l ∧
      @Paired Unit protobufjsWire emptyStateJson (@linesTaken Unit prostWire protobufjsWire
        emptyStateJson (.oldest Deadline.instant) (start ⟨1⟩ 0) lateSteps) l :=
  @run_paired Unit prostWire protobufjsWire emptyStateJson transcodes_wire _ _ _ _ (by decide)

end Link
end Mozaic.MozaicClient
