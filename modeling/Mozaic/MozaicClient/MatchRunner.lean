import Mozaic.Controller.ControlClient
import Mozaic.MozaicClient.CoreFormat

/-! The match runner and its server. A request to the lobby is a promise, and it resolves with
the answer to that request. -/
namespace Mozaic.MozaicClient
open Rust Rules Outcome Network Controller

variable {F : Type}

/-- The messages of a lobby, as the library of this side writes and reads them. -/
class LobbyFormat where
  encode : Proto.LobbyMessage → Bytes
  /-- The client id in the response to a request to add a player. -/
  decodeAddPlayer : Bytes → Option UInt64Value

namespace RequestResolver
variable [Protobufjs]

def encodeRequest (messageId : Nat) (data : Bytes) : Bytes :=
  Protobufjs.encode ⟨some ⟨.number messageId, data⟩, none⟩

/-- `request`, with what it sends. -/
def request (r : RequestResolver) (data : Bytes) : Bytes × RequestResolver :=
  (encodeRequest r.messageCounter data,
    { r with
      messageCounter := r.messageCounter + 1
      responseHandlers := r.responseHandlers.insert r.messageCounter () })

end RequestResolver

structure MatchRunner where
  connHandler : RequestResolver
  /-- What the handler of messages was called with. -/
  heard : List Bytes

namespace MatchRunner

def new : MatchRunner := ⟨.new, []⟩

section Calls
variable [Protobufjs] [LobbyFormat]

/-- `addPlayer`, `removePlayer` and `startGame` differ in the message. -/
def lobbyRequest (r : MatchRunner) (message : Proto.LobbyMessage) : Bytes × MatchRunner :=
  let (data, connHandler) := r.connHandler.request (LobbyFormat.encode message)
  (data, { r with connHandler })

/-- What the promise of `addPlayer` makes of the response. -/
def clientId (data : Bytes) : Option Nat := (LobbyFormat.decodeAddPlayer data).map (·.toNumber)

omit [LobbyFormat] in
/-- The handler of messages has no response to them. -/
def onMessage (r : MatchRunner) (data : Bytes) : MatchRunner :=
  match Protobufjs.decode data with
  | none => r
  | some msg =>
    match msg.message, msg.response with
    | some message, _ =>
      if !message.messageId.truthy then r else { r with heard := r.heard ++ [message.data] }
    | none, some response => { r with connHandler := r.connHandler.handleResponse response }
    | none, none => r

end Calls
end MatchRunner

/-- A match runner and the tasks of its server, with a connection between them that keeps the
order of what is sent. -/
structure Hosting (F : Type) where
  tasks : Tasks F
  runner : MatchRunner
  toServer : List Bytes
  /-- How many packets of the control client have arrived. -/
  received : Nat

namespace Hosting

inductive Op where
  | call (message : Proto.LobbyMessage)
  /-- A packet arrives at the server. -/
  | arrive
  /-- A packet arrives at the match runner. -/
  | deliver
  /-- A task of the server does something. -/
  | task (op : Tasks.Op)

def new (ctrlToken : Bytes) (now : Instant) : Hosting F := ⟨.new ctrlToken now, .new, [], 0⟩

/-- Packets on the connection of the control client, which is the one of the match runner. -/
def speaks : Tasks.Op → Bool
  | .connection clientId (.packet _) => clientId = ctrlId
  | _ => false

/-- The requests that were made. -/
def calls (ops : List Op) : List Proto.LobbyMessage :=
  ops.filterMap fun op => match op with
    | .call message => some message
    | _ => none

/-- The tokens of the players that are added. -/
def tokens (messages : List Proto.LobbyMessage) : List Bytes :=
  messages.filterMap fun message => match message with
    | .addPlayer token => some token
    | _ => none

section Step
variable [Prost] [Protobufjs] [LobbyFormat] [F64 F] [External F] (stringify : Payload F → Bytes)
  (ord : DeadlineOrder MessageId)

def step (s : Hosting F) : Op → Except Panic (Hosting F)
  | .call message =>
    let (data, runner) := s.runner.lobbyRequest message
    pure { s with runner, toServer := s.toServer ++ [data] }
  | .arrive =>
    match s.toServer with
    | data :: toServer => do
      let tasks ← s.tasks.step stringify ord (.connection ctrlId (.packet data))
      pure { s with tasks, toServer }
    | [] => pure s
  | .deliver =>
    match (s.tasks.writtenTo ctrlId)[s.received]? with
    | some data => pure { s with runner := s.runner.onMessage data, received := s.received + 1 }
    | none => pure s
  | .task op =>
    if speaks op then pure s
    else do
      let tasks ← s.tasks.step stringify ord op
      pure { s with tasks }

def run (ctrlToken : Bytes) (now : Instant) (ops : List Op) : Except Panic (Hosting F) :=
  ops.foldlM (step stringify ord) (new ctrlToken now)

end Step

/-! ## What is under way to the server -/

/-- Numbers in it are exact on both sides. -/
def Exact : Proto.LobbyMessage → Prop
  | .removePlayer clientId => clientId < 2 ^ 53
  | _ => True

/-- The two sides read what the other one writes. -/
structure Understands [Prost] [Protobufjs] [LobbyFormat] [External F]
    (stringify : Payload F → Bytes) : Prop where
  request : ∀ messageId < 2 ^ 53, ∀ data,
    Prost.decode (RequestResolver.encodeRequest messageId data) =
      .ok ⟨some (.message ⟨messageId, data⟩)⟩
  lobby : ∀ message, Exact message →
    External.decodeLobbyMessage F (LobbyFormat.encode message) = some (some message)
  player : ∀ num, LobbyFormat.decodeAddPlayer (stringify (.lobby (.addPlayer num))) =
    some (.long num)

/-- The match has handled some requests, and others are on its channel. -/
structure Uplink [LobbyFormat] (ctrlToken : Bytes) (handled waiting : List Proto.LobbyMessage)
    (t : Tasks F) : Prop where
  answered : Answered handled t.game
  events : t.isOver = false → t.events.filterMap request? =
    (waiting.zipIdx handled.length).map fun m => (m.2, LobbyFormat.encode m.1)
  handler : t.isOver = false → ctrlId ∈ t.handlers
  known : t.isOver = false → ∀ token clientId, t.routes.table.get token = some clientId →
    token ∈ ctrlToken :: tokens handled

section Up
variable [Prost] [Protobufjs] [LobbyFormat] [F64 F] [External F] {stringify : Payload F → Bytes}
  {ctrlToken : Bytes} {handled waiting : List Proto.LobbyMessage} {t : Tasks F}

omit [Prost] [Protobufjs] [F64 F] [External F] in
/-- Nobody was registered. -/
theorem Uplink.reroute (h : Uplink ctrlToken handled waiting t) {routes : Routes}
    (htable : routes.table = t.routes.table) :
    Uplink ctrlToken handled waiting { t with routes } := by
  refine ⟨h.answered, h.events, h.handler, fun hover token clientId hget => ?_⟩
  dsimp only at hget
  rw [htable] at hget
  exact h.known hover token clientId hget

omit [Prost] [Protobufjs] [F64 F] [External F] in
theorem Uplink.goOn (h : Uplink ctrlToken handled waiting t) (hover : t.isOver = false)
    {handler : ClientHandler} {arrived : List Proto.LobbyMessage}
    (hnew : handler.eventChannel.filterMap request? =
      (arrived.zipIdx (handled.length + waiting.length)).map fun m => (m.2, LobbyFormat.encode m.1)) :
    Uplink ctrlToken handled (waiting ++ arrived) (t.goOn handler) := by
  rw [Tasks.goOn, if_neg (by simp [hover])]
  refine ⟨h.answered, fun _ => ?_, fun _ => ?_, fun _ => h.known hover⟩
  · rw [List.filterMap_append, h.events hover, hnew, List.zipIdx_append, List.map_append]
  · exact Finmap.mem_insert.mpr (.inr (h.handler hover))

omit [Prost] [Protobufjs] [F64 F] [External F] in
/-- What the match hears next, when it is a request. -/
theorem Uplink.next (h : Uplink ctrlToken handled waiting t) (hover : t.isOver = false)
    {event : Event} {events : List Event} (hevents : t.events = event :: events)
    {messageId : MessageId} {data : Bytes} (hrequest : request? event = some (messageId, data)) :
    ∃ message rest, waiting = message :: rest ∧ messageId = handled.length ∧
      data = LobbyFormat.encode message ∧ events.filterMap request? =
        (rest.zipIdx (handled.length + 1)).map fun m => (m.2, LobbyFormat.encode m.1) := by
  have hchannel := h.events hover
  rw [hevents, List.filterMap_cons_some hrequest] at hchannel
  cases waiting with
  | nil => simp at hchannel
  | cons message rest =>
    rw [List.zipIdx_cons, List.map_cons, List.cons.injEq] at hchannel
    obtain ⟨heq, hrest⟩ := hchannel
    obtain ⟨rfl, rfl⟩ := Prod.mk.inj heq
    exact ⟨message, rest, rfl, rfl, rfl, hrest⟩

omit [Prost] [Protobufjs] [F64 F] in
/-- A client that is added was asked for. -/
theorem Uplink.spawned (h : Uplink ctrlToken handled waiting t) (hover : t.isOver = false)
    (hunderstands : ∀ m ∈ handled ++ waiting,
      External.decodeLobbyMessage F (LobbyFormat.encode m) = some (some m))
    {event : Event} {events : List Event} (hevents : t.events = event :: events)
    {spawned : ClientId × Bytes} (hspawned : t.game.spawned? event = some spawned) :
    ∃ rest, waiting = .addPlayer spawned.2 :: rest := by
  obtain ⟨messageId, data, hrequest, hdecode⟩ := PwMatchState.request_of_spawned hspawned
  obtain ⟨message, rest, rfl, -, rfl, -⟩ := h.next hover hevents hrequest
  rw [hunderstands message (by simp)] at hdecode
  obtain rfl := Option.some.inj (Option.some.inj hdecode)
  exact ⟨rest, rfl⟩

omit [Prost] [Protobufjs] [F64 F] in
/-- When tokens are not used twice, nobody is added under a token that is known. -/
theorem Uplink.fresh (h : Uplink ctrlToken handled waiting t)
    (hunderstands : ∀ m ∈ handled ++ waiting,
      External.decodeLobbyMessage F (LobbyFormat.encode m) = some (some m))
    (htokens : (ctrlToken :: tokens (handled ++ waiting)).Nodup) (op : Tasks.Op) :
    t.fresh op = true := by
  unfold Tasks.fresh
  split
  · split
    · rename_i event events hevents
      cases hspawned : t.game.spawned? event with
      | none => rfl
      | some spawned =>
        have hover : t.isOver = false := by
          obtain ⟨l, hl, -⟩ := PwMatchState.lobby_of_spawned hspawned
          rw [Tasks.isOver, hl]
        obtain ⟨rest, rfl⟩ := h.spawned hover hunderstands hevents hspawned
        cases hget : t.routes.table.get spawned.2 with
        | none => simp [hget]
        | some clientId =>
          have hknown := h.known hover spawned.2 clientId hget
          have hsplit : tokens (handled ++ .addPlayer spawned.2 :: rest) =
              tokens handled ++ spawned.2 :: tokens rest := by
            rw [tokens, List.filterMap_append]
            rfl
          rw [hsplit, ← List.cons_append] at htokens
          exact absurd List.mem_cons_self (List.disjoint_of_nodup_append htokens hknown)
    · rfl
  · rfl

omit [Protobufjs] in
/-- A task of the server does something that is no packet of the match runner. -/
theorem Uplink.step (h : Uplink ctrlToken handled waiting t) (ht : t.InOrder)
    (hunderstands : ∀ m ∈ handled ++ waiting,
      External.decodeLobbyMessage F (LobbyFormat.encode m) = some (some m))
    (ord : DeadlineOrder MessageId) {op : Tasks.Op} (hop : speaks op = false) :
    Safe (Tasks.Stops F)
      (fun t' => ∃ handled' waiting', handled' ++ waiting' = handled ++ waiting ∧
        Uplink ctrlToken handled' waiting' t')
      (t.step stringify ord op) := by
  cases hover : t.isOver with
  | true =>
    apply (Tasks.step_over stringify ord hover op).weaken
    rintro t' ⟨hgame, -⟩
    have hover' : t'.isOver = true := by rwa [Tasks.isOver, hgame]
    exact ⟨handled, waiting, rfl, hgame ▸ h.answered, by simp [hover'], by simp [hover'],
      by simp [hover']⟩
  | false =>
    apply (ht.step_safe stringify ord hover op).weaken
    intro t' hmoved
    have hsilent {handler : ClientHandler} (routes : Routes) (htable : routes.table = t.routes.table)
        (hnew : handler.eventChannel.filterMap request? = []) :
        ∃ handled' waiting', handled' ++ waiting' = handled ++ waiting ∧
          Uplink ctrlToken handled' waiting' ({ t with routes }.goOn handler) := by
      have hgoOn : Uplink ctrlToken handled (waiting ++ []) ({ t with routes }.goOn handler) :=
        (h.reroute htable).goOn hover hnew
      exact ⟨handled, waiting, rfl, by rwa [List.append_nil] at hgoOn⟩
    cases hmoved with
    | blocked => exact ⟨handled, waiting, rfl, h⟩
    | rerouted _ htable => exact ⟨handled, waiting, rfl, h.reroute htable⟩
    | @polled rt event events game sent hevents hgame hsent =>
      have hhandler : ctrlId ∈ Tasks.spawn t.handlers rt.now (t.game.spawned? event) :=
        Tasks.mem_spawn.mpr (.inl (h.handler hover))
      cases hrequest : request? event with
      | none =>
        have hchannel := h.events hover
        rw [hevents, List.filterMap_cons_none hrequest] at hchannel
        have hspawned : t.game.spawned? event = none := by
          rw [Option.eq_none_iff_forall_ne_some]
          intro spawned hspawned
          obtain ⟨_, _, hsome, -⟩ := PwMatchState.request_of_spawned hspawned
          rw [hrequest] at hsome
          cases hsome
        rw [hspawned] at hhandler ⊢
        exact ⟨handled, waiting, rfl, (h.answered.other rt hrequest).of_ok hgame,
          fun _ => hchannel, fun _ => hhandler, fun _ => h.known hover⟩
      | some request =>
        obtain ⟨message, rest, rfl, hnumber, hdata, hrest⟩ := h.next hover hevents hrequest
        obtain ⟨messageId, data⟩ := request
        obtain rfl : messageId = handled.length := hnumber
        obtain rfl : data = LobbyFormat.encode message := hdata
        refine ⟨handled ++ [message], rest, by simp, ?_, fun _ => ?_, fun _ => hhandler, fun _ => ?_⟩
        · obtain rfl := request?_eq_some.mp hrequest
          exact (h.answered.request rt (hunderstands message (by simp))).of_ok hgame
        · rw [hrest, List.length_append, List.length_singleton]
        · intro token clientId hget
          have htokens : tokens (handled ++ [message]) = tokens handled ++ tokens [message] :=
            List.filterMap_append ..
          rw [htokens, ← List.cons_append, List.mem_append]
          cases hspawned : t.game.spawned? event with
          | none =>
            rw [hspawned] at hget
            exact .inl (h.known hover token clientId hget)
          | some spawned =>
            obtain ⟨_, heq⟩ := h.spawned hover hunderstands hevents hspawned
            obtain ⟨rfl, rfl⟩ := List.cons.inj heq
            rw [hspawned] at hget
            by_cases htoken : token = spawned.2
            · exact .inr (htoken ▸ List.mem_singleton.mpr rfl)
            · refine .inl (h.known hover token clientId ?_)
              rwa [Routes.register, RoutingTable.get, RoutingTable.register,
                Finmap.lookup_insert_of_ne _ htoken] at hget
    | executed msg hlookup hsent =>
      exact ⟨handled, waiting, rfl, h.answered, h.events, fun _ =>
        Finmap.mem_insert.mpr (.inr (h.handler hover)), h.known⟩
    | @timedOut clientId now handler new hlookup hnew =>
      apply hsilent t.routes rfl
      rw [List.filterMap_eq_nil_iff]
      intro e he
      rcases (ClientHandler.settles_handleTimeouts ord now handler).2 e he with he | ⟨_, _, rfl⟩
      · rw [((ht.tracked hover).handlers clientId handler hlookup).events] at he
        cases he
      · rfl
    | @told clientId event handler new hlookup hnew =>
      obtain ⟨hclient, hnone, -⟩ := (ht.tracked hover).handlers clientId handler hlookup
      apply hsilent _ (t.routes.took_table clientId event)
      rw [hnew.events, hnone, List.nil_append, List.filterMap_eq_nil_iff]
      intro e he
      cases event with
      | connected | disconnected =>
        have hevent := hnew.events
        rw [Tasks.onConnection, ClientHandler.dispatchEvent, List.append_cancel_left_eq] at hevent
        rw [← hevent] at he
        rw [List.mem_singleton.mp he]
        rfl
      | packet data =>
        have hother : clientId ≠ ctrlId := by simpa [speaks] using hop
        cases hrequest : request? e with
        | none => rfl
        | some request =>
          have haddressed := (hnew.addressed e he).1
          rw [request?_eq_some.mp hrequest, hclient] at haddressed
          exact absurd haddressed.symm hother

omit [Protobufjs] in
/-- A packet of the match runner arrives at the server. -/
theorem Uplink.arrive (h : Uplink ctrlToken handled waiting t) (ht : t.InOrder)
    (ord : DeadlineOrder MessageId) {message : Proto.LobbyMessage} {packet : Bytes}
    (hpacket : Prost.decode packet =
      .ok ⟨some (.message ⟨handled.length + waiting.length, LobbyFormat.encode message⟩)⟩) :
    Safe (Tasks.Stops F) (Uplink ctrlToken handled (waiting ++ [message]))
      (t.step stringify ord (.connection ctrlId (.packet packet))) := by
  cases hover : t.isOver with
  | true =>
    apply (Tasks.step_over stringify ord hover _).weaken
    rintro t' ⟨hgame, -⟩
    have hover' : t'.isOver = true := by rwa [Tasks.isOver, hgame]
    exact ⟨hgame ▸ h.answered, by simp [hover'], by simp [hover'], by simp [hover']⟩
  | false =>
    obtain ⟨handler, hlookup⟩ := Finmap.mem_iff.mp (h.handler hover)
    obtain ⟨hclient, hnone, -⟩ := (ht.tracked hover).handlers ctrlId handler hlookup
    have hevent : (handler.handlePacket packet).eventChannel =
        [⟨ctrlId, .message (handled.length + waiting.length) (LobbyFormat.encode message)⟩] := by
      simp [ClientHandler.handlePacket, MessageHandler.handleMessage, hpacket,
        ClientHandler.dispatchEvent, hclient, hnone]
    have hopen := ((ht.tracked hover).registered ctrlId (h.handler hover)).isOpen
    rw [Tasks.step, hlookup]
    dsimp only
    rw [if_pos hopen]
    have hgoOn : Uplink ctrlToken handled (waiting ++ [message])
        (t.goOn (handler.handlePacket packet)) :=
      h.goOn hover (by rw [hevent]; rfl)
    exact hgoOn

end Up

/-! ## What is under way to the match runner -/

/-- What a message to the control client says. -/
def text? (stringify : Payload F → Bytes) (sent : Sent F) : Option Bytes :=
  match sent.command with
  | .response _ _ => none
  | command => some (stringify command.data)

/-- The messages to the control client. -/
def texts (stringify : Payload F → Bytes) (channels : Channels F) : List Bytes :=
  (Tasks.sentTo ctrlId channels).filterMap (text? stringify)

/-- Every promise, and what it resolves with if it ever does. -/
def promised (stringify : Payload F → Bytes) (messages : List Proto.LobbyMessage) :
    List (Nat × Bytes) :=
  (answers F messages).map fun r => (r.2, stringify r.1)

/-- The match runner has heard the first packets that were sent to it, and waits for the
responses that did not come. -/
structure Downlink [Prost] (stringify : Payload F → Bytes) (called : Nat) (s : Hosting F) :
    Prop where
  outbox : s.tasks.Outbox stringify ctrlId
  received : s.received ≤ (s.tasks.writtenTo ctrlId).length
  resolved : s.runner.connHandler.resolved =
    (((Tasks.sentTo ctrlId s.tasks.game.channels).take s.received).filterMap response?).map
      fun r => (r.2, stringify r.1)
  heard : s.runner.heard =
    ((Tasks.sentTo ctrlId s.tasks.game.channels).take s.received).filterMap (text? stringify)
  counter : s.runner.connHandler.messageCounter = called
  waits : ∀ id, (s.runner.connHandler.responseHandlers.lookup id).isSome ↔
    s.runner.connHandler.resolved.length ≤ id ∧ id < called

section Down
variable [Prost] {stringify : Payload F → Bytes} {called : Nat} {s : Hosting F}

theorem Downlink.received_le (h : Downlink stringify called s) :
    s.received ≤ (Tasks.sentTo ctrlId s.tasks.game.channels).length := by
  obtain ⟨done, hdone, hwritten⟩ := h.outbox
  rw [hdone, List.length_append, hwritten.length_eq]
  exact Nat.le_add_right_of_le h.received

theorem Downlink.call [Protobufjs] [LobbyFormat] (h : Downlink stringify called s)
    (hle : s.runner.connHandler.resolved.length ≤ called) (message : Proto.LobbyMessage)
    (toServer : List Bytes) :
    Downlink stringify (called + 1)
      { s with runner := (s.runner.lobbyRequest message).2, toServer } where
  outbox := h.outbox
  received := h.received
  resolved := h.resolved
  heard := h.heard
  counter := congrArg (· + 1) h.counter
  waits id := by
    have hwaits := h.waits id
    simp only [MatchRunner.lobbyRequest, RequestResolver.request, h.counter,
      HashMap.lookup_insert_eq]
    split
    · rename_i hid
      subst hid
      simp [hle]
    · rw [hwaits]
      omega

section Tasks
variable [F64 F] [External F]

/-- What the tasks of the server do leaves the match runner alone. -/
theorem Downlink.step (h : Downlink stringify called s) (ord : DeadlineOrder MessageId)
    (op : Tasks.Op) (toServer : List Bytes) :
    Safe (fun _ => True) (fun tasks => Downlink stringify called { s with tasks, toServer })
      (s.tasks.step stringify ord op) := by
  apply (Tasks.step_passes stringify ord op).weaken
  intro tasks hpasses
  obtain ⟨sent, hsent⟩ := hpasses.channels
  have htake : (Tasks.sentTo ctrlId tasks.game.channels).take s.received =
      (Tasks.sentTo ctrlId s.tasks.game.channels).take s.received := by
    rw [← hsent, Tasks.sentTo_append, List.take_append_of_le_length h.received_le]
  refine ⟨h.outbox.passes hpasses, h.received.trans hpasses.writtenTo.length_le, ?_, ?_, h.counter,
    h.waits⟩
  · dsimp only
    rw [htake]
    exact h.resolved
  · dsimp only
    rw [htake]
    exact h.heard

end Tasks

omit [Prost] in
/-- The responses come in the order of the requests. -/
theorem number_of_responses {handled : List Proto.LobbyMessage} {before after : Channels F}
    {sent : Sent F} {channels : Channels F} (hresponses : responses channels = answers F handled)
    (hchannels : Tasks.sentTo ctrlId channels = before ++ sent :: after) {data : Payload F}
    {messageId : MessageId} (hsent : sent.command = .response messageId data) :
    messageId = (before.filterMap response?).length ∧ messageId < handled.length := by
  have hsome : response? sent = some (data, messageId) := by rw [response?, hsent]
  have hget : (answers F handled)[(before.filterMap response?).length]? = some (data, messageId) := by
    rw [← hresponses, responses, hchannels, List.filterMap_append, List.filterMap_cons_some hsome,
      List.getElem?_append_right (Nat.le_refl _), Nat.sub_self, List.getElem?_cons_zero]
  rw [answers, List.getElem?_zipIdx, Option.map_eq_some_iff] at hget
  obtain ⟨_, hmem, heq⟩ := hget
  obtain ⟨-, rfl⟩ := Prod.mk.inj heq
  have hlt := (List.getElem?_eq_some_iff.mp hmem).1
  rw [List.length_map] at hlt
  exact ⟨Nat.zero_add _, Nat.lt_of_lt_of_le (by omega) (length_replies_le 1 handled)⟩

section Messages
variable [Protobufjs] [Transcodes]

theorem onMessage_message (r : MatchRunner) (messageId : MessageId) (data : Bytes) :
    r.onMessage (encodeMessage messageId data) = { r with heard := r.heard ++ [data] } := by
  simp [MatchRunner.onMessage, Transcodes.message, UInt64Value.truthy]

theorem onMessage_response {r : MatchRunner} {messageId : MessageId} (data : Bytes)
    (hlt : messageId < 2 ^ 53)
    (hwaits : (r.connHandler.responseHandlers.lookup messageId).isSome) :
    r.onMessage (encodeResponse messageId data) =
      { r with
        connHandler := { r.connHandler with
          responseHandlers := r.connHandler.responseHandlers.erase messageId
          resolved := r.connHandler.resolved ++ [(messageId, data)] } } := by
  obtain ⟨handler, hhandler⟩ := Option.isSome_iff_exists.mp hwaits
  have hnumber : (UInt64Value.long messageId).toNumber = messageId := toDouble_eq hlt
  simp only [MatchRunner.onMessage, Transcodes.response, RequestResolver.handleResponse,
    UInt64Value.truthy, Bool.not_true, Bool.false_eq_true, if_false]
  rw [hnumber, hhandler]

/-- The next packet arrives at the match runner. -/
theorem Downlink.deliver (h : Downlink stringify called s) (hcalled : called ≤ 2 ^ 53)
    {handled : List Proto.LobbyMessage}
    (hresponses : responses s.tasks.game.channels = answers F handled)
    (hhandled : handled.length ≤ called) {packet : Bytes}
    (hpacket : (s.tasks.writtenTo ctrlId)[s.received]? = some packet) :
    Downlink stringify called
      { s with runner := s.runner.onMessage packet, received := s.received + 1 } := by
  obtain ⟨done, hdone, hwritten⟩ := h.outbox
  obtain ⟨hreceived, rfl⟩ := List.getElem?_eq_some_iff.mp hpacket
  have hlt : s.received < done.length := hwritten.length_eq ▸ hreceived
  obtain ⟨messageId, hcarries⟩ := (List.forall₂_iff_get.mp hwritten).2 s.received hlt hreceived
  obtain ⟨before, sent, hbefore, hsent, after, hafter⟩ : ∃ before sent,
      (Tasks.sentTo ctrlId s.tasks.game.channels).take s.received = before ∧
      done.get ⟨s.received, hlt⟩ = sent ∧
      ∃ after, Tasks.sentTo ctrlId s.tasks.game.channels = before ++ sent :: after := by
    refine ⟨_, _, rfl, rfl, done.drop (s.received + 1) ++ Tasks.sentTo ctrlId s.tasks.waiting, ?_⟩
    rw [hdone, List.take_append_of_le_length hlt.le, ← List.cons_append, ← List.append_assoc]
    congr 1
    simp
  have hnext : (Tasks.sentTo ctrlId s.tasks.game.channels).take (s.received + 1) =
      before ++ [sent] := by
    have hlength : before.length = s.received := by
      rw [← hbefore, List.length_take, Nat.min_eq_left h.received_le]
    rw [hafter, ← hlength, List.take_append, List.take_of_length_le (Nat.le_succ _)]
    simp
  have hresolved := h.resolved
  have hheard := h.heard
  rw [hbefore] at hresolved hheard
  rw [hsent] at hcarries
  have hheads : s.received + 1 ≤ (s.tasks.writtenTo ctrlId).length := hreceived
  have hmessage (data : Payload F) (hdata : stringify data = stringify sent.command.data)
      (hpayload : ClientHandler.payload stringify messageId sent.command =
        .message ⟨messageId, stringify data⟩)
      (htext : text? stringify sent = some (stringify data)) (hnone : response? sent = none) :
      Downlink stringify called { s with
        runner := s.runner.onMessage (s.tasks.writtenTo ctrlId)[s.received]
        received := s.received + 1 } := by
    have hruns : s.runner.onMessage (s.tasks.writtenTo ctrlId)[s.received] =
        { s.runner with heard := s.runner.heard ++ [stringify data] } := by
      rw [← onMessage_message s.runner messageId]
      exact congrArg s.runner.onMessage (hcarries.trans (congrArg encodePayload hpayload))
    rw [hruns]
    refine ⟨h.outbox, hheads, ?_, ?_, h.counter, h.waits⟩
    · dsimp only
      rw [hnext, List.filterMap_append, List.filterMap_cons_none hnone, List.filterMap_nil,
        List.append_nil, hresolved]
    · dsimp only
      rw [hnext, List.filterMap_append, List.filterMap_cons_some htext, List.filterMap_nil, hheard]
  cases hcommand : sent.command with
  | message data =>
    exact hmessage data (by rw [hcommand]; rfl) (by rw [hcommand]; rfl) (by rw [text?, hcommand]; rfl)
      (by rw [response?, hcommand])
  | request requestNum data deadline =>
    exact hmessage data (by rw [hcommand]; rfl) (by rw [hcommand]; rfl) (by rw [text?, hcommand]; rfl)
      (by rw [response?, hcommand])
  | response responseTo data =>
    obtain ⟨hnumber, hbelow⟩ := number_of_responses hresponses hafter hcommand
    have hlength : s.runner.connHandler.resolved.length = responseTo := by
      rw [hresolved, List.length_map, hnumber]
    have hwaits := (h.waits responseTo).mpr ⟨hlength.le, Nat.lt_of_lt_of_le hbelow hhandled⟩
    have hruns := onMessage_response (r := s.runner) (stringify data)
      (Nat.lt_of_lt_of_le hbelow (hhandled.trans hcalled)) hwaits
    have hpayload : ClientHandler.payload stringify messageId sent.command =
        .response ⟨responseTo, stringify data⟩ := by rw [hcommand]; rfl
    have heq : (s.tasks.writtenTo ctrlId)[s.received] = encodeResponse responseTo (stringify data) :=
      hcarries.trans (congrArg encodePayload hpayload)
    have hsome : response? sent = some (data, responseTo) := by rw [response?, hcommand]
    have hnone : text? stringify sent = none := by rw [text?, hcommand]
    rw [heq, hruns]
    refine ⟨h.outbox, hheads, ?_, ?_, h.counter, fun id => ?_⟩
    · dsimp only
      rw [hnext, List.filterMap_append, List.filterMap_cons_some hsome, List.filterMap_nil,
        List.map_append, hresolved]
      rfl
    · dsimp only
      rw [hnext, List.filterMap_append, List.filterMap_cons_none hnone, List.filterMap_nil,
        List.append_nil, hheard]
    · have hid := h.waits id
      simp only [HashMap.lookup_erase_eq, List.length_append, List.length_singleton]
      split
      · simp only [Option.isSome_none, Bool.false_eq_true, false_iff]
        omega
      · rw [hid]
        omega

end Messages
end Down

/-! ## Every run -/

/-- What holds after these calls. -/
structure Consistent [Prost] [Protobufjs] [LobbyFormat] [F64 F] [External F]
    (stringify : Payload F → Bytes) (ctrlToken : Bytes) (called : List Proto.LobbyMessage)
    (s : Hosting F) : Prop where
  inOrder : s.tasks.InOrder
  down : Downlink stringify called.length s
  up : ∃ handled waiting sent, called = handled ++ waiting ++ sent ∧
    Uplink ctrlToken handled waiting s.tasks ∧
    s.toServer = (sent.zipIdx (handled.length + waiting.length)).map fun m =>
      RequestResolver.encodeRequest m.2 (LobbyFormat.encode m.1)

/-- Nothing is under way between the match runner and the match. -/
structure Quiet (s : Hosting F) : Prop where
  toServer : s.toServer = []
  events : s.tasks.events.filterMap request? = []
  waiting : Tasks.sentTo ctrlId s.tasks.waiting = []
  received : s.received = (s.tasks.writtenTo ctrlId).length

section Runs
variable [Prost] [Protobufjs] [LobbyFormat] [F64 F] [External F] {stringify : Payload F → Bytes}
  {ctrlToken : Bytes} {called : List Proto.LobbyMessage} {s : Hosting F}

theorem consistent_new (ctrlToken : Bytes) (now : Instant) :
    Consistent stringify ctrlToken [] (new ctrlToken now : Hosting F) where
  inOrder := Tasks.inOrder_new ctrlToken now
  down := by
    refine ⟨⟨[], rfl, .nil⟩, Nat.le_refl _, rfl, rfl, rfl, fun id => ?_⟩
    simp [new, MatchRunner.new, RequestResolver.new]
  up := by
    refine ⟨[], [], [], rfl, ⟨answered_new ctrlToken, fun _ => rfl, fun _ => ?_, fun _ => ?_⟩, rfl⟩
    · exact Finmap.mem_insert.mpr (.inl rfl)
    · intro token clientId hget
      by_contra hother
      have htoken : token ≠ ctrlToken := fun heq => hother (heq ▸ List.mem_cons_self)
      have hnone : (new ctrlToken now : Hosting F).tasks.routes.table.get token = none :=
        (Finmap.lookup_insert_of_ne _ htoken).trans (Finmap.lookup_empty token)
      rw [hnone] at hget
      cases hget

/-- The first of the answers are those that the promises resolved with. -/
theorem Consistent.resolved (h : Consistent stringify ctrlToken called s) :
    s.runner.connHandler.resolved <+: promised stringify called := by
  obtain ⟨handled, waiting, sent, rfl, hup, -⟩ := h.up
  rw [h.down.resolved]
  have hresponses : ((Tasks.sentTo ctrlId s.tasks.game.channels).take s.received).filterMap
      response? <+: answers F handled := by
    rw [← hup.answered.channels]
    exact (List.take_prefix _ _).filterMap _
  exact (hresponses.trans (List.append_assoc handled waiting sent ▸ answers_le _ _)).map _

theorem Consistent.step [Transcodes] (h : Consistent stringify ctrlToken called s)
    (hunderstands : Understands stringify) (hexact : ∀ m ∈ called, Exact m)
    (htokens : (ctrlToken :: tokens called).Nodup) (ord : DeadlineOrder MessageId) (op : Op)
    (hcalled : (called ++ calls [op]).length ≤ 2 ^ 53) :
    Safe (Tasks.Stops F) (Consistent stringify ctrlToken (called ++ calls [op]))
      (s.step stringify ord op) := by
  obtain ⟨handled, waiting, sent, rfl, hup, htoServer⟩ := h.up
  have hdecodes : ∀ m ∈ handled ++ waiting,
      External.decodeLobbyMessage F (LobbyFormat.encode m) = some (some m) :=
    fun m hm => hunderstands.lobby m (hexact m (List.mem_append_left _ hm))
  have hdistinct : (ctrlToken :: tokens (handled ++ waiting)).Nodup := by
    rw [tokens, List.filterMap_append, ← List.cons_append] at htokens
    exact htokens.of_append_left
  have hfresh := hup.fresh hdecodes hdistinct
  cases op with
  | call message =>
    have hle : s.runner.connHandler.resolved.length ≤ (handled ++ waiting ++ sent).length := by
      have hresolved := h.resolved.length_le
      rw [promised, List.length_map, answers, List.length_zipIdx, List.length_map] at hresolved
      exact hresolved.trans (length_replies_le 1 _)
    refine ⟨h.inOrder, ?_, handled, waiting, sent ++ [message], by simp [calls], hup, ?_⟩
    · rw [List.length_append]
      exact h.down.call hle message _
    · have hcounter : s.runner.connHandler.messageCounter =
          handled.length + waiting.length + sent.length := by
        rw [h.down.counter, List.length_append, List.length_append]
      dsimp only
      rw [hcounter, htoServer, List.zipIdx_append, List.map_append]
      rfl
  | deliver =>
    have hnone : calls [Op.deliver] = [] := rfl
    rw [hnone, List.append_nil] at hcalled ⊢
    rw [Hosting.step]
    split
    · rename_i packet hpacket
      refine ⟨h.inOrder, ?_, handled, waiting, sent, rfl, hup, htoServer⟩
      refine h.down.deliver hcalled hup.answered.channels ?_ hpacket
      rw [List.length_append, List.length_append]
      omega
    · exact h
  | arrive =>
    have hnone : calls [Op.arrive] = [] := rfl
    rw [hnone, List.append_nil] at hcalled ⊢
    rw [Hosting.step]
    split
    · rename_i packet toServer hpackets
      cases sent with
      | nil =>
        rw [htoServer] at hpackets
        cases hpackets
      | cons message sent =>
        rw [htoServer, List.zipIdx_cons, List.map_cons, List.cons.injEq] at hpackets
        obtain ⟨rfl, rfl⟩ := hpackets
        have hlt : handled.length + waiting.length < 2 ^ 53 := by
          simp only [List.length_append, List.length_cons] at hcalled
          omega
        have harrive : Safe (Tasks.Stops F) (Uplink ctrlToken handled (waiting ++ [message]))
            (s.tasks.step stringify ord (.connection ctrlId (.packet
              (RequestResolver.encodeRequest (handled.length + waiting.length)
                (LobbyFormat.encode message))))) :=
          hup.arrive h.inOrder ord (hunderstands.request _ hlt (LobbyFormat.encode message))
        have hboth := (h.inOrder.step stringify ord (hfresh _)).and harrive
        apply (hboth.join (h.down.step ord _ _)).bind
        rintro tasks ⟨⟨hinOrder, hup'⟩, hdown⟩
        refine ⟨hinOrder, hdown, handled, waiting ++ [message], sent, by simp, hup', ?_⟩
        rw [List.length_append, List.length_singleton, Nat.add_assoc]
    · exact h
  | task op =>
    have hnone : calls [Op.task op] = [] := rfl
    rw [hnone, List.append_nil] at hcalled ⊢
    rw [Hosting.step]
    split
    · exact h
    · rename_i hspeaks
      have hstep : Safe (Tasks.Stops F) (fun t' => ∃ handled' waiting',
          handled' ++ waiting' = handled ++ waiting ∧ Uplink ctrlToken handled' waiting' t')
          (s.tasks.step stringify ord op) :=
        hup.step h.inOrder hdecodes ord (by simpa using hspeaks)
      have hboth := (h.inOrder.step stringify ord (hfresh op)).and hstep
      apply (hboth.join (h.down.step ord op _)).bind
      rintro tasks ⟨⟨hinOrder, handled', waiting', hsame, hup'⟩, hdown⟩
      refine ⟨hinOrder, hdown, handled', waiting', sent, by rw [hsame], hup', ?_⟩
      have hlength := congrArg List.length hsame
      rw [List.length_append, List.length_append] at hlength
      rw [hlength]
      exact htoServer

theorem consistent_run [Transcodes] (hunderstands : Understands (F := F) stringify)
    (ord : DeadlineOrder MessageId) (ctrlToken : Bytes) (now : Instant) (ops : List Op)
    (hexact : ∀ m ∈ calls ops, Exact m) (htokens : (ctrlToken :: tokens (calls ops)).Nodup)
    (hcalls : (calls ops).length ≤ 2 ^ 53) :
    Safe (Tasks.Stops F) (Consistent stringify ctrlToken (calls ops))
      (run stringify ord ctrlToken now ops) := by
  apply Safe.foldlM_prefix (I := fun done => Consistent stringify ctrlToken (calls done))
  · exact consistent_new ctrlToken now
  · intro done op rest hops s hs
    have hcalled : calls (done ++ [op]) = calls done ++ calls [op] := List.filterMap_append ..
    have hpart : calls (done ++ [op]) <+: calls ops := by
      have hops' : ops = (done ++ [op]) ++ rest := by simp [hops]
      rw [hops']
      exact (List.prefix_append _ _).filterMap _
    rw [hcalled] at hpart ⊢
    have hdone : calls done <+: calls ops := (List.prefix_append _ _).trans hpart
    refine hs.step hunderstands (fun m hm => hexact m (hdone.subset hm)) ?_ ord op
      (hpart.length_le.trans hcalls)
    exact htokens.sublist ((hdone.filterMap _).sublist.cons_cons ctrlToken)

/-! ## What the callers get -/

/-- The promises of a match runner, and the messages it hears. Promises resolve in the order in
which they were made, each at most once and with the answer to its own request: the answers are
those of a lobby that gets the requests one after the other, whatever the clients do meanwhile.
What is asked after the game was started is never answered. -/
structure Resolves [Prost] [LobbyFormat] (stringify : Payload F → Bytes)
    (called : List Proto.LobbyMessage) (s : Hosting F) : Prop where
  resolved : s.runner.connHandler.resolved <+: promised stringify called
  /-- The players are numbered from one on, in the order in which they were added. -/
  players : ∀ id token data, called[id]? = some (.addPlayer token) →
    (id, data) ∈ s.runner.connHandler.resolved →
      MatchRunner.clientId data = some (1 + (called.take id).countP adds)
  heard : s.runner.heard <+: texts stringify s.tasks.game.channels
  /-- Nothing is lost. -/
  settled : s.Quiet → s.runner.connHandler.resolved = promised stringify called ∧
    s.runner.heard = texts stringify s.tasks.game.channels

omit [F64 F] in
theorem clientId_promised (hunderstands : Understands (F := F) stringify)
    (hcalled : called.length < 2 ^ 53) {id : Nat} {token data : Bytes}
    (hid : called[id]? = some (.addPlayer token)) (hdata : (id, data) ∈ promised stringify called) :
    MatchRunner.clientId data = some (1 + (called.take id).countP adds) := by
  obtain ⟨⟨payload, id'⟩, hpayload, heq⟩ := List.mem_map.mp hdata
  obtain ⟨rfl, rfl⟩ := Prod.mk.inj heq
  have hget := List.mem_zipIdx_iff_getElem?.mp hpayload
  rw [List.getElem?_map, Option.map_eq_some_iff] at hget
  obtain ⟨response, hresponse, rfl⟩ := hget
  have hnumber : 1 + (called.take id').countP adds < 2 ^ 53 := by
    have hlt := (List.getElem?_eq_some_iff.mp hid).1
    have hcount := List.countP_le_length (p := adds) (l := called.take id')
    rw [List.length_take] at hcount
    omega
  rw [replies_addPlayer hid hresponse, MatchRunner.clientId, hunderstands.player]
  exact congrArg some (toDouble_eq hnumber)

theorem Consistent.resolves (h : Consistent stringify ctrlToken called s)
    (hunderstands : Understands (F := F) stringify) (hcalled : called.length < 2 ^ 53) :
    Resolves stringify called s where
  resolved := h.resolved
  players id token data hid hdata :=
    clientId_promised hunderstands hcalled hid (h.resolved.subset hdata)
  heard := by
    rw [h.down.heard]
    exact (List.take_prefix _ _).filterMap _
  settled hquiet := by
    obtain ⟨done, hdone, hwritten⟩ := h.down.outbox
    have hall : (Tasks.sentTo ctrlId s.tasks.game.channels).take s.received =
        Tasks.sentTo ctrlId s.tasks.game.channels := by
      rw [hdone, hquiet.waiting, List.append_nil, hquiet.received, ← hwritten.length_eq,
        List.take_length]
    obtain ⟨handled, waiting, sent, rfl, hup, htoServer⟩ := h.up
    have hsent : sent = [] := by
      rw [hquiet.toServer] at htoServer
      simpa using htoServer.symm
    have hhandled : answers F handled = answers F (handled ++ waiting ++ sent) := by
      subst hsent
      rw [List.append_nil]
      cases hover : s.tasks.isOver with
      | true =>
        have hstarted := hup.answered.started fun l hl => by simp [Tasks.isOver, hl] at hover
        rw [answers, answers, replies_append_of_started 1 waiting hstarted]
      | false =>
        have hwaiting := hup.events hover
        rw [hquiet.events] at hwaiting
        have hnil : waiting = [] := by simpa using hwaiting.symm
        rw [hnil, List.append_nil]
    constructor
    · rw [h.down.resolved, hall, ← responses, hup.answered.channels, hhandled]
      rfl
    · rw [h.down.heard, hall]
      rfl

/-- Whatever the tasks of the server do, in any order, and whoever connects to it: when every
client has a token of its own, the promises of the match runner are kept. -/
theorem run_resolves [Transcodes] (hunderstands : Understands (F := F) stringify)
    (ord : DeadlineOrder MessageId) (ctrlToken : Bytes) (now : Instant) (ops : List Op)
    (hexact : ∀ m ∈ calls ops, Exact m) (htokens : (ctrlToken :: tokens (calls ops)).Nodup)
    (hcalls : (calls ops).length < 2 ^ 53) :
    Safe (Tasks.Stops F) (Resolves stringify (calls ops))
      (run stringify ord ctrlToken now ops) :=
  (consistent_run hunderstands ord ctrlToken now ops hexact htokens hcalls.le).weaken
    fun _ hs => hs.resolves hunderstands hcalls

end Runs

/-! ## The messages of a lobby -/

section Wire
open Framing

def thirdTag : UInt8 := 26

def encodeLobbyWire : Proto.LobbyMessage → Bytes
  | .addPlayer token => bytesField firstTag (encodeOnly true token)
  | .removePlayer clientId => bytesField secondTag (numberField clientId)
  | .startGame payload => bytesField thirdTag (encodeOnly true payload)

def decodeLobbyWire (bytes : Bytes) : Option (Option Proto.LobbyMessage) :=
  match readChoice bytes with
  | none => if bytes = [] then some none else none
  | some (tag, record) =>
    if tag = firstTag then (decodeOnly record).map fun token => some (.addPlayer token)
    else if tag = secondTag then (decodeRecord record).map fun r => some (.removePlayer r.1)
    else if tag = thirdTag then (decodeOnly record).map fun payload => some (.startGame payload)
    else some none

@[reducible] def lobbyWire : LobbyFormat where
  encode := encodeLobbyWire
  decodeAddPlayer bytes := (decodeRecord bytes).map fun r => .long r.1

/-- A response that is not about a player is empty. -/
def stringifyLobby : Payload Int → Bytes
  | .lobby (.addPlayer clientId) => encodeRecord false clientId []
  | _ => []

@[reducible] def lobbyServer : External Int :=
  { (inferInstance : External Int) with decodeLobbyMessage := decodeLobbyWire }

theorem understands_lobbyWire :
    @Understands Int prostWire protobufjsWire lobbyWire lobbyServer stringifyLobby := by
  refine @Understands.mk Int prostWire protobufjsWire lobbyWire lobbyServer _ ?_ ?_ ?_
  · intro messageId _ data
    have hread := readWrapper_bytesField messageTag true messageId data
    change prostDecode (protobufjsEncode ⟨some ⟨.number messageId, data⟩, none⟩) = _
    simp [prostDecode, protobufjsEncode, UInt64Value.toNumber, hread]
  · intro message _
    change decodeLobbyWire (encodeLobbyWire message) = _
    have hsecond : secondTag ≠ firstTag := by decide
    have hthird : thirdTag ≠ firstTag ∧ thirdTag ≠ secondTag := by decide
    cases message with
    | addPlayer token =>
      simp [decodeLobbyWire, encodeLobbyWire, readChoice_bytesField, decodeOnly_encodeOnly]
    | removePlayer clientId =>
      have hnumber : decodeRecord (numberField clientId) = some (clientId, []) := by
        have hread := readNumber_leb128 clientId []
        rw [List.append_nil] at hread
        simp [decodeRecord, numberField, hread, decodeData]
      simp [decodeLobbyWire, encodeLobbyWire, readChoice_bytesField, hsecond, hnumber]
    | startGame payload =>
      simp [decodeLobbyWire, encodeLobbyWire, readChoice_bytesField, decodeOnly_encodeOnly, hthird]
  · intro num
    change (decodeRecord (encodeRecord false num [])).map _ = _
    rw [decodeRecord_encodeRecord]
    rfl

/-- Two players are added, and the first one is removed. -/
def lobbyOps : List Op :=
  [.call (.addPlayer [7]), .call (.addPlayer [8]), .arrive, .call (.removePlayer 1), .arrive,
    .task (.poll skirmishRuntime), .arrive, .task (.command ctrlId), .task (.poll skirmishRuntime),
    .deliver, .task (.poll skirmishRuntime), .task (.command ctrlId), .task (.command ctrlId),
    .deliver, .deliver]

theorem run_resolves_lobby :
    letI := prostWire
    letI := protobufjsWire
    letI := lobbyWire
    letI := lobbyServer
    ∃ s : Hosting Int,
      run stringifyLobby (.oldest Deadline.instant) [0] 0 lobbyOps = .ok s ∧
        s.runner.connHandler.resolved = [(0, [8, 1]), (1, [8, 2]), (2, [])] ∧
        Resolves stringifyLobby (calls lobbyOps) s := by
  let := prostWire
  let := protobufjsWire
  let := lobbyWire
  let := lobbyServer
  have hsafe := @run_resolves Int _ _ _ _ _ stringifyLobby transcodes_wire understands_lobbyWire
    (.oldest Deadline.instant) [0] 0 lobbyOps (by simp [calls, lobbyOps, Exact])
    (by simp [tokens, calls, lobbyOps]) (by simp [calls, lobbyOps])
  have hrun : ((run stringifyLobby (.oldest Deadline.instant) [0] 0 lobbyOps).toOption.map
      fun s => s.runner.connHandler.resolved) = some [(0, [8, 1]), (1, [8, 2]), (2, [])] := by
    decide +kernel
  cases hs : run stringifyLobby (.oldest Deadline.instant) [0] 0 lobbyOps with
  | error e =>
    rw [hs] at hrun
    cases hrun
  | ok s =>
    rw [hs] at hrun
    exact ⟨s, rfl, Option.some.inj hrun, hsafe.of_ok hs⟩

end Wire
end Hosting
end Mozaic.MozaicClient
