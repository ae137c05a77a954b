import Mozaic.MozaicClient.Connection

/-! A client that connects to the server. Bytes travel both ways in pieces, and the task of the
connection handler, the reader of the stream and the client work in any order. -/
namespace Mozaic.MozaicClient
open Rust Outcome Framing Network

/-- The message in a packet, if it is one. -/
def data? : Packet → Option Bytes
  | ⟨some (.message data)⟩ => some data
  | ⟨some .closeConnection⟩ => none
  | ⟨none⟩ => none

/-- What the client sent. Before its socket connects it may send, but it has not asked to be let
in yet. -/
inductive Said where
  | connecting (early : List Bytes)
  | asked (early sent : List Bytes)

namespace Said

def send (data : Bytes) : Said → Said
  | .connecting early => .connecting (early ++ [data])
  | .asked early sent => .asked early (sent ++ [data])

/-- What was sent before the request. -/
def before : Said → List Bytes
  | .connecting early => early
  | .asked early _ => early

/-- What was sent after the request. -/
def after : Said → List Bytes
  | .connecting _ => []
  | .asked _ sent => sent

theorem before_send (said : Said) (data : Bytes) :
    said.before <+: (said.send data).before := by
  cases said with
  | connecting early => exact List.prefix_append _ _
  | asked early sent => exact List.prefix_rfl

end Said

/-- Both ends of a connection. What was sent and served so far is on record. -/
structure Handshake where
  client : Connection
  handler : ConnectionHandler
  routed : Option Routed
  /-- How many of the bytes that the client wrote have arrived. -/
  arrived : Nat
  /-- How many of the bytes that the server wrote were delivered. -/
  delivered : Nat
  said : Said
  received : List Bytes
  served : List Packet

namespace Handshake

inductive Op where
  | send (data : Bytes)
  /-- The socket of the client has connected. -/
  | connected
  /-- The next bytes of the client arrive, as a chunk. -/
  | arrive (n : Nat)
  | poll (env : Surroundings)
  /-- One pass of the loop in `poll_message`. -/
  | read
  /-- The transport takes a packet. -/
  | serve (packet : Packet)
  /-- The next bytes of the server are delivered, as a chunk. -/
  | deliver (n : Nat)

inductive Stop where
  | handler (e : HandlerPanic)
  | stream (e : IoErrorKind)
  | client (e : Thrown)
deriving DecidableEq, Repr

/-- Whoever holds the transport gets the chunk. -/
def arriveAt (chunk : Bytes) : HandlerState → HandlerState
  | .waiting transport => .waiting (transport.arrive chunk)
  | .accepting send handle => .accepting { send with sink := send.sink.arrive chunk } handle
  | .refusing send => .refusing { send with sink := send.sink.arrive chunk }
  | .done dropped => .done dropped

def writtenBy : HandlerState → Bytes
  | .waiting transport => transport.written
  | .accepting send _ => send.sink.written
  | .refusing send => send.sink.written
  | .done dropped => (dropped.map ProtobufTransport.written).getD []

/-- What the server wrote so far. -/
def answer (s : Handshake) : Bytes :=
  match s.routed with
  | some (_, transport) => transport.written
  | none => writtenBy s.handler.state

def new (token : Bytes) : Handshake where
  client := (Connection.new token).connect
  handler := .new
  routed := none
  arrived := 0
  delivered := 0
  said := .connecting []
  received := []
  served := []

/-- Nothing gets through before the socket has connected. -/
def arrive (s : Handshake) (n : Nat) : Handshake :=
  match s.said with
  | .connecting _ => s
  | .asked _ _ =>
    let chunk := (s.client.written.drop s.arrived).take n
    { s with
      arrived := s.arrived + chunk.length
      handler := ⟨arriveAt chunk s.handler.state⟩
      routed := s.routed.map fun r => (r.1, r.2.arrive chunk) }

/-- The client says what an operation makes it say. -/
def Op.tells (said : Said) : Op → Said
  | .send data => said.send data
  | .connected => .asked said.before said.after
  | .arrive _ | .poll _ | .read | .serve _ | .deliver _ => said

/-- What a client says that does this. -/
def saidBy (ops : List Op) : Said := ops.foldl Op.tells (.connecting [])

theorem saidBy_concat (ops : List Op) (op : Op) : saidBy (ops ++ [op]) = op.tells (saidBy ops) :=
  List.foldl_append ..

theorem before_tells (said : Said) (op : Op) : said.before <+: (op.tells said).before := by
  cases op with
  | send data => exact said.before_send data
  | connected | arrive | poll | read | serve | deliver => exact List.prefix_rfl

/-- What was sent before the request stays what was sent before it. -/
theorem before_saidBy (done rest : List Op) :
    (saidBy done).before <+: (saidBy (done ++ rest)).before := by
  induction rest generalizing done with
  | nil => rw [List.append_nil]
  | cons op rest ih =>
    have hrest := ih (done ++ [op])
    rw [List.append_assoc, List.singleton_append] at hrest
    exact (saidBy_concat done op ▸ before_tells (saidBy done) op).trans hrest

section Steps
variable [Varint] [FramedPoll] [SendPoll] [Writer] [CoreFormat]

def send (s : Handshake) (data : Bytes) : Handshake :=
  { s with client := s.client.send data, said := s.said.send data }

/-- What was written before is on its way by then. -/
def connected (s : Handshake) : Handshake :=
  match s.said with
  | .connecting early =>
    { s with client := s.client.sendConnectionRequest, said := .asked early [] }
  | .asked _ _ => s

def poll [HandshakeFormat] (s : Handshake) (env : Surroundings) : Except Stop Handshake :=
  match s.handler.poll env with
  | .error e => .error (.handler e)
  | .ok (handler, none) => .ok { s with handler }
  | .ok (handler, some routed) => .ok { s with handler, routed := some routed }

def read [PacketFormat] (s : Handshake) : Except Stop Handshake :=
  match s.routed with
  | none => .ok s
  | some (handle, transport) =>
    match transport.pollMsg with
    | (.error e, _) => .error (.stream e)
    | (.ok .notReady, transport) => .ok { s with routed := some (handle, transport) }
    | (.ok (.ready none), _) => .error (.stream .connectionAborted)
    | (.ok (.ready (some packet)), transport) => .ok { s with
        routed := some (handle, transport)
        received := s.received ++ (data? packet).toList }

def serve [PacketFormat] (s : Handshake) (packet : Packet) : Handshake :=
  match s.routed with
  | none => s
  | some (handle, transport) => { s with
      routed := some (handle, transport.encode (PacketFormat.encode packet))
      served := s.served ++ [packet] }

def deliver [BufferReader] (s : Handshake) (n : Nat) : Except Stop Handshake :=
  let chunk := (s.answer.drop s.delivered).take n
  match s.client.onChunk chunk with
  | .error e => .error (.client e)
  | .ok client => .ok { s with client, delivered := s.delivered + chunk.length }

variable [HandshakeFormat] [PacketFormat] [BufferReader]

def step (s : Handshake) : Op → Except Stop Handshake
  | .send data => .ok (s.send data)
  | .connected => .ok s.connected
  | .arrive n => .ok (s.arrive n)
  | .poll env => s.poll env
  | .read => s.read
  | .serve packet => .ok (s.serve packet)
  | .deliver n => s.deliver n

def run (token : Bytes) (ops : List Op) : Except Stop Handshake := ops.foldlM step (new token)

theorem said_step {s s' : Handshake} {op : Op} (h : s.step op = .ok s') :
    s'.said = op.tells s.said := by
  cases op with
  | send data =>
    rw [← Except.ok.inj h]
    rfl
  | connected =>
    rw [← Except.ok.inj h, connected, Op.tells]
    split
    · rename_i hsaid
      rw [hsaid]
      rfl
    · rename_i hsaid
      rw [hsaid]
      rfl
  | arrive n =>
    rw [← Except.ok.inj h, arrive, Op.tells]
    split <;> rfl
  | poll env =>
    rw [step, poll] at h
    split at h
    · cases h
    · rw [← Except.ok.inj h]
      rfl
    · rw [← Except.ok.inj h]
      rfl
  | read =>
    rw [step, read] at h
    rw [Op.tells]
    split at h
    · rw [← Except.ok.inj h]
    · split at h
      · cases h
      · rw [← Except.ok.inj h]
      · cases h
      · rw [← Except.ok.inj h]
  | serve packet =>
    rw [← Except.ok.inj h, serve]
    split <;> rfl
  | deliver n =>
    rw [step, deliver] at h
    split at h
    · cases h
    · rw [← Except.ok.inj h]
      rfl

end Steps

/-! ## What is on its way -/

/-- The signals of a client that was let in. -/
def welcomed (served : List Packet) : List Signal :=
  .connect :: (served.filterMap data?).map .message

theorem welcomed_append (served more : List Packet) :
    welcomed (served ++ more) = welcomed served ++ (more.filterMap data?).map .message := by
  simp [welcomed]

section Frames
variable [CoreFormat]

/-- The frames of messages. -/
def packets (sent : List Bytes) : List Bytes :=
  sent.map fun data => CoreFormat.encodePacket ⟨some (.message data)⟩

/-- The frames of all the client sends. -/
def upstream (token : Bytes) : Said → List Bytes
  | .connecting early => packets early
  | .asked early sent => packets early ++ CoreFormat.encodeRequest ⟨token⟩ :: packets sent

theorem packets_concat (sent : List Bytes) (data : Bytes) :
    packets (sent ++ [data]) =
      packets sent ++ [CoreFormat.encodePacket ⟨some (.message data)⟩] := by
  simp [packets]

theorem upstream_send (token : Bytes) (said : Said) (data : Bytes) :
    upstream token (said.send data) =
      upstream token said ++ [CoreFormat.encodePacket ⟨some (.message data)⟩] := by
  cases said with
  | connecting early => exact packets_concat early data
  | asked early sent => simp [Said.send, upstream, packets_concat]

/-- What comes first is the request, unless something was sent before it. -/
theorem upstream_cases {token bytes : Bytes} {said : Said} {rest : List Bytes}
    (h : upstream token said = bytes :: rest) :
    (∃ sent, said = .asked [] sent ∧ bytes = CoreFormat.encodeRequest ⟨token⟩ ∧
      rest = packets sent) ∨
    ∃ data ∈ said.before.head?, bytes = CoreFormat.encodePacket ⟨some (.message data)⟩ := by
  rcases said with ⟨- | ⟨data, early⟩⟩ | ⟨- | ⟨data, early⟩, sent⟩
  · cases h
  · exact .inr ⟨data, rfl, (List.cons.inj h).1.symm⟩
  · obtain ⟨rfl, rfl⟩ := List.cons.inj h
    exact .inl ⟨sent, rfl, rfl, rfl⟩
  · exact .inr ⟨data, rfl, (List.cons.inj h).1.symm⟩

variable [HandshakeFormat] [PacketFormat]

/-- The message is not taken for a request with a token that the routing table knew in some
poll. -/
def Strange (ops : List Op) (data : Bytes) : Prop :=
  ∀ request, HandshakeFormat.decodeRequest (CoreFormat.encodePacket ⟨some (.message data)⟩) =
    .ok request → ∀ env, Op.poll env ∈ ops → env.routingTable.get request.token = none

/-- The first message came before the request, and is no request at all. -/
def Garbled (said : Said) (e : HandlerPanic) : Prop :=
  ∃ data ∈ said.before.head?, ∃ err, e = .error err ∧
    HandshakeFormat.decodeRequest (CoreFormat.encodePacket ⟨some (.message data)⟩) = .error err

def acceptance : Bytes := HandshakeFormat.encodeResponse connectionSuccess

def refusal : Bytes := HandshakeFormat.encodeResponse (connectionError invalidToken)

/-- The frames of what the server sends to a client that it let in. -/
def downstream (served : List Packet) : List Bytes :=
  acceptance :: served.map PacketFormat.encode

/-- No frame is too long for the client's library. -/
def Op.Sized : Op → Prop
  | .send data => Short (CoreFormat.encodePacket ⟨some (.message data)⟩)
  | .serve packet => Short (PacketFormat.encode packet)
  | .connected | .arrive _ | .poll _ | .read | .deliver _ => True

/-- In some poll the routing table knew the token as this client's. -/
def Known (token : Bytes) (ops : List Op) (handle : ClientId) : Prop :=
  ∃ env, Op.poll env ∈ ops ∧ env.routingTable.get token = some handle

def Unknown (token : Bytes) (ops : List Op) : Prop :=
  ∃ env, Op.poll env ∈ ops ∧ env.routingTable.get token = none

end Frames

/-- The frames that a sink has of the one frame it gets. -/
def framesOf (send : Send) (bytes : Bytes) : List Bytes :=
  if send.item = none then [bytes] else []

theorem framesOf_le (send : Send) (bytes : Bytes) : framesOf send bytes <+: [bytes] := by
  rw [framesOf]
  split
  · exact List.prefix_rfl
  · exact List.nil_prefix

theorem framesOf_mono {send send' : Send} (bytes : Bytes)
    (h : send.item = none → send'.item = none) : framesOf send bytes <+: framesOf send' bytes := by
  by_cases hitem : send.item = none
  · rw [framesOf, framesOf, if_pos hitem, if_pos (h hitem)]
  · rw [framesOf, if_neg hitem]
    exact List.nil_prefix

theorem written_eq [Varint] {send : Send} {bytes : Bytes} (h : send.Carries bytes) :
    send.sink.written = wire (framesOf send bytes) := by
  rcases h with ⟨hitem, hwritten⟩ | ⟨hitem, hwritten⟩
  · simp [framesOf, hitem, hwritten, wire]
  · simp [framesOf, hitem, hwritten, wire]

/-! ## The server's side -/

section Server
variable [Varint] [CoreFormat] [HandshakeFormat] [PacketFormat]

/-- The client is turned away because of its token, or because of what it sent too early. -/
def Refusable (token : Bytes) (ops : List Op) (said : Said) : Prop :=
  said.before ≠ [] ∨ Unknown token ops

/-- How far the server is with a client that said `said`, of which `more` is on its way: what
it received, what it served, and the frames it wrote. -/
inductive Stage (token : Bytes) (ops : List Op) (said : Said) (more : Bytes) :
    ConnectionHandler → Option Routed → List Bytes → List Packet → List Bytes → Prop
  | waiting (transport : ProtobufTransport)
      (hup : transport.Upcoming (upstream token said) more) (hwritten : transport.written = []) :
      Stage token ops said more ⟨.waiting transport⟩ none [] [] []
  | accepting (send : Send) (handle : ClientId) (sent : List Bytes)
      (hknown : Known token ops handle) (hsaid : said = .asked [] sent)
      (hup : send.sink.Upcoming (packets sent) more) (hcarries : send.Carries acceptance) :
      Stage token ops said more ⟨.accepting send handle⟩ none [] [] (framesOf send acceptance)
  | refusing (send : Send) (hunknown : Refusable token ops said)
      (hcarries : send.Carries refusal) :
      Stage token ops said more ⟨.refusing send⟩ none [] [] (framesOf send refusal)
  | refused (dropped : ProtobufTransport) (hunknown : Refusable token ops said)
      (hwritten : dropped.written = wire [refusal]) :
      Stage token ops said more ⟨.done (some dropped)⟩ none [] [] [refusal]
  | routed (handle : ClientId) (transport : ProtobufTransport) (rest received : List Bytes)
      (served : List Packet) (hknown : Known token ops handle)
      (hsaid : said = .asked [] (received ++ rest))
      (hup : transport.Upcoming (packets rest) more)
      (hwritten : transport.written = wire (downstream served)) :
      Stage token ops said more ⟨.done none⟩ (some (handle, transport)) received served
        (downstream served)

variable {token : Bytes} {ops : List Op} {said : Said} {received frames : List Bytes} {more : Bytes}
  {handler : ConnectionHandler} {routed : Option Routed} {served : List Packet}

theorem Stage.send (h : Stage token ops said more handler routed received served frames)
    (data : Bytes) :
    Stage token ops (said.send data)
      (more ++ LengthDelimited.encoded (CoreFormat.encodePacket ⟨some (.message data)⟩))
      handler routed received served frames := by
  have hrefusable (hunknown : Refusable token ops said) : Refusable token ops (said.send data) := by
    refine hunknown.imp_left fun hne hnil => hne ?_
    exact List.prefix_nil.mp (hnil ▸ said.before_send data)
  cases h with
  | waiting transport hup hwritten =>
    have hup' := hup.send (CoreFormat.encodePacket ⟨some (.message data)⟩)
    rw [← upstream_send] at hup'
    exact .waiting transport hup' hwritten
  | accepting send handle sent hknown hsaid hup hcarries =>
    have hup' := hup.send (CoreFormat.encodePacket ⟨some (.message data)⟩)
    rw [← packets_concat] at hup'
    subst hsaid
    exact .accepting send handle _ hknown rfl hup' hcarries
  | refusing send hunknown hcarries => exact .refusing send (hrefusable hunknown) hcarries
  | refused dropped hunknown hwritten => exact .refused dropped (hrefusable hunknown) hwritten
  | routed handle transport rest received served hknown hsaid hup hwritten =>
    have hup' := hup.send (CoreFormat.encodePacket ⟨some (.message data)⟩)
    rw [← packets_concat] at hup'
    refine .routed handle transport (rest ++ [data]) received served hknown ?_ hup' hwritten
    rw [hsaid, ← List.append_assoc]
    rfl

/-- The request follows what was sent too early. -/
theorem Stage.ask {early : List Bytes}
    (h : Stage token ops (.connecting early) more handler routed received served frames) :
    Stage token ops (.asked early [])
      (more ++ LengthDelimited.encoded (CoreFormat.encodeRequest ⟨token⟩)) handler routed received
      served frames := by
  cases h with
  | waiting transport hup hwritten =>
    exact .waiting transport (hup.send (CoreFormat.encodeRequest ⟨token⟩)) hwritten
  | accepting send handle sent hknown hsaid => cases hsaid
  | refusing send hunknown hcarries => exact .refusing send hunknown hcarries
  | refused dropped hunknown hwritten => exact .refused dropped hunknown hwritten
  | routed handle transport rest received served hknown hsaid => cases hsaid

theorem Stage.arrive {chunk : Bytes}
    (h : Stage token ops said (chunk ++ more) handler routed received served frames) :
    Stage token ops said more ⟨arriveAt chunk handler.state⟩
      (routed.map fun r => (r.1, r.2.arrive chunk)) received served frames := by
  cases h with
  | waiting transport hup hwritten => exact .waiting (transport.arrive chunk) hup.arrive hwritten
  | accepting send handle sent hknown hsaid hup hcarries =>
    exact .accepting { send with sink := send.sink.arrive chunk } handle sent hknown hsaid hup.arrive
      hcarries
  | refusing send hunknown hcarries =>
    exact .refusing { send with sink := send.sink.arrive chunk } hunknown hcarries
  | refused dropped hunknown hwritten => exact .refused dropped hunknown hwritten
  | routed handle transport rest received served hknown hsaid hup hwritten =>
    exact .routed handle (transport.arrive chunk) rest received served hknown hsaid hup.arrive
      hwritten

/-- What the server wrote are these frames. -/
theorem Stage.answer_eq {s : Handshake}
    (h : Stage token ops said more s.handler s.routed s.received s.served frames) :
    s.answer = wire frames := by
  obtain ⟨client, handler, routed, arrived, delivered, said', received, served⟩ := s
  cases h with
  | waiting transport hup hwritten => exact hwritten
  | accepting send handle sent hknown hsaid hup hcarries => exact written_eq hcarries
  | refusing send hunknown hcarries => exact written_eq hcarries
  | refused dropped hunknown hwritten => exact hwritten
  | routed handle transport rest received served hknown hsaid hup hwritten => exact hwritten

theorem Stage.unrouted
    (h : Stage token ops said more handler none received served frames) :
    received = [] ∧ served = [] := by
  cases h <;> exact ⟨rfl, rfl⟩

/-- A stream that is routed carries what the client sent and the server did not receive. -/
theorem Stage.routed_cases {handle : ClientId} {transport : ProtobufTransport}
    (h : Stage token ops said more handler (some (handle, transport)) received served frames) :
    handler = ⟨.done none⟩ ∧ frames = downstream served ∧ Known token ops handle ∧
      ∃ rest, said = .asked [] (received ++ rest) ∧ transport.Upcoming (packets rest) more ∧
        transport.written = wire (downstream served) := by
  cases h with
  | routed handle transport rest received served hknown hsaid hup hwritten =>
    exact ⟨rfl, rfl, hknown, rest, hsaid, hup, hwritten⟩

/-- What a poll of the handler leaves behind, unless the sink or the channel fails or the first
message is garbled. It comes after the frames `before`. -/
def Polls (token : Bytes) (ops : List Op) (said : Said) (more : Bytes) (before : List Bytes)
    (env : Surroundings) (r : Except HandlerPanic (ConnectionHandler × Option Routed)) : Prop :=
  Safe (fun e => env.Fails e ∨ Garbled said e)
    (fun r => ∃ after, before <+: after ∧ Stage token ops said more r.1 r.2 [] [] after) r

section Sending
variable [SendPoll] [SendsOn]

theorem polls_accepting {send : Send} {handle : ClientId} {sent : List Bytes}
    (hknown : Known token ops handle) (hsaid : said = .asked [] sent)
    (hup : send.sink.Upcoming (packets sent) more) (hcarries : send.Carries acceptance)
    (env : Surroundings) :
    Polls token ops said more (framesOf send acceptance) env
      (ConnectionHandler.pollAccepting env send handle) := by
  rw [ConnectionHandler.pollAccepting]
  have hspec := Send.poll_spec hcarries env
  rcases hpoll : send.poll env with ⟨res, send'⟩
  rw [hpoll] at hspec
  obtain ⟨e, rfl, hfails⟩ | ⟨hworks, rfl | ⟨rfl, hnone⟩⟩ := hspec
  · exact .inl hfails
  · exact ⟨_, framesOf_mono _ hworks.gone, .accepting send' handle sent hknown hsaid
      (hworks.upcoming hup) hworks.carries⟩
  · dsimp only
    have hframes : framesOf send' acceptance = downstream [] := by
      rw [framesOf, if_pos hnone]
      rfl
    split
    · refine ⟨downstream [], hframes ▸ framesOf_mono _ hworks.gone, .routed handle send'.sink sent
        [] [] hknown hsaid (hworks.upcoming hup) ?_⟩
      rw [written_eq hworks.carries, hframes]
    · refine .inl ?_
      change env.routable = false
      simpa using ‹¬ env.routable = true›

theorem polls_refusing {send : Send} (hunknown : Refusable token ops said)
    (hcarries : send.Carries refusal) (env : Surroundings) :
    Polls token ops said more (framesOf send refusal) env
      (ConnectionHandler.pollRefusing env send) := by
  rw [ConnectionHandler.pollRefusing]
  have hspec := Send.poll_spec hcarries env
  rcases hpoll : send.poll env with ⟨res, send'⟩
  rw [hpoll] at hspec
  obtain ⟨e, rfl, hfails⟩ | ⟨hworks, rfl | ⟨rfl, hnone⟩⟩ := hspec
  · exact .inl hfails
  · exact ⟨_, framesOf_mono _ hworks.gone, .refusing send' hunknown hworks.carries⟩
  · have hframes : framesOf send' refusal = [refusal] := by rw [framesOf, if_pos hnone]
    refine ⟨[refusal], hframes ▸ framesOf_mono _ hworks.gone, .refused send'.sink hunknown ?_⟩
    rw [written_eq hworks.carries, hframes]

section Polls
variable [FramedPoll] [Leb128] [ReadsOn] [Interoperates]

/-- The first frame is taken for the request, and what was read after it stays with the
transport. -/
theorem polls_waiting {transport : ProtobufTransport} {env : Surroundings}
    (hfits : ∀ bytes ∈ upstream token said, Fits bytes)
    (hstrange : ∀ data ∈ said.before.head?, Strange ops data) (hop : Op.poll env ∈ ops)
    (hup : transport.Upcoming (upstream token said) more) (hwritten : transport.written = []) :
    Polls token ops said more [] env (ConnectionHandler.pollWaiting env transport) := by
  rw [ConnectionHandler.pollWaiting]
  have hspec := ProtobufTransport.poll_spec hfits hup
  rcases hpoll : transport.poll with ⟨res, transport'⟩
  rw [hpoll] at hspec
  cases hspec with
  | starved hup' hwritten' hall =>
    exact ⟨_, List.nil_prefix, .waiting transport' hup' (hwritten'.trans hwritten)⟩
  | frame bytes rest hrest hup' hwritten' =>
    have hunwritten := hwritten'.trans hwritten
    dsimp only
    rcases upstream_cases hrest with ⟨sent, hsaid, rfl, rfl⟩ | ⟨data, hdata, rfl⟩
    · rw [Interoperates.request]
      dsimp only
      cases hget : env.routingTable.get token with
      | none =>
        exact polls_refusing (.inr ⟨env, hop, hget⟩) (.inl ⟨rfl, hunwritten⟩) env
      | some handle =>
        exact polls_accepting ⟨env, hop, hget⟩ hsaid hup' (.inl ⟨rfl, hunwritten⟩) env
    · cases hrequest : HandshakeFormat.decodeRequest
          (CoreFormat.encodePacket ⟨some (.message data)⟩) with
      | error err => exact .inr ⟨data, hdata, err, rfl, hrequest⟩
      | ok request =>
        dsimp only
        rw [hstrange data hdata request hrequest env hop]
        refine polls_refusing (.inl fun hnil => ?_) (.inl ⟨rfl, hunwritten⟩) env
        rw [hnil] at hdata
        cases hdata

theorem Stage.poll {env : Surroundings} (hfits : ∀ bytes ∈ upstream token said, Fits bytes)
    (hstrange : ∀ data ∈ said.before.head?, Strange ops data) (hop : Op.poll env ∈ ops)
    (h : Stage token ops said more handler none received served frames) :
    received = [] ∧ served = [] ∧ Polls token ops said more frames env (handler.poll env) := by
  cases h with
  | waiting transport hup hwritten =>
    exact ⟨rfl, rfl, polls_waiting hfits hstrange hop hup hwritten⟩
  | accepting send handle sent hknown hsaid hup hcarries =>
    exact ⟨rfl, rfl, polls_accepting hknown hsaid hup hcarries env⟩
  | refusing send hunknown hcarries =>
    exact ⟨rfl, rfl, polls_refusing hunknown hcarries env⟩
  | refused dropped hunknown hwritten =>
    exact ⟨rfl, rfl, _, List.prefix_rfl, .refused dropped hunknown hwritten⟩

end Polls
end Sending

/-- A packet is read if its frame is there, and it is the next one that was sent. -/
theorem pollMsg_spec [FramedPoll] [Leb128] [ReadsOn] [Interoperates] {transport : ProtobufTransport}
    {rest : List Bytes} (hfits : ∀ bytes ∈ packets rest, Fits bytes)
    (hup : transport.Upcoming (packets rest) more) :
    (∃ data rest' t', rest = data :: rest' ∧
      transport.pollMsg = (.ok (.ready (some ⟨some (.message data)⟩)), t') ∧
      t'.Upcoming (packets rest') more ∧ t'.written = transport.written) ∨
    (∃ t', transport.pollMsg = (.ok .notReady, t') ∧ t'.Upcoming (packets rest) more ∧
      t'.written = transport.written ∧ (more = [] → rest = [])) := by
  rw [ProtobufTransport.pollMsg]
  have hspec := ProtobufTransport.poll_spec hfits hup
  rcases hpoll : transport.poll with ⟨res, t'⟩
  rw [hpoll] at hspec
  cases hspec with
  | starved hup' hwritten' hall =>
    refine .inr ⟨t', rfl, hup', hwritten', fun hmore => ?_⟩
    simpa [packets] using hall hmore
  | frame bytes frames' hrest hup' hwritten' =>
    cases rest with
    | nil => simp [packets] at hrest
    | cons data rest' =>
      obtain ⟨rfl, rfl⟩ := List.cons.inj hrest
      dsimp only
      rw [Interoperates.toServer]
      exact .inl ⟨data, rest', t', rfl, rfl, hup', hwritten'⟩

end Server

/-! ## The client's side -/

section Client
variable [HandshakeFormat] [PacketFormat] {frames pushed : List Bytes} {bytes : Bytes}
  {served : List Packet}

/-- The frames that the server may have written: it answers once. -/
inductive Answers (served : List Packet) : List Bytes → Prop
  | nothing : Answers served []
  | accepted : Answers served (downstream served)
  | refused : Answers served [refusal]

/-- What the client made of the frames it got. -/
inductive Told (c : Connection) : List Bytes → Prop
  | nothing (hstate : c.state = .connecting) (hdispatched : c.dispatched = []) : Told c []
  | accepted (served : List Packet) (hstate : c.state = .connected)
      (hdispatched : c.dispatched = welcomed served) : Told c (downstream served)
  | refused (hstate : c.state = .closed) (hdispatched : c.dispatched = [.error invalidToken]) :
      Told c [refusal]

variable {c : Connection}

theorem Told.congr {c' : Connection} (h : Told c pushed) (hstate : c'.state = c.state)
    (hdispatched : c'.dispatched = c.dispatched) : Told c' pushed := by
  cases h with
  | nothing hc hd => exact .nothing (hstate.trans hc) (hdispatched.trans hd)
  | accepted served hc hd => exact .accepted served (hstate.trans hc) (hdispatched.trans hd)
  | refused hc hd => exact .refused (hstate.trans hc) (hdispatched.trans hd)

variable [CoreFormat] [Interoperates]

theorem acceptance_ne_refusal : acceptance ≠ refusal := by
  intro heq
  have hdecode := congrArg CoreFormat.decodeResponse heq
  rw [acceptance, refusal, Interoperates.response, Interoperates.response] at hdecode
  cases hdecode

theorem encode_injective : Function.Injective (PacketFormat.encode) := by
  intro p q heq
  have hdecode := congrArg CoreFormat.decodePacket heq
  rw [Interoperates.toClient, Interoperates.toClient] at hdecode
  exact Option.some.inj hdecode

/-- The next frame is handled. -/
theorem Told.handle (h : Told c pushed) (hanswers : Answers served frames)
    (hpre : pushed ++ [bytes] <+: frames) :
    ∃ c', c.handleMessage bytes = .ok c' ∧ Told c' (pushed ++ [bytes]) ∧
      c'.reader = c.reader ∧ c'.written = c.written ∧ c'.token = c.token := by
  cases h with
  | nothing hstate hdispatched =>
    cases hanswers with
    | nothing => simp at hpre
    | accepted =>
      obtain ⟨rfl, -⟩ := List.cons_prefix_cons.mp hpre
      have htold : Told { c.dispatch .connect with state := .connected } (downstream []) := by
        refine .accepted [] rfl ?_
        simp [Connection.dispatch, hdispatched, welcomed]
      refine ⟨_, ?_, htold, rfl, rfl, rfl⟩
      simp [Connection.handleMessage, hstate, Connection.handleConnectionResponse, acceptance,
        Interoperates.response, connectionSuccess]
    | refused =>
      obtain ⟨rfl, -⟩ := List.cons_prefix_cons.mp hpre
      have htold : Told { c.dispatch (.error invalidToken) with state := .closed } [refusal] := by
        refine .refused rfl ?_
        simp [Connection.dispatch, hdispatched]
      refine ⟨_, ?_, htold, rfl, rfl, rfl⟩
      simp [Connection.handleMessage, hstate, Connection.handleConnectionResponse, refusal,
        Interoperates.response, connectionError]
  | accepted before hstate hdispatched =>
    cases hanswers with
    | nothing => simp [downstream] at hpre
    | refused =>
      have hlen := hpre.length_le
      simp [downstream] at hlen
    | accepted =>
      obtain ⟨-, hpre⟩ := List.cons_prefix_cons.mp hpre
      have hmem : bytes ∈ served.map PacketFormat.encode := hpre.subset (by simp)
      obtain ⟨packet, -, rfl⟩ := List.mem_map.mp hmem
      have htold (c' : Connection) (hstate' : c'.state = .connected)
          (hdispatched' : c'.dispatched = welcomed (before ++ [packet])) :
          Told c' (downstream before ++ [PacketFormat.encode packet]) := by
        have hsnoc : downstream before ++ [PacketFormat.encode packet] =
            downstream (before ++ [packet]) := by simp [downstream]
        rw [hsnoc]
        exact .accepted _ hstate' hdispatched'
      simp only [Connection.handleMessage, hstate, Connection.handlePacket, Interoperates.toClient]
      rcases packet with ⟨- | data | -⟩
      · refine ⟨c, rfl, htold c hstate ?_, rfl, rfl, rfl⟩
        simp [hdispatched, welcomed, data?]
      · refine ⟨c.dispatch (.message data), rfl, htold _ hstate ?_, rfl, rfl, rfl⟩
        simp [Connection.dispatch, hdispatched, welcomed, data?]
      · refine ⟨c, rfl, htold c hstate ?_, rfl, rfl, rfl⟩
        simp [hdispatched, welcomed, data?]
  | refused hstate hdispatched =>
    cases hanswers with
    | nothing => simp at hpre
    | refused =>
      have hlen := hpre.length_le
      simp at hlen
    | accepted =>
      obtain ⟨heq, -⟩ := List.cons_prefix_cons.mp hpre
      exact absurd heq.symm acceptance_ne_refusal

theorem Told.handleAll {new : List Bytes} (h : Told c pushed) (hanswers : Answers served frames)
    (hpre : pushed ++ new <+: frames) :
    ∃ c', new.foldlM Connection.handleMessage c = .ok c' ∧ Told c' (pushed ++ new) ∧
      c'.reader = c.reader ∧ c'.written = c.written ∧ c'.token = c.token := by
  induction new generalizing pushed c with
  | nil => exact ⟨c, rfl, by rwa [List.append_nil], rfl, rfl, rfl⟩
  | cons bytes new ih =>
    have hsplit : pushed ++ bytes :: new = pushed ++ [bytes] ++ new := by simp
    rw [hsplit] at hpre ⊢
    obtain ⟨c₁, hhandle, htold, hreader, hwritten, htoken⟩ :=
      h.handle hanswers ((List.prefix_append _ _).trans hpre)
    obtain ⟨c₂, hfold, htold', hreader', hwritten', htoken'⟩ := ih htold hpre
    refine ⟨c₂, ?_, htold', hreader'.trans hreader, hwritten'.trans hwritten, htoken'.trans htoken⟩
    rw [List.foldlM_cons, hhandle, ok_bind, hfold]

/-- A chunk of what the server wrote is read and handled. -/
theorem onChunk_spec [Varint] [Leb128] [BufferReader] [Uint32] {p chunk : Bytes}
    (hshort : ∀ bytes ∈ frames, Short bytes) (hanswers : Answers served frames)
    (htold : Told c c.reader.pushed)
    (harrived : Arrived LengthDelimited.encoded frames [] p c.reader.pushed c.reader.buffer)
    (hpre : p ++ chunk <+: wire frames) :
    ∃ c', c.onChunk chunk = .ok c' ∧ Told c' c'.reader.pushed ∧ c'.written = c.written ∧
      c'.token = c.token ∧
      Arrived LengthDelimited.encoded frames [] (p ++ chunk) c'.reader.pushed c'.reader.buffer := by
  have hpre' : p ++ chunk <+: frames.flatMap LengthDelimited.encoded ++ [] := by
    rwa [List.append_nil]
  obtain ⟨new, t', heq, harrived'⟩ := harrived.append hpre'
  obtain ⟨rest, hframes, hahead⟩ := harrived'.rest
  have hkeeps : Keeps t' := by
    refine keeps_of_ahead (fun bytes hbytes => hshort bytes ?_) hahead
    rw [hframes]
    exact List.mem_append_right _ hbytes
  have htransform : c.reader.transform chunk = .ok ⟨t', c.reader.pushed ++ new⟩ := by
    refine ProtobufReader.transform_eq (fun bytes hbytes => hshort bytes ?_) heq hkeeps
    rw [hframes]
    simp [hbytes]
  have hnew : c.reader.pushed ++ new <+: frames := by
    rw [hframes]
    exact List.prefix_append _ _
  have hnow : Told { c with reader := ⟨t', c.reader.pushed ++ new⟩ } c.reader.pushed :=
    htold.congr rfl rfl
  obtain ⟨c', hfold, htold', hreader, hwritten, htoken⟩ := hnow.handleAll hanswers hnew
  refine ⟨c', ?_, ?_, hwritten, htoken, ?_⟩
  · rw [Connection.onChunk, htransform]
    change List.foldlM Connection.handleMessage _ (List.drop _ (_ ++ _)) = _
    rw [List.drop_left]
    exact hfold
  · rw [hreader]
    exact htold'
  · rw [hreader]
    exact harrived'

end Client

end Handshake
end Mozaic.MozaicClient
