import Mozaic.Network.Connection
import Mozaic.Network.LengthDelimited

/-! The handshake of a connection. The first frame that a client sends carries its token. It
says which client handler gets the transport, with what was read of the frames after it. -/
namespace Mozaic.Proto

structure ConnectionRequest where
  token : List UInt8
deriving DecidableEq, Repr

inductive ConnectionResponse.Response where
  | success
  | error (message : String)
deriving DecidableEq, Repr

structure ConnectionResponse where
  response : Option ConnectionResponse.Response
deriving DecidableEq, Repr

end Mozaic.Proto

namespace Mozaic.Network
open Rust Rules Outcome Framing

/-! ## The transport -/

/-- A framed socket. What is in the socket has arrived and was not read. -/
structure ProtobufTransport where
  codec : LengthDelimited
  buffer : Bytes
  socket : Bytes
  /-- What was encoded so far. -/
  written : Bytes

/-- The `poll` of a framed socket, which a library provides. -/
class FramedPoll where
  poll : ProtobufTransport → IoPoll (Option Bytes) × ProtobufTransport

namespace ProtobufTransport

def new : ProtobufTransport := ⟨.new, [], [], []⟩

section Reading
variable [FramedPoll]

def poll (t : ProtobufTransport) : IoPoll (Option Bytes) × ProtobufTransport := FramedPoll.poll t

/-- The next packet, if its frame is there. -/
def pollMsg [PacketFormat] (t : ProtobufTransport) : IoPoll (Option Packet) × ProtobufTransport :=
  match t.poll with
  | (.error e, t) => (.error e, t)
  | (.ok .notReady, t) => (.ok .notReady, t)
  | (.ok (.ready none), t) => (.ok (.ready none), t)
  | (.ok (.ready (some bytes)), t) =>
    match PacketFormat.decode bytes with
    | .error e => (.error e, t)
    | .ok msg => (.ok (.ready (some msg)), t)

end Reading

/-- A chunk gets to the socket. -/
def arrive (t : ProtobufTransport) (chunk : Bytes) : ProtobufTransport :=
  { t with socket := t.socket ++ chunk }

section Codec
variable [Varint]

/-- A frame is encoded into the buffer of the sink. -/
def encode (t : ProtobufTransport) (bytes : Bytes) : ProtobufTransport :=
  { t with written := LengthDelimited.encode bytes t.written }

/-- What a poll may come to: the codec decodes what was read, and as long as it finds no frame
there, more is read. -/
inductive Feeds : ProtobufTransport → IoPoll (Option Bytes) × ProtobufTransport → Prop
  | failed {t : ProtobufTransport} {err : IoError} {codec : LengthDelimited} {buffer : Bytes}
      (hdecode : t.codec.decode t.buffer = (.error err, codec, buffer)) :
      Feeds t (.error (.other err.description), { t with codec, buffer })
  | frame {t : ProtobufTransport} {data : Bytes} {codec : LengthDelimited} {buffer : Bytes}
      (hdecode : t.codec.decode t.buffer = (.ok (some data), codec, buffer)) :
      Feeds t (.ok (.ready (some data)), { t with codec, buffer })
  | reads {t : ProtobufTransport} {codec : LengthDelimited} {buffer chunk socket : Bytes}
      {r : IoPoll (Option Bytes) × ProtobufTransport}
      (hdecode : t.codec.decode t.buffer = (.ok none, codec, buffer))
      (hsocket : t.socket = chunk ++ socket) (hchunk : chunk ≠ [])
      (hrest : Feeds { t with codec, buffer := buffer ++ chunk, socket } r) : Feeds t r
  | starved {t : ProtobufTransport} {codec : LengthDelimited} {buffer : Bytes}
      (hdecode : t.codec.decode t.buffer = (.ok none, codec, buffer)) (hsocket : t.socket = []) :
      Feeds t (.ok .notReady, { t with codec, buffer })

end Codec
end ProtobufTransport

/-- The library reads for the codec. -/
class ReadsOn [Varint] [FramedPoll] : Prop where
  feeds : ∀ t : ProtobufTransport, ProtobufTransport.Feeds t (FramedPoll.poll t)

/-- The library at work: it reads all that is there. -/
def feed [Varint] (t : ProtobufTransport) : IoPoll (Option Bytes) × ProtobufTransport :=
  match t.codec.decode t.buffer with
  | (.error err, codec, buffer) => (.error (.other err.description), { t with codec, buffer })
  | (.ok (some data), codec, buffer) => (.ok (.ready (some data)), { t with codec, buffer })
  | (.ok none, codec, buffer) =>
    if t.socket = [] then (.ok .notReady, { t with codec, buffer })
    else
      match codec.decode (buffer ++ t.socket) with
      | (.error err, codec, buffer) =>
        (.error (.other err.description), { t with codec, buffer, socket := [] })
      | (.ok (some data), codec, buffer) =>
        (.ok (.ready (some data)), { t with codec, buffer, socket := [] })
      | (.ok none, codec, buffer) => (.ok .notReady, { t with codec, buffer, socket := [] })

@[reducible] def framedFeed [Varint] : FramedPoll := ⟨feed⟩

theorem readsOn_framedFeed [Varint] : @ReadsOn _ framedFeed := by
  refine @ReadsOn.mk _ framedFeed fun t => ?_
  change ProtobufTransport.Feeds t (feed t)
  unfold feed
  split
  · exact .failed ‹_›
  · exact .frame ‹_›
  · rename_i codec buffer hdecode
    split
    · exact .starved hdecode ‹_›
    · refine .reads hdecode (List.append_nil _).symm ‹_› ?_
      split
      · exact .failed ‹_›
      · exact .frame ‹_›
      · exact .starved ‹_› rfl

/-! ## The handshake -/

/-- The messages of the handshake, as a library encodes them. -/
class HandshakeFormat where
  decodeRequest : Bytes → Except IoErrorKind Proto.ConnectionRequest
  encodeResponse : Proto.ConnectionResponse → Bytes

/-- An item on its way into a sink. -/
structure Send where
  item : Option Bytes
  sink : ProtobufTransport

/-- How the sink answers in one poll, and what is found around. -/
structure Surroundings where
  taken : Taken
  flushed : IoPoll Unit
  routingTable : RoutingTable
  /-- The receiving end of the routing channel is still there. -/
  routable : Bool

/-- A transport that was dropped with a refusal in it is still named here. -/
inductive HandlerState where
  | waiting (transport : ProtobufTransport)
  | accepting (send : Send) (handle : ClientId)
  | refusing (send : Send)
  | done (dropped : Option ProtobufTransport)

structure ConnectionHandler where
  state : HandlerState

/-- What is sent on a routing channel. -/
abbrev Routed := ClientId × ProtobufTransport

/-- What stops the task of a handler. -/
inductive HandlerPanic where
  | error (e : IoErrorKind)
  | notRoutable
deriving DecidableEq, Repr

def connectionSuccess : Proto.ConnectionResponse := ⟨some .success⟩

def connectionError (msg : String) : Proto.ConnectionResponse := ⟨some (.error msg)⟩

def invalidToken : String := "invalid token"

/-- The `poll` of an item on its way into a sink, which a library provides. -/
class SendPoll where
  poll : Surroundings → Send → IoPoll Unit × Send

def Send.poll [SendPoll] (env : Surroundings) (s : Send) : IoPoll Unit × Send := SendPoll.poll env s

/-- What a poll may come to: the item is offered to the sink until the sink takes it, and then
the sink is flushed. -/
inductive Send.Delivers [Varint] (env : Surroundings) : Send → IoPoll Unit × Send → Prop
  | failed {item : Bytes} {sink : ProtobufTransport} {e : IoErrorKind}
      (htaken : env.taken = .error e) (left : Send) :
      Delivers env ⟨some item, sink⟩ (.error e, left)
  | blocked {item : Bytes} {sink : ProtobufTransport} (htaken : env.taken = .notReady) :
      Delivers env ⟨some item, sink⟩ (.ok .notReady, ⟨some item, sink⟩)
  | taken {item : Bytes} {sink : ProtobufTransport} (htaken : env.taken = .ready) :
      Delivers env ⟨some item, sink⟩ (env.flushed, ⟨none, sink.encode item⟩)
  | flushed {sink : ProtobufTransport} : Delivers env ⟨none, sink⟩ (env.flushed, ⟨none, sink⟩)

/-- The library gets the item into the sink. -/
class SendsOn [Varint] [SendPoll] : Prop where
  delivers : ∀ (env : Surroundings) (s : Send), Send.Delivers env s (SendPoll.poll env s)

/-- The library at work. -/
def deliverItem [Varint] (env : Surroundings) (s : Send) : IoPoll Unit × Send :=
  match s.item with
  | none => (env.flushed, s)
  | some item =>
    match env.taken with
    | .ready => (env.flushed, ⟨none, s.sink.encode item⟩)
    | .notReady => (.ok .notReady, s)
    | .error e => (.error e, { s with item := none })

@[reducible] def sendDeliver [Varint] : SendPoll := ⟨deliverItem⟩

theorem sendsOn_sendDeliver [Varint] : @SendsOn _ sendDeliver := by
  refine @SendsOn.mk _ sendDeliver fun env s => ?_
  obtain ⟨item, sink⟩ := s
  change Send.Delivers env _ (deliverItem env _)
  cases item with
  | none => exact .flushed
  | some item =>
    simp only [deliverItem]
    split
    · exact .taken ‹_›
    · exact .blocked ‹_›
    · exact .failed ‹_› _

section Handshake
variable [FramedPoll] [SendPoll]

namespace ConnectionHandler

def new : ConnectionHandler := ⟨.waiting .new⟩

def pollRefusing (env : Surroundings) (send : Send) :
    Except HandlerPanic (ConnectionHandler × Option Routed) :=
  match send.poll env with
  | (.error e, _) => .error (.error e)
  | (.ok .notReady, send) => .ok (⟨.refusing send⟩, none)
  | (.ok (.ready ()), send) => .ok (⟨.done (some send.sink)⟩, none)

def pollAccepting (env : Surroundings) (send : Send) (handle : ClientId) :
    Except HandlerPanic (ConnectionHandler × Option Routed) :=
  match send.poll env with
  | (.error e, _) => .error (.error e)
  | (.ok .notReady, send) => .ok (⟨.accepting send handle⟩, none)
  | (.ok (.ready ()), send) =>
    if env.routable then .ok (⟨.done none⟩, some (handle, send.sink)) else .error .notRoutable

variable [HandshakeFormat]

def sendMsg (transport : ProtobufTransport) (response : Proto.ConnectionResponse) : Send :=
  ⟨some (HandshakeFormat.encodeResponse response), transport⟩

def pollWaiting (env : Surroundings) (transport : ProtobufTransport) :
    Except HandlerPanic (ConnectionHandler × Option Routed) :=
  match transport.poll with
  | (.error e, _) => .error (.error e)
  | (.ok .notReady, transport) => .ok (⟨.waiting transport⟩, none)
  | (.ok (.ready none), _) => .error (.error .connectionAborted)
  | (.ok (.ready (some bytes)), transport) =>
    match HandshakeFormat.decodeRequest bytes with
    | .error e => .error (.error e)
    | .ok request =>
      match env.routingTable.get request.token with
      | none => pollRefusing env (sendMsg transport (connectionError invalidToken))
      | some handle => pollAccepting env (sendMsg transport connectionSuccess) handle

/-- The loop of `step`: a state that is left is not entered again. -/
def poll (env : Surroundings) (h : ConnectionHandler) :
    Except HandlerPanic (ConnectionHandler × Option Routed) :=
  match h.state with
  | .waiting transport => pollWaiting env transport
  | .accepting send handle => pollAccepting env send handle
  | .refusing send => pollRefusing env send
  | .done _ => .ok (h, none)

end ConnectionHandler
end Handshake

/-! ## Reading frame by frame -/

namespace ProtobufTransport
section RoundTrip
variable [Varint] {t : ProtobufTransport}

/-- What was read or is on the socket is the beginning of these frames; `more` is on its way. -/
def Upcoming (t : ProtobufTransport) (rest : List Bytes) (more : Bytes) : Prop :=
  ∃ ahead, Reading t.codec t.buffer ahead ∧ ahead ++ t.socket ++ more = wire rest

theorem upcoming_new (frames : List Bytes) : new.Upcoming frames (wire frames) :=
  ⟨[], .head [], rfl⟩

/-- The peer sends one more frame. -/
theorem Upcoming.send {rest : List Bytes} {more : Bytes} (h : t.Upcoming rest more)
    (bytes : Bytes) :
    t.Upcoming (rest ++ [bytes]) (more ++ LengthDelimited.encoded bytes) := by
  obtain ⟨ahead, hreading, heq⟩ := h
  refine ⟨ahead, hreading, ?_⟩
  rw [← List.append_assoc, heq]
  simp [wire]

theorem Upcoming.arrive {rest : List Bytes} {chunk more : Bytes}
    (h : t.Upcoming rest (chunk ++ more)) : (t.arrive chunk).Upcoming rest more := by
  obtain ⟨ahead, hreading, heq⟩ := h
  refine ⟨ahead, hreading, ?_⟩
  rw [← heq]
  simp [ProtobufTransport.arrive]

/-- What a poll comes to: the next frame, or nothing, and then all that arrived was read. -/
inductive Polled (rest : List Bytes) (more : Bytes) (t : ProtobufTransport) :
    IoPoll (Option Bytes) × ProtobufTransport → Prop
  | frame {t' : ProtobufTransport} (bytes : Bytes) (rest' : List Bytes)
      (hrest : rest = bytes :: rest') (hupcoming : t'.Upcoming rest' more)
      (hwritten : t'.written = t.written) :
      Polled rest more t (.ok (.ready (some bytes)), t')
  | starved {t' : ProtobufTransport} (hupcoming : t'.Upcoming rest more)
      (hwritten : t'.written = t.written) (hall : more = [] → rest = []) :
      Polled rest more t (.ok .notReady, t')

/-- A frame that is there is decoded, and nothing else is. -/
theorem decode_upcoming [Leb128] {rest : List Bytes} {more ahead : Bytes}
    (hfits : ∀ bytes ∈ rest, Fits bytes) (hreading : Reading t.codec t.buffer ahead)
    (heq : ahead ++ t.socket ++ more = wire rest) :
    (∃ bytes rest' ahead', rest = bytes :: rest' ∧
      t.codec.decode t.buffer = (.ok (some bytes), ⟨.head⟩, ahead') ∧
      ahead' ++ t.socket ++ more = wire rest') ∨
    (∃ codec buffer, t.codec.decode t.buffer = (.ok none, codec, buffer) ∧
      Reading codec buffer ahead ∧ (ahead = wire rest → rest = [])) := by
  have hpre : ahead <+: rest.flatMap LengthDelimited.encoded ++ [] := by
    rw [List.append_nil]
    change ahead <+: wire rest
    rw [← heq, List.append_assoc]
    exact List.prefix_append _ _
  obtain ⟨out, cut, hsym, rest', hrest, hahead⟩ := exists_cut hpre
  cases out with
  | nil =>
    obtain rfl : rest = rest' := hrest
    obtain rfl : ahead = cut := hsym
    have hwaits := Framed.waits_of_ahead hfits (by simp : ∀ bytes ∈ [], _) (by decide) hahead
    obtain ⟨codec, buffer, hdecode, hreading'⟩ := Framed.decode_waits hwaits hreading
    refine .inr ⟨codec, buffer, hdecode, hreading', fun hall => ?_⟩
    cases rest with
    | nil => rfl
    | cons bytes rest =>
      have hlt := hahead.length_lt (Framed.encoded_ne_nil bytes)
      rw [hall, wire, List.flatMap_cons, List.length_append] at hlt
      omega
  | cons bytes out =>
    subst hrest hsym
    rw [List.flatMap_cons, List.append_assoc] at hreading
    have hdecode := Framed.decode_whole (hfits bytes (by simp)) hreading
    refine .inl ⟨bytes, out ++ rest', _, rfl, hdecode, ?_⟩
    simp only [wire, List.cons_append, List.flatMap_cons, List.append_assoc] at heq ⊢
    exact List.append_cancel_left heq

theorem Feeds.polled [Leb128] {rest : List Bytes} {more : Bytes}
    {r : IoPoll (Option Bytes) × ProtobufTransport} (hfits : ∀ bytes ∈ rest, Fits bytes)
    (hfeeds : Feeds t r) (h : t.Upcoming rest more) : Polled rest more t r := by
  induction hfeeds with
  | failed hdecode =>
    obtain ⟨ahead, hreading, heq⟩ := h
    rcases decode_upcoming hfits hreading heq with ⟨_, _, _, _, hnext, _⟩ | ⟨_, _, hnext, _⟩
    · rw [hnext] at hdecode
      cases hdecode
    · rw [hnext] at hdecode
      cases hdecode
  | frame hdecode =>
    obtain ⟨ahead, hreading, heq⟩ := h
    rcases decode_upcoming hfits hreading heq with
      ⟨bytes, rest', ahead', hrest, hnext, heq'⟩ | ⟨_, _, hnext, _⟩
    · rw [hnext] at hdecode
      cases hdecode
      exact .frame _ rest' hrest ⟨_, .head _, heq'⟩ rfl
    · rw [hnext] at hdecode
      cases hdecode
  | @reads t codec buffer chunk socket r hdecode hsocket _ _ ih =>
    obtain ⟨ahead, hreading, heq⟩ := h
    rcases decode_upcoming hfits hreading heq with
      ⟨_, _, _, _, hnext, _⟩ | ⟨codec', buffer', hnext, hreading', _⟩
    · rw [hnext] at hdecode
      cases hdecode
    · rw [hnext] at hdecode
      cases hdecode
      have hpolled := ih ⟨ahead ++ chunk, hreading'.append chunk, by
        rw [← heq, hsocket, List.append_assoc ahead chunk]⟩
      cases hpolled with
      | frame bytes rest' hrest hupcoming hwritten => exact .frame bytes rest' hrest hupcoming hwritten
      | starved hupcoming hwritten hall => exact .starved hupcoming hwritten hall
  | starved hdecode hsocket =>
    obtain ⟨ahead, hreading, heq⟩ := h
    rcases decode_upcoming hfits hreading heq with
      ⟨_, _, _, _, hnext, _⟩ | ⟨codec, buffer, hnext, hreading', hall⟩
    · rw [hnext] at hdecode
      cases hdecode
    · rw [hnext] at hdecode
      cases hdecode
      refine .starved ⟨ahead, hreading', heq⟩ rfl fun hmore => hall ?_
      simpa [hsocket, hmore] using heq

theorem poll_spec [Leb128] [FramedPoll] [ReadsOn] {rest : List Bytes} {more : Bytes}
    (hfits : ∀ bytes ∈ rest, Fits bytes) (h : t.Upcoming rest more) :
    Polled rest more t t.poll :=
  (ReadsOn.feeds t).polled hfits h

end RoundTrip
end ProtobufTransport

/-! ## Sending one frame -/

/-- What goes wrong in this poll is due to the sink, or nobody listens to the channel. -/
def Surroundings.Fails (env : Surroundings) : HandlerPanic → Prop
  | .error e => env.taken = .error e ∨ env.flushed = .error e
  | .notRoutable => env.routable = false

namespace Send
variable [Varint] {s : Send} {bytes : Bytes}

/-- The sink is for this frame and no other, and has it as soon as the item is gone. -/
def Carries (s : Send) (bytes : Bytes) : Prop :=
  s.item = some bytes ∧ s.sink.written = [] ∨
    s.item = none ∧ s.sink.written = LengthDelimited.encoded bytes

/-- The send `s'` comes from `s` by work on the item. -/
structure Works (bytes : Bytes) (s s' : Send) : Prop where
  carries : s'.Carries bytes
  gone : s.item = none → s'.item = none
  codec : s'.sink.codec = s.sink.codec
  buffer : s'.sink.buffer = s.sink.buffer
  socket : s'.sink.socket = s.sink.socket

theorem poll_spec [SendPoll] [SendsOn] (h : s.Carries bytes) (env : Surroundings) :
    (∃ e, (s.poll env).1 = .error e ∧ env.Fails (.error e)) ∨
      Works bytes s (s.poll env).2 ∧
        ((s.poll env).1 = .ok .notReady ∨
          (s.poll env).1 = .ok (.ready ()) ∧ (s.poll env).2.item = none) := by
  have hflushed {s' : Send} (hworks : Works bytes s s') (hnone : s'.item = none) :
      (∃ e, env.flushed = .error e ∧ env.Fails (.error e)) ∨ Works bytes s s' ∧
        (env.flushed = .ok .notReady ∨ env.flushed = .ok (.ready ()) ∧ s'.item = none) := by
    rcases hf : env.flushed with e | ⟨⟨⟩⟩ | _
    · exact .inl ⟨e, rfl, .inr hf⟩
    · exact .inr ⟨hworks, .inr ⟨rfl, hnone⟩⟩
    · exact .inr ⟨hworks, .inl rfl⟩
  have hdelivers : Delivers env s (s.poll env) := SendsOn.delivers env s
  generalize s.poll env = r at hdelivers
  cases hdelivers with
  | @failed item sink e htaken left => exact .inl ⟨e, rfl, .inl htaken⟩
  | blocked htaken => exact .inr ⟨⟨h, id, rfl, rfl, rfl⟩, .inl rfl⟩
  | @taken item sink htaken =>
    obtain ⟨hitem, hwritten⟩ | ⟨hitem, -⟩ := h
    · obtain rfl := Option.some.inj hitem
      refine hflushed ⟨.inr ⟨rfl, ?_⟩, fun _ => rfl, rfl, rfl, rfl⟩ rfl
      change LengthDelimited.encode item sink.written = _
      have hempty : sink.written = [] := hwritten
      rw [hempty]
      rfl
    · cases hitem
  | flushed => exact hflushed ⟨h, id, rfl, rfl, rfl⟩ rfl

theorem Works.upcoming {s' : Send} {rest : List Bytes} {more : Bytes}
    (h : Works bytes s s') (hup : s.sink.Upcoming rest more) : s'.sink.Upcoming rest more := by
  obtain ⟨ahead, hreading, heq⟩ := hup
  refine ⟨ahead, ?_, ?_⟩
  · rwa [h.codec, h.buffer]
  · rwa [h.socket]

end Send
end Mozaic.Network
