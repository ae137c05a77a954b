import Mozaic.Network.Handle

/-! The outgoing side of a connection. Messages wait in the connection, one packet waits in
the stream of packets, and the transport under it answers what it likes. -/
namespace Mozaic.Network
open Rust Rules Outcome

/-! ## Polling -/

inductive Async (α : Type) where
  | ready (a : α)
  | notReady
deriving DecidableEq, Repr

/-- A sink that is not ready gives the item back. -/
inductive AsyncSink (α : Type) where
  | ready
  | notReady (item : α)
deriving DecidableEq, Repr

inductive IoErrorKind where
  | connectionAborted
  | other (description : String)
deriving DecidableEq, Repr

abbrev IoPoll (α : Type) := Except IoErrorKind (Async α)

/-! ## Packets -/

inductive Packet.Payload where
  | message (data : Bytes)
  | closeConnection
deriving DecidableEq, Repr

structure Packet where
  payload : Option Packet.Payload
deriving DecidableEq, Repr

/-- The wire format of packets, which a library provides. -/
class PacketFormat where
  encode : Packet → Bytes
  decode : Bytes → Except IoErrorKind Packet

/-- How the transport took an item it was given. -/
inductive Taken where
  | ready
  | notReady
  | error (e : IoErrorKind)
deriving DecidableEq, Repr

/-- A framed transport, as the answers it is about to give: to `start_send`, to
`poll_complete` and to `poll`. Without an answer it is not ready. -/
structure Transport where
  sends : List Taken
  flushes : List (IoPoll Unit)
  reads : List (Except IoErrorKind (Option Bytes))

namespace Transport

def startSend (t : Transport) (bytes : Bytes) :
    Except IoErrorKind (AsyncSink Bytes) × Taken × Transport :=
  match t.sends with
  | [] => (.ok (.notReady bytes), .notReady, t)
  | .ready :: sends => (.ok .ready, .ready, { t with sends })
  | .notReady :: sends => (.ok (.notReady bytes), .notReady, { t with sends })
  | .error e :: sends => (.error e, .error e, { t with sends })

def pollComplete (t : Transport) : IoPoll Unit × Transport :=
  match t.flushes with
  | [] => (.ok .notReady, t)
  | res :: flushes => (res, { t with flushes })

end Transport

/-! ## The stream of packets -/

/-- A stream of packets. It also keeps what was handed to its `start_send`, and what it
offered to the transport and how that was taken. -/
structure MessageStream where
  inner : Transport
  buffered : Option Bytes
  handed : List Packet
  offers : List (Bytes × Taken)

namespace MessageStream

def new (transport : Transport) : MessageStream where
  inner := transport
  buffered := none
  handed := []
  offers := []

def pollSend (s : MessageStream) : IoPoll Unit × MessageStream :=
  match s.buffered with
  | none => (.ok (.ready ()), s)
  | some bytes =>
    let (res, taken, inner) := s.inner.startSend bytes
    let s := { s with inner, buffered := none, offers := s.offers ++ [(bytes, taken)] }
    match res with
    | .error e => (.error e, s)
    | .ok .ready => (.ok (.ready ()), s)
    | .ok (.notReady bytes) => (.ok .notReady, { s with buffered := some bytes })

def startSend [PacketFormat] (s : MessageStream) (item : Packet) :
    Except IoErrorKind (AsyncSink Packet) × MessageStream :=
  let (res, s) := { s with handed := s.handed ++ [item] }.pollSend
  match res with
  | .error e => (.error e, s)
  | .ok .notReady => (.ok (.notReady item), s)
  | .ok (.ready ()) => (.ok .ready, { s with buffered := some (PacketFormat.encode item) })

def pollComplete (s : MessageStream) : IoPoll Unit × MessageStream :=
  let (res, s) := s.pollSend
  match res with
  | .error e => (.error e, s)
  | .ok res =>
    let (flushed, inner) := s.inner.pollComplete
    let s := { s with inner }
    match flushed with
    | .error e => (.error e, s)
    | .ok .notReady => (.ok .notReady, s)
    | .ok (.ready ()) => (.ok res, s)

end MessageStream

/-! ## The connection -/

structure ConnectionState where
  buffer : List Packet.Payload

namespace ConnectionState

def new : ConnectionState := ⟨[]⟩

def queueSend (s : ConnectionState) (data : Bytes) : ConnectionState :=
  { s with buffer := s.buffer ++ [.message data] }

variable [PacketFormat]

/-- The loop of `flush_buffer`. -/
def flush : List Packet.Payload → MessageStream →
    Except Panic (IoPoll Unit × ConnectionState × MessageStream)
  | [], stream =>
    let (res, stream) := stream.pollComplete
    pure (res, ⟨[]⟩, stream)
  | payload :: buffer, stream =>
    let (res, stream) := stream.pollComplete
    match res with
    | .error e => pure (.error e, ⟨payload :: buffer⟩, stream)
    | .ok .notReady => pure (.ok .notReady, ⟨payload :: buffer⟩, stream)
    | .ok (.ready ()) =>
      let (res, stream) := stream.startSend ⟨some payload⟩
      match res with
      | .error e => pure (.error e, ⟨buffer⟩, stream)
      | .ok (.notReady _) => .error (.expect "writing to PacketStream blocked")
      | .ok .ready => flush buffer stream

def flushBuffer (s : ConnectionState) (stream : MessageStream) :
    Except Panic (IoPoll Unit × ConnectionState × MessageStream) :=
  flush s.buffer stream

/-- The loop of `poll_message` with the `poll` of the stream in it, over what the transport
has to read. -/
def readMessage : List (Except IoErrorKind (Option Bytes)) →
    IoPoll (Option Bytes) × List (Except IoErrorKind (Option Bytes))
  | [] => (.ok .notReady, [])
  | .error e :: reads => (.error e, reads)
  | .ok none :: reads => (.error .connectionAborted, reads)
  | .ok (some bytes) :: reads =>
    match PacketFormat.decode bytes with
    | .error e => (.error e, reads)
    | .ok ⟨some (.message data)⟩ => (.ok (.ready (some data)), reads)
    | .ok ⟨some .closeConnection⟩ => readMessage reads
    | .ok ⟨none⟩ => readMessage reads

def pollMessage (stream : MessageStream) : IoPoll (Option Bytes) × MessageStream :=
  let (res, reads) := readMessage stream.inner.reads
  (res, { stream with inner := { stream.inner with reads } })

def poll (s : ConnectionState) (stream : MessageStream) :
    Except Panic (IoPoll (Option Bytes) × ConnectionState × MessageStream) := do
  let (res, s, stream) ← s.flushBuffer stream
  match res with
  | .error e => pure (.error e, s, stream)
  | .ok _ =>
    let (res, stream) := pollMessage stream
    pure (res, s, stream)

end ConnectionState

inductive ConnectionEvent where
  | connected
  | packet (data : Bytes)
  | disconnected
deriving DecidableEq, Repr

/-- The stream that is connected, and those that were. -/
structure StreamHandler where
  state : Option MessageStream
  past : List MessageStream

namespace StreamHandler

def new : StreamHandler := ⟨none, []⟩

def connect (h : StreamHandler) (stream : MessageStream) : StreamHandler where
  state := some stream
  past := h.past ++ h.state.toList

def disconnect (h : StreamHandler) : StreamHandler where
  state := none
  past := h.past ++ h.state.toList

/-- All streams so far. -/
def streams (h : StreamHandler) : List MessageStream := h.past ++ h.state.toList

end StreamHandler

/-- The routing channel of a connection holds streams, and is closed once nobody can send
on it any more. -/
structure RoutingChannel where
  waiting : List MessageStream
  closed : Bool

structure Connection where
  streamHandler : StreamHandler
  state : ConnectionState
  routingChan : RoutingChannel

namespace Connection

def new : Connection where
  streamHandler := .new
  state := .new
  routingChan := ⟨[], false⟩

def send (c : Connection) (data : Bytes) : Connection := { c with state := c.state.queueSend data }

def pollRoutingChan (c : Connection) : Except Panic (Async MessageStream × Connection) :=
  match c.routingChan.waiting with
  | stream :: waiting =>
    pure (.ready stream, { c with routingChan := { c.routingChan with waiting } })
  | [] =>
    if c.routingChan.closed then .error (.expect "router channel closed") else pure (.notReady, c)

variable [PacketFormat]

/-- The part of `poll` that serves the connected stream. -/
def pollStream (c : Connection) : Except Panic (Async ConnectionEvent × Connection) :=
  match c.streamHandler.state with
  | none => pure (.notReady, c)
  | some stream => do
    let (res, state, stream) ← c.state.poll stream
    let c := { c with state, streamHandler := { c.streamHandler with state := some stream } }
    match res with
    | .ok (.ready item) => do
      let msg ← unwrap item
      pure (.ready (.packet msg), c)
    | .ok .notReady => pure (.notReady, c)
    | .error _ =>
      pure (.ready .disconnected, { c with streamHandler := c.streamHandler.disconnect })

def poll (c : Connection) : Except Panic (Async ConnectionEvent × Connection) := do
  let (msg, c) ← c.pollRoutingChan
  match msg with
  | .ready stream =>
    pure (.ready .connected, { c with streamHandler := c.streamHandler.connect stream })
  | .notReady => c.pollStream

/-- A connection without a client acts as if it had completed, and so does one that fails. -/
def pollComplete (c : Connection) : Except Panic (Async Unit × Connection) :=
  match c.streamHandler.state with
  | none => pure (.ready (), c)
  | some stream => do
    let (res, state, stream) ← c.state.flushBuffer stream
    let c := { c with state, streamHandler := { c.streamHandler with state := some stream } }
    match res with
    | .ok async => pure (async, c)
    | .error _ => pure (.ready (), c)

/-! ## Any use of a connection -/

inductive Op where
  | send (data : Bytes)
  /-- A client connected, and its stream is on the routing channel. -/
  | connecting (transport : Transport)
  /-- Nobody can send on the routing channel any more. -/
  | hangUp
  /-- The transport of the current stream is going to answer this. -/
  | answer (transport : Transport)
  | poll
  | pollComplete

def route (c : Connection) (transport : Transport) : Connection :=
  if c.routingChan.closed then c
  else
    { c with
      routingChan := { c.routingChan with
        waiting := c.routingChan.waiting ++ [.new transport] } }

def answer (c : Connection) (inner : Transport) : Connection :=
  { c with
    streamHandler := { c.streamHandler with
      state := c.streamHandler.state.map fun stream => { stream with inner } } }

def step (c : Connection) : Op → Except Panic Connection
  | .send data => pure (c.send data)
  | .connecting transport => pure (c.route transport)
  | .hangUp => pure { c with routingChan := { c.routingChan with closed := true } }
  | .answer transport => pure (c.answer transport)
  | .poll => Prod.snd <$> c.poll
  | .pollComplete => Prod.snd <$> c.pollComplete

def run (ops : List Op) : Except Panic Connection := ops.foldlM step new

end Connection

/-! ## What a stream keeps in order -/

/-- The items that the transport did not give back. -/
def received (offers : List (Bytes × Taken)) : List Bytes :=
  (offers.filter (·.2 ≠ .notReady)).map Prod.fst

/-- The items that the transport is going to write. -/
def accepted (offers : List (Bytes × Taken)) : List Bytes :=
  (offers.filter (·.2 = .ready)).map Prod.fst

theorem accepted_sublist (offers : List (Bytes × Taken)) :
    (accepted offers).Sublist (received offers) := by
  apply List.Sublist.map
  apply List.monotone_filter_right
  intro o h
  simp only [decide_eq_true_eq] at h ⊢
  simp [h]

@[simp] theorem received_concat (offers : List (Bytes × Taken)) (o : Bytes × Taken) :
    received (offers ++ [o]) = received offers ++ if o.2 = .notReady then [] else [o.1] := by
  rw [received, List.filter_append, List.map_append]
  split <;> simp [received, *]

section Streams
variable [PacketFormat] {s : MessageStream}

/-- The transport got what was handed over, up to the packet that still waits. -/
def MessageStream.Ordered (s : MessageStream) : Prop :=
  received s.offers ++ s.buffered.toList = s.handed.map PacketFormat.encode

theorem MessageStream.ordered_new (transport : Transport) : (new transport).Ordered := rfl

/-- The stream `t` comes from `s` by work on the packet that waits in it. -/
structure MessageStream.Works (s t : MessageStream) : Prop where
  handed : t.handed = s.handed
  ordered : s.Ordered → t.Ordered

theorem MessageStream.Works.inner {t : MessageStream} (h : s.Works t) (inner : Transport) :
    s.Works { t with inner } :=
  ⟨h.handed, h.ordered⟩

theorem MessageStream.ordered_concat {bytes : Bytes} {taken : Taken} (h : s.Ordered)
    (hb : s.buffered = some bytes) (inner : Transport) :
    Ordered { s with
      inner
      buffered := if taken = .notReady then some bytes else none
      offers := s.offers ++ [(bytes, taken)] } := by
  rw [Ordered, hb] at h
  rw [Ordered, ← h, received_concat]
  split <;> simp

/-- Only an empty slot is ready. -/
theorem MessageStream.pollSend_spec (s : MessageStream) :
    s.Works s.pollSend.2 ∧ (s.pollSend.1 = .ok (.ready ()) → s.pollSend.2.buffered = none) := by
  rw [pollSend]
  cases hb : s.buffered with
  | none => exact ⟨⟨rfl, id⟩, fun _ => hb⟩
  | some bytes =>
    have hworks (taken : Taken) (inner : Transport) : s.Works { s with
        inner
        buffered := if taken = .notReady then some bytes else none
        offers := s.offers ++ [(bytes, taken)] } :=
      ⟨rfl, fun h => MessageStream.ordered_concat h hb inner⟩
    rcases hsends : s.inner.sends with - | ⟨- | - | e, sends⟩
    · simp only [Transport.startSend, hsends]
      exact ⟨hworks .notReady _, fun h => by cases h⟩
    · simp only [Transport.startSend, hsends]
      exact ⟨hworks .ready _, fun _ => trivial⟩
    · simp only [Transport.startSend, hsends]
      exact ⟨hworks .notReady _, fun h => by cases h⟩
    · simp only [Transport.startSend, hsends]
      exact ⟨hworks (.error e) _, fun h => by cases h⟩

/-- The stream has completed only if nothing waits in it. -/
theorem MessageStream.pollComplete_spec (s : MessageStream) :
    s.Works s.pollComplete.2 ∧
      (s.pollComplete.1 = .ok (.ready ()) → s.pollComplete.2.buffered = none) := by
  obtain ⟨hworks, hempty⟩ := s.pollSend_spec
  rw [pollComplete]
  rcases hsend : s.pollSend with ⟨e | res, t⟩
  · rw [hsend] at hworks
    exact ⟨hworks, fun h => by cases h⟩
  · rw [hsend] at hworks hempty
    dsimp only
    rcases t.inner.pollComplete with ⟨e | ⟨⟨⟩⟩ | _, inner⟩
    · exact ⟨hworks.inner inner, fun h => by cases h⟩
    · exact ⟨hworks.inner inner, hempty⟩
    · exact ⟨hworks.inner inner, fun h => by cases h⟩

/-- A stream with an empty slot takes the next packet. -/
theorem MessageStream.startSend_of_empty (hempty : s.buffered = none) (item : Packet) :
    s.startSend item = (.ok .ready, { s with
      handed := s.handed ++ [item]
      buffered := some (PacketFormat.encode item) }) := by
  simp [startSend, pollSend, hempty]

theorem MessageStream.Ordered.handOver (h : s.Ordered) (hempty : s.buffered = none) (item : Packet) :
    MessageStream.Ordered { s with
      handed := s.handed ++ [item]
      buffered := some (PacketFormat.encode item) } := by
  rw [Ordered, hempty] at h
  simp only [Ordered, List.map_append, ← h]
  simp

/-! ## What a connection keeps in order -/

/-- The packet a message is sent in. -/
def packet (payload : Packet.Payload) : Packet := ⟨some payload⟩

/-- Flushing moves messages from the buffer to the stream, in order, and never blocks. -/
theorem ConnectionState.flush_safe {A : Panic → Prop} (buffer : List Packet.Payload)
    (hs : s.Ordered) :
    Safe A (fun r => r.2.2.Ordered ∧
        r.2.2.handed ++ r.2.1.buffer.map packet = s.handed ++ buffer.map packet)
      (flush buffer s) := by
  induction buffer generalizing s with
  | nil =>
    have hworks := s.pollComplete_spec.1
    rw [flush]
    rcases hcomplete : s.pollComplete with ⟨res, t⟩
    rw [hcomplete] at hworks
    exact ⟨hworks.ordered hs, congrArg (· ++ []) hworks.handed⟩
  | cons payload buffer ih =>
    obtain ⟨hworks, hempty⟩ := s.pollComplete_spec
    rw [flush]
    rcases hcomplete : s.pollComplete with ⟨e | ⟨⟨⟩⟩ | _, t⟩
    all_goals rw [hcomplete] at hworks hempty
    · exact ⟨hworks.ordered hs, congrArg (· ++ _) hworks.handed⟩
    · -- the assertion: nothing waits in the stream, so the packet is taken
      have hnone : t.buffered = none := hempty rfl
      have hhanded : t.handed = s.handed := hworks.handed
      dsimp only
      rw [MessageStream.startSend_of_empty hnone]
      refine (ih ((hworks.ordered hs).handOver hnone ⟨some payload⟩)).weaken fun r hr => ?_
      obtain ⟨hordered, hhand⟩ := hr
      refine ⟨hordered, hhand.trans ?_⟩
      simp [hhanded, packet]
    · exact ⟨hworks.ordered hs, congrArg (· ++ _) hworks.handed⟩

/-- `poll` flushes first, and what it reads leaves the outgoing side alone. -/
theorem ConnectionState.poll_safe {A : Panic → Prop} (c : ConnectionState) (hs : s.Ordered) :
    Safe A (fun r => r.1 ≠ .ok (.ready none) ∧ r.2.2.Ordered ∧
        r.2.2.handed ++ r.2.1.buffer.map packet = s.handed ++ c.buffer.map packet)
      (c.poll s) := by
  have hread (reads : List (Except IoErrorKind (Option Bytes))) :
      (readMessage reads).1 ≠ .ok (.ready none) := by
    induction reads with
    | nil => simp [readMessage]
    | cons read reads ih =>
      rcases read with e | - | bytes
      · simp [readMessage]
      · simp [readMessage]
      · rw [readMessage]
        rcases PacketFormat.decode bytes with e | ⟨- | data | -⟩
        · simp
        · exact ih
        · simp
        · exact ih
  refine (flush_safe c.buffer hs).bind ?_
  rintro ⟨res, c', t⟩ ⟨hordered, hhand⟩
  cases res with
  | error e => exact ⟨by simp, hordered, hhand⟩
  | ok res => exact ⟨hread _, hordered, hhand⟩

end Streams

namespace Connection

/-- The packet of a message that is queued. -/
def Op.queued? : Op → Option Packet
  | .send data => some (packet (.message data))
  | _ => none

/-- The packets that were queued were handed over, one stream after the other, and the rest
of them waits. Each stream passes on what it got. -/
structure Delivers (queued : List Packet) [PacketFormat] (c : Connection) : Prop where
  streams : ∀ s ∈ c.streamHandler.streams, s.Ordered
  waiting : ∀ s ∈ c.routingChan.waiting, s.Ordered ∧ s.handed = []
  queued : c.streamHandler.streams.flatMap (·.handed) ++ c.state.buffer.map packet = queued

section Run
variable [PacketFormat] {queued : List Packet} {c : Connection} {s t : MessageStream}

theorem delivers_new : new.Delivers [] :=
  ⟨by simp [new, StreamHandler.new, StreamHandler.streams], by simp [new], rfl⟩

/-- Work on the current stream and the buffer. -/
theorem Delivers.work (h : c.Delivers queued) (hs : c.streamHandler.state = some s)
    (ht : t.Ordered) {state : ConnectionState}
    (hhand : t.handed ++ state.buffer.map packet = s.handed ++ c.state.buffer.map packet) :
    Delivers queued { c with
      state
      streamHandler := { c.streamHandler with state := some t } } := by
  have hqueued := h.queued
  simp only [StreamHandler.streams, hs, Option.toList_some, List.flatMap_append,
    List.flatMap_singleton, List.append_assoc] at hqueued
  refine ⟨fun r hr => ?_, h.waiting, ?_⟩
  · rcases List.mem_append.mp hr with hr | hr
    · exact h.streams r (List.mem_append_left _ hr)
    · rw [List.mem_singleton.mp hr]
      exact ht
  · simp only [StreamHandler.streams, Option.toList_some, List.flatMap_append,
      List.flatMap_singleton, List.append_assoc]
    rw [hhand]
    exact hqueued

/-- No stream is forgotten when it is disconnected. -/
theorem Delivers.disconnect (h : c.Delivers queued) :
    Delivers queued { c with streamHandler := c.streamHandler.disconnect } := by
  have hsame : c.streamHandler.disconnect.streams = c.streamHandler.streams :=
    List.append_nil _
  refine ⟨?_, h.waiting, ?_⟩
  · rw [hsame]
    exact h.streams
  · rw [hsame]
    exact h.queued

theorem Delivers.connect (h : c.Delivers queued) (hs : s.Ordered) (hnew : s.handed = []) :
    Delivers queued { c with streamHandler := c.streamHandler.connect s } := by
  have hmore : (c.streamHandler.connect s).streams = c.streamHandler.streams ++ [s] := rfl
  refine ⟨fun r hr => ?_, h.waiting, ?_⟩
  · rw [hmore] at hr
    rcases List.mem_append.mp hr with hr | hr
    · exact h.streams r hr
    · rw [List.mem_singleton.mp hr]
      exact hs
  · rw [hmore, List.flatMap_append, List.flatMap_singleton, hnew, List.append_nil]
    exact h.queued

/-- The panic of a connection that cannot be reached any more. -/
def channelClosed : Panic := .expect "router channel closed"

theorem poll_safe (h : c.Delivers queued) :
    Safe (fun e => e = channelClosed ∧ c.routingChan.closed = true) (fun r => r.2.Delivers queued)
      c.poll := by
  rw [poll]
  cases hwaiting : c.routingChan.waiting with
  | cons stream waiting =>
    have hroute : c.pollRoutingChan = .ok (.ready stream, { c with
        routingChan := { c.routingChan with waiting } }) := by
      rw [pollRoutingChan, hwaiting]
      rfl
    rw [hroute, ok_bind]
    obtain ⟨hordered, hnew⟩ := h.waiting stream (by simp [hwaiting])
    apply Delivers.connect _ hordered hnew
    exact ⟨h.streams, fun s hs => h.waiting s (by simp [hwaiting, hs]), h.queued⟩
  | nil =>
    have hroute : c.pollRoutingChan =
        if c.routingChan.closed then .error channelClosed else .ok (.notReady, c) := by
      rw [pollRoutingChan, hwaiting]
      rfl
    rw [hroute]
    split
    · exact ⟨rfl, ‹_›⟩
    · change Safe _ _ c.pollStream
      rw [pollStream]
      cases hstate : c.streamHandler.state with
      | none => exact h
      | some s =>
        have hs : s.Ordered := h.streams s (by simp [StreamHandler.streams, hstate])
        refine (ConnectionState.poll_safe c.state hs).bind ?_
        rintro ⟨res, state, t⟩ ⟨hres, ht, hhand⟩
        have hwork := h.work hstate ht hhand
        rcases res with e | ⟨- | data⟩ | -
        · exact hwork.disconnect
        · exact absurd rfl hres
        · exact hwork
        · exact hwork

theorem pollComplete_safe {A : Panic → Prop} (h : c.Delivers queued) :
    Safe A (fun r => r.2.Delivers queued) c.pollComplete := by
  rw [pollComplete]
  cases hstate : c.streamHandler.state with
  | none => exact h
  | some s =>
    have hs : s.Ordered := h.streams s (by simp [StreamHandler.streams, hstate])
    refine (ConnectionState.flush_safe c.state.buffer hs).bind ?_
    rintro ⟨res, state, t⟩ ⟨ht, hhand⟩
    have hwork := h.work hstate ht hhand
    cases res with
    | error e => exact hwork
    | ok async => exact hwork

/-- What each operation does to the packets that were queued. -/
theorem step_safe (h : c.Delivers queued) (op : Op) :
    Safe (· = channelClosed) (Delivers (queued ++ op.queued?.toList)) (c.step op) := by
  have hsame {c' : Connection} (hc' : c'.Delivers queued) {op : Op} (hop : op.queued? = none) :
      c'.Delivers (queued ++ op.queued?.toList) := by
    rwa [hop, Option.toList_none, List.append_nil]
  cases op with
  | send data =>
    refine ⟨h.streams, h.waiting, ?_⟩
    change c.streamHandler.streams.flatMap (·.handed) ++
      List.map packet (c.state.buffer ++ [Packet.Payload.message data]) = _
    rw [List.map_append, ← List.append_assoc, h.queued]
    rfl
  | connecting transport =>
    apply hsame _ rfl
    rw [route]
    split
    · exact h
    · refine ⟨h.streams, fun s hs => ?_, h.queued⟩
      rcases List.mem_append.mp hs with hs | hs
      · exact h.waiting s hs
      · rw [List.mem_singleton.mp hs]
        exact ⟨MessageStream.ordered_new transport, rfl⟩
  | hangUp =>
    have hclosed : Delivers queued { c with
        routingChan := { c.routingChan with closed := true } } :=
      ⟨h.streams, h.waiting, h.queued⟩
    exact hsame hclosed rfl
  | answer transport =>
    apply hsame _ rfl
    rw [answer]
    cases hstate : c.streamHandler.state with
    | none =>
      have hsame : ({ c with streamHandler := { c.streamHandler with state := none } } :
          Connection) = c := by
        rw [← hstate]
      exact hsame.symm ▸ h
    | some s =>
      have hs : s.Ordered := h.streams s (by simp [StreamHandler.streams, hstate])
      exact h.work (t := { s with inner := transport }) hstate hs rfl
  | poll => exact ((poll_safe h).mono (fun _ he => he.1) fun _ hr => hr).map fun _ hr => hsame hr rfl
  | pollComplete => exact (pollComplete_safe h).map fun _ hr => hsame hr rfl

/-- Whatever the transports answer and whenever clients come and go: what was handed to the
streams is the beginning of what was queued, a transport gets it in that order, and writing
never blocks. -/
theorem run_delivers (ops : List Op) :
    Safe (· = channelClosed)
      (fun c =>
        c.streamHandler.streams.flatMap (·.handed) ++ c.state.buffer.map packet =
          ops.filterMap Op.queued? ∧
        ∀ s ∈ c.streamHandler.streams,
          received s.offers ++ s.buffered.toList = s.handed.map PacketFormat.encode ∧
          (accepted s.offers).Sublist (s.handed.map PacketFormat.encode))
      (run ops) := by
  have hrun : Safe (· = channelClosed) (Delivers (ops.filterMap Op.queued?)) (run ops) := by
    refine Safe.foldlM_prefix (I := fun done c => Delivers (done.filterMap Op.queued?) c) ?_ ?_
    · exact delivers_new
    · intro done op rest _ c hc
      refine (step_safe hc op).weaken fun c' hc' => ?_
      rw [List.filterMap_append]
      cases hop : op.queued? <;> simpa [hop] using hc'
  refine hrun.weaken fun c hc => ⟨hc.queued, fun s hs => ?_⟩
  have hordered : received s.offers ++ s.buffered.toList = s.handed.map PacketFormat.encode :=
    hc.streams s hs
  refine ⟨hordered, ?_⟩
  rw [← hordered]
  exact (accepted_sublist s.offers).trans (List.sublist_append_left _ _)

end Run
end Connection
end Mozaic.Network
