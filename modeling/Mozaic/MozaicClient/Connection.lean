import Mozaic.MozaicClient.ProtobufReader
import Mozaic.Network.Tcp

/-! The client's side of a connection. It asks for a client handler with its token, and takes
what it reads for packets once it was let in. -/
namespace Mozaic.MozaicClient
open Rust Outcome Framing Network

inductive ConnectionState where
  | disconnected
  | connecting
  | connected
  | closed
deriving DecidableEq, Repr

/-- What the connection dispatches to its listeners. -/
inductive Signal where
  | connect
  | message (data : Bytes)
  | error (message : String)
deriving DecidableEq, Repr

/-- The messages of a connection, as a library encodes them. -/
class CoreFormat where
  encodeRequest : Proto.ConnectionRequest → Bytes
  decodeResponse : Bytes → Option Proto.ConnectionResponse
  encodePacket : Packet → Bytes
  decodePacket : Bytes → Option Packet

inductive Thrown where
  | read (e : ReadError)
  | decode
deriving DecidableEq, Repr

/-- The writer of a library, which puts the length of what it wrote before it. -/
class Writer where
  ldelim : Bytes → Bytes

/-- The length is a varint, as long as it is a `uint32`. -/
class Ldelim [Writer] : Prop where
  ldelim_eq : ∀ bytes : Bytes, Short bytes →
    Writer.ldelim bytes = leb128 9 bytes.length ++ bytes

/-- The library at work: it forks, and writes the length as a `uint32`. -/
@[reducible] def writerFork : Writer := ⟨fun bytes => leb128 9 (bytes.length % 2 ^ 32) ++ bytes⟩

theorem ldelim_writerFork : @Ldelim writerFork := by
  refine @Ldelim.mk writerFork fun bytes hshort => ?_
  change leb128 9 (bytes.length % 2 ^ 32) ++ bytes = _
  rw [Nat.mod_eq_of_lt hshort]

/-- What was written to the socket and what was dispatched is all there from the start. -/
structure Connection where
  state : ConnectionState
  token : Bytes
  reader : ProtobufReader
  written : Bytes
  dispatched : List Signal

namespace Connection

def new (token : Bytes) : Connection := ⟨.disconnected, token, .new, [], []⟩

def connect (c : Connection) : Connection := { c with state := .connecting }

def dispatch (c : Connection) (signal : Signal) : Connection :=
  { c with dispatched := c.dispatched ++ [signal] }

def write [Writer] (c : Connection) (bytes : Bytes) : Connection :=
  { c with written := c.written ++ Writer.ldelim bytes }

variable [CoreFormat]

/-- Initiate connection handshake. -/
def sendConnectionRequest [Writer] (c : Connection) : Connection :=
  c.write (CoreFormat.encodeRequest ⟨c.token⟩)

def send [Writer] (c : Connection) (data : Bytes) : Connection :=
  c.write (CoreFormat.encodePacket ⟨some (.message data)⟩)

def handleConnectionResponse (c : Connection) (message : Bytes) : Except Thrown Connection :=
  match CoreFormat.decodeResponse message with
  | none => .error .decode
  | some ⟨some .success⟩ => .ok { c.dispatch .connect with state := .connected }
  | some ⟨some (.error message)⟩ => .ok { c.dispatch (.error message) with state := .closed }
  | some ⟨none⟩ => .ok c

def handlePacket (c : Connection) (data : Bytes) : Except Thrown Connection :=
  match CoreFormat.decodePacket data with
  | none => .error .decode
  | some ⟨some (.message data)⟩ => .ok (c.dispatch (.message data))
  | some ⟨some .closeConnection⟩ => .ok c
  | some ⟨none⟩ => .ok c

def handleMessage (c : Connection) (data : Bytes) : Except Thrown Connection :=
  match c.state with
  | .connecting => c.handleConnectionResponse data
  | .connected => c.handlePacket data
  | .disconnected => .ok c
  | .closed => .ok c

/-- A chunk goes through the reader, and the messages it pushes are handled. -/
def onChunk [BufferReader] (c : Connection) (chunk : Bytes) : Except Thrown Connection := do
  let reader ← (c.reader.transform chunk).mapError .read
  (reader.pushed.drop c.reader.pushed.length).foldlM handleMessage { c with reader }

end Connection

/-- Each side reads what the other one writes. -/
class Interoperates [CoreFormat] [HandshakeFormat] [PacketFormat] : Prop where
  request : ∀ request, HandshakeFormat.decodeRequest (CoreFormat.encodeRequest request) =
    .ok request
  response : ∀ response, CoreFormat.decodeResponse (HandshakeFormat.encodeResponse response) =
    some response
  toServer : ∀ packet, PacketFormat.decode (CoreFormat.encodePacket packet) = .ok packet
  toClient : ∀ packet, CoreFormat.decodePacket (PacketFormat.encode packet) = some packet

theorem ldelim_encoded [Varint] [Leb128] [Writer] [Ldelim] {bytes : Bytes} (h : Short bytes) :
    Writer.ldelim bytes = LengthDelimited.encoded bytes := by
  rw [Framed.encoded_eq h.fits, Ldelim.ldelim_eq bytes h, frame]

end Mozaic.MozaicClient
