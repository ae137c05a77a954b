import Mozaic.MozaicClient.Connection
import Mozaic.MozaicClient.WireFormat

/-! The format of the messages of a connection, as the two libraries for protocol buffers write
and read it. -/
namespace Mozaic.MozaicClient
open Network Framing

/-- The tags of the first and the second field of a message, where they hold bytes. -/
def firstTag : UInt8 := 10
def secondTag : UInt8 := 18

/-- A message of one field. It may be left out if it is empty. -/
def encodeOnly (explicit : Bool) (data : Bytes) : Bytes :=
  if data = [] ∧ explicit = false then [] else bytesField firstTag data

def decodeOnly : Bytes → Option Bytes
  | [] => some []
  | tag :: rest =>
    if tag = firstTag then do
      let (data, rest) ← readBytes rest
      if rest = [] then some data else none
    else none

/-- The field of a message that is set, with its tag. -/
def readChoice : Bytes → Option (UInt8 × Bytes)
  | [] => none
  | tag :: rest => (readBytes rest).map fun r => (tag, r.1)

theorem readBytes_whole (data : Bytes) :
    readBytes (leb128 data.length data.length ++ data) = some (data, []) := by
  have hread := readBytes_append data []
  rwa [List.append_nil] at hread

theorem decodeOnly_encodeOnly (explicit : Bool) (data : Bytes) :
    decodeOnly (encodeOnly explicit data) = some data := by
  rw [encodeOnly]
  split
  · rename_i hempty
    rw [hempty.1]
    rfl
  · simp [bytesField, decodeOnly, readBytes_whole]

theorem readChoice_bytesField (tag : UInt8) (data : Bytes) :
    readChoice (bytesField tag data) = some (tag, data) := by
  simp [bytesField, readChoice, readBytes_whole]

/-! ## Text -/

def text? (bytes : Bytes) : Option String :=
  (ByteArray.mk bytes.toArray).utf8Decode?.map fun chars => String.ofList chars.toList

theorem text_utf8 (line : String) : text? (utf8 line) = some line := by
  have hbytes : ByteArray.mk (utf8 line).toArray = line.toList.utf8Encode := by
    rw [utf8, Array.toArray_toList]
    simp [String.toUTF8]
  rw [text?, hbytes, List.utf8Decode?_utf8Encode]
  simp

/-! ## The messages -/

def encodePacketWire (explicit : Bool) (packet : Packet) : Bytes :=
  match packet.payload with
  | none => []
  | some (.message data) => bytesField firstTag (encodeOnly explicit data)
  | some .closeConnection => bytesField secondTag []

def decodePacketWire (bytes : Bytes) : Option Packet :=
  match readChoice bytes with
  | none => if bytes = [] then some ⟨none⟩ else none
  | some (tag, record) =>
    if tag = firstTag then (decodeOnly record).map fun data => ⟨some (.message data)⟩
    else if tag = secondTag then some ⟨some .closeConnection⟩
    else some ⟨none⟩

def encodeResponseWire (response : Proto.ConnectionResponse) : Bytes :=
  match response.response with
  | none => []
  | some .success => bytesField firstTag []
  | some (.error message) => bytesField secondTag (encodeOnly false (utf8 message))

def decodeResponseWire (bytes : Bytes) : Option Proto.ConnectionResponse :=
  match readChoice bytes with
  | none => if bytes = [] then some ⟨none⟩ else none
  | some (tag, record) =>
    if tag = firstTag then some ⟨some .success⟩
    else if tag = secondTag then do
      let message ← text? (← decodeOnly record)
      some ⟨some (.error message)⟩
    else some ⟨none⟩

/-- What a library reads, or the error of the server's. -/
def orError {α : Type} : Option α → Except IoErrorKind α
  | some a => .ok a
  | none => .error (.other "failed to decode Protobuf message")

@[reducible] def coreWire : CoreFormat where
  encodeRequest request := encodeOnly true request.token
  decodeResponse := decodeResponseWire
  encodePacket := encodePacketWire true
  decodePacket := decodePacketWire

@[reducible] def handshakeWire : HandshakeFormat where
  decodeRequest bytes := orError ((decodeOnly bytes).map fun token => ⟨token⟩)
  encodeResponse := encodeResponseWire

@[reducible] def packetWire : PacketFormat where
  encode := encodePacketWire false
  decode bytes := orError (decodePacketWire bytes)

theorem decodePacketWire_encode (explicit : Bool) (packet : Packet) :
    decodePacketWire (encodePacketWire explicit packet) = some packet := by
  have htags : secondTag ≠ firstTag := by decide
  rcases packet with ⟨- | data | -⟩
  · rfl
  · simp [encodePacketWire, decodePacketWire, readChoice_bytesField, decodeOnly_encodeOnly]
  · simp [encodePacketWire, decodePacketWire, readChoice_bytesField, htags]

theorem interoperates_wire : @Interoperates coreWire handshakeWire packetWire := by
  refine @Interoperates.mk coreWire handshakeWire packetWire ?_ ?_ ?_ ?_
  · rintro ⟨token⟩
    change orError ((decodeOnly (encodeOnly true token)).map _) = _
    rw [decodeOnly_encodeOnly]
    rfl
  · have htags : secondTag ≠ firstTag := by decide
    rintro ⟨- | - | message⟩
    · rfl
    · change decodeResponseWire (bytesField firstTag []) = _
      simp [decodeResponseWire, readChoice_bytesField]
    · change decodeResponseWire (bytesField secondTag (encodeOnly false (utf8 message))) = _
      simp [decodeResponseWire, readChoice_bytesField, htags, decodeOnly_encodeOnly, text_utf8]
  · intro packet
    change orError (decodePacketWire (encodePacketWire true packet)) = _
    rw [decodePacketWire_encode]
    rfl
  · intro packet
    exact decodePacketWire_encode false packet

end Mozaic.MozaicClient
