import Mozaic.MozaicClient.BotRunner
import Mozaic.Framing.Protobuf

/-! What the two libraries for protocol buffers make of each other's messages. -/
namespace Mozaic.MozaicClient
open Network Framing

/-- Each side reads what the other one writes. A number that is a `u64` here is an object
there, and a number there is exact below 2 ^ 53. -/
class Transcodes [Prost] [Protobufjs] : Prop where
  message : ∀ messageId data, Protobufjs.decode (encodeMessage messageId data) =
    some ⟨some ⟨.long messageId, data⟩, none⟩
  response : ∀ messageId data, Protobufjs.decode (encodeResponse messageId data) =
    some ⟨none, some ⟨.long messageId, data⟩⟩
  answer : ∀ messageId < 2 ^ 53, ∀ data, Prost.decode (Client.encodeResponse messageId data) =
    .ok ⟨some (.response ⟨messageId, data⟩)⟩

/-! ## The format itself -/

def messageTag : UInt8 := 10
def responseTag : UInt8 := 18

theorem responseTag_ne_messageTag : responseTag ≠ messageTag := by decide

/-- The record in the field of a message, with its tag. -/
def readWrapper : Bytes → Option (UInt8 × Nat × Bytes)
  | [] => none
  | tag :: rest => do
    let (record, _) ← readBytes rest
    let (messageId, data) ← decodeRecord record
    some (tag, messageId, data)

theorem readWrapper_bytesField (tag : UInt8) (explicit : Bool) (messageId : Nat) (data : Bytes) :
    readWrapper (bytesField tag (encodeRecord explicit messageId data)) =
      some (tag, messageId, data) := by
  have hread := readBytes_append (encodeRecord explicit messageId data) []
  rw [List.append_nil] at hread
  simp [readWrapper, bytesField, hread, decodeRecord_encodeRecord]

/-- On the server a field that is zero or empty is left out. -/
def prostEncode (w : Proto.MessageWrapper) : Bytes :=
  match w.payload with
  | none => []
  | some (.message message) =>
    bytesField messageTag (encodeRecord false message.messageId message.data)
  | some (.response response) =>
    bytesField responseTag (encodeRecord false response.messageId response.data)

def prostDecode (bytes : Bytes) : Except DecodeError Proto.MessageWrapper :=
  match readWrapper bytes with
  | some (tag, messageId, data) =>
    if tag = messageTag then .ok ⟨some (.message ⟨messageId, data⟩)⟩
    else if tag = responseTag then .ok ⟨some (.response ⟨messageId, data⟩)⟩
    else .ok ⟨none⟩
  | none => if bytes = [] then .ok ⟨none⟩ else .error ⟨"invalid varint"⟩

/-- In the client a field is written whenever it was given. -/
def protobufjsEncode (w : IMessageWrapper) : Bytes :=
  match w.message, w.response with
  | some message, _ =>
    bytesField messageTag (encodeRecord true message.messageId.toNumber message.data)
  | none, some response =>
    bytesField responseTag (encodeRecord true response.messageId.toNumber response.data)
  | none, none => []

def protobufjsDecode (bytes : Bytes) : Option IMessageWrapper :=
  match readWrapper bytes with
  | some (tag, messageId, data) =>
    if tag = messageTag then some ⟨some ⟨.long messageId, data⟩, none⟩
    else if tag = responseTag then some ⟨none, some ⟨.long messageId, data⟩⟩
    else some ⟨none, none⟩
  | none => if bytes = [] then some ⟨none, none⟩ else none

@[reducible] def prostWire : Prost := ⟨prostEncode, prostDecode⟩

@[reducible] def protobufjsWire : Protobufjs := ⟨protobufjsEncode, protobufjsDecode⟩

theorem transcodes_wire : @Transcodes prostWire protobufjsWire := by
  refine @Transcodes.mk prostWire protobufjsWire ?_ ?_ ?_
  · intro messageId data
    have hread := readWrapper_bytesField messageTag false messageId data
    change protobufjsDecode (prostEncode ⟨some (.message ⟨messageId, data⟩)⟩) = _
    simp [protobufjsDecode, prostEncode, hread]
  · intro messageId data
    have hread := readWrapper_bytesField responseTag false messageId data
    change protobufjsDecode (prostEncode ⟨some (.response ⟨messageId, data⟩)⟩) = _
    simp [protobufjsDecode, prostEncode, hread, responseTag_ne_messageTag]
  · intro messageId _ data
    have hread := readWrapper_bytesField responseTag true messageId data
    change prostDecode (protobufjsEncode ⟨none, some ⟨.number messageId, data⟩⟩) = _
    simp [prostDecode, protobufjsEncode, UInt64Value.toNumber, hread, responseTag_ne_messageTag]

end Mozaic.MozaicClient
