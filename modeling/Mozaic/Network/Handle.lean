import Mozaic.Protocol
import Mozaic.Rules.Basic
import Mozaic.Rust.HashMap

/-! Client handles, the events their handlers report and the routing table. -/
namespace Mozaic.Network
open Rust Rules

abbrev Bytes := List UInt8
/-- In nanoseconds. -/
abbrev Instant := Nat
abbrev MessageId := Nat

def fromSecs (secs : Nat) : Nat := secs * 1000000000

structure ClientId where
  num : Nat
deriving DecidableEq, Repr

structure RequestId where
  clientId : ClientId
  requestNum : Nat
deriving DecidableEq, Repr

inductive ResponseError where
  /-- Indicates that a response did not arrive in time -/
  | timeout
deriving DecidableEq, Repr

/-- The result of a response -/
abbrev ResponseValue := Except ResponseError Bytes

inductive EventContent where
  | connected
  | disconnected
  | message (messageId : MessageId) (data : Bytes)
  | response (requestId : RequestId) (value : ResponseValue)

structure Event where
  clientId : ClientId
  content : EventContent

/-- What the server writes to clients, before it is encoded. -/
inductive Payload (F : Type) where
  | server (msg : Proto.ServerMessage F)
  | control (msg : Proto.ControlMessage F)
  | lobby (response : Proto.LobbyResponse)
deriving DecidableEq, Repr

inductive Command (F : Type) where
  | message (data : Payload F)
  | request (requestNum : Nat) (data : Payload F) (deadline : Instant)
  | response (messageId : MessageId) (data : Payload F)
deriving DecidableEq, Repr

def Command.data {F : Type} : Command F → Payload F
  | .message data => data
  | .request _ data _ => data
  | .response _ data => data

def Command.requestNum? {F : Type} : Command F → Option Nat
  | .message _ => none
  | .request requestNum _ _ => some requestNum
  | .response _ _ => none

/-- The game state a control message carries. -/
def Command.loggedState? {F : Type} : Command F → Option (Proto.State F)
  | .message (.control (.gameState state)) => some state
  | _ => none

/-- A command on its way to the handler of a client. -/
structure Sent (F : Type) where
  clientId : ClientId
  command : Command F
deriving DecidableEq, Repr

/-- The control channels of all clients: what was sent on them so far, in order. -/
abbrev Channels (F : Type) := List (Sent F)

structure ClientHandle where
  clientId : ClientId
  requestCounter : Nat
deriving DecidableEq, Repr

namespace ClientHandle
variable {F : Type}

def send (h : ClientHandle) (data : Payload F) (channels : Channels F) : Channels F :=
  channels ++ [⟨h.clientId, .message data⟩]

def request (h : ClientHandle) (data : Payload F) (deadline : Instant) (channels : Channels F) :
    Except Panic (RequestId × ClientHandle × Channels F) := do
  let requestNum := h.requestCounter
  let requestCounter ← checkedAdd .requestCounter h.requestCounter 1
  pure (⟨h.clientId, requestNum⟩, { h with requestCounter },
    channels ++ [⟨h.clientId, .request requestNum data deadline⟩])

def respond (h : ClientHandle) (messageId : MessageId) (data : Payload F) (channels : Channels F) :
    Channels F :=
  channels ++ [⟨h.clientId, .response messageId data⟩]

end ClientHandle

/-- Where incoming connections go. A routing channel is named after the client
whose connection holds its receiving end. -/
structure RoutingTable where
  routingChannels : HashMap Bytes ClientId

namespace RoutingTable

def new : RoutingTable := ⟨∅⟩

def register (t : RoutingTable) (token : Bytes) (receiver : ClientId) : RoutingTable :=
  ⟨t.routingChannels.insert token receiver⟩

def get (t : RoutingTable) (token : Bytes) : Option ClientId := t.routingChannels.lookup token

def remove (t : RoutingTable) (token : Bytes) : RoutingTable := ⟨t.routingChannels.erase token⟩

end RoutingTable
end Mozaic.Network
