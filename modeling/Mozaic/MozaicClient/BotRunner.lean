import Mozaic.Desktop.MatchLog
import Mozaic.Network.MessageHandler

/-! The client of one bot. A game state is passed on to the bot, and the next line that
nobody else waits for is the response. -/
namespace Mozaic.MozaicClient
open Rust Network Desktop

variable {F : Type}

/-! ## Messages in JavaScript -/

/-- The double that is closest to an integer. -/
def toDouble (n : Nat) : Nat :=
  let unit := 2 ^ (n.log2 - 52)
  let up := unit < 2 * (n % unit) ∨ (unit = 2 * (n % unit) ∧ n / unit % 2 = 1)
  (if up then n / unit + 1 else n / unit) * unit

theorem toDouble_eq {n : Nat} (h : n < 2 ^ 53) : toDouble n = n := by
  have hlog : n.log2 - 52 = 0 := by
    rcases Nat.eq_zero_or_pos n with rfl | hpos
    · rfl
    · have hlt := (Nat.log2_lt (Nat.ne_of_gt hpos)).mpr h
      omega
  simp [toDouble, hlog, Nat.mod_one]

/-- A `uint64` in a decoded message. It is an object if there is a class for it. -/
inductive UInt64Value where
  | number (n : Nat)
  | long (n : Nat)
deriving DecidableEq, Repr

namespace UInt64Value

/-- What a condition makes of it: objects count as true, zero does not. -/
def truthy : UInt64Value → Bool
  | number n => n != 0
  | long _ => true

def toNumber : UInt64Value → Nat
  | number n => n
  | long n => toDouble n

end UInt64Value

structure IMessage where
  messageId : UInt64Value
  data : Bytes
deriving DecidableEq, Repr

structure IResponse where
  messageId : UInt64Value
  data : Bytes
deriving DecidableEq, Repr

structure IMessageWrapper where
  message : Option IMessage
  response : Option IResponse
deriving DecidableEq, Repr

/-- The wire format on this side, which a library provides. There is nothing to decode in
bytes at which `decode` throws. -/
class Protobufjs where
  encode : IMessageWrapper → Bytes
  decode : Bytes → Option IMessageWrapper

/-- The texts in the messages of the server. A text that is none of its messages has nothing
to parse. -/
class Json (F : Type) where
  stringify : Payload F → Bytes
  parse : Bytes → Option (Proto.ServerMessage F)

def utf8 (line : String) : Bytes := line.toUTF8.data.toList

/-! ## The bot -/

/-- A handler is named after the message that its line responds to. -/
structure BotRunner where
  handlerQueue : List Nat
  /-- The handlers that were called, with their lines. -/
  served : List (Nat × String)
deriving DecidableEq, Repr

namespace BotRunner

def new : BotRunner := ⟨[], []⟩

def request (r : BotRunner) (handler : Nat) : BotRunner :=
  { r with handlerQueue := r.handlerQueue ++ [handler] }

/-- The handler that is called. A line without one is ignored. -/
def onLine (r : BotRunner) (line : String) : Option Nat × BotRunner :=
  match r.handlerQueue with
  | handler :: handlerQueue =>
    (some handler, { handlerQueue, served := r.served ++ [(handler, line)] })
  | [] => (none, r)

end BotRunner

/-! ## The connection -/

/-- A request of this side waits for its response; `resolved` are those that had one. -/
structure RequestResolver where
  messageCounter : Nat
  responseHandlers : HashMap Nat Unit
  resolved : List (Nat × Bytes)

namespace RequestResolver

def new : RequestResolver := ⟨0, ∅, []⟩

def handleResponse (r : RequestResolver) (response : IResponse) : RequestResolver :=
  if !response.messageId.truthy then r
  else
    let messageId := response.messageId.toNumber
    match r.responseHandlers.lookup messageId with
    | some () =>
      { r with
        responseHandlers := r.responseHandlers.erase messageId
        resolved := r.resolved ++ [(messageId, response.data)] }
    | none => r

end RequestResolver

structure Client (F : Type) where
  resolver : RequestResolver
  botRunner : BotRunner
  turnNum : Nat
  log : List (LogRecord F)

namespace Client

def new : Client F := ⟨.new, .new, 0, []⟩

def logState (c : Client F) (state : Proto.State F) : Client F :=
  let turnNum := c.turnNum + 1
  { c with turnNum, log := c.log ++ [.step turnNum state] }

def handleGameState (c : Client F) (messageId : Nat) (state : Proto.State F) : Client F :=
  let c := c.logState state
  { c with botRunner := c.botRunner.request messageId }

def handleFinalState (c : Client F) (state : Proto.State F) : Client F := c.logState state

def handlePlayerAction (c : Client F) (action : Proto.PlayerAction) : Client F :=
  { c with log := c.log ++ [.playerAction action] }

/-- The response to a game state is sent once there is one, to the message it came in. -/
def handleGameMessage (c : Client F) (messageId : Nat) : Proto.ServerMessage F → Client F
  | .gameState content => c.handleGameState messageId content
  | .playerAction content => c.handlePlayerAction content
  | .finalState content => c.handleFinalState content

section Messages
variable [Protobufjs]

/-- `RequestResolver.handleMessage`. The data is an object, even if there is none of it. -/
def handleMessage [Json F] (c : Client F) (msg : IMessage) : Client F :=
  if !msg.messageId.truthy then c
  else
    let messageId := msg.messageId.toNumber
    match (Json.parse msg.data : Option (Proto.ServerMessage F)) with
    | some serverMessage => c.handleGameMessage messageId serverMessage
    | none => c

def onMessage [Json F] (c : Client F) (data : Bytes) : Client F :=
  match Protobufjs.decode data with
  | none => c
  | some msg =>
    match msg.message, msg.response with
    | some message, _ => c.handleMessage message
    | none, some response => { c with resolver := c.resolver.handleResponse response }
    | none, none => c

def encodeResponse (messageId : Nat) (data : Bytes) : Bytes :=
  Protobufjs.encode ⟨none, some ⟨.number messageId, data⟩⟩

/-- A line of the bot, and what is sent because of it. -/
def onLine (c : Client F) (response : String) : Client F × List Bytes :=
  match c.botRunner.onLine response with
  | (some messageId, botRunner) =>
    ({ c with botRunner, log := c.log ++ [.command response] },
      [encodeResponse messageId (utf8 response)])
  | (none, botRunner) => ({ c with botRunner }, [])

end Messages

/-! ## The client as its log sees it -/

/-- Whose turn it is to be answered does not matter for the log. -/
def logged (c : Client F) : Desktop.Client F where
  turnNum := c.turnNum
  handlers := c.botRunner.handlerQueue.length
  log := c.log

theorem logged_handleGameMessage (c : Client F) (messageId : Nat) (msg : Proto.ServerMessage F) :
    (c.handleGameMessage messageId msg).logged = c.logged.hear (.message msg) := by
  cases msg with
  | gameState content =>
    simp [handleGameMessage, handleGameState, logState, BotRunner.request, logged,
      Desktop.Client.hear, Desktop.Client.handleGameMessage, Desktop.Client.handleGameState,
      Desktop.Client.logState]
  | playerAction content => rfl
  | finalState content => rfl

theorem logged_onLine [Protobufjs] (c : Client F) (response : String) :
    (c.onLine response).1.logged = c.logged.hear (.line response) := by
  cases hqueue : c.botRunner.handlerQueue <;>
    simp [onLine, BotRunner.onLine, hqueue, logged, Desktop.Client.hear, Desktop.Client.onLine]

end Client
end Mozaic.MozaicClient
