import Mozaic.Network.Handle
import Mozaic.Rust.Loop

/-! The slots of the lobby in the desktop client. A slot object is known by its token,
so a reference to it is the token. -/
namespace Mozaic.Desktop
open Rust Network

/-- The random bytes of a token, which the desktop client keeps as text. -/
abbrev Token := Bytes

structure Bot where
  uuid : String
  name : String
  command : String
deriving DecidableEq, Repr

structure Slot where
  name : String
  token : Token
  connected : Bool
  clientId : Option Nat
  bot : Option Bot
deriving DecidableEq, Repr

/-- The names and the tokens that are drawn for slots. No token is drawn twice. -/
structure Draws where
  name : Nat → String
  token : Nat → Token
  fresh : Function.Injective token

/-- What is done once a request of the lobby is answered. -/
inductive Resolve where
  | registered (slot : Token)
  | unregistered (slot : Token) (clientId : Nat)
  | started
deriving DecidableEq, Repr

structure Request where
  messageId : MessageId
  message : Proto.LobbyMessage
  resolve : Resolve
deriving DecidableEq, Repr

/-- A match runner, with the requests that are on their way to its server. -/
structure MatchRunner where
  messageCounter : Nat
  requests : List Request
deriving DecidableEq, Repr

namespace MatchRunner

def new : MatchRunner := ⟨0, []⟩

def lobbyRequest (r : MatchRunner) (message : Proto.LobbyMessage) (resolve : Resolve) :
    MatchRunner where
  messageCounter := r.messageCounter + 1
  requests := r.requests ++ [⟨r.messageCounter, message, resolve⟩]

def addPlayer (r : MatchRunner) (slot : Token) : MatchRunner :=
  r.lobbyRequest (.addPlayer slot) (.registered slot)

def removePlayer (r : MatchRunner) (slot : Token) (clientId : Nat) : MatchRunner :=
  r.lobbyRequest (.removePlayer clientId) (.unregistered slot clientId)

def startGame (r : MatchRunner) (payload : Bytes) : MatchRunner :=
  r.lobbyRequest (.startGame payload) .started

end MatchRunner

structure SlotManager where
  matchRunner : Option MatchRunner
  connectedClients : Finset Nat
  /-- Every slot that was created. -/
  objects : HashMap Token Slot
  /-- The keys of `slots`. -/
  slots : Finset Token
  slotList : List Token
  clients : HashMap Nat Token
  /-- How many slots were created. -/
  drawn : Nat

namespace SlotManager

def new : SlotManager where
  matchRunner := none
  connectedClients := ∅
  objects := ∅
  slots := ∅
  slotList := []
  clients := ∅
  drawn := 0

/-- `slots[token]`. -/
def slot? (m : SlotManager) (token : Token) : Option Slot :=
  if token ∈ m.slots then m.objects.lookup token else none

def modify (m : SlotManager) (token : Token) (f : Slot → Slot) : SlotManager :=
  match m.objects.lookup token with
  | some slot => { m with objects := m.objects.insert token (f slot) }
  | none => m

def getSlots (m : SlotManager) : List (Option Slot) := m.slotList.map m.slot?

def registerSlot (m : SlotManager) (slot : Slot) : SlotManager :=
  { m with matchRunner := m.matchRunner.map (·.addPlayer slot.token) }

/-- A client id of zero is as good as none. -/
def unregisterSlot (m : SlotManager) (slot : Slot) : SlotManager :=
  match slot.clientId.filter (· ≠ 0) with
  | some clientId =>
    { m with matchRunner := m.matchRunner.map (·.removePlayer slot.token clientId) }
  | none => m

def createSlot (draws : Draws) (m : SlotManager) : Slot × SlotManager :=
  let slot : Slot :=
    { name := draws.name m.drawn
      token := draws.token m.drawn
      connected := false
      clientId := none
      bot := none }
  let m := { m with
    objects := m.objects.insert slot.token slot
    slots := insert slot.token m.slots
    drawn := m.drawn + 1 }
  (slot, m.registerSlot slot)

def addSlot (draws : Draws) (m : SlotManager) : SlotManager :=
  let (slot, m) := m.createSlot draws
  { m with slotList := m.slotList ++ [slot.token] }

/-- Drop the last slot of the list. -/
def popSlot (m : SlotManager) : SlotManager :=
  let popped := m.slotList.getLast?.bind m.slot?
  let m := { m with slotList := m.slotList.dropLast }
  match popped with
  | some slot => m.unregisterSlot slot
  | none => m

@[simp] theorem slotList_unregisterSlot (m : SlotManager) (slot : Slot) :
    (m.unregisterSlot slot).slotList = m.slotList := by
  rw [unregisterSlot]
  split <;> rfl

theorem slotList_popSlot (m : SlotManager) : m.popSlot.slotList = m.slotList.dropLast := by
  unfold popSlot
  dsimp only
  split
  · rw [slotList_unregisterSlot]
  · rfl

/-- `while (this.slotList.length < map.slots)`. -/
def growLoop (draws : Draws) (slots : Nat) : Loop SlotManager SlotManager where
  body m := if m.slotList.length < slots then .next (m.addSlot draws) else .done m
  rest m := slots - m.slotList.length
  closer m m' hbody := by
    split at hbody
    · cases hbody
      simp only [addSlot, createSlot, registerSlot, List.length_append, List.length_singleton]
      omega
    · cases hbody

/-- `while (this.slotList.length > map.slots)`. -/
def shrinkLoop (slots : Nat) : Loop SlotManager SlotManager where
  body m := if slots < m.slotList.length then .next m.popSlot else .done m
  rest m := m.slotList.length - slots
  closer m m' hbody := by
    split at hbody
    · cases hbody
      rw [slotList_popSlot, List.length_dropLast]
      omega
    · cases hbody

def update (draws : Draws) (slots : Nat) (m : SlotManager) : SlotManager :=
  (shrinkLoop slots).run ((growLoop draws slots).run m)

/-- The slot has no bot and nobody is connected to it. -/
def unused (m : SlotManager) (token : Token) : Bool :=
  match m.slot? token with
  | some slot => slot.bot.isNone && !slot.connected
  | none => false

def bindLocalBot (bot : Bot) (m : SlotManager) : SlotManager :=
  match m.slotList.find? m.unused with
  | some token => m.modify token fun slot => { slot with bot := some bot, name := bot.name }
  -- dont add more bots than slots
  | none => m

/-- Nothing is done for a client without a slot, which throws. -/
def setConnected (connected : Bool) (clientId : Nat) (m : SlotManager) : SlotManager :=
  match m.clients.lookup clientId with
  | some token => m.modify token fun slot => { slot with connected }
  | none => m

def connectClient (clientId : Nat) (m : SlotManager) : SlotManager :=
  setConnected true clientId { m with connectedClients := insert clientId m.connectedClients }

def disconnectClient (clientId : Nat) (m : SlotManager) : SlotManager :=
  setConnected false clientId { m with connectedClients := m.connectedClients.erase clientId }

/-- Replace a slot of the list by a new one. Only slots of the list are offered for it. -/
def removeBot (draws : Draws) (playerNum : Nat) (m : SlotManager) : SlotManager :=
  match m.slotList[playerNum]?.bind m.slot? with
  | some oldSlot =>
    let (newSlot, m) := (m.unregisterSlot oldSlot).createSlot draws
    { m with slotList := m.slotList.set playerNum newSlot.token }
  | none => m

def setMatchRunner (m : SlotManager) : SlotManager :=
  m.slotList.foldl (fun m token => match m.slot? token with
    | some slot => m.registerSlot slot
    | none => m) { m with matchRunner := some .new }

def startGame (payload : Bytes) (m : SlotManager) : SlotManager :=
  { m with matchRunner := m.matchRunner.map (·.startGame payload) }

/-! ## When a request is answered -/

def registered (slot : Token) (clientId : Nat) (m : SlotManager) : SlotManager :=
  let m := m.modify slot fun s => { s with clientId := some clientId }
  { m with clients := m.clients.insert clientId slot }

def unregistered (slot : Token) (clientId : Nat) (m : SlotManager) : SlotManager :=
  { m with
    clients := m.clients.erase clientId
    slots := m.slots.erase slot }

def resolve (response : Proto.LobbyResponse) (r : Resolve) (m : SlotManager) : SlotManager :=
  match r, response with
  | .registered slot, .addPlayer clientId => m.registered slot clientId
  | .unregistered slot clientId, .removePlayer => m.unregistered slot clientId
  | _, _ => m

end SlotManager
end Mozaic.Desktop
