import Mozaic.Network.Requests

/-! What a client handler makes of commands, packets and the time. -/
namespace Mozaic.Network.ClientHandler
open Rust Rules Outcome

variable {F : Type}

section Packets
variable [Prost]

/-- One pass of the loop in `handle_commands`: the bytes go to the connection. -/
def handleCommand (stringify : Payload F → Bytes) (h : ClientHandler) :
    Command F → Except Panic (Bytes × ClientHandler)
  | .message data => do
    let (msg, messageHandler) ← h.messageHandler.createMessage (stringify data)
    pure (msg, { h with messageHandler })
  | .request requestNum data deadline => do
    let (msg, messageHandler) ←
      h.messageHandler.createRequest requestNum (stringify data) deadline
    pure (msg, { h with messageHandler })
  | .response messageId data =>
    let (msg, messageHandler) := h.messageHandler.createResponse messageId (stringify data)
    pure (msg, { h with messageHandler })

/-- An error is printed, and that is all. -/
def handlePacket (h : ClientHandler) (data : Bytes) : ClientHandler :=
  match h.messageHandler.handleMessage data with
  | (.ok (.message messageId data), messageHandler) =>
    dispatchEvent { h with messageHandler } (.message messageId data)
  | (.ok (.response requestNum data), messageHandler) =>
    dispatchEvent { h with messageHandler } (.response ⟨h.clientId, requestNum⟩ (.ok data))
  | (.error _, messageHandler) => { h with messageHandler }

end Packets

/-! ## Commands -/

/-- The message of a command, if the next one has this number. -/
def payload (stringify : Payload F → Bytes) (messageId : MessageId) : Command F → Proto.Payload
  | .message data => .message ⟨messageId, stringify data⟩
  | .request _ data _ => .message ⟨messageId, stringify data⟩
  | .response responseTo data => .response ⟨responseTo, stringify data⟩

/-- The request that a command makes. -/
def created? (messageId : MessageId) : Command F → Option Created
  | .request requestNum _ deadline => some ⟨messageId, requestNum, deadline⟩
  | _ => none

/-- The command takes a number. -/
def numbers : Command F → Bool
  | .response _ _ => false
  | _ => true

@[simp] theorem numbers_message (data : Payload F) : numbers (.message data) = true := rfl
@[simp] theorem numbers_request (requestNum : Nat) (data : Payload F) (deadline : Instant) :
    numbers (.request requestNum data deadline) = true := rfl
@[simp] theorem numbers_response (messageId : MessageId) (data : Payload F) :
    numbers (.response messageId data) = false := rfl

theorem mem_created? {messageId : MessageId} {command : Command F} {c : Created}
    (h : c ∈ created? messageId command) :
    c.messageId = messageId ∧ numbers command = true := by
  cases command with
  | message | response => cases h
  | request requestNum data deadline =>
    cases h
    exact ⟨rfl, rfl⟩

theorem map_created? (messageId : MessageId) (command : Command F) :
    (created? messageId command).toList.map Created.requestNum = command.requestNum?.toList := by
  cases command <;> rfl

def executed (h : ClientHandler) : Command F → ClientHandler
  | .message _ => { h with messageHandler := h.messageHandler.numbered }
  | .request requestNum _ deadline =>
    { h with
      messageHandler := h.messageHandler.numbered.await h.messageHandler.messageCounter
        requestNum deadline }
  | .response _ _ => h

theorem handleCommand_eq [Prost] {stringify : Payload F → Bytes} {h : ClientHandler}
    {command : Command F} (hlt : h.messageHandler.messageCounter + 1 < 2 ^ 64) :
    h.handleCommand stringify command =
      .ok (encodePayload (payload stringify h.messageHandler.messageCounter command),
        h.executed command) := by
  have hid : h.messageHandler.nextMessageId =
      .ok (h.messageHandler.messageCounter, h.messageHandler.numbered) := by
    rw [MessageHandler.nextMessageId, checkedAdd, if_pos hlt]
    rfl
  cases command with
  | message data =>
    simp [handleCommand, MessageHandler.createMessage, hid, payload, encodeMessage, executed]
  | request requestNum data deadline =>
    simp [handleCommand, MessageHandler.createRequest, hid, payload, encodeMessage, executed]
  | response messageId data => rfl

theorem messageCounter_executed (h : ClientHandler) (command : Command F) :
    (h.executed command).messageHandler.messageCounter =
      h.messageHandler.messageCounter + (numbers command).toNat := by
  cases command <;> rfl

theorem lookup_executed (h : ClientHandler) (command : Command F) (messageId : MessageId) :
    (h.executed command).messageHandler.requests.lookup messageId =
      if messageId = h.messageHandler.messageCounter ∧ command.requestNum?.isSome
      then command.requestNum? else h.messageHandler.requests.lookup messageId := by
  cases command with
  | message data => simp [executed, MessageHandler.numbered, Command.requestNum?]
  | request requestNum data deadline =>
    simp [executed, MessageHandler.numbered, MessageHandler.await, Command.requestNum?,
      HashMap.lookup_insert_eq]
  | response responseTo data => simp [executed, Command.requestNum?]

theorem eventChannel_executed (h : ClientHandler) (command : Command F) :
    (h.executed command).eventChannel = h.eventChannel := by
  cases command <;> rfl

/-! ## Packets and timeouts -/

/-- Nothing new is pending, and the numbers go on as they were. -/
structure Settles (h r : ClientHandler) : Prop where
  counter : r.messageHandler.messageCounter = h.messageHandler.messageCounter
  pending : ∀ messageId requestNum, r.messageHandler.requests.lookup messageId = some requestNum →
    h.messageHandler.requests.lookup messageId = some requestNum

/-- A response is an event if it was waited for, and else is nothing. -/
theorem settles_handlePacket [Prost] {h : ClientHandler} {bytes : Bytes}
    {response : Proto.Response} (hdecode : Prost.decode bytes = .ok ⟨some (.response response)⟩) :
    Settles h (h.handlePacket bytes) ∧
      ((h.handlePacket bytes).eventChannel = h.eventChannel ∨
        ∃ requestNum, h.messageHandler.requests.lookup response.messageId = some requestNum ∧
          (h.handlePacket bytes).eventChannel = h.eventChannel ++
            [⟨h.clientId, .response ⟨h.clientId, requestNum⟩ (.ok response.data)⟩]) := by
  cases hlookup : h.messageHandler.requests.lookup response.messageId with
  | none =>
    have hsame : h.handlePacket bytes = h := by
      simp [handlePacket, MessageHandler.handleMessage, hdecode, hlookup]
    rw [hsame]
    exact ⟨⟨rfl, fun _ _ hnum => hnum⟩, .inl rfl⟩
  | some requestNum =>
    have heq : h.handlePacket bytes =
        dispatchEvent
          { h with
            messageHandler := { h.messageHandler with
              requests := h.messageHandler.requests.erase response.messageId } }
          (.response ⟨h.clientId, requestNum⟩ (.ok response.data)) := by
      simp [handlePacket, MessageHandler.handleMessage, hdecode, hlookup]
    rw [heq]
    refine ⟨⟨rfl, fun messageId num hnum => ?_⟩, .inr ⟨requestNum, rfl, rfl⟩⟩
    simp only [dispatchEvent, HashMap.lookup_erase_eq] at hnum
    split at hnum
    · cases hnum
    · exact hnum

/-- Only timeouts become events. -/
theorem settles_handleTimeouts (ord : DeadlineOrder MessageId) (now : Instant)
    (h : ClientHandler) :
    Settles h (h.handleTimeouts ord now) ∧
      ∀ e ∈ (h.handleTimeouts ord now).eventChannel,
        e ∈ h.eventChannel ∨ ∃ clientId requestNum, e = timedOut clientId requestNum := by
  apply (timeoutLoop ord now).run_rule (P := fun h r => Settles h r ∧
    ∀ e ∈ r.eventChannel, e ∈ h.eventChannel ∨ ∃ clientId requestNum, e = timedOut clientId requestNum)
  · intro h r hbody
    obtain ⟨hpoll, hevents⟩ := timeoutPass_done hbody
    refine ⟨⟨hpoll.keeps.counter, fun messageId num hnum => hpoll.handed.lookup_le hnum⟩, ?_⟩
    rw [hevents]
    exact fun e he => .inl he
  · intro h t r hbody hr
    obtain ⟨num, hpoll, -, hevents⟩ := timeoutPass_next hbody
    obtain ⟨hsettles, hnew⟩ := hr
    refine ⟨⟨hsettles.counter.trans hpoll.keeps.counter, fun messageId num hnum => ?_⟩, ?_⟩
    · exact hpoll.handed.lookup_le (hsettles.pending messageId num hnum)
    · intro e he
      rcases hnew e he with he | htimeout
      · rw [hevents] at he
        rcases List.mem_append.mp he with he | he
        · exact .inl he
        · exact .inr ⟨h.clientId, num, List.mem_singleton.mp he⟩
      · exact .inr htimeout

end Mozaic.Network.ClientHandler
