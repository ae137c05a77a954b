import Mozaic.Network.TimeoutHeap
import Mozaic.Rust.Loop

/-! Requests and responses on one connection. A request waits in a map for its response
and in a heap for its deadline. -/
namespace Mozaic.Proto

structure Message where
  messageId : Nat
  data : List UInt8
deriving DecidableEq, Repr

structure Response where
  messageId : Nat
  data : List UInt8
deriving DecidableEq, Repr

inductive Payload where
  | message (message : Message)
  | response (response : Response)
deriving DecidableEq, Repr

structure MessageWrapper where
  payload : Option Payload
deriving DecidableEq, Repr

end Mozaic.Proto

namespace Mozaic.Network
open Rust Rules Outcome

structure DecodeError where
  description : String
deriving DecidableEq, Repr

/-- The wire format, which a library provides. -/
class Prost where
  encode : Proto.MessageWrapper → Bytes
  decode : Bytes → Except DecodeError Proto.MessageWrapper

/-- What the peer sent. -/
inductive Message where
  | message (messageId : MessageId) (data : Bytes)
  | response (requestNum : Nat) (data : Bytes)
deriving DecidableEq, Repr

inductive Error where
  | emptyMessage
  | unsolicitedResponse (messageId : MessageId)
  | decode (err : DecodeError)
deriving DecidableEq, Repr

structure MessageHandler where
  messageCounter : Nat
  timeoutHeap : TimeoutHeap MessageId
  requests : HashMap MessageId Nat

section Encoding
variable [Prost]

def encodePayload (payload : Proto.Payload) : Bytes := Prost.encode ⟨some payload⟩

def encodeMessage (messageId : MessageId) (data : Bytes) : Bytes :=
  encodePayload (.message ⟨messageId, data⟩)

def encodeResponse (messageId : MessageId) (data : Bytes) : Bytes :=
  encodePayload (.response ⟨messageId, data⟩)

end Encoding

namespace MessageHandler

def new (now : Instant) : MessageHandler where
  messageCounter := 0
  timeoutHeap := .new now
  requests := ∅

def nextMessageId (h : MessageHandler) : Except Panic (MessageId × MessageHandler) := do
  let messageNum := h.messageCounter
  let messageCounter ← checkedAdd .messageCounter h.messageCounter 1
  pure (messageNum, { h with messageCounter })

/-- The handler once it gave a message its number. -/
def numbered (h : MessageHandler) : MessageHandler :=
  { h with messageCounter := h.messageCounter + 1 }

/-- Only after 2 ^ 64 messages there is no number left. -/
def OutOfNumbers (h : MessageHandler) (e : Panic) : Prop :=
  e = .addOverflow .messageCounter ∧ 2 ^ 64 ≤ h.messageCounter + 1

theorem nextMessageId_safe (h : MessageHandler) :
    Safe h.OutOfNumbers (· = (h.messageCounter, h.numbered)) h.nextMessageId := by
  apply Safe.bind (P := (· = h.messageCounter + 1))
  · exact checkedAdd_safe (fun hle => ⟨rfl, hle⟩) fun _ => rfl
  · intro n heq
    subst heq
    exact rfl

/-- A request now waits for its response, but no longer than its deadline. -/
def await (h : MessageHandler) (messageId : MessageId) (requestNum : Nat) (deadline : Instant) :
    MessageHandler :=
  { h with
    timeoutHeap := h.timeoutHeap.setTimeout messageId deadline
    requests := h.requests.insert messageId requestNum }

section Calls
variable [Prost]

def createMessage (h : MessageHandler) (data : Bytes) : Except Panic (Bytes × MessageHandler) := do
  let (messageId, h) ← h.nextMessageId
  pure (encodeMessage messageId data, h)

def createResponse (h : MessageHandler) (messageId : MessageId) (data : Bytes) :
    Bytes × MessageHandler :=
  (encodeResponse messageId data, h)

def createRequest (h : MessageHandler) (requestNum : Nat) (data : Bytes) (deadline : Instant) :
    Except Panic (Bytes × MessageHandler) := do
  let (messageId, h) ← h.nextMessageId
  pure (encodeMessage messageId data, h.await messageId requestNum deadline)

theorem createMessage_safe (h : MessageHandler) (data : Bytes) :
    Safe h.OutOfNumbers (·.2 = h.numbered) (h.createMessage data) := by
  apply h.nextMessageId_safe.bind
  intro r heq
  subst heq
  exact rfl

theorem createRequest_safe (h : MessageHandler) (requestNum : Nat) (data : Bytes)
    (deadline : Instant) :
    Safe h.OutOfNumbers (·.2 = h.numbered.await h.messageCounter requestNum deadline)
      (h.createRequest requestNum data deadline) := by
  apply h.nextMessageId_safe.bind
  intro r heq
  subst heq
  exact rfl

def handleMessage (h : MessageHandler) (bytes : Bytes) : Except Error Message × MessageHandler :=
  match Prost.decode bytes with
  | .error err => (.error (.decode err), h)
  | .ok wrapper =>
    match wrapper.payload with
    | none => (.error .emptyMessage, h)
    | some (.message message) => (.ok (.message message.messageId message.data), h)
    | some (.response response) =>
      match h.requests.lookup response.messageId with
      | some requestNum =>
        (.ok (.response requestNum response.data),
          { h with requests := h.requests.erase response.messageId })
      | none => (.error (.unsolicitedResponse response.messageId), h)

end Calls

/-- One pass of the loop in `poll_timeout`: a deadline without a request is dropped. -/
def pollPass (ord : DeadlineOrder MessageId) (now : Instant) (h : MessageHandler) :
    Flow MessageHandler (Poll Nat × MessageHandler) :=
  match h.timeoutHeap.poll ord now with
  | (.notReady, timeoutHeap) => .done (.notReady, { h with timeoutHeap })
  | (.ready messageId, timeoutHeap) =>
    match h.requests.lookup messageId with
    | some requestNum =>
      .done (.ready requestNum,
        { h with timeoutHeap, requests := h.requests.erase messageId })
    | none => .next { h with timeoutHeap }

/-- What a pass came to. -/
inductive Pass (h : MessageHandler) (now : Instant) :
    Flow MessageHandler (Poll Nat × MessageHandler) → Prop where
  | idle (timeoutHeap) (hidle : h.timeoutHeap.Idle now timeoutHeap) :
      Pass h now (.done (.notReady, { h with timeoutHeap }))
  | expired (messageId requestNum timeoutHeap)
      (hpop : h.timeoutHeap.Popped now messageId timeoutHeap)
      (hnum : h.requests.lookup messageId = some requestNum) :
      Pass h now (.done (.ready requestNum,
        { h with timeoutHeap, requests := h.requests.erase messageId }))
  | stale (messageId timeoutHeap) (hpop : h.timeoutHeap.Popped now messageId timeoutHeap)
      (hnone : h.requests.lookup messageId = none) :
      Pass h now (.next { h with timeoutHeap })

theorem pass_pollPass (ord : DeadlineOrder MessageId) (now : Instant) (h : MessageHandler) :
    Pass h now (h.pollPass ord now) := by
  rw [pollPass]
  rcases h.timeoutHeap.poll_cases ord now with ⟨messageId, heap, heq, hpop⟩ | ⟨heap, heq, hidle⟩
  · rw [heq]
    cases hnum : h.requests.lookup messageId with
    | some requestNum =>
      simp only [hnum]
      exact .expired messageId requestNum heap hpop hnum
    | none =>
      simp only [hnum]
      exact .stale messageId heap hpop hnum
  · rw [heq]
    exact .idle heap hidle

def pollLoop (ord : DeadlineOrder MessageId) (now : Instant) :
    Loop MessageHandler (Poll Nat × MessageHandler) where
  body := pollPass ord now
  rest h := h.timeoutHeap.deadlines.length
  closer h t hbody := by
    have hpass := pass_pollPass ord now h
    rw [hbody] at hpass
    cases hpass with
    | stale messageId heap hpop hnone => exact hpop.length_lt

def pollTimeout (ord : DeadlineOrder MessageId) (now : Instant) (h : MessageHandler) :
    Poll Nat × MessageHandler :=
  (pollLoop ord now).run h

/-! ## What a call hands out -/

/-- Nothing is handed out, or the number of a request that was pending and is not any more. -/
inductive Handed (h h' : MessageHandler) : Option Nat → Prop where
  | nothing (hsame : h'.requests = h.requests) : Handed h h' none
  | request (messageId requestNum) (hnum : h.requests.lookup messageId = some requestNum)
      (herase : h'.requests = h.requests.erase messageId) : Handed h h' (some requestNum)

theorem Handed.lookup_le {h h' : MessageHandler} {o : Option Nat} (hh : Handed h h' o)
    {messageId requestNum : Nat} (hnum : h'.requests.lookup messageId = some requestNum) :
    h.requests.lookup messageId = some requestNum := by
  cases hh with
  | nothing hsame => rwa [hsame] at hnum
  | request id num _ herase =>
    rw [herase, HashMap.lookup_erase_eq] at hnum
    split at hnum
    · cases hnum
    · exact hnum

theorem Handed.of_requests_eq {h k h' : MessageHandler} {o : Option Nat} (hh : Handed k h' o)
    (heq : k.requests = h.requests) : Handed h h' o := by
  cases hh with
  | nothing hsame => exact .nothing (hsame.trans heq)
  | request id num hnum herase => exact .request id num (heq ▸ hnum) (heq ▸ herase)

/-- The deadlines of pending requests stay, and so does the timer. -/
structure Keeps (h h' : MessageHandler) : Prop where
  counter : h'.messageCounter = h.messageCounter
  timely : h.timeoutHeap.Timely → h'.timeoutHeap.Timely
  deadlines : ∀ d ∈ h.timeoutHeap.deadlines, d.key ∈ h'.requests →
    d ∈ h'.timeoutHeap.deadlines

/-- The number that a poll hands out. -/
def polled? : Poll Nat → Option Nat
  | .ready requestNum => some requestNum
  | .notReady => none

structure Polled (h : MessageHandler) (now : Instant) (p : Poll Nat) (h' : MessageHandler) :
    Prop where
  handed : Handed h h' (polled? p)
  keeps : Keeps h h'
  shorter : ∀ requestNum, p = .ready requestNum →
    h'.timeoutHeap.deadlines.length < h.timeoutHeap.deadlines.length
  late : p = .notReady → h.timeoutHeap.Timely → ∀ d ∈ h'.timeoutHeap.deadlines, now ≤ d.instant

private theorem polled_idle {h : MessageHandler} {now : Instant} {heap : TimeoutHeap MessageId}
    (hidle : h.timeoutHeap.Idle now heap) :
    Polled h now .notReady { h with timeoutHeap := heap } where
  handed := .nothing rfl
  keeps := ⟨rfl, fun ht => hidle.same ▸ ht, fun d hd _ => hidle.same ▸ hd⟩
  shorter := by simp
  late _ ht := ht.idle hidle

private theorem polled_expired {h : MessageHandler} {now : Instant} {messageId requestNum : Nat}
    {heap : TimeoutHeap MessageId} (hpop : h.timeoutHeap.Popped now messageId heap)
    (hnum : h.requests.lookup messageId = some requestNum) :
    Polled h now (.ready requestNum)
      { h with timeoutHeap := heap, requests := h.requests.erase messageId } where
  handed := .request messageId requestNum hnum rfl
  keeps := by
    refine ⟨rfl, fun ht => ht.popped hpop, fun d hd hmem => hpop.mem_of_ne hd ?_⟩
    exact (Finmap.mem_erase.mp hmem).1
  shorter _ _ := hpop.length_lt
  late := by simp

private theorem polled_stale {h : MessageHandler} {now : Instant} {messageId : Nat}
    {heap : TimeoutHeap MessageId} (hpop : h.timeoutHeap.Popped now messageId heap)
    (hnone : h.requests.lookup messageId = none) {p : Poll Nat} {h' : MessageHandler}
    (hh : Polled { h with timeoutHeap := heap } now p h') : Polled h now p h' where
  handed := hh.handed.of_requests_eq rfl
  keeps := by
    refine ⟨hh.keeps.counter, fun ht => hh.keeps.timely (ht.popped hpop), fun d hd hmem => ?_⟩
    apply hh.keeps.deadlines d (hpop.mem_of_ne hd _) hmem
    intro hkey
    obtain ⟨num, hnum⟩ := Finmap.mem_iff.mp hmem
    have hbefore := hh.handed.lookup_le hnum
    rw [hkey, hnone] at hbefore
    cases hbefore
  shorter num hp := (hh.shorter num hp).trans hpop.length_lt
  late hp ht := hh.late hp (ht.popped hpop)

theorem polled_pollTimeout (ord : DeadlineOrder MessageId) (now : Instant) (h : MessageHandler) :
    Polled h now (h.pollTimeout ord now).1 (h.pollTimeout ord now).2 := by
  apply (pollLoop ord now).run_rule (P := fun h r => Polled h now r.1 r.2)
  · intro h r hbody
    have hpass : Pass h now (.done r) := hbody ▸ pass_pollPass ord now h
    cases hpass with
    | idle heap hidle => exact polled_idle hidle
    | expired messageId requestNum heap hpop hnum => exact polled_expired hpop hnum
  · intro h t r hbody hr
    have hpass : Pass h now (.next t) := hbody ▸ pass_pollPass ord now h
    cases hpass with
    | stale messageId heap hpop hnone => exact polled_stale hpop hnone hr

section Calls
variable [Prost]

/-- The number that a message of the peer hands out. -/
def answered? : Except Error Message → Option Nat
  | .ok (.response requestNum _) => some requestNum
  | _ => none

theorem handed_handleMessage (h : MessageHandler) (bytes : Bytes) :
    Handed h (h.handleMessage bytes).2 (answered? (h.handleMessage bytes).1) ∧
      (h.handleMessage bytes).2.timeoutHeap = h.timeoutHeap ∧
      (h.handleMessage bytes).2.messageCounter = h.messageCounter := by
  rw [handleMessage]
  split
  · exact ⟨.nothing rfl, rfl, rfl⟩
  · split
    · exact ⟨.nothing rfl, rfl, rfl⟩
    · exact ⟨.nothing rfl, rfl, rfl⟩
    · split
      · rename_i response _ _ requestNum hnum
        exact ⟨.request response.messageId requestNum hnum rfl, rfl, rfl⟩
      · exact ⟨.nothing rfl, rfl, rfl⟩

/-- A response to nothing that is pending changes nothing. -/
theorem handleMessage_unsolicited (h : MessageHandler) {bytes : Bytes} {response : Proto.Response}
    (hdecode : Prost.decode bytes = .ok ⟨some (.response response)⟩)
    (hpending : response.messageId ∉ h.requests) :
    h.handleMessage bytes = (.error (.unsolicitedResponse response.messageId), h) := by
  have hnone : h.requests.lookup response.messageId = none := Finmap.lookup_eq_none.mpr hpending
  simp [handleMessage, hdecode, hnone]

end Calls

end MessageHandler
end Mozaic.Network
