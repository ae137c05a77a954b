import Mozaic.Network.MessageHandler

/-! What becomes of a request: it is answered or times out, once, or it still waits. -/
namespace Mozaic.Network
open Rust Rules Outcome

/-! ## Timeouts -/

/-- The part of a client handler that deals with messages. -/
structure ClientHandler where
  clientId : ClientId
  messageHandler : MessageHandler
  eventChannel : List Event

namespace ClientHandler

def dispatchEvent (h : ClientHandler) (content : EventContent) : ClientHandler :=
  { h with eventChannel := h.eventChannel ++ [⟨h.clientId, content⟩] }

/-- The event that tells of a timeout. -/
def timedOut (clientId : ClientId) (requestNum : Nat) : Event :=
  ⟨clientId, .response ⟨clientId, requestNum⟩ (.error .timeout)⟩

/-- One pass of the loop in `handle_timeouts`. -/
def timeoutPass (ord : DeadlineOrder MessageId) (now : Instant) (h : ClientHandler) :
    Flow ClientHandler ClientHandler :=
  match h.messageHandler.pollTimeout ord now with
  | (.ready requestNum, messageHandler) =>
    .next (dispatchEvent { h with messageHandler }
      (.response ⟨h.clientId, requestNum⟩ (.error .timeout)))
  | (.notReady, messageHandler) => .done { h with messageHandler }

theorem timeoutPass_next {ord : DeadlineOrder MessageId} {now : Instant} {h t : ClientHandler}
    (hbody : h.timeoutPass ord now = .next t) :
    ∃ requestNum, h.messageHandler.Polled now (.ready requestNum) t.messageHandler ∧
      t.clientId = h.clientId ∧ t.eventChannel = h.eventChannel ++ [timedOut h.clientId requestNum] := by
  have hpoll := h.messageHandler.polled_pollTimeout ord now
  unfold timeoutPass at hbody
  split at hbody
  · rename_i requestNum handler heq
    rw [heq] at hpoll
    cases hbody
    exact ⟨requestNum, hpoll, rfl, rfl⟩
  · cases hbody

theorem timeoutPass_done {ord : DeadlineOrder MessageId} {now : Instant} {h r : ClientHandler}
    (hbody : h.timeoutPass ord now = .done r) :
    h.messageHandler.Polled now .notReady r.messageHandler ∧ r.eventChannel = h.eventChannel := by
  have hpoll := h.messageHandler.polled_pollTimeout ord now
  unfold timeoutPass at hbody
  split at hbody
  · cases hbody
  · rename_i handler heq
    rw [heq] at hpoll
    cases hbody
    exact ⟨hpoll, rfl⟩

def timeoutLoop (ord : DeadlineOrder MessageId) (now : Instant) :
    Loop ClientHandler ClientHandler where
  body := timeoutPass ord now
  rest h := h.messageHandler.timeoutHeap.deadlines.length
  closer h t hbody := by
    obtain ⟨requestNum, hpoll, _⟩ := timeoutPass_next hbody
    exact hpoll.shorter requestNum rfl

def handleTimeouts (ord : DeadlineOrder MessageId) (now : Instant) (h : ClientHandler) :
    ClientHandler :=
  (timeoutLoop ord now).run h

/-- The request waits for its response and for its deadline. -/
structure Waits (h : MessageHandler) (messageId requestNum : Nat) (deadline : Instant) : Prop where
  pending : h.requests.lookup messageId = some requestNum
  queued : ⟨messageId, deadline⟩ ∈ h.timeoutHeap.deadlines

/-- What was dispatched stays so, and every request that is due is dispatched. -/
structure TimesOut (h : ClientHandler) (now : Instant) (r : ClientHandler) : Prop where
  events : h.eventChannel ⊆ r.eventChannel
  due : h.messageHandler.timeoutHeap.Timely → ∀ messageId requestNum deadline,
    Waits h.messageHandler messageId requestNum deadline → deadline < now →
      timedOut h.clientId requestNum ∈ r.eventChannel

theorem timesOut_handleTimeouts (ord : DeadlineOrder MessageId) (now : Instant)
    (h : ClientHandler) : TimesOut h now (h.handleTimeouts ord now) := by
  apply (timeoutLoop ord now).run_rule (P := fun h r => TimesOut h now r)
  · intro h r hbody
    obtain ⟨hpoll, hevents⟩ := timeoutPass_done hbody
    refine ⟨hevents ▸ List.Subset.refl _, fun htimely messageId requestNum deadline hwaits hlt => ?_⟩
    -- the deadline would have been left behind although it has passed
    cases hpoll.handed with
    | nothing hsame =>
      have hmem : messageId ∈ r.messageHandler.requests := by
        rw [hsame]
        exact Finmap.mem_iff.mpr ⟨requestNum, hwaits.pending⟩
      have hkept := hpoll.keeps.deadlines _ hwaits.queued hmem
      exact absurd (hpoll.late rfl htimely _ hkept) (Nat.not_le_of_lt hlt)
  · intro h t r hbody hr
    obtain ⟨num, hpoll, hclient, hevents⟩ := timeoutPass_next hbody
    have hsub : h.eventChannel ++ [timedOut h.clientId num] ⊆ r.eventChannel := hevents ▸ hr.events
    refine ⟨List.Subset.trans (List.subset_append_left _ _) hsub, ?_⟩
    intro htimely messageId requestNum deadline hwaits hlt
    cases hpoll.handed with
    | request id _ hnum herase =>
      by_cases hid : messageId = id
      · subst hid
        obtain rfl : num = requestNum := Option.some.inj (hnum.symm.trans hwaits.pending)
        apply hsub
        simp
      · have hpending : t.messageHandler.requests.lookup messageId = some requestNum := by
          rw [herase, HashMap.lookup_erase_eq, if_neg hid]
          exact hwaits.pending
        have hmem : messageId ∈ t.messageHandler.requests :=
          Finmap.mem_iff.mpr ⟨requestNum, hpending⟩
        have hqueued := hpoll.keeps.deadlines _ hwaits.queued hmem
        have hdue := hr.due (hpoll.keeps.timely htimely) messageId requestNum deadline
          ⟨hpending, hqueued⟩ hlt
        rwa [hclient] at hdue

end ClientHandler

/-! ## Sessions -/

/-- A request that was made. -/
structure Created where
  messageId : MessageId
  requestNum : Nat
  deadline : Instant
deriving DecidableEq, Repr

inductive Call where
  | createMessage (data : Bytes)
  | createResponse (messageId : MessageId) (data : Bytes)
  | createRequest (requestNum : Nat) (data : Bytes) (deadline : Instant)
  | handleMessage (bytes : Bytes)
  | pollTimeout (now : Instant)

/-- The call gives a message its own number. -/
def Call.numbers : Call → Bool
  | .createMessage _ => true
  | .createRequest _ _ _ => true
  | _ => false

/-- A handler with the requests it made and the numbers it handed out. -/
structure Session where
  handler : MessageHandler
  created : List Created
  answered : List Nat
  timedOut : List Nat

namespace Session

def start (now : Instant) : Session where
  handler := .new now
  created := []
  answered := []
  timedOut := []

def pending (s : Session) : List Created :=
  s.created.filter fun c => (s.handler.requests.lookup c.messageId).isSome

section Run
variable [Prost]

def step (ord : DeadlineOrder MessageId) (s : Session) : Call → Except Panic Session
  | .createMessage data => do
    let (_, handler) ← s.handler.createMessage data
    pure { s with handler }
  | .createResponse messageId data =>
    let (_, handler) := s.handler.createResponse messageId data
    pure { s with handler }
  | .createRequest requestNum data deadline => do
    let (_, handler) ← s.handler.createRequest requestNum data deadline
    pure { s with
      handler
      created := s.created ++ [⟨s.handler.messageCounter, requestNum, deadline⟩] }
  | .handleMessage bytes =>
    let (result, handler) := s.handler.handleMessage bytes
    pure { s with
      handler
      answered := s.answered ++ (MessageHandler.answered? result).toList }
  | .pollTimeout now =>
    let (poll, handler) := s.handler.pollTimeout ord now
    pure { s with
      handler
      timedOut := s.timedOut ++ (MessageHandler.polled? poll).toList }

def run (ord : DeadlineOrder MessageId) (now : Instant) (calls : List Call) :
    Except Panic Session :=
  calls.foldlM (step ord) (start now)

end Run

/-- The two places where a request waits agree, and every request is accounted for. -/
structure Consistent (s : Session) : Prop where
  timely : s.handler.timeoutHeap.Timely
  fresh : ∀ c ∈ s.created, c.messageId < s.handler.messageCounter
  nodup : (s.created.map Created.messageId).Nodup
  known : ∀ messageId requestNum, s.handler.requests.lookup messageId = some requestNum →
    ∃ c ∈ s.created, c.messageId = messageId ∧ c.requestNum = requestNum
  queued : ∀ c ∈ s.pending, ⟨c.messageId, c.deadline⟩ ∈ s.handler.timeoutHeap.deadlines
  accounted : (s.created.map Created.requestNum).Perm
    (s.answered ++ s.timedOut ++ s.pending.map Created.requestNum)

theorem mem_pending {s : Session} {c : Created} :
    c ∈ s.pending ↔ c ∈ s.created ∧ c.messageId ∈ s.handler.requests := by
  simp [pending, Finmap.mem_iff, Option.isSome_iff_exists]

theorem consistent_start (now : Instant) : Consistent (start now) where
  timely := TimeoutHeap.timely_new now
  fresh := by simp [start]
  nodup := by simp [start]
  known := by simp [start, MessageHandler.new]
  queued := by simp [start, pending]
  accounted := by simp [start, pending]

/-- A pending request has the number it was made with. -/
theorem Consistent.lookup {s : Session} (hs : Consistent s) {c : Created} (hc : c ∈ s.pending) :
    s.handler.requests.lookup c.messageId = some c.requestNum := by
  obtain ⟨hcreated, hmem⟩ := mem_pending.mp hc
  obtain ⟨num, hnum⟩ := Finmap.mem_iff.mp hmem
  obtain ⟨d, hd, hid, rfl⟩ := hs.known _ _ hnum
  obtain rfl : d = c := List.inj_on_of_nodup_map hs.nodup hd hcreated hid
  exact hnum

/-- What is handed out was pending before and is not after. -/
theorem Consistent.handed {s : Session} (hs : Consistent s) {handler : MessageHandler}
    {o : Option Nat} (hh : s.handler.Handed handler o) :
    (s.pending.map Created.requestNum).Perm
      (o.toList ++ (pending { s with handler }).map Created.requestNum) := by
  cases hh with
  | nothing hsame => simp [pending, hsame]
  | request id num hnum herase =>
    obtain ⟨c, hc, rfl, rfl⟩ := hs.known id num hnum
    have hmem : c ∈ s.pending := mem_pending.mpr ⟨hc, Finmap.mem_iff.mpr ⟨_, hnum⟩⟩
    have hnodup : s.pending.Nodup := hs.nodup.of_map.filter _
    have hrest : s.pending.erase c = pending { s with handler } := by
      rw [hnodup.erase_eq_filter]
      simp only [pending, List.filter_filter]
      apply List.filter_congr
      intro d hd
      by_cases hdc : d = c
      · subst hdc
        simp [herase]
      · have hid : d.messageId ≠ c.messageId :=
          fun hid => hdc (List.inj_on_of_nodup_map hs.nodup hd hc hid)
        simp [herase, hid, hdc]
    rw [← hrest]
    exact (List.perm_cons_erase hmem).map Created.requestNum

/-- What is handed out leaves the pending requests and joins the others. -/
theorem Consistent.settle {s : Session} (hs : Consistent s) {handler : MessageHandler}
    {o : Option Nat} (hh : s.handler.Handed handler o) (hk : s.handler.Keeps handler)
    {answered timedOut : List Nat}
    (ho : (s.answered ++ s.timedOut ++ o.toList).Perm (answered ++ timedOut)) :
    Consistent { s with handler, answered, timedOut } where
  timely := hk.timely hs.timely
  fresh := by
    intro c hc
    rw [hk.counter]
    exact hs.fresh c hc
  nodup := hs.nodup
  known messageId requestNum hnum := hs.known messageId requestNum (hh.lookup_le hnum)
  queued := by
    intro c hc
    obtain ⟨hcreated, hmem⟩ := mem_pending.mp hc
    obtain ⟨num, hnum⟩ := Finmap.mem_iff.mp hmem
    have hbefore : c ∈ s.pending :=
      mem_pending.mpr ⟨hcreated, Finmap.mem_iff.mpr ⟨num, hh.lookup_le hnum⟩⟩
    exact hk.deadlines _ (hs.queued c hbefore) hmem
  accounted := by
    have hpending := (hs.handed hh).append_left (s.answered ++ s.timedOut)
    rw [← List.append_assoc] at hpending
    exact (hs.accounted.trans hpending).trans (ho.append_right _)

/-- The requests that are not pending are those that were handed out. -/
theorem Consistent.resolved {s : Session} (hs : Consistent s) :
    ((s.created.filter fun c => decide (c ∉ s.pending)).map Created.requestNum).Perm
      (s.answered ++ s.timedOut) := by
  have hpending : s.pending = s.created.filter fun c => decide (c ∈ s.pending) := by
    conv_lhs => rw [pending]
    apply List.filter_congr
    intro c hc
    rw [Bool.eq_iff_iff, decide_eq_true_iff, mem_pending, and_iff_right hc, Finmap.mem_iff,
      Option.isSome_iff_exists]
  have hparts := (List.filter_append_perm (fun c => decide (c ∈ s.pending)) s.created).map
    Created.requestNum
  rw [← hpending, List.map_append] at hparts
  have hall := (hparts.trans hs.accounted).trans List.perm_append_comm
  simpa using (List.perm_append_left_iff _).mp hall

/-- The next message has a number of its own. -/
theorem Consistent.count {s : Session} (hs : Consistent s) :
    Consistent { s with handler := s.handler.numbered } :=
  { hs with fresh := fun c hc => Nat.lt_succ_of_lt (hs.fresh c hc) }

/-- The session once a request is made: it is pending until its deadline. -/
def request (s : Session) (requestNum : Nat) (deadline : Instant) : Session :=
  { s with
    handler := s.handler.numbered.await s.handler.messageCounter requestNum deadline
    created := s.created ++ [⟨s.handler.messageCounter, requestNum, deadline⟩] }

theorem Consistent.lookup_request {s : Session} (hs : Consistent s) (requestNum : Nat)
    (deadline : Instant) {c : Created} (hc : c ∈ s.created) :
    (s.request requestNum deadline).handler.requests.lookup c.messageId =
      s.handler.requests.lookup c.messageId :=
  Finmap.lookup_insert_of_ne _ (Nat.ne_of_lt (hs.fresh c hc))

theorem Consistent.pending_request {s : Session} (hs : Consistent s) (requestNum : Nat)
    (deadline : Instant) :
    (s.request requestNum deadline).pending =
      s.pending ++ [⟨s.handler.messageCounter, requestNum, deadline⟩] := by
  have hold : s.created.filter (fun c =>
      ((s.request requestNum deadline).handler.requests.lookup c.messageId).isSome) =
      s.pending := by
    apply List.filter_congr
    intro c hc
    rw [hs.lookup_request requestNum deadline hc]
  rw [pending, request, List.filter_append]
  congr 1
  simp [MessageHandler.await]

theorem Consistent.request {s : Session} (hs : Consistent s) (requestNum : Nat)
    (deadline : Instant) : Consistent (s.request requestNum deadline) where
  timely := hs.timely.setTimeout _ _
  fresh := by
    intro c hc
    rcases List.mem_append.mp hc with hc | hc
    · exact Nat.lt_succ_of_lt (hs.fresh c hc)
    · rw [List.mem_singleton.mp hc]
      exact Nat.lt_succ_self _
  nodup := by
    simp only [Session.request, List.map_append, List.map_cons, List.map_nil]
    refine List.nodup_append.mpr ⟨hs.nodup, List.nodup_singleton _, fun a ha b hb => ?_⟩
    obtain ⟨c, hc, rfl⟩ := List.mem_map.mp ha
    rw [List.mem_singleton.mp hb]
    exact Nat.ne_of_lt (hs.fresh c hc)
  known := by
    intro messageId num hnum
    simp only [Session.request, MessageHandler.await, HashMap.lookup_insert_eq] at hnum
    split at hnum
    · rename_i hid
      exact ⟨_, List.mem_append_right _ (List.mem_singleton_self _), hid.symm, Option.some.inj hnum⟩
    · obtain ⟨c, hc, hid⟩ := hs.known messageId num hnum
      exact ⟨c, List.mem_append_left _ hc, hid⟩
  queued := by
    intro c hc
    rw [hs.pending_request] at hc
    rcases List.mem_append.mp hc with hc | hc
    · exact List.mem_cons_of_mem _ (hs.queued c hc)
    · rw [List.mem_singleton.mp hc]
      exact List.mem_cons_self
  accounted := by
    rw [hs.pending_request]
    simp only [Session.request, List.map_append, ← List.append_assoc]
    exact hs.accounted.append_right _

/-! ## Every run of a session -/

section Run
variable [Prost]

/-- A step leaves a consistent session consistent, and counts the numbers it takes. -/
theorem step_safe (ord : DeadlineOrder MessageId) {s : Session} (hs : Consistent s) (call : Call) :
    Safe (fun e => s.handler.OutOfNumbers e ∧ call.numbers)
      (fun t => Consistent t ∧
        t.handler.messageCounter = s.handler.messageCounter + call.numbers.toNat)
      (step ord s call) := by
  cases call with
  | createMessage data =>
    have hcreate := (s.handler.createMessage_safe data).mono (B := fun e =>
      s.handler.OutOfNumbers e ∧ true) (fun e he => ⟨he, rfl⟩) fun _ => id
    apply hcreate.bind
    intro r hr
    obtain ⟨bytes, handler⟩ := r
    obtain rfl : handler = _ := hr
    exact ⟨hs.count, rfl⟩
  | createResponse messageId data => exact ⟨hs, rfl⟩
  | createRequest requestNum data deadline =>
    have hcreate := (s.handler.createRequest_safe requestNum data deadline).mono (B := fun e =>
      s.handler.OutOfNumbers e ∧ true) (fun e he => ⟨he, rfl⟩) fun _ => id
    apply hcreate.bind
    intro r hr
    obtain ⟨bytes, handler⟩ := r
    obtain rfl : handler = _ := hr
    exact ⟨hs.request requestNum deadline, rfl⟩
  | handleMessage bytes =>
    obtain ⟨hhanded, hheap, hcounter⟩ := s.handler.handed_handleMessage bytes
    refine ⟨hs.settle hhanded ⟨hcounter, fun h => hheap ▸ h, fun d hd _ => hheap ▸ hd⟩ ?_, hcounter⟩
    rw [List.append_assoc, List.append_assoc]
    exact List.perm_append_comm.append_left _
  | pollTimeout now =>
    have hpoll := s.handler.polled_pollTimeout ord now
    refine ⟨hs.settle hpoll.handed hpoll.keeps ?_, hpoll.keeps.counter⟩
    exact .of_eq (List.append_assoc _ _ _)

def numbersTaken (calls : List Call) : Nat := calls.countP Call.numbers

theorem consistent_run (ord : DeadlineOrder MessageId) (now : Instant) (calls : List Call) :
    Safe (fun e => e = .addOverflow .messageCounter ∧ 2 ^ 64 ≤ numbersTaken calls) Consistent
      (run ord now calls) := by
  have hrun : Safe (fun e => e = .addOverflow .messageCounter ∧ 2 ^ 64 ≤ numbersTaken calls)
      (fun s => Consistent s ∧ s.handler.messageCounter = numbersTaken calls)
      (run ord now calls) := by
    apply Safe.foldlM_prefix (I := fun done s =>
      Consistent s ∧ s.handler.messageCounter = numbersTaken done)
    · exact ⟨consistent_start now, rfl⟩
    · rintro done call rest rfl s ⟨hs, hcount⟩
      apply (step_safe ord hs call).mono
      · intro e h
        obtain ⟨⟨he, hle⟩, hnumbers⟩ := h
        refine ⟨he, ?_⟩
        rw [hcount] at hle
        simp only [numbersTaken, List.countP_append, List.countP_cons, hnumbers, if_true] at hle ⊢
        omega
      · intro t h
        obtain ⟨ht, htcount⟩ := h
        refine ⟨ht, ?_⟩
        rw [htcount, hcount, numbersTaken, numbersTaken, List.countP_append, List.countP_singleton]
        cases call.numbers <;> rfl
  exact hrun.weaken fun _ h => h.1

/-- What a session guarantees of its requests. -/
structure Accounts (ord : DeadlineOrder MessageId) (s : Session) : Prop where
  /-- Every request was answered, or timed out, or is pending. -/
  accounted : (s.created.map Created.requestNum).Perm
    (s.answered ++ s.timedOut ++ s.pending.map Created.requestNum)
  /-- A number is handed out no more often than requests were made with it. -/
  once : ∀ requestNum, (s.answered ++ s.timedOut).count requestNum ≤
    (s.created.map Created.requestNum).count requestNum
  distinct : (s.created.map Created.requestNum).Nodup → (s.answered ++ s.timedOut).Nodup
  unresolved : ∀ c ∈ s.created, c.requestNum ∉ s.answered → c.requestNum ∉ s.timedOut →
    c ∈ s.pending
  waits : ∀ c ∈ s.pending,
    ClientHandler.Waits s.handler c.messageId c.requestNum c.deadline
  timesOut : ∀ c ∈ s.pending, ∀ clientId now, c.deadline < now →
    ClientHandler.timedOut clientId c.requestNum ∈
      (ClientHandler.handleTimeouts ord now ⟨clientId, s.handler, []⟩).eventChannel
  unsolicited : ∀ bytes (response : Proto.Response),
    Prost.decode bytes = .ok ⟨some (.response response)⟩ →
      response.messageId ∉ s.handler.requests →
        s.handler.handleMessage bytes =
          (.error (.unsolicitedResponse response.messageId), s.handler)

theorem Consistent.accounts {s : Session} (hs : Consistent s) (ord : DeadlineOrder MessageId) :
    Accounts ord s := by
  have hwaits : ∀ c ∈ s.pending,
      ClientHandler.Waits s.handler c.messageId c.requestNum c.deadline :=
    fun c hc => ⟨hs.lookup hc, hs.queued c hc⟩
  constructor
  case accounted => exact hs.accounted
  case once =>
    intro requestNum
    rw [hs.accounted.count_eq]
    exact (List.sublist_append_left _ _).count_le _
  case distinct =>
    intro hnodup
    exact (hs.accounted.nodup_iff.mp hnodup).of_append_left
  case unresolved =>
    intro c hc hanswered htimedOut
    by_contra hpending
    have hresolved := hs.resolved.mem_iff.mp
      (List.mem_map_of_mem (List.mem_filter.mpr ⟨hc, decide_eq_true hpending⟩))
    rcases List.mem_append.mp hresolved with hmem | hmem
    · exact hanswered hmem
    · exact htimedOut hmem
  case waits => exact hwaits
  case timesOut =>
    intro c hc clientId now hlt
    have htimesOut := ClientHandler.timesOut_handleTimeouts ord now ⟨clientId, s.handler, []⟩
    exact htimesOut.due hs.timely c.messageId c.requestNum c.deadline (hwaits c hc) hlt
  case unsolicited =>
    intro bytes response hdecode hpending
    exact s.handler.handleMessage_unsolicited hdecode hpending

/-- Every request is resolved at most once, and until then a timeout can still resolve it. -/
theorem run_accounts (ord : DeadlineOrder MessageId) (now : Instant) (calls : List Call) :
    Safe (fun e => e = .addOverflow .messageCounter ∧ 2 ^ 64 ≤ numbersTaken calls) (Accounts ord)
      (run ord now calls) :=
  (consistent_run ord now calls).weaken fun _ hs => hs.accounts ord

end Run

end Session
end Mozaic.Network
