import Mozaic.Network.ClientHandler

/-! How often a handler is going to settle a request: what is pending in it, and what it
reported. -/
namespace Mozaic.Network
open Rust Outcome

/-- The request that an event is the response to. -/
def Event.requestId? (e : Event) : Option RequestId :=
  match e.content with
  | .response requestId _ => some requestId
  | _ => none

/-- The requests that events are responses to. -/
def settled (events : List Event) : List RequestId := events.filterMap Event.requestId?

@[simp] theorem settled_append (events events' : List Event) :
    settled (events ++ events') = settled events ++ settled events' :=
  List.filterMap_append

namespace MessageHandler

/-- How many requests with this number wait for their response. -/
def openRequests (h : MessageHandler) (requestNum : Nat) : Nat :=
  (h.requests.keys.filter fun messageId => h.requests.lookup messageId = some requestNum).card

/-- No message has the next number, and what waits for a response has a deadline. -/
structure Sound (h : MessageHandler) : Prop where
  fresh : ∀ messageId ∈ h.requests, messageId < h.messageCounter
  timely : h.timeoutHeap.Timely
  queued : ∀ messageId ∈ h.requests, ∃ d ∈ h.timeoutHeap.deadlines, d.key = messageId

variable {h h' : MessageHandler}

theorem sound_new (now : Instant) : (new now).Sound where
  fresh _ hmem := absurd hmem Finmap.notMem_empty
  timely := TimeoutHeap.timely_new now
  queued _ hmem := absurd hmem Finmap.notMem_empty

theorem openRequests_new (now : Instant) (requestNum : Nat) :
    (new now).openRequests requestNum = 0 := rfl

theorem Sound.numbered (hs : h.Sound) : h.numbered.Sound where
  fresh messageId hmem := Nat.lt_succ_of_lt (hs.fresh messageId hmem)
  timely := hs.timely
  queued := hs.queued

/-- A request that is made is pending under the next number. -/
theorem Sound.await (hs : h.Sound) (requestNum : Nat) (deadline : Instant) :
    (h.numbered.await h.messageCounter requestNum deadline).Sound where
  fresh := by
    intro messageId hmem
    rcases Finmap.mem_insert.mp hmem with rfl | hmem
    · exact Nat.lt_succ_self _
    · exact Nat.lt_succ_of_lt (hs.fresh messageId hmem)
  timely := hs.timely.setTimeout _ _
  queued := by
    intro messageId hmem
    rcases Finmap.mem_insert.mp hmem with rfl | hmem
    · exact ⟨_, List.mem_cons_self, rfl⟩
    · obtain ⟨d, hd, hkey⟩ := hs.queued messageId hmem
      exact ⟨d, List.mem_cons_of_mem _ hd, hkey⟩

theorem Sound.openRequests_await (hs : h.Sound) (requestNum : Nat) (deadline : Instant) (num : Nat) :
    (h.numbered.await h.messageCounter requestNum deadline).openRequests num =
      h.openRequests num + if requestNum = num then 1 else 0 := by
  have hnew : h.messageCounter ∉ h.requests.keys := fun hmem =>
    Nat.lt_irrefl _ (hs.fresh _ (Finmap.mem_keys.mp hmem))
  have hold : (h.requests.keys.filter fun messageId =>
      (h.requests.insert h.messageCounter requestNum).lookup messageId = some num) =
      h.requests.keys.filter fun messageId => h.requests.lookup messageId = some num := by
    apply Finset.filter_congr
    intro messageId hmem
    have hne : messageId ≠ h.messageCounter := by
      rintro rfl
      exact hnew hmem
    rw [HashMap.lookup_insert_eq, if_neg hne]
  have hkeys : (h.requests.insert h.messageCounter requestNum).keys =
      insert h.messageCounter h.requests.keys := by
    ext messageId
    simp [Finmap.mem_keys, Finmap.mem_insert]
  change ((h.requests.insert h.messageCounter requestNum).keys.filter fun messageId =>
    (h.requests.insert h.messageCounter requestNum).lookup messageId = some num).card = _
  rw [hkeys, Finset.filter_insert]
  simp only [Finmap.lookup_insert, Option.some.injEq, hold]
  split
  · rw [Finset.card_insert_of_notMem fun hmem => hnew (Finset.mem_filter.mp hmem).1]
    rfl
  · rfl

/-- What is handed out is not pending any more. -/
theorem Handed.openRequests {o : Option Nat} (hh : Handed h h' o) (num : Nat) :
    h.openRequests num = h'.openRequests num + o.toList.count num := by
  cases hh with
  | nothing hsame => simp [MessageHandler.openRequests, hsame]
  | request messageId requestNum hnum herase =>
    have hmem : messageId ∈ h.requests.keys := Finmap.mem_keys.mpr (Finmap.mem_iff.mpr ⟨_, hnum⟩)
    have hrest : (h'.requests.keys.filter fun id => h'.requests.lookup id = some num) =
        (h.requests.keys.filter fun id => h.requests.lookup id = some num).erase messageId := by
      ext id
      rw [herase, Finmap.keys_erase]
      simp only [Finset.mem_filter, Finset.mem_erase, HashMap.lookup_erase_eq]
      by_cases hid : id = messageId <;> simp [hid]
    rw [MessageHandler.openRequests, MessageHandler.openRequests, hrest]
    by_cases hcount : requestNum = num
    · subst hcount
      have hin : messageId ∈ h.requests.keys.filter fun id =>
          h.requests.lookup id = some requestNum := Finset.mem_filter.mpr ⟨hmem, hnum⟩
      rw [Finset.card_erase_of_mem hin]
      have hpos := Finset.card_pos.mpr ⟨messageId, hin⟩
      simp
      omega
    · have hout : messageId ∉ h.requests.keys.filter fun id =>
          h.requests.lookup id = some num := by
        intro hin
        exact hcount (Option.some.inj (hnum.symm.trans (Finset.mem_filter.mp hin).2))
      rw [Finset.erase_eq_of_notMem hout]
      simp [hcount]

theorem Sound.handed (hs : h.Sound) {o : Option Nat} (hh : Handed h h' o) (hk : Keeps h h') :
    h'.Sound := by
  have hmem {messageId : MessageId} (hmem : messageId ∈ h'.requests) : messageId ∈ h.requests := by
    obtain ⟨num, hnum⟩ := Finmap.mem_iff.mp hmem
    exact Finmap.mem_iff.mpr ⟨num, hh.lookup_le hnum⟩
  refine ⟨fun messageId hid => ?_, hk.timely hs.timely, fun messageId hid => ?_⟩
  · rw [hk.counter]
    exact hs.fresh messageId (hmem hid)
  · obtain ⟨d, hd, hkey⟩ := hs.queued messageId (hmem hid)
    exact ⟨d, hk.deadlines d hd (hkey ▸ hid), hkey⟩

theorem openRequests_pos_iff {requestNum : Nat} :
    0 < h.openRequests requestNum ↔
      ∃ messageId, h.requests.lookup messageId = some requestNum := by
  rw [openRequests, Finset.card_pos]
  constructor
  · intro hne
    obtain ⟨messageId, hmem⟩ := hne
    exact ⟨messageId, (Finset.mem_filter.mp hmem).2⟩
  · intro hnum
    obtain ⟨messageId, hnum⟩ := hnum
    exact ⟨messageId, Finset.mem_filter.mpr
      ⟨Finmap.mem_keys.mpr (Finmap.mem_iff.mpr ⟨_, hnum⟩), hnum⟩⟩

end MessageHandler

namespace ClientHandler

/-- The handler `t` comes from `h` by reporting `new`: responses to requests that were pending
and are not any more, and what is no response. -/
structure Reports (h t : ClientHandler) (new : List Event) : Prop where
  clientId : t.clientId = h.clientId
  events : t.eventChannel = h.eventChannel ++ new
  sound : h.messageHandler.Sound → t.messageHandler.Sound
  addressed : ∀ e ∈ new, e.clientId = h.clientId ∧ ∀ r ∈ e.requestId?, r.clientId = h.clientId
  settles : ∀ num, h.messageHandler.openRequests num =
    t.messageHandler.openRequests num + (settled new).count ⟨h.clientId, num⟩

variable {h t u : ClientHandler}

theorem Reports.trans {new new' : List Event} (h₁ : Reports h t new) (h₂ : Reports t u new') :
    Reports h u (new ++ new') where
  clientId := h₂.clientId.trans h₁.clientId
  events := by rw [h₂.events, h₁.events, List.append_assoc]
  sound hs := h₂.sound (h₁.sound hs)
  addressed := by
    intro e he
    rcases List.mem_append.mp he with he | he
    · exact h₁.addressed e he
    · rw [← h₁.clientId]
      exact h₂.addressed e he
  settles num := by
    rw [h₁.settles, h₂.settles, h₁.clientId, settled_append, List.count_append]
    omega

/-- A request that is handed out is reported, with the response or without one. -/
theorem reports_response {handler : MessageHandler} {num : Nat}
    (hh : h.messageHandler.Handed handler (some num)) (hk : h.messageHandler.Keeps handler)
    (value : ResponseValue) :
    Reports h (dispatchEvent { h with messageHandler := handler } (.response ⟨h.clientId, num⟩ value))
      [⟨h.clientId, .response ⟨h.clientId, num⟩ value⟩] where
  clientId := rfl
  events := rfl
  sound hs := hs.handed hh hk
  addressed := by simp [Event.requestId?]
  settles num' := by
    rw [hh.openRequests num']
    simp [settled, Event.requestId?, dispatchEvent, List.count_singleton]

/-- Nothing is handed out. -/
theorem reports_idle {handler : MessageHandler} (hh : h.messageHandler.Handed handler none)
    (hk : h.messageHandler.Keeps handler) : Reports h { h with messageHandler := handler } [] where
  clientId := rfl
  events := (List.append_nil _).symm
  sound hs := hs.handed hh hk
  addressed := by simp
  settles num := hh.openRequests num

/-- An event that is no response. -/
theorem reports_dispatchEvent {content : EventContent}
    (hcontent : Event.requestId? ⟨h.clientId, content⟩ = none) :
    Reports h (h.dispatchEvent content) [⟨h.clientId, content⟩] where
  clientId := rfl
  events := rfl
  sound := id
  addressed := by simp [hcontent]
  settles num := by simp [settled, hcontent, dispatchEvent]

theorem exists_reports_handleTimeouts (ord : DeadlineOrder MessageId) (now : Instant)
    (h : ClientHandler) : ∃ new, Reports h (h.handleTimeouts ord now) new := by
  apply (timeoutLoop ord now).run_rule (P := fun h t => ∃ new, Reports h t new)
  · intro h r hbody
    obtain ⟨hpoll, _⟩ := timeoutPass_done hbody
    have hr : r = { h with messageHandler := r.messageHandler } := by
      change h.timeoutPass ord now = .done r at hbody
      unfold timeoutPass at hbody
      split at hbody
      · cases hbody
      · cases hbody
        rfl
    rw [hr]
    exact ⟨[], reports_idle hpoll.handed hpoll.keeps⟩
  · intro h t r hbody hr
    obtain ⟨num, hpoll, hclient, hevents⟩ := timeoutPass_next hbody
    obtain ⟨new, hnew⟩ := hr
    have ht : t = dispatchEvent { h with messageHandler := t.messageHandler }
        (.response ⟨h.clientId, num⟩ (.error .timeout)) := by
      obtain ⟨clientId, handler, eventChannel⟩ := t
      cases hclient
      cases hevents
      rfl
    rw [ht] at hnew
    exact ⟨_, (reports_response hpoll.handed hpoll.keeps _).trans hnew⟩

/-- The deadline of every request has passed. -/
def Due (h : MessageHandler) (now : Instant) : Prop :=
  ∀ messageId ∈ h.requests, ∃ d ∈ h.timeoutHeap.deadlines, d.key = messageId ∧ d.instant < now

/-- Nothing that is due is left pending. -/
theorem openRequests_handleTimeouts (ord : DeadlineOrder MessageId) (now : Instant)
    (h : ClientHandler) : h.messageHandler.Sound → Due h.messageHandler now →
      ∀ num, (h.handleTimeouts ord now).messageHandler.openRequests num = 0 := by
  apply (timeoutLoop ord now).run_rule (P := fun h r => h.messageHandler.Sound →
    Due h.messageHandler now → ∀ num, r.messageHandler.openRequests num = 0)
  · intro h r hbody hsound hdue num
    obtain ⟨hpoll, _⟩ := timeoutPass_done hbody
    by_contra hne
    obtain ⟨messageId, hnum⟩ := MessageHandler.openRequests_pos_iff.mp (Nat.pos_of_ne_zero hne)
    have hmem : messageId ∈ r.messageHandler.requests := Finmap.mem_iff.mpr ⟨num, hnum⟩
    have hbefore : messageId ∈ h.messageHandler.requests :=
      Finmap.mem_iff.mpr ⟨num, hpoll.handed.lookup_le hnum⟩
    obtain ⟨d, hd, rfl, hlt⟩ := hdue messageId hbefore
    -- the deadline would have been left behind although it has passed
    have hkept := hpoll.keeps.deadlines d hd hmem
    exact absurd (hpoll.late rfl hsound.timely d hkept) (Nat.not_le_of_lt hlt)
  · intro h t r hbody hr hsound hdue
    obtain ⟨num, hpoll, _⟩ := timeoutPass_next hbody
    refine hr (hsound.handed hpoll.handed hpoll.keeps) fun messageId hmem => ?_
    obtain ⟨num', hnum⟩ := Finmap.mem_iff.mp hmem
    obtain ⟨d, hd, hkey, hlt⟩ :=
      hdue messageId (Finmap.mem_iff.mpr ⟨num', hpoll.handed.lookup_le hnum⟩)
    exact ⟨d, hpoll.keeps.deadlines d hd (hkey ▸ hmem), hkey, hlt⟩

section Packets
variable [Prost]

theorem exists_reports_handlePacket (h : ClientHandler) (data : Bytes) :
    ∃ new, Reports h (h.handlePacket data) new := by
  obtain ⟨hhanded, hheap, hcounter⟩ := h.messageHandler.handed_handleMessage data
  have hkeeps : h.messageHandler.Keeps (h.messageHandler.handleMessage data).2 :=
    ⟨hcounter, fun ht => hheap ▸ ht, fun d hd _ => hheap ▸ hd⟩
  rw [handlePacket]
  split
  · rename_i messageId data' handler heq
    rw [heq] at hhanded hkeeps
    refine ⟨_, (reports_idle hhanded hkeeps).trans (reports_dispatchEvent ?_)⟩
    rfl
  · rename_i num data' handler heq
    rw [heq] at hhanded hkeeps
    exact ⟨_, reports_response hhanded hkeeps _⟩
  · rename_i err handler heq
    rw [heq] at hhanded hkeeps
    exact ⟨_, reports_idle hhanded hkeeps⟩

end Packets

variable {F : Type}

/-- A command fails for want of a number only. -/
theorem handleCommand_safe [Prost] (stringify : Payload F → Bytes) (h : ClientHandler)
    (command : Command F) :
    Safe (· = .addOverflow .messageCounter) (·.2 = h.executed command)
      (h.handleCommand stringify command) := by
  by_cases hlt : h.messageHandler.messageCounter + 1 < 2 ^ 64
  · rw [handleCommand_eq hlt]
    exact rfl
  · have hid : h.messageHandler.nextMessageId = .error (.addOverflow .messageCounter) := by
      rw [MessageHandler.nextMessageId, checkedAdd, if_neg hlt]
      rfl
    cases command with
    | message data => simp [handleCommand, MessageHandler.createMessage, hid]
    | request requestNum data deadline => simp [handleCommand, MessageHandler.createRequest, hid]
    | response messageId data => exact rfl

theorem sound_executed (hs : h.messageHandler.Sound) (command : Command F) :
    (h.executed command).messageHandler.Sound := by
  cases command with
  | message data => exact hs.numbered
  | request requestNum data deadline => exact hs.await requestNum deadline
  | response messageId data => exact hs

/-- A command that is executed moves its request into the handler. -/
theorem openRequests_executed (hs : h.messageHandler.Sound) (command : Command F) (num : Nat) :
    (h.executed command).messageHandler.openRequests num =
      h.messageHandler.openRequests num + command.requestNum?.toList.count num := by
  cases command with
  | message data => rfl
  | request requestNum data deadline =>
    rw [executed, hs.openRequests_await]
    simp [Command.requestNum?, List.count_singleton]
  | response messageId data => rfl

end ClientHandler
end Mozaic.Network
