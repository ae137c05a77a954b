import Mozaic.Controller.Rounds
import Mozaic.Desktop.Registration

/-! What the control client gets to hear: the answers of the lobby to its requests, in the
order of the requests, and nothing after the request to start. -/
namespace Mozaic.Controller
open Rust Rules Network Outcome

variable {F : Type}

/-! ## What a lobby answers -/

def adds : Proto.LobbyMessage → Bool
  | .addPlayer _ => true
  | _ => false

def starts : Proto.LobbyMessage → Bool
  | .startGame _ => true
  | _ => false

/-- The answers to requests that come one after the other. The next client gets the given
number. -/
def replies : Nat → List Proto.LobbyMessage → List Proto.LobbyResponse
  | _, [] => []
  | num, .addPlayer _ :: messages => .addPlayer num :: replies (num + 1) messages
  | num, .removePlayer _ :: messages => .removePlayer :: replies num messages
  -- a match that goes on has no ear for requests
  | _, .startGame _ :: _ => [.startGame]

theorem replies_append (num : Nat) {before : List Proto.LobbyMessage} (after : List Proto.LobbyMessage)
    (h : ∀ message ∈ before, starts message = false) :
    replies num (before ++ after) =
      replies num before ++ replies (num + before.countP adds) after := by
  induction before generalizing num with
  | nil => rfl
  | cons message before ih =>
    have hrest := fun m hm => h m (List.mem_cons_of_mem _ hm)
    cases message with
    | addPlayer token =>
      rw [List.cons_append, replies, replies, ih _ hrest, List.countP_cons_of_pos rfl,
        Nat.add_right_comm, List.cons_append]
      rfl
    | removePlayer clientId =>
      rw [List.cons_append, replies, replies, ih _ hrest, List.countP_cons_of_neg (by simp [adds]),
        List.cons_append]
    | startGame payload => exact absurd (h _ List.mem_cons_self) (by simp [starts])

theorem replies_append_of_started (num : Nat) {before : List Proto.LobbyMessage}
    (after : List Proto.LobbyMessage) (h : ∃ message ∈ before, starts message = true) :
    replies num (before ++ after) = replies num before := by
  induction before generalizing num with
  | nil => simp at h
  | cons message before ih =>
    have hrest (hmessage : starts message = false) : ∃ m ∈ before, starts m = true := by
      simpa [hmessage] using h
    cases message with
    | addPlayer token => rw [List.cons_append, replies, replies, ih _ (hrest rfl)]
    | removePlayer clientId => rw [List.cons_append, replies, replies, ih _ (hrest rfl)]
    | startGame payload => rfl

theorem length_replies (num : Nat) {messages : List Proto.LobbyMessage}
    (h : ∀ message ∈ messages, starts message = false) :
    (replies num messages).length = messages.length := by
  induction messages generalizing num with
  | nil => rfl
  | cons message messages ih =>
    have hrest := fun m hm => h m (List.mem_cons_of_mem _ hm)
    cases message with
    | addPlayer token => rw [replies, List.length_cons, ih _ hrest, List.length_cons]
    | removePlayer clientId => rw [replies, List.length_cons, ih _ hrest, List.length_cons]
    | startGame payload => exact absurd (h _ List.mem_cons_self) (by simp [starts])

theorem length_replies_le (num : Nat) (messages : List Proto.LobbyMessage) :
    (replies num messages).length ≤ messages.length := by
  induction messages generalizing num with
  | nil => exact Nat.le_refl _
  | cons message messages ih =>
    cases message with
    | addPlayer | removePlayer => exact Nat.succ_le_succ (ih _)
    | startGame payload => exact Nat.succ_le_succ (Nat.zero_le _)

theorem replies_le (num : Nat) (before after : List Proto.LobbyMessage) :
    replies num before <+: replies num (before ++ after) := by
  by_cases h : ∃ message ∈ before, starts message = true
  · rw [replies_append_of_started num after h]
  · rw [replies_append num after (by simpa using h)]
    exact List.prefix_append _ _

/-- The players are numbered in the order in which they were added. -/
theorem replies_addPlayer {num : Nat} {messages : List Proto.LobbyMessage} {i : Nat}
    {token : Bytes} {response : Proto.LobbyResponse} (hi : messages[i]? = some (.addPlayer token))
    (hresponse : (replies num messages)[i]? = some response) :
    response = .addPlayer (num + (messages.take i).countP adds) := by
  induction messages generalizing num i with
  | nil => simp at hi
  | cons message messages ih =>
    cases i with
    | zero =>
      obtain rfl := Option.some.inj hi
      exact (Option.some.inj hresponse).symm
    | succ i =>
      rw [List.getElem?_cons_succ] at hi
      cases message with
      | addPlayer token' =>
        rw [replies, List.getElem?_cons_succ] at hresponse
        rw [ih hi hresponse, List.take_succ_cons, List.countP_cons_of_pos rfl, Nat.add_right_comm]
        rfl
      | removePlayer clientId =>
        rw [replies, List.getElem?_cons_succ] at hresponse
        rw [ih hi hresponse, List.take_succ_cons, List.countP_cons_of_neg (by simp [adds])]
      | startGame payload => simp [replies] at hresponse

/-! ## What a match sends to the control client -/

/-- What a response holds, and the message it is for. -/
def response? (sent : Sent F) : Option (Payload F × MessageId) :=
  match sent.command with
  | .response messageId data => some (data, messageId)
  | _ => none

/-- A message of the control client. -/
def request? (event : Event) : Option (MessageId × Bytes) :=
  match event.content with
  | .message messageId data => if event.clientId = ctrlId then some (messageId, data) else none
  | _ => none

theorem request?_eq_some {event : Event} {messageId : MessageId} {data : Bytes} :
    request? event = some (messageId, data) ↔ event = ⟨ctrlId, .message messageId data⟩ := by
  obtain ⟨clientId, content⟩ := event
  cases content with
  | message => simp [request?]
  | connected | disconnected | response => simp [request?]

/-- Clients are added when the control client asks for them. -/
theorem PwMatchState.request_of_spawned [External F] {m : PwMatchState F} {event : Event}
    {spawned : ClientId × Bytes} (h : m.spawned? event = some spawned) :
    ∃ messageId data, request? event = some (messageId, data) ∧
      External.decodeLobbyMessage F data = some (some (.addPlayer spawned.2)) := by
  obtain ⟨clientId, content⟩ := event
  cases m with
  | playing c | finished c => cases h
  | lobby l =>
    cases content with
    | connected | disconnected | response => cases h
    | message messageId data =>
      simp only [spawned?, l.control] at h
      split at h
      · rename_i hclient
        split at h
        · rename_i token hdecode
          obtain rfl := Option.some.inj h
          exact ⟨messageId, data, if_pos hclient, hdecode⟩
        · cases h
      · cases h

def responses (channels : Channels F) : List (Payload F × MessageId) :=
  (Tasks.sentTo ctrlId channels).filterMap response?

/-- The answers to requests, and their numbers. -/
def answers (F : Type) (messages : List Proto.LobbyMessage) : List (Payload F × MessageId) :=
  ((replies 1 messages).map Payload.lobby).zipIdx

theorem answers_le (before after : List Proto.LobbyMessage) :
    answers F before <+: answers F (before ++ after) := by
  obtain ⟨rest, hrest⟩ := replies_le 1 before after
  rw [answers, answers, ← hrest, List.map_append, List.zipIdx_append]
  exact List.prefix_append _ _

theorem keptBySends_responses (all : List (Payload F × MessageId)) :
    KeptBySends fun channels : Channels F => responses channels = all := by
  intro channels sent hsent h
  have hnone : response? sent = none := by
    unfold response?
    split
    · rename_i heq
      rw [heq] at hsent
      cases hsent
    · rfl
  have hnil : (Tasks.sentTo ctrlId [sent]).filterMap response? = [] := by
    rw [List.filterMap_eq_nil_iff]
    intro sent' hsent'
    rw [List.mem_singleton.mp (Tasks.mem_sentTo.mp hsent').1, hnone]
  rw [responses, Tasks.sentTo_append, List.filterMap_append, hnil, List.append_nil]
  exact h

theorem responses_respond (l : Lobby F) (messageId : MessageId) (response : Proto.LobbyResponse) :
    responses (l.respond messageId response).channels =
      responses l.channels ++ [(.lobby response, messageId)] := by
  have hctrl : l.ctrlHandle.clientId = ctrlId := by rw [l.control]
  simp [responses, Lobby.respond, ClientHandle.respond, Tasks.sentTo, hctrl, response?]

/-- The lobby listens, and this is what it has heard. -/
structure Open (handled : List Proto.LobbyMessage) (l : Lobby F) : Prop where
  gameData : l.gameData = none
  listened : ∀ message ∈ handled, starts message = false
  counter : l.clientCounter = 1 + handled.countP adds

/-- The match has heard these requests, and has sent the answers. -/
structure Answered (handled : List Proto.LobbyMessage) (game : PwMatchState F) : Prop where
  channels : responses game.channels = answers F handled
  isOpen : ∀ l, game = .lobby l → Open handled l
  started : (∀ l, game ≠ .lobby l) → ∃ message ∈ handled, starts message = true

theorem answered_new (ctrlToken : Bytes) :
    Answered [] (PwMatchState.lobby (.new ctrlToken .new) : PwMatchState F) where
  channels := rfl
  isOpen l hl := by
    cases hl
    exact ⟨rfl, by simp, rfl⟩
  started h := absurd rfl (h _)

section Poll
variable [F64 F] [External F] {handled : List Proto.LobbyMessage} {game : PwMatchState F}

/-- A match that goes on sends no answers. -/
theorem Answered.playing {c : PwController F} (h : Answered handled (.playing c)) (rt : Runtime)
    (event : Event) (after : List Proto.LobbyMessage) :
    Safe (fun _ => True) (Answered (handled ++ after)) ((PwMatchState.playing c).poll rt event) := by
  have hstarted := h.started fun l hl => by cases hl
  have hanswers : responses c.channels = answers F (handled ++ after) := by
    rw [answers, replies_append_of_started 1 after hstarted]
    exact h.channels
  have hmem : ∃ message ∈ handled ++ after, starts message = true := by
    obtain ⟨message, hmessage, hstart⟩ := hstarted
    exact ⟨message, List.mem_append_left _ hmessage, hstart⟩
  apply (PwController.kept_handleEvent (keptBySends_responses _) hanswers rt event).bind
  intro c' hc'
  split <;> exact ⟨hc', fun l hl => (by cases hl), fun _ => hmem⟩

omit [F64 F] [External F] in
theorem Answered.finished {c : PwController F} (h : Answered handled (.finished c))
    (after : List Proto.LobbyMessage) : Answered (handled ++ after) (.finished c) := by
  obtain ⟨message, hmessage, hstart⟩ := h.started fun l hl => by cases hl
  refine ⟨?_, fun l hl => (by cases hl), fun _ => ⟨message, List.mem_append_left _ hmessage, hstart⟩⟩
  rw [answers, replies_append_of_started 1 after ⟨message, hmessage, hstart⟩]
  exact h.channels

omit [F64 F] [External F] in
/-- The lobby hears a request, and answers it. -/
theorem Open.respond {l l' : Lobby F} (h : Open handled l)
    (hanswers : responses l.channels = answers F handled) {message : Proto.LobbyMessage}
    {response : Proto.LobbyResponse} (hchannels : l'.channels = l.channels)
    (hreply : replies l.clientCounter [message] = [response]) :
    responses (l'.respond handled.length response).channels =
      answers F (handled ++ [message]) := by
  rw [responses_respond, hchannels, hanswers, answers, answers, replies_append 1 _ h.listened,
    ← h.counter, hreply, List.map_append, List.zipIdx_append, List.length_map,
    length_replies 1 h.listened]
  simp

/-- The next request of the control client. -/
theorem Answered.request (h : Answered handled game) (rt : Runtime) {message : Proto.LobbyMessage}
    {content : Bytes} (hcontent : External.decodeLobbyMessage F content = some (some message)) :
    Safe (fun _ => True) (Answered (handled ++ [message]))
      (game.poll rt ⟨ctrlId, .message handled.length content⟩) := by
  cases game with
  | playing c => exact h.playing rt _ _
  | finished c => exact h.finished _
  | lobby l =>
    have hopen := h.isOpen l rfl
    have hevent : l.handleEvent ⟨ctrlId, .message handled.length content⟩ =
        (fun r => r.2.respond handled.length r.1) <$> l.answer message := by
      have hctrl : ctrlId = l.ctrlHandle.clientId := by rw [l.control]
      rw [← l.handleMessage_eq handled.length hcontent]
      exact if_pos hctrl
    have hlistened (hmessage : starts message = false) :
        ∀ m ∈ handled ++ [message], starts m = false := by
      intro m hm
      rcases List.mem_append.mp hm with hm | hm
      · exact hopen.listened m hm
      · exact List.mem_singleton.mp hm ▸ hmessage
    rw [PwMatchState.poll, hevent]
    cases message with
    | addPlayer token =>
      apply Safe.bind (P := (· = (l.enter token).respond handled.length (.addPlayer l.clientCounter)))
      · apply Safe.map (P := (· = (.addPlayer l.clientCounter, l.enter token)))
        · apply Safe.bind (P := (· = (⟨l.clientCounter⟩, l.enter token)))
          · exact (safe_true _).bind fun _ _ => rfl
          · rintro _ rfl
            rfl
        · rintro _ rfl
          rfl
      · rintro _ rfl
        have hnone : ((l.enter token).respond handled.length
            (.addPlayer l.clientCounter)).gameData = none := hopen.gameData
        rw [hnone]
        refine ⟨hopen.respond h.channels rfl rfl, fun l' hl' => ?_, fun hne => absurd rfl (hne _)⟩
        cases hl'
        refine ⟨hopen.gameData, hlistened rfl, ?_⟩
        rw [List.countP_append, ← Nat.add_assoc, ← hopen.counter]
        rfl
    | removePlayer clientId =>
      have hnone : ((l.removePlayer ⟨clientId⟩).respond handled.length .removePlayer).gameData =
          none := hopen.gameData
      simp only [Lobby.answer, pure, Except.pure, map_ok, ok_bind, hnone]
      refine ⟨hopen.respond h.channels rfl rfl, fun l' hl' => ?_, fun hne => absurd rfl (hne _)⟩
      cases hl'
      refine ⟨hopen.gameData, hlistened rfl, ?_⟩
      rw [List.countP_append, ← Nat.add_assoc, ← hopen.counter]
      rfl
    | startGame payload =>
      have hanswers : responses ((l.configure payload).respond handled.length .startGame).channels =
          answers F (handled ++ [.startGame payload]) := hopen.respond h.channels rfl rfl
      apply (PwController.kept_new (keptBySends_responses _) rt hanswers).map
      intro c hc
      exact ⟨hc, fun l' hl' => (by cases hl'), fun _ =>
        ⟨_, List.mem_append_right _ List.mem_cons_self, rfl⟩⟩

/-- Whatever else the match hears. -/
theorem Answered.other (h : Answered handled game) (rt : Runtime) {event : Event}
    (hevent : request? event = none) :
    Safe (fun _ => True) (Answered handled) (game.poll rt event) := by
  cases game with
  | playing c => simpa using h.playing rt event []
  | finished c => exact h
  | lobby l =>
    have hopen := h.isOpen l rfl
    have hstay (l' : Lobby F) (hresponses : responses l'.channels = responses l.channels)
        (hdata : l'.gameData = l.gameData) (hcounter : l'.clientCounter = l.clientCounter) :
        Safe (fun _ => True) (Answered handled) (if l'.gameData.isSome then
          PwMatchState.playing <$> PwController.new rt l' else pure (.lobby l')) := by
      rw [hdata, hopen.gameData]
      refine ⟨hresponses.trans h.channels, fun l'' hl'' => ?_, fun hne => absurd rfl (hne _)⟩
      cases hl''
      exact ⟨hdata.trans hopen.gameData, hopen.listened, hcounter.trans hopen.counter⟩
    have hsame := hstay l rfl rfl rfl
    have hsend (msg : Proto.ControlMessage F) (hmsg) := hstay (l.send msg hmsg)
      (keptBySends_responses _ _ _ rfl rfl) rfl rfl
    obtain ⟨clientId, content⟩ := event
    rw [PwMatchState.poll, Lobby.handleEvent]
    cases content with
    | connected =>
      dsimp only
      split
      · exact hsend _ _
      · exact hsame
    | disconnected =>
      dsimp only
      split
      · exact hsend _ _
      · exact hsame
    | message messageId data =>
      have hclient : clientId ≠ l.ctrlHandle.clientId := by
        rw [l.control]
        simpa [request?] using hevent
      dsimp only
      rw [if_neg hclient]
      exact hsame
    | response => exact hsame

end Poll

/-! ## What is written for a client -/

namespace Tasks
variable {stringify : Payload F → Bytes} {s : Tasks F} {clientId : ClientId}

/-- What was written for a client. -/
def writtenTo (clientId : ClientId) (s : Tasks F) : List Bytes :=
  (s.written.filter (·.1 = clientId)).map Prod.snd

/-- What was sent to a client was written, or waits for it. -/
def Outbox [Prost] (stringify : Payload F → Bytes) (clientId : ClientId) (s : Tasks F) : Prop :=
  ∃ done, sentTo clientId s.game.channels = done ++ sentTo clientId s.waiting ∧
    List.Forall₂ (Carries stringify) done (s.writtenTo clientId)

/-- Whatever the tasks do. -/
theorem Outbox.passes [Prost] {t : Tasks F} (h : s.Outbox stringify clientId)
    (hpasses : s.Passes stringify t) : t.Outbox stringify clientId := by
  obtain ⟨done, hdone, hcarries⟩ := h
  cases hpasses with
  | sends sent hchannels hwaiting hwritten =>
    refine ⟨done, ?_, by rwa [writtenTo, hwritten]⟩
    rw [← hchannels, hwaiting, sentTo_append, sentTo_append, hdone, List.append_assoc]
  | @takes id sent msg hsent hmsg hchannels hwaiting hwritten =>
    by_cases hid : clientId = id
    · subst hid
      have hhead : sentTo clientId s.waiting = sent :: (sentTo clientId s.waiting).tail := by
        have hhead := List.head?_filter (p := fun c : Sent F => decide (c.clientId = clientId))
          (l := s.waiting)
        rw [hsent] at hhead
        exact (List.cons_head?_tail hhead).symm
      refine ⟨done ++ [sent], ?_, ?_⟩
      · rw [hchannels, hwaiting, sentTo_eraseP, if_pos rfl, List.append_assoc,
          List.singleton_append, ← hhead, hdone]
      · simp only [writtenTo, hwritten, List.filter_append, List.map_append]
        exact List.rel_append hcarries (by simpa using hmsg)
    · refine ⟨done, ?_, ?_⟩
      · rw [hchannels, hwaiting, sentTo_eraseP, if_neg hid]
        exact hdone
      · simpa [writtenTo, hwritten, List.filter_append, Ne.symm hid] using hcarries

/-- What was written for a client stays. -/
theorem Passes.writtenTo [Prost] {t : Tasks F} (h : s.Passes stringify t) :
    s.writtenTo clientId <+: t.writtenTo clientId := by
  cases h with
  | sends _ _ _ hwritten => rw [Tasks.writtenTo, Tasks.writtenTo, hwritten]
  | takes _ _ _ _ hwritten =>
    rw [Tasks.writtenTo, Tasks.writtenTo, hwritten, List.filter_append, List.map_append]
    exact List.prefix_append _ _

end Tasks
end Mozaic.Controller
