import Mozaic.Controller.Tasks

/-! Where the requests of a match are. Every request is in one place from when it is made until
the match is told about its response, and the match is one that only hears of what it asked. -/
namespace Mozaic.Controller
open Rust Rules Network Outcome

variable {F : Type}

/-! ## Nothing is asked twice -/

/-- No request was made twice, and no player has a number that was used. -/
structure PwController.Numbered (c : PwController F) : Prop where
  nodup : (issued c.channels).Nodup
  fresh : ∀ i p, c.players.lookup i = some p → ∀ r ∈ issued c.channels,
    r.clientId = p.handle.clientId → r.requestNum < p.handle.requestCounter
  distinct : ∀ i j p q, c.players.lookup i = some p → c.players.lookup j = some q →
    p.handle.clientId = q.handle.clientId → i = j

namespace PwController
variable {rt : Runtime} {c c' : PwController F}

/-- The requests of one round, and which player each one is for. -/
theorem Numbered.mem_requestsTo (h : c.Numbered) {ord : IterOrder PlayerId} {e : PlayerId × RequestId}
    (he : e ∈ requestsTo c.state (c.players.entriesIn ord)) {e' : PlayerId × RequestId}
    (he' : e' ∈ requestsTo c.state (c.players.entriesIn ord)) (heq : e.2 = e'.2) : e = e' := by
  obtain ⟨i, r⟩ := e
  obtain ⟨j, r'⟩ := e'
  obtain ⟨_, p, hp, rfl⟩ := Controller.mem_requestsTo.mp he
  obtain ⟨_, q, hq, rfl⟩ := Controller.mem_requestsTo.mp he'
  obtain rfl := h.distinct i j p q hp hq (congrArg RequestId.clientId heq)
  rw [hp] at hq
  cases hq
  rfl

theorem Numbered.prompted (h : c.Numbered) (hc : Prompted rt c c') : c'.Numbered := by
  have hissued : issued c'.channels = issued c.channels ++
      (requestsTo c.state (c.players.entriesIn rt.retainOrder)).map Prod.snd := by
    rw [hc.channels, issued_append, issued_prompts]
  have hplayer {i : PlayerId} {p : Player} (hp : c'.players.lookup i = some p) :
      ∃ q, c.players.lookup i = some q ∧ p = q.prompted := by
    rw [hc.players] at hp
    split at hp
    · obtain ⟨q, hq, rfl⟩ := Option.map_eq_some_iff.mp hp
      exact ⟨q, hq, rfl⟩
    · cases hp
  constructor
  · rw [hissued, List.nodup_append]
    refine ⟨h.nodup, ?_, fun r hr r' hr' => ?_⟩
    · refine List.Nodup.map_on (fun _ he _ he' => h.mem_requestsTo he he') ?_
      exact (nodup_requestsTo _ _ _).of_map
    · rintro rfl
      obtain ⟨⟨i, _⟩, he, rfl⟩ := List.mem_map.mp hr'
      obtain ⟨_, p, hp, rfl⟩ := Controller.mem_requestsTo.mp he
      exact Nat.lt_irrefl _ (h.fresh i p hp _ hr rfl)
  · intro i p hp r hr hclient
    obtain ⟨q, hq, rfl⟩ := hplayer hp
    rw [hissued] at hr
    rcases List.mem_append.mp hr with hr | hr
    · exact Nat.lt_succ_of_lt (h.fresh i q hq r hr hclient)
    · obtain ⟨⟨j, _⟩, he, rfl⟩ := List.mem_map.mp hr
      obtain ⟨_, p, hp', rfl⟩ := Controller.mem_requestsTo.mp he
      obtain rfl := h.distinct j i p q hp' hq hclient
      rw [hq] at hp'
      cases hp'
      exact Nat.lt_succ_self _
  · intro i j p q hp hq hclient
    obtain ⟨p', hp', rfl⟩ := hplayer hp
    obtain ⟨q', hq', rfl⟩ := hplayer hq
    exact h.distinct i j p' q' hp' hq' hclient

theorem Numbered.finished (h : c.Numbered) (hc : Finished rt c c') : c'.Numbered := by
  have hissued : issued c'.channels = issued c.channels := by
    have hfinal : issued ((c.players.entriesIn rt.retainOrder).map fun e =>
        finalSent c.state e.2) = [] := by
      rw [issued, List.filterMap_eq_nil_iff]
      intro sent hsent
      obtain ⟨e, _, rfl⟩ := List.mem_map.mp hsent
      rfl
    rw [hc.channels, issued_append, hfinal, List.append_nil]
  have hempty {i : PlayerId} {p : Player} (hp : c'.players.lookup i = some p) : False := by
    simp [hc.players] at hp
  exact ⟨hissued ▸ h.nodup, fun i p hp => (hempty hp).elim, fun i j p q hp => (hempty hp).elim⟩

variable [F64 F] [External F]

theorem Numbered.stepped {messages : HashMap PlayerId ResponseValue} (h : c.Numbered)
    (hc : Stepped rt messages c c') : c'.Numbered := by
  obtain ⟨g, actions, _, hc⟩ := hc
  have hissued : issued (c.played messages g actions).channels = issued c.channels := by
    simp [played]
  have hplayed : (c.played messages g actions).Numbered :=
    ⟨hissued ▸ h.nodup, fun i p hp r hr => h.fresh i p hp r (hissued ▸ hr), h.distinct⟩
  split at hc
  · exact hplayed.finished hc
  · exact hplayed.prompted hc

end PwController

section Run
variable [External F] {rt : Runtime} {lobby : Lobby F}

theorem Started.numbered {c : PwController F} (h : Started rt lobby c) : c.Numbered := by
  obtain ⟨conf, state, _, _, hprompted⟩ := h.opened
  refine PwController.Numbered.prompted ?_ hprompted
  have hissued : issued (lobby.channels ++ [logSent lobby.ctrlHandle state]) = [] := by
    rw [issued_append, issued_eq_nil_of_onlyControl lobby.quiet, issued_logSent]
    rfl
  refine ⟨?_, fun i p hp r hr => ?_, fun i j p q hp hq hclient => ?_⟩
  · rw [hissued]
    exact List.nodup_nil
  · rw [hissued] at hr
    cases hr
  · obtain ⟨cl, hcl, rfl⟩ := (lookup_players_enrolled state).mp hp
    obtain ⟨cl', hcl', rfl⟩ := (lookup_players_enrolled state).mp hq
    obtain rfl : cl = cl' := hclient
    exact (properRoster rt lobby).inj hcl hcl'

variable [F64 F]

theorem run_numbered (rt : Runtime) (lobby : Lobby F) (inputs : List (Runtime × Input)) :
    Safe (fun _ => True) (fun s => ∀ c, s.game.controller? = some c → c.Numbered)
      (System.run rt lobby inputs) := by
  apply System.run_controllers
  · exact fun c hc => hc.numbered
  · exact fun c i v hc => ⟨hc.nodup, hc.fresh, hc.distinct⟩
  · intro rt' messages c c' h hc
    exact PwController.Numbered.stepped (c := { c with commands := ∅ })
      ⟨hc.nodup, hc.fresh, hc.distinct⟩ h

/-- A match with one more input. -/
theorem System.run_append_singleton (inputs : List (Runtime × Input)) (last : Runtime × Input) :
    System.run rt lobby (inputs ++ [last]) =
      System.run rt lobby inputs >>= fun s => s.deliver last.1 last.2 := by
  simp [System.run, List.foldlM_append, bind_assoc]

/-- What stops a match that was started is a counter. -/
theorem run_overflow (hstart : ∃ start, PwController.createGame lobby = .ok start)
    (inputs : List (Runtime × Input)) :
    Safe (fun e => ∃ counter, e = .addOverflow counter) (fun _ => True)
      (System.run rt lobby inputs) := by
  obtain ⟨start, hstart⟩ := hstart
  have hpanic (e : Panic) (he : StartPanic lobby e) : ∃ counter, e = .addOverflow counter := by
    rcases he with he | rfl
    · rw [hstart] at he
      cases he
    · exact ⟨_, rfl⟩
  by_cases hempty : lobby.players = ∅
  · refine Safe.weaken (System.run_safe_of_empty (I := fun _ => True) hempty hpanic
      (fun _ _ => trivial) (fun _ _ => ⟨fun e he => he.overflow, fun _ _ _ => trivial⟩) inputs)
      fun _ _ => trivial
  · refine Safe.weaken (System.run_safe (I := fun _ _ => True) hempty hpanic
      (fun _ _ _ _ => trivial)
      (fun _ _ _ _ _ _ _ _ _ => ⟨fun e he => he.overflow, fun _ _ => trivial⟩)
      (fun _ _ _ _ _ => trivial) inputs) fun _ _ => trivial

end Run

/-! ## Events are inputs -/

/-- The input that an event is. -/
def input (e : Event) : Input :=
  match e.content with
  | .connected => .connected e.clientId
  | .disconnected => .disconnected e.clientId
  | .message messageId data => .message e.clientId messageId data
  | .response requestId value => .response requestId value

theorem answers_input (e : Event) : (input e).answers = Tasks.responses e := by
  obtain ⟨clientId, content⟩ := e
  cases content <;> rfl

theorem map_responses (e : Event) :
    (Tasks.responses e).map Prod.fst = settled [e] := by
  obtain ⟨clientId, content⟩ := e
  cases content <;> rfl

/-- The match hears of an event that is no response, or the response to an open request. -/
theorem System.event_input {s : System F} {e : Event}
    (h : ∀ r ∈ e.requestId?, r.clientId = e.clientId ∧ r ∈ issued s.game.channels ∧
      r ∉ s.answered.map Prod.fst) : s.event (input e) = some e := by
  obtain ⟨clientId, content⟩ := e
  cases content with
  | connected | disconnected | message => rfl
  | response r value =>
    obtain ⟨hclient, hissued, hopen⟩ := h r rfl
    obtain rfl : r.clientId = clientId := hclient
    exact if_pos ⟨hissued, hopen⟩

theorem System.deliver_input [F64 F] [External F] {c : PwController F}
    {answered : List (RequestId × ResponseValue)} {e : Event} (rt : Runtime)
    (h : System.event ⟨.playing c, answered⟩ (input e) = some e) :
    System.deliver ⟨.playing c, answered⟩ rt (input e) =
      (PwMatchState.playing c).poll rt e >>= fun game =>
        pure ⟨game, answered ++ Tasks.responses e⟩ := by
  rw [System.deliver, h, answers_input]

/-! ## The invariant -/

namespace Tasks

/-- How many requests with this id wait in their handler. -/
def pending (s : Tasks F) (r : RequestId) : Nat :=
  (s.handlers.lookup r.clientId).elim 0 fun h => h.messageHandler.openRequests r.requestNum

/-- How often a request is somewhere between the match that made it and the match that was told. -/
def found (s : Tasks F) (r : RequestId) : Nat :=
  (s.answered.map Prod.fst).count r + (settled s.events).count r + s.pending r +
    (issued s.waiting).count r

/-- A handler between two steps of its task. -/
structure Idle (clientId : ClientId) (h : ClientHandler) : Prop where
  clientId : h.clientId = clientId
  events : h.eventChannel = []
  sound : h.messageHandler.Sound

/-- A match that goes on. No request is lost, and none is found twice. -/
structure Tracked (s : Tasks F) : Prop where
  handlers : ∀ clientId h, s.handlers.lookup clientId = some h → Idle clientId h
  registered : ∀ clientId ∈ s.handlers, s.routes.Registered clientId
  within : s.game.Within (· ∈ s.handlers)
  addressed : ∀ e ∈ s.events, ∀ r ∈ e.requestId?, r.clientId = e.clientId
  lobby : ∀ l, s.game = .lobby l → ∀ clientId ∈ s.handlers, clientId.num < l.clientCounter
  conserved : ∀ r, (issued s.game.channels).count r = s.found r

/-- The match has not started, or it is a run of a match with inputs of its own. -/
inductive Refines [F64 F] [External F] (s : Tasks F) : Prop
  | lobby (l : Lobby F) (hgame : s.game = .lobby l)
  | run (rt : Runtime) (lobby : Lobby F) (inputs : List (Runtime × Input))
      (hrun : System.run rt lobby inputs = .ok ⟨s.game, s.answered⟩)

/-! ### A handler does something -/

section Handlers
variable {s : Tasks F} {clientId : ClientId} {handler : ClientHandler}

theorem found_insert (s : Tasks F) (h : ClientHandler) (waiting : Channels F)
    (events : List Event) (written : List (ClientId × Bytes)) (r : RequestId) :
    found { s with handlers := s.handlers.insert clientId h, waiting, events, written } r =
      (s.answered.map Prod.fst).count r + (settled events).count r +
        (if r.clientId = clientId then h.messageHandler.openRequests r.requestNum
          else s.pending r) + (issued waiting).count r := by
  simp only [found, pending, HashMap.lookup_insert_eq]
  split <;> rfl

theorem pending_eq (hlookup : s.handlers.lookup clientId = some handler) {r : RequestId}
    (hr : r.clientId = clientId) :
    s.pending r = handler.messageHandler.openRequests r.requestNum := by
  rw [pending, hr, hlookup]
  rfl

/-- The handler of a known client is replaced. -/
theorem Tracked.insert (h : s.Tracked) (hlookup : s.handlers.lookup clientId = some handler)
    {handler' : ClientHandler} (hidle : Idle clientId handler') {waiting : Channels F}
    {events : List Event} {written : List (ClientId × Bytes)}
    (haddressed : ∀ e ∈ events, ∀ r ∈ e.requestId?, r.clientId = e.clientId)
    (hconserved : ∀ r, s.found r = found { s with
      handlers := s.handlers.insert clientId handler', waiting, events, written } r) :
    Tracked { s with handlers := s.handlers.insert clientId handler', waiting, events, written } := by
  have hmem (id : ClientId) : id ∈ s.handlers.insert clientId handler' ↔ id ∈ s.handlers := by
    rw [Finmap.mem_insert]
    refine ⟨?_, .inr⟩
    rintro (rfl | hid)
    · exact Finmap.mem_iff.mpr ⟨_, hlookup⟩
    · exact hid
  refine ⟨fun id h' hid => ?_, fun id hid => h.registered id ((hmem id).mp hid), ?_, haddressed,
    fun l hl id hid => h.lobby l hl id ((hmem id).mp hid),
    fun r => (h.conserved r).trans (hconserved r)⟩
  · rw [HashMap.lookup_insert_eq] at hid
    split at hid
    · rename_i heq
      obtain rfl := Option.some.inj hid
      exact heq ▸ hidle
    · exact h.handlers id h' hid
  · exact ⟨fun id hid => (hmem id).mpr (h.within.members id hid),
      fun sent hsent => (hmem _).mpr (h.within.channels sent hsent)⟩

/-- Nobody was registered, or lost a registration. -/
theorem Tracked.reroute (h : s.Tracked) {routes : Routes} (htable : routes.table = s.routes.table)
    (htokens : routes.tokens = s.routes.tokens) : Tracked { s with routes } := by
  refine ⟨h.handlers, fun id hid => ?_, h.within, h.addressed, h.lobby, h.conserved⟩
  change ∃ token, routes.tokens.lookup id = some token ∧ routes.table.get token = some id
  rw [htable, htokens]
  exact h.registered id hid

/-- What a handler reports is on the channel of the match then. -/
theorem Tracked.goOn (h : s.Tracked) (hover : s.isOver = false)
    (hlookup : s.handlers.lookup clientId = some handler) {t : ClientHandler} {new : List Event}
    (hr : ClientHandler.Reports handler t new) : (s.goOn t).Tracked := by
  obtain ⟨rfl, hevents, hsound⟩ := h.handlers clientId handler hlookup
  have hnew : t.eventChannel = new := by rw [hr.events, hevents, List.nil_append]
  have hgo : s.goOn t = { s with
      handlers := s.handlers.insert handler.clientId { t with eventChannel := [] }
      events := s.events ++ new } := by
    rw [goOn, if_neg (by simp [hover]), hr.clientId, hnew]
  rw [hgo]
  have hidle : Idle handler.clientId { t with eventChannel := [] } :=
    ⟨hr.clientId, rfl, hr.sound hsound⟩
  refine h.insert hlookup hidle ?_ fun r => ?_
  · intro e he r hreq
    rcases List.mem_append.mp he with he | he
    · exact h.addressed e he r hreq
    · obtain ⟨hclient, hreqs⟩ := hr.addressed e he
      rw [hreqs r hreq, hclient]
  · rw [found_insert, found, settled_append, List.count_append]
    split
    · rename_i hclient
      have hsettles : handler.messageHandler.openRequests r.requestNum =
          t.messageHandler.openRequests r.requestNum + (settled new).count r := by
        rw [hr.settles, ← hclient]
      rw [pending_eq hlookup hclient, hsettles]
      dsimp only
      omega
    · rename_i hclient
      have hnone : (settled new).count r = 0 := by
        rw [List.count_eq_zero]
        intro hmem
        obtain ⟨e, he, hreq⟩ := List.mem_filterMap.mp hmem
        exact hclient ((hr.addressed e he).2 r hreq)
      omega

/-- A command that is taken off a channel. -/
theorem count_issued_eraseP {waiting : Channels F} {sent : Sent F}
    (h : waiting.find? (·.clientId = clientId) = some sent) (r : RequestId) :
    (issued waiting).count r = (issued (waiting.eraseP (·.clientId = clientId))).count r +
      if r.clientId = clientId then sent.command.requestNum?.toList.count r.requestNum else 0 := by
  obtain ⟨hclient, before, after, rfl, hbefore⟩ := List.find?_eq_some_iff_append.mp h
  have hrest : (before ++ sent :: after).eraseP (·.clientId = clientId) = before ++ after := by
    rw [List.eraseP_append_right _ (by simpa using hbefore)]
    simp [of_decide_eq_true hclient]
  have hone : (issued [sent]).count r =
      if r.clientId = clientId then sent.command.requestNum?.toList.count r.requestNum else 0 := by
    obtain ⟨id, command⟩ := sent
    obtain rfl : id = clientId := of_decide_eq_true hclient
    obtain ⟨id', num⟩ := r
    cases hnum : command.requestNum? with
    | none => simp [issued, hnum]
    | some num' =>
      by_cases hid : id' = id
      · subst hid
        simp [issued, hnum, List.count_singleton]
      · have hne : (⟨id, num'⟩ : RequestId) ≠ ⟨id', num⟩ := fun heq =>
          hid (congrArg RequestId.clientId heq).symm
        simp [issued, hnum, hid, hne]
  rw [hrest, ← hone, ← List.singleton_append, issued_append, issued_append, issued_append,
    List.count_append, List.count_append, List.count_append]
  omega

theorem Tracked.command (h : s.Tracked) (hlookup : s.handlers.lookup clientId = some handler)
    {sent : Sent F} (hsent : s.waiting.find? (·.clientId = clientId) = some sent)
    (written : List (ClientId × Bytes)) :
    Tracked { s with
      waiting := s.waiting.eraseP (·.clientId = clientId)
      handlers := s.handlers.insert clientId (handler.executed sent.command)
      written } := by
  obtain ⟨rfl, hevents, hsound⟩ := h.handlers clientId handler hlookup
  have hid : (handler.executed sent.command).clientId = handler.clientId := by
    cases sent.command <;> rfl
  refine h.insert hlookup ⟨hid, (handler.eventChannel_executed _).trans hevents,
    ClientHandler.sound_executed hsound _⟩ h.addressed fun r => ?_
  rw [found_insert, found, count_issued_eraseP hsent]
  split
  · rename_i hclient
    rw [pending_eq hlookup hclient, ClientHandler.openRequests_executed hsound]
    omega
  · omega

end Handlers

/-! ### The match hears of an event -/

section Poll
variable [F64 F] [External F] {s : Tasks F} {rt : Runtime} {event : Event} {events : List Event}

omit [F64 F] in
/-- A client that is added is new, and nothing is pending in its handler. -/
theorem Tracked.pending_spawn (h : s.Tracked) (rt : Runtime) (event : Event) (r : RequestId)
    (game : PwMatchState F) (waiting : Channels F) (events : List Event)
    (routes : Routes) (answered : List (RequestId × ResponseValue)) :
    pending { s with
      game, waiting, events, routes, answered
      handlers := spawn s.handlers rt.now (s.game.spawned? event) } r = s.pending r := by
  cases hspawned : s.game.spawned? event with
  | none => rfl
  | some spawned =>
    obtain ⟨l, hl, hnum⟩ := PwMatchState.lobby_of_spawned hspawned
    obtain ⟨clientId, token⟩ := spawned
    obtain rfl : clientId = ⟨l.clientCounter⟩ := hnum
    simp only [pending, spawn, HashMap.lookup_insert_eq]
    split
    · rename_i hclient
      have hnew : s.handlers.lookup r.clientId = none := by
        rw [Finmap.lookup_eq_none]
        intro hmem
        have hlt := h.lobby l hl _ hmem
        rw [hclient] at hlt
        exact Nat.lt_irrefl _ hlt
      rw [hnew]
      exact MessageHandler.openRequests_new _ _
    · rfl

omit [F64 F] in
theorem mem_spawn {handlers : HashMap ClientId ClientHandler} {now : Instant}
    {spawned? : Option (ClientId × Bytes)} {id : ClientId} :
    id ∈ spawn handlers now spawned? ↔ id ∈ handlers ∨ id ∈ spawned?.map Prod.fst := by
  cases spawned? with
  | none => simp [spawn]
  | some spawned =>
    obtain ⟨clientId, token⟩ := spawned
    simp only [spawn, Finmap.mem_insert, Option.map_some, Option.mem_some_iff]
    exact ⟨fun h => h.symm.imp_right Eq.symm, fun h => h.symm.imp_left Eq.symm⟩

omit [F64 F] in
theorem Tracked.handlers_spawn (h : s.Tracked) {id : ClientId} {handler : ClientHandler}
    (hid : (spawn s.handlers rt.now (s.game.spawned? event)).lookup id = some handler) :
    Idle id handler := by
  cases hspawned : s.game.spawned? event with
  | none =>
    rw [hspawned] at hid
    exact h.handlers id handler hid
  | some spawned =>
    simp only [hspawned, spawn, HashMap.lookup_insert_eq] at hid
    split at hid
    · rename_i heq
      obtain rfl := Option.some.inj hid
      exact ⟨heq.symm, rfl, MessageHandler.sound_new _⟩
    · exact h.handlers id handler hid

/-- The match knows clients with handlers only. -/
theorem Tracked.within_spawn (h : s.Tracked) {game : PwMatchState F}
    (hgame : s.game.poll rt event = .ok game) :
    game.Within (· ∈ spawn s.handlers rt.now (s.game.spawned? event)) := by
  refine (PwMatchState.Within.poll ?_ rt ?_).of_ok hgame
  · exact ⟨fun id hid => mem_spawn.mpr (.inl (h.within.members id hid)),
      fun sent hsent => mem_spawn.mpr (.inl (h.within.channels sent hsent))⟩
  · intro spawned hspawned
    exact mem_spawn.mpr (.inr (by rw [hspawned]; rfl))

omit [F64 F] in
/-- The clients that were there keep their registrations. -/
theorem Tracked.registered_spawn (h : s.Tracked)
    (hfresh : ∀ e ∈ s.game.spawned? event, s.routes.table.get e.2 = none) :
    ∀ id ∈ spawn s.handlers rt.now (s.game.spawned? event),
      (s.routes.register (s.game.spawned? event)).Registered id := by
  intro id hid
  rcases mem_spawn.mp hid with hid | hid
  · exact (h.registered id hid).register hfresh
  · obtain ⟨⟨_, token⟩, hspawned, rfl⟩ := Option.map_eq_some_iff.mp hid
    rw [hspawned]
    exact Routes.registered_register s.routes _ token

/-- No handle breaks when the match takes an event off its channel. -/
theorem Tracked.pollMatch_eq (h : s.Tracked) {game : PwMatchState F}
    (hgame : s.game.poll rt event = .ok game) (events : List Event) :
    ∃ sent, s.game.channels ++ sent = game.channels ∧
      s.pollMatch rt event events = .ok { s with
        game, events
        handlers := spawn s.handlers rt.now (s.game.spawned? event)
        routes := s.routes.register (s.game.spawned? event)
        waiting := s.waiting ++ sent
        answered := s.answered ++ responses event } := by
  obtain ⟨sent, hsent⟩ := (s.game.grows_poll rt event).of_ok hgame
  have hdrop : game.channels.drop s.game.channels.length = sent := by
    rw [← hsent, List.drop_left]
  have hknown : sent.all (fun command =>
      decide (command.clientId ∈ spawn s.handlers rt.now (s.game.spawned? event))) = true := by
    rw [List.all_eq_true]
    intro command hcommand
    exact decide_eq_true
      ((h.within_spawn hgame).channels _ (hsent ▸ List.mem_append_right _ hcommand))
  refine ⟨sent, hsent, ?_⟩
  rw [pollMatch, hgame, ok_bind, hdrop, if_pos hknown]
  rfl

theorem Tracked.polled (h : s.Tracked) (hevents : s.events = event :: events)
    (hfresh : ∀ e ∈ s.game.spawned? event, s.routes.table.get e.2 = none)
    {game : PwMatchState F} (hgame : s.game.poll rt event = .ok game) {sent : Channels F}
    (hsent : s.game.channels ++ sent = game.channels) :
    Tracked { s with
      game, events
      handlers := spawn s.handlers rt.now (s.game.spawned? event)
      routes := s.routes.register (s.game.spawned? event)
      waiting := s.waiting ++ sent
      answered := s.answered ++ responses event } := by
  have haddressed : ∀ e ∈ event :: events, ∀ r ∈ e.requestId?, r.clientId = e.clientId :=
    hevents ▸ h.addressed
  refine ⟨fun id handler hid => h.handlers_spawn hid, h.registered_spawn hfresh, h.within_spawn hgame,
    fun e he => haddressed e (List.mem_cons_of_mem _ he), fun l' hl' id hid => ?_, fun r => ?_⟩
  · obtain rfl : game = .lobby l' := hl'
    obtain ⟨l, hl, hhandled⟩ := PwMatchState.lobby_of_poll hgame
    have hcounter := ((l.handleEvent_safe event).of_ok hhandled).counter
    rw [hl] at hid
    rw [hcounter]
    rcases mem_spawn.mp hid with hid | hid
    · exact Nat.lt_add_right _ (h.lobby l hl id hid)
    · obtain ⟨spawned, hspawned, rfl⟩ := Option.map_eq_some_iff.mp hid
      obtain ⟨l'', hl'', hnum⟩ := PwMatchState.lobby_of_spawned hspawned
      cases hl''
      rw [hnum, hspawned]
      exact Nat.lt_succ_self _
  · have hconserved := h.conserved r
    rw [found, hevents, ← List.singleton_append, settled_append, List.count_append,
      ← map_responses] at hconserved
    rw [found, h.pending_spawn, ← hsent, issued_append, issued_append, List.map_append,
      List.count_append, List.count_append, List.count_append]
    dsimp only
    omega

/-- What can stop the tasks: a game that cannot be created, or a counter. -/
def Stops (F : Type) [External F] (e : Panic) : Prop :=
  (∃ lobby : Lobby F, PwController.createGame lobby = .error e) ∨ ∃ counter, e = .addOverflow counter

omit [F64 F] in
theorem lobby_overflow (l : Lobby F) (event : Event) :
    Safe (fun e => ∃ counter, e = .addOverflow counter) (fun _ => True) (l.handleEvent event) := by
  rw [Lobby.handleEvent]
  split
  · split <;> trivial
  · split <;> trivial
  · split
    · rw [Lobby.handleMessage]
      split
      · trivial
      · trivial
      · refine Safe.bind (P := fun _ => True) (Safe.bind (P := fun _ => True) ?_ ?_) ?_
        · exact checkedAdd_safe (fun _ => ⟨_, rfl⟩) fun _ => trivial
        · exact fun _ _ => trivial
        · exact fun _ _ => trivial
      · trivial
      · trivial
    · trivial
  · trivial

omit [F64 F] [External F] in
/-- A request that the match is about to be told about is open. -/
theorem Tracked.open_of_event (h : s.Tracked) (hevents : s.events = event :: events)
    (hnodup : (issued s.game.channels).Nodup) {r : RequestId} (hr : r ∈ event.requestId?) :
    r.clientId = event.clientId ∧ r ∈ issued s.game.channels ∧ r ∉ s.answered.map Prod.fst := by
  have hsettled : r ∈ settled s.events :=
    List.mem_filterMap.mpr ⟨event, hevents ▸ List.mem_cons_self, hr⟩
  have hconserved := h.conserved r
  have hpos := List.count_pos_iff.mpr hsettled
  have hle := List.nodup_iff_count_le_one.mp hnodup r
  rw [found] at hconserved
  refine ⟨h.addressed event (hevents ▸ List.mem_cons_self) r hr, ?_, ?_⟩
  · exact List.count_pos_iff.mp (by omega)
  · intro hmem
    have := List.count_pos_iff.mpr hmem
    omega

omit [F64 F] [External F] in
/-- In a lobby nobody was asked anything. -/
theorem Tracked.lobby_silent (h : s.Tracked) {l : Lobby F} (hgame : s.game = .lobby l) :
    s.answered = [] ∧ settled s.events = [] := by
  have hnone (r : RequestId) : s.found r = 0 := by
    rw [← h.conserved r, hgame]
    change (issued l.channels).count r = 0
    rw [issued_eq_nil_of_onlyControl l.quiet]
    rfl
  constructor
  · refine List.eq_nil_iff_forall_not_mem.mpr fun a ha => ?_
    have hpos := List.count_pos_iff.mpr (List.mem_map_of_mem (f := Prod.fst) ha)
    have hzero := hnone a.1
    rw [found] at hzero
    omega
  · refine List.eq_nil_iff_forall_not_mem.mpr fun r hr => ?_
    have hpos := List.count_pos_iff.mpr hr
    have hzero := hnone r
    rw [found] at hzero
    omega

/-- A lobby becomes a match that has heard of nothing. -/
theorem Tracked.refines_lobby (h : s.Tracked) (hevents : s.events = event :: events) {l : Lobby F}
    (hgame : s.game = .lobby l) :
    Safe (Stops F)
      (fun game => ∀ t : Tasks F, t.game = game → t.answered = s.answered ++ responses event →
        t.Refines)
      (s.game.poll rt event) := by
  obtain ⟨hanswered, hsettled⟩ := h.lobby_silent hgame
  have hresponses : responses event = [] := by
    rw [hevents, ← List.singleton_append, settled_append, List.append_eq_nil_iff] at hsettled
    rw [← List.map_eq_nil_iff, map_responses]
    exact hsettled.1
  rw [hgame]
  apply ((lobby_overflow l event).mono (fun _ he => .inr he) fun _ h => h).bind
  intro l' _
  split
  · have hstart := new_safe rt l'
    cases hnew : PwController.new rt l' with
    | error e =>
      rw [hnew] at hstart
      rcases hstart with he | rfl
      · exact .inl ⟨l', he⟩
      · exact .inr ⟨_, rfl⟩
    | ok c =>
      intro t ht hanswered'
      refine .run rt l' [] ?_
      rw [ht, hanswered', hanswered, hresponses, System.run, System.start, hnew]
      rfl
  · exact fun t ht _ => .lobby l' ht

/-- A match that goes on has one more input. -/
theorem Tracked.refines_run (h : s.Tracked) (hevents : s.events = event :: events)
    {c : PwController F} (hgame : s.game = .playing c) {rt' : Runtime} {lobby : Lobby F}
    {inputs : List (Runtime × Input)}
    (hrun : System.run rt' lobby inputs = .ok ⟨s.game, s.answered⟩) :
    Safe (Stops F)
      (fun game => ∀ t : Tasks F, t.game = game → t.answered = s.answered ++ responses event →
        t.Refines)
      (s.game.poll rt event) := by
  have hnodup : (issued s.game.channels).Nodup := by
    have hnumbered := (run_numbered rt' lobby inputs).of_ok hrun c (by rw [hgame]; rfl)
    rw [hgame]
    exact hnumbered.nodup
  have hevent : System.event ⟨.playing c, s.answered⟩ (input event) = some event :=
    System.event_input fun r hr => hgame ▸ h.open_of_event hevents hnodup hr
  have hnext : System.run rt' lobby (inputs ++ [(rt, input event)]) =
      s.game.poll rt event >>= fun game => pure ⟨game, s.answered ++ responses event⟩ := by
    rw [System.run_append_singleton, hrun, ok_bind, hgame]
    exact System.deliver_input rt hevent
  have hcreated : ∃ start, PwController.createGame lobby = .ok start := by
    rw [System.run, System.start, bind_eq_ok] at hrun
    obtain ⟨start, hstart, _⟩ := hrun
    rw [bind_eq_ok] at hstart
    obtain ⟨c, hnew, _⟩ := hstart
    obtain ⟨_, state, hstate, _⟩ := ((new_safe rt' lobby).of_ok hnew).opened
    exact ⟨state, hstate⟩
  have hsafe : Safe (fun e => ∃ counter, e = .addOverflow counter) (fun _ => True)
      (System.run rt' lobby (inputs ++ [(rt, input event)])) := run_overflow hcreated _
  rw [hnext] at hsafe
  cases hpoll : s.game.poll rt event with
  | error e =>
    rw [hpoll] at hsafe
    exact .inr hsafe
  | ok game =>
    intro t ht hanswered
    refine .run rt' lobby (inputs ++ [(rt, input event)]) ?_
    rw [hnext, hpoll, ht, hanswered]
    rfl

/-- The match is told about what is on its channel, and nothing else. -/
theorem Refines.polled (h : s.Refines) (ht : s.Tracked) (hover : s.isOver = false)
    (hevents : s.events = event :: events) (rt : Runtime) :
    Safe (Stops F)
      (fun game => ∀ t : Tasks F, t.game = game → t.answered = s.answered ++ responses event →
        t.Refines)
      (s.game.poll rt event) := by
  cases hgame : s.game with
  | lobby l => exact hgame ▸ ht.refines_lobby hevents hgame
  | playing c =>
    cases h with
    | lobby l hlobby =>
      rw [hgame] at hlobby
      cases hlobby
    | run rt' lobby inputs hrun => exact hgame ▸ ht.refines_run hevents hgame hrun
  | finished c => simp [isOver, hgame] at hover

end Poll

/-! ## Whole runs -/

section Runs
variable [Prost] [F64 F] [External F] (stringify : Payload F → Bytes)
  (ord : DeadlineOrder MessageId) {s : Tasks F}

/-- A match that is over is not told anything. -/
theorem step_over (hover : s.isOver = true) (op : Op) :
    Safe (Stops F) (fun t => t.game = s.game ∧ t.answered = s.answered) (s.step stringify ord op) := by
  cases op with
  | poll rt =>
    rw [step, hover]
    exact ⟨rfl, rfl⟩
  | command clientId =>
    rw [step]
    split
    · apply ((ClientHandler.handleCommand_safe stringify _ _).mono
        (fun e he => .inr ⟨_, he⟩) fun _ h => h).bind
      exact fun _ _ => ⟨rfl, rfl⟩
    · exact ⟨rfl, rfl⟩
  | timeouts clientId now =>
    rw [step]
    split
    · exact goOn_game _ _
    · exact ⟨rfl, rfl⟩
  | connection clientId event =>
    rw [step]
    split
    · split
      · exact goOn_game { s with routes := s.routes.took clientId event } _
      · exact ⟨rfl, rfl⟩
    · exact ⟨rfl, rfl⟩
  | silence clientId =>
    rw [step]
    split <;> exact ⟨rfl, rfl⟩
  | connect | breakOff => exact ⟨rfl, rfl⟩

theorem exists_reports_onConnection (h : ClientHandler) (event : ConnectionEvent) :
    ∃ new, ClientHandler.Reports h (onConnection h event) new := by
  cases event with
  | connected => exact ⟨_, ClientHandler.reports_dispatchEvent rfl⟩
  | packet data => exact ClientHandler.exists_reports_handlePacket h data
  | disconnected => exact ⟨_, ClientHandler.reports_dispatchEvent rfl⟩

/-- The task has nothing to do. -/
def Blocked (s : Tasks F) : Op → Prop
  | .poll _ => s.events = []
  | .command clientId => clientId ∉ s.handlers ∨ ∀ sent ∈ s.waiting, sent.clientId ≠ clientId
  | .timeouts clientId _ => clientId ∉ s.handlers
  | .connection clientId _ => clientId ∉ s.handlers
  | .silence _ => True
  | .connect _ => False
  | .breakOff _ => False

/-- What happens in front of the handlers. -/
def Op.reroutes : Op → Bool
  | .connect _ => true
  | .breakOff _ => true
  | _ => false

/-- What a task does while the match goes on. -/
inductive Moved (s : Tasks F) : Op → Tasks F → Prop
  | blocked (op : Op) (hblocked : s.Blocked op) : Moved s op s
  | polled {rt : Runtime} {event : Event} {events : List Event} {game : PwMatchState F}
      {sent : Channels F} (hevents : s.events = event :: events)
      (hgame : s.game.poll rt event = .ok game) (hsent : s.game.channels ++ sent = game.channels) :
      Moved s (.poll rt) { s with
        game, events
        handlers := spawn s.handlers rt.now (s.game.spawned? event)
        routes := s.routes.register (s.game.spawned? event)
        waiting := s.waiting ++ sent
        answered := s.answered ++ responses event }
  | executed {clientId : ClientId} {handler : ClientHandler} {sent : Sent F} (msg : Bytes)
      (hlookup : s.handlers.lookup clientId = some handler)
      (hsent : s.waiting.find? (·.clientId = clientId) = some sent) :
      Moved s (.command clientId) { s with
        waiting := s.waiting.eraseP (·.clientId = clientId)
        handlers := s.handlers.insert clientId (handler.executed sent.command)
        written := s.written ++ [(clientId, msg)] }
  | timedOut {clientId : ClientId} {now : Instant} {handler : ClientHandler} {new : List Event}
      (hlookup : s.handlers.lookup clientId = some handler)
      (hnew : ClientHandler.Reports handler (handler.handleTimeouts ord now) new) :
      Moved s (.timeouts clientId now) (s.goOn (handler.handleTimeouts ord now))
  | told {clientId : ClientId} {event : ConnectionEvent} {handler : ClientHandler}
      {new : List Event} (hlookup : s.handlers.lookup clientId = some handler)
      (hnew : ClientHandler.Reports handler (onConnection handler event) new) :
      Moved s (.connection clientId event)
        ({ s with routes := s.routes.took clientId event }.goOn (onConnection handler event))
  | rerouted {op : Op} {routes : Routes} (hop : op.reroutes = true)
      (htable : routes.table = s.routes.table) (htokens : routes.tokens = s.routes.tokens) :
      Moved s op { s with routes }

/-- What holds of the tasks, whatever they do. -/
structure InOrder (s : Tasks F) : Prop where
  refines : s.Refines
  tracked : s.isOver = false → s.Tracked

omit [Prost] [F64 F] [External F] in
/-- Nobody is there to be cut off. -/
theorem cutOff_of_not_mem {clientId : ClientId} (h : clientId ∉ s.handlers) :
    s.cutOff clientId = s := by
  have herase : s.handlers.erase clientId = s.handlers := by
    apply Finmap.ext_lookup
    intro id
    rw [HashMap.lookup_erase_eq]
    split
    · rename_i hid
      exact (Finmap.lookup_eq_none.mpr (hid ▸ h)).symm
    · rfl
  rw [cutOff, herase]

/-- No handler panics, or finds that it was cut off. -/
theorem InOrder.step_safe (h : s.InOrder) (hover : s.isOver = false) (op : Op) :
    Safe (Stops F) (s.Moved ord op) (s.step stringify ord op) := by
  have hblocked {clientId : ClientId} (hnone : s.handlers.lookup clientId = none) :
      clientId ∉ s.handlers := Finmap.lookup_eq_none.mp hnone
  have hopen {clientId : ClientId} (hmem : clientId ∈ s.handlers) :
      s.routes.isOpen clientId = true := ((h.tracked hover).registered clientId hmem).isOpen
  cases op with
  | poll rt =>
    rw [step, hover]
    cases hevents : s.events with
    | nil => exact .blocked _ hevents
    | cons event events =>
      have htracked := h.tracked hover
      have hrefines := h.refines.polled htracked hover hevents rt
      cases hpoll : s.game.poll rt event with
      | error e =>
        rw [hpoll] at hrefines
        simp only [pollMatch, hpoll]
        exact hrefines
      | ok game =>
        obtain ⟨sent, hsent, ht⟩ := htracked.pollMatch_eq hpoll events
        simp only [ht]
        exact .polled hevents hpoll hsent
  | command clientId =>
    rw [step]
    cases hlookup : s.handlers.lookup clientId with
    | none => exact .blocked _ (.inl (hblocked hlookup))
    | some handler =>
      cases hsent : s.waiting.find? (·.clientId = clientId) with
      | none => exact .blocked _ (.inr (by simpa using List.find?_eq_none.mp hsent))
      | some sent =>
        apply ((ClientHandler.handleCommand_safe stringify handler sent.command).mono
          (fun e he => .inr ⟨_, he⟩) fun _ h => h).bind
        rintro ⟨msg, handler'⟩ rfl
        exact .executed msg hlookup hsent
  | timeouts clientId now =>
    rw [step]
    cases hlookup : s.handlers.lookup clientId with
    | none => exact .blocked _ (hblocked hlookup)
    | some handler =>
      obtain ⟨new, hnew⟩ := ClientHandler.exists_reports_handleTimeouts ord now handler
      exact .timedOut hlookup hnew
  | connection clientId event =>
    rw [step]
    cases hlookup : s.handlers.lookup clientId with
    | none => exact .blocked _ (hblocked hlookup)
    | some handler =>
      obtain ⟨new, hnew⟩ := exists_reports_onConnection handler event
      dsimp only
      rw [if_pos (hopen (Finmap.mem_iff.mpr ⟨handler, hlookup⟩))]
      exact .told hlookup hnew
  | silence clientId =>
    rw [step]
    split
    · exact .blocked _ trivial
    · rename_i hclosed
      rw [cutOff_of_not_mem fun hmem => hclosed (hopen hmem)]
      exact .blocked _ trivial
  | connect | breakOff => exact .rerouted rfl rfl rfl

omit [Prost] in
theorem Refines.of_game {t : Tasks F} (h : s.Refines) (hgame : t.game = s.game)
    (hanswered : t.answered = s.answered) : t.Refines := by
  cases h with
  | lobby l hl => exact .lobby l (hgame.trans hl)
  | run rt lobby inputs hrun => exact .run rt lobby inputs (by rw [hgame, hanswered, hrun])

omit [Prost] [F64 F] in
/-- The client that the next event adds has a token of its own. -/
theorem fresh_spawned {rt : Runtime} {event : Event} {events : List Event}
    (hfresh : s.fresh (.poll rt) = true) (hevents : s.events = event :: events) :
    ∀ e ∈ s.game.spawned? event, s.routes.table.get e.2 = none := by
  intro e he
  rw [fresh, hevents] at hfresh
  dsimp only at hfresh
  rw [Option.mem_def.mp he] at hfresh
  simpa using hfresh

theorem InOrder.moved (h : s.InOrder) (hover : s.isOver = false) {op : Op} {t : Tasks F}
    (hfresh : s.fresh op = true) (hmoved : s.Moved ord op t) : t.InOrder := by
  have htracked := h.tracked hover
  cases hmoved with
  | blocked => exact h
  | polled hevents hgame hsent =>
    exact ⟨(h.refines.polled htracked hover hevents _).of_ok hgame _ rfl rfl,
      fun _ => htracked.polled hevents (fresh_spawned hfresh hevents) hgame hsent⟩
  | executed msg hlookup hsent =>
    exact ⟨h.refines.of_game rfl rfl, fun _ => htracked.command hlookup hsent _⟩
  | timedOut hlookup hnew =>
    exact ⟨h.refines.of_game (goOn_game _ _).1 (goOn_game _ _).2,
      fun _ => htracked.goOn hover hlookup hnew⟩
  | @told clientId event handler new hlookup hnew =>
    have hrerouted : Tracked { s with routes := s.routes.took clientId event } :=
      htracked.reroute (s.routes.took_table _ _) (s.routes.took_tokens _ _)
    exact ⟨h.refines.of_game (goOn_game _ _).1 (goOn_game _ _).2,
      fun _ => hrerouted.goOn hover hlookup hnew⟩
  | rerouted hop htable htokens =>
    exact ⟨h.refines.of_game rfl rfl, fun _ => htracked.reroute htable htokens⟩

theorem InOrder.step (h : s.InOrder) {op : Op} (hfresh : s.fresh op = true) :
    Safe (Stops F) InOrder (s.step stringify ord op) := by
  cases hover : s.isOver with
  | true =>
    apply (step_over stringify ord hover op).weaken
    intro t ht
    obtain ⟨hgame, hanswered⟩ := ht
    refine ⟨h.refines.of_game hgame hanswered, fun hgoing => ?_⟩
    rw [isOver, hgame] at hgoing
    exact absurd (hover.symm.trans hgoing) (by simp)
  | false =>
    exact (h.step_safe stringify ord hover op).weaken fun t ht => h.moved ord hover hfresh ht

omit [Prost] in
theorem inOrder_new (ctrlToken : Bytes) (now : Instant) :
    InOrder (new (F := F) ctrlToken now) := by
  refine ⟨.lobby _ rfl, fun _ => ⟨fun id handler hid => ?_, fun id hid => ?_, ⟨?_, ?_⟩, ?_, ?_,
    fun r => ?_⟩⟩
  · simp only [new, HashMap.lookup_insert_eq] at hid
    split at hid
    · obtain rfl := Option.some.inj hid
      exact ⟨‹id = ctrlId›.symm, rfl, MessageHandler.sound_new now⟩
    · simp at hid
  · rcases Finmap.mem_insert.mp hid with rfl | hid
    · exact Routes.registered_register .empty ctrlId ctrlToken
    · exact absurd hid Finmap.notMem_empty
  · rintro id (rfl | hid)
    · exact Finmap.mem_insert.mpr (.inl rfl)
    · exact absurd hid Finmap.notMem_empty
  · exact fun sent hsent => absurd hsent List.not_mem_nil
  · exact fun e he => absurd he List.not_mem_nil
  · intro l hl id hid
    cases hl
    rcases Finmap.mem_insert.mp hid with rfl | hid
    · exact Nat.one_pos
    · exact absurd hid Finmap.notMem_empty
  · have hpending : pending (new (F := F) ctrlToken now) r = 0 := by
      simp only [pending, new, HashMap.lookup_insert_eq]
      split
      · exact MessageHandler.openRequests_new _ _
      · rfl
    rw [found, hpending]
    rfl

/-- What every step under a fresh token preserves. -/
theorem InOrder.run (h : s.InOrder) {ops : List Op} (hfresh : s.freshRun stringify ord ops = true) :
    Safe (Stops F) InOrder (runFrom stringify ord s ops) := by
  induction ops generalizing s with
  | nil => exact h
  | cons op ops ih =>
    rw [freshRun, Bool.and_eq_true] at hfresh
    obtain ⟨hop, hrest⟩ := hfresh
    have hstep := h.step stringify ord hop
    cases hnext : s.step stringify ord op with
    | error e =>
      rw [hnext] at hstep
      rw [runFrom, List.foldlM_cons, hnext]
      exact hstep
    | ok t =>
      rw [hnext] at hstep hrest
      rw [runFrom, List.foldlM_cons, hnext]
      exact ih hstep hrest

omit [Prost] [F64 F] [External F] in
theorem loadPlanet_ne (n : Nat) (planet : Proto.Planet F) (num : Nat) :
    Safe (· ≠ connectionHandleBroke) (fun _ => True) (Config.loadPlanet n planet num) := by
  unfold Config.loadPlanet
  cases planet.owner with
  | none => exact trivial
  | some owner =>
    dsimp only
    rw [checkedSub]
    split
    · exact trivial
    · simp [connectionHandleBroke]

omit [Prost] [F64 F] in
theorem Stops.ne_connectionHandleBroke {e : Panic} (h : Stops F e) : e ≠ connectionHandleBroke := by
  rcases h with ⟨lobby, h⟩ | ⟨counter, rfl⟩
  · have hexpect {α : Type} (msg : String) (o : Option α) (hmsg : msg ≠ "connection handle broke") :
        Safe (· ≠ connectionHandleBroke) (fun _ => True) (expect msg o) := by
      cases o with
      | some a => trivial
      | none => simpa [expect, connectionHandleBroke] using hmsg
    have hcreate : Safe (· ≠ connectionHandleBroke) (fun _ => True)
        (PwController.createGame lobby) := by
      apply (hexpect _ _ (by decide)).bind
      intro rawConf _
      apply (hexpect _ _ (by decide)).bind
      intro conf _
      refine Safe.bind (P := fun _ => True) ?_ fun _ _ => trivial
      apply (hexpect _ _ (by decide)).bind
      intro map _
      exact (Safe.mapM (T := fun _ _ => True) fun x _ => loadPlanet_ne _ x.1 x.2).weaken
        fun _ _ => trivial
    exact hcreate.of_error h
  · simp [connectionHandleBroke]

omit [Prost] in
/-- No request was made twice. -/
theorem Refines.nodup_issued (h : s.Refines) : (issued s.game.channels).Nodup := by
  have hlobby (l : Lobby F) : (issued (PwMatchState.lobby l).channels).Nodup := by
    change (issued l.channels).Nodup
    rw [issued_eq_nil_of_onlyControl l.quiet]
    exact List.nodup_nil
  cases h with
  | lobby l hl =>
    rw [hl]
    exact hlobby l
  | run rt lobby inputs hrun =>
    have hnumbered := (run_numbered rt lobby inputs).of_ok hrun
    cases hgame : s.game with
    | lobby l => exact hlobby l
    | playing c | finished c => exact (hnumbered c (by rw [hgame]; rfl)).nodup

/-- Whatever the handlers and the match do, in any order, with any packets and at any time, and
whoever connects: when every client is added under a token of its own, the match sees a run in
which it only hears of what it asked; every request that was made is in one place; and nothing
stops the tasks but a game that cannot be created, or a counter. -/
theorem run_refines (ctrlToken : Bytes) (now : Instant) (ops : List Op)
    (hfresh : (new ctrlToken now : Tasks F).freshRun stringify ord ops = true) :
    Safe (fun e => Stops F e ∧ e ≠ connectionHandleBroke)
      (fun s => s.Refines ∧ (s.isOver = false → ∀ r,
        s.found r = if r ∈ issued s.game.channels then 1 else 0))
      (run stringify ord ctrlToken now ops) := by
  apply ((inOrder_new ctrlToken now).run stringify ord hfresh).mono fun e he =>
    ⟨he, he.ne_connectionHandleBroke⟩
  intro s hs
  refine ⟨hs.refines, fun hover r => ?_⟩
  rw [← (hs.tracked hover).conserved r]
  split
  · exact List.count_eq_one_of_mem hs.refines.nodup_issued ‹_›
  · exact List.count_eq_zero_of_not_mem ‹_›

end Runs

section Skirmish

/-- Every packet is a message. -/
@[reducible] def plainWire : Prost where
  encode _ := []
  decode bytes := .ok ⟨some (.message ⟨0, bytes⟩)⟩

/-- Two players are added, and the game is started. -/
def skirmishOps : List Op :=
  [.connection ctrlId (.packet [1, 1]), .connection ctrlId (.packet [1, 2]),
    .connection ctrlId (.packet [2]), .poll skirmishRuntime, .poll skirmishRuntime,
    .poll skirmishRuntime]

theorem run_refines_skirmish :
    letI := plainWire
    letI := Server.tokenServer
    ∃ s, run (F := Int) (fun _ => []) (.oldest Deadline.instant) [0] 0 skirmishOps = .ok s ∧
      s.Refines ∧ issued s.game.channels = [⟨⟨1⟩, 0⟩, ⟨⟨2⟩, 0⟩] ∧
      ∀ r, s.found r = if r ∈ issued s.game.channels then 1 else 0 := by
  let := plainWire
  let := Server.tokenServer
  have hissued : ((run (F := Int) (fun _ => []) (.oldest Deadline.instant) [0] 0
      skirmishOps).toOption.map fun s => (s.isOver, issued s.game.channels)) =
        some (false, [⟨⟨1⟩, 0⟩, ⟨⟨2⟩, 0⟩]) := by
    decide +kernel
  have hrefines := run_refines (F := Int) (fun _ => []) (.oldest Deadline.instant) [0] 0 skirmishOps
    (by decide +kernel)
  cases hrun : run (F := Int) (fun _ => []) (.oldest Deadline.instant) [0] 0 skirmishOps with
  | error e =>
    rw [hrun] at hissued
    cases hissued
  | ok s =>
    rw [hrun] at hissued hrefines
    obtain ⟨hover, hmade⟩ := Prod.mk.inj (Option.some.inj hissued)
    exact ⟨s, rfl, hrefines.1, hmade, hrefines.2 hover⟩

end Skirmish
end Tasks
end Mozaic.Controller
