import Mozaic.Controller.InFlight
import Mozaic.Controller.ShipBound

/-! How long a match takes. In a round every handler executes its commands and looks for
requests that are due, and the match hears of it all. Whatever the clients do meanwhile, a
round ends a turn. -/
namespace Mozaic.Controller
open Rust Rules Network Outcome

variable {F : Type}

namespace Tasks

/-! ## Commands keep their order -/

/-- How many commands the handler of a client has executed. -/
def executed (s : Tasks F) (clientId : ClientId) : Nat :=
  (s.written.filter (·.1 = clientId)).length

/-- What was sent to a client. -/
def sentTo (clientId : ClientId) (channels : Channels F) : Channels F :=
  channels.filter (·.clientId = clientId)

@[simp] theorem sentTo_append (clientId : ClientId) (channels channels' : Channels F) :
    sentTo clientId (channels ++ channels') = sentTo clientId channels ++ sentTo clientId channels' :=
  List.filter_append ..

/-- What waits for a handler is what was sent to it, without what it executed. -/
structure Queued (s : Tasks F) : Prop where
  waiting : ∀ clientId,
    sentTo clientId s.waiting = (sentTo clientId s.game.channels).drop (s.executed clientId)
  executed : ∀ clientId, s.executed clientId ≤ (sentTo clientId s.game.channels).length

theorem queued_new (ctrlToken : Bytes) (now : Instant) : Queued (new (F := F) ctrlToken now) :=
  ⟨fun _ => rfl, fun _ => Nat.zero_le _⟩

/-- Taking a command off the channel of a client leaves the channels of others alone. -/
theorem sentTo_eraseP (waiting : Channels F) (clientId id : ClientId) :
    sentTo id (waiting.eraseP (·.clientId = clientId)) =
      if id = clientId then (sentTo id waiting).tail else sentTo id waiting := by
  induction waiting with
  | nil => simp [sentTo]
  | cons sent waiting ih =>
    by_cases hsent : sent.clientId = clientId
    · rw [List.eraseP_cons_of_pos (by simpa using hsent)]
      split
      · rename_i hid
        simp [sentTo, hsent, hid]
      · rename_i hid
        have hne : sent.clientId ≠ id := fun heq => hid (heq.symm.trans hsent)
        simp [sentTo, hne]
    · rw [List.eraseP_cons_of_neg (by simpa using hsent)]
      by_cases hid : id = clientId
      · subst hid
        rw [if_pos rfl] at ih ⊢
        simpa [sentTo, hsent] using ih
      · rw [if_neg hid] at ih ⊢
        simp only [sentTo, List.filter_cons] at ih ⊢
        rw [ih]

theorem mem_sentTo {clientId : ClientId} {channels : Channels F} {sent : Sent F} :
    sent ∈ sentTo clientId channels ↔ sent ∈ channels ∧ sent.clientId = clientId := by
  simp [sentTo]

theorem executed_concat {s t : Tasks F} {clientId : ClientId} {msg : Bytes}
    (hwritten : t.written = s.written ++ [(clientId, msg)]) (id : ClientId) :
    t.executed id = s.executed id + if clientId = id then 1 else 0 := by
  simp only [executed, hwritten, List.filter_append, List.length_append]
  split <;> simp [*]

section Queues
variable {s t : Tasks F}

/-- Nothing waits for a client whose handler executed everything. -/
theorem Queued.lt_of_find? (h : s.Queued) {clientId : ClientId} {sent : Sent F}
    (hsent : s.waiting.find? (·.clientId = clientId) = some sent) :
    s.executed clientId < (sentTo clientId s.game.channels).length := by
  have hmem : sent ∈ sentTo clientId s.waiting :=
    mem_sentTo.mpr ⟨List.mem_of_find?_eq_some hsent, by simpa using List.find?_some hsent⟩
  rw [h.waiting] at hmem
  have hpos := List.length_pos_of_mem hmem
  rw [List.length_drop] at hpos
  omega

theorem Passes.channels [Prost] {stringify : Payload F → Bytes} (h : s.Passes stringify t) :
    s.game.channels <+: t.game.channels := by
  cases h with
  | sends sent hchannels => exact ⟨sent, hchannels⟩
  | takes _ _ hchannels => exact hchannels ▸ List.prefix_rfl

/-- Commands are taken in the order in which they were sent. -/
theorem Queued.passes [Prost] {stringify : Payload F → Bytes} (h : s.Queued)
    (hpasses : s.Passes stringify t) : t.Queued := by
  cases hpasses with
  | sends sent hchannels hwaiting hwritten =>
    constructor
    · intro clientId
      have hexecuted : t.executed clientId = s.executed clientId := by
        rw [Tasks.executed, hwritten, Tasks.executed]
      rw [← hchannels, hwaiting, sentTo_append, sentTo_append, h.waiting clientId, hexecuted]
      exact (List.drop_append_of_le_length (h.executed clientId)).symm
    · intro clientId
      rw [← hchannels, sentTo_append, List.length_append, Tasks.executed, hwritten]
      exact Nat.le_add_right_of_le (h.executed clientId)
  | @takes clientId sent msg hsent hmsg hchannels hwaiting hwritten =>
    have hlt := h.lt_of_find? hsent
    constructor
    · intro id
      rw [executed_concat hwritten, hwaiting, hchannels, sentTo_eraseP]
      by_cases hid : id = clientId
      · subst hid
        rw [if_pos rfl, if_pos rfl, h.waiting, List.tail_drop]
      · rw [if_neg hid, if_neg (Ne.symm hid), Nat.add_zero]
        exact h.waiting id
    · intro id
      rw [executed_concat hwritten, hchannels]
      by_cases hid : clientId = id
      · subst hid
        rw [if_pos rfl]
        exact hlt
      · rw [if_neg hid]
        exact h.executed id

end Queues

section Moves
variable [Prost] [F64 F] [External F] {ord : DeadlineOrder MessageId} {s t : Tasks F} {op : Op}

/-- A match that was started, and goes on in order. -/
structure Underway (s : Tasks F) : Prop extends InOrder s where
  started : ∀ l, s.game ≠ .lobby l

omit [Prost] in
/-- Nobody is added any more. -/
theorem Underway.fresh (h : s.Underway) (op : Op) : s.fresh op = true := by
  unfold Tasks.fresh
  split
  · split
    · rename_i event _ _
      cases hspawned : s.game.spawned? event with
      | none => rfl
      | some spawned =>
        obtain ⟨l, hl, -⟩ := PwMatchState.lobby_of_spawned hspawned
        exact absurd hl (h.started l)
    · rfl
  · rfl

theorem Underway.moved (h : s.Underway) (hover : s.isOver = false) (hmoved : s.Moved ord op t) :
    t.Underway := by
  refine ⟨h.toInOrder.moved ord hover (h.fresh op) hmoved, fun l hl => ?_⟩
  cases hmoved with
  | blocked | executed | rerouted => exact h.started l hl
  | polled hevents hgame hsent =>
    obtain rfl := hl
    obtain ⟨l', hl', -⟩ := PwMatchState.lobby_of_poll hgame
    exact h.started l' hl'
  | timedOut | told =>
    rw [(goOn_game _ _).1] at hl
    exact h.started l hl

/-- Whatever happens, a match that was started goes on in order until it is over. -/
theorem Underway.step (h : s.Underway) (stringify : Payload F → Bytes)
    (ord : DeadlineOrder MessageId) (op : Op) :
    Safe (Stops F) Underway (s.step stringify ord op) := by
  cases hover : s.isOver with
  | true =>
    have horder := h.toInOrder.step stringify ord (h.fresh op)
    apply (horder.join (step_over stringify ord hover op)).weaken
    rintro t ⟨ht, hgame, -⟩
    exact ⟨ht, fun l hl => h.started l (hgame.symm.trans hl)⟩
  | false => exact (h.step_safe stringify ord hover op).weaken fun t ht => h.moved hover ht

end Moves

/-! ## A request moves on -/

section Follows
variable {s t : Tasks F}

theorem pending_goOn (hover : s.isOver = false) (h : ClientHandler) (r : RequestId) :
    (s.goOn h).pending r =
      if r.clientId = h.clientId then h.messageHandler.openRequests r.requestNum
      else s.pending r := by
  rw [goOn, if_neg (by simp [hover])]
  simp only [pending, HashMap.lookup_insert_eq]
  split <;> rfl

/-- What becomes of a request that was made before. -/
structure Follows (r : RequestId) (s t : Tasks F) : Prop where
  waiting : (issued t.waiting).count r ≤ (issued s.waiting).count r
  pending : t.pending r + (issued t.waiting).count r ≤ s.pending r + (issued s.waiting).count r
  answered : s.answered <+: t.answered

theorem Follows.refl (r : RequestId) (s : Tasks F) : Follows r s s :=
  ⟨Nat.le_refl _, Nat.le_refl _, List.prefix_rfl⟩

theorem Follows.trans {r : RequestId} {u : Tasks F} (h : Follows r s t) (h' : Follows r t u) :
    Follows r s u :=
  ⟨h'.waiting.trans h.waiting, h'.pending.trans h.pending, h.answered.trans h'.answered⟩

/-- Nothing that was sent later is a request that was made before. -/
theorem not_mem_issued_of_append {channels sent : Channels F} {r : RequestId}
    (hnodup : (issued (channels ++ sent)).Nodup) (hr : r ∈ issued channels) : r ∉ issued sent := by
  intro hsent
  rw [issued_append] at hnodup
  exact List.disjoint_of_nodup_append hnodup hr hsent

theorem Follows.goOn (h : s.Tracked) (hover : s.isOver = false) {clientId : ClientId}
    {handler handler' : ClientHandler} (hlookup : s.handlers.lookup clientId = some handler)
    {new : List Event} (hnew : ClientHandler.Reports handler handler' new) (r : RequestId) :
    Follows r s (s.goOn handler') := by
  obtain ⟨rfl, _, _⟩ := h.handlers clientId handler hlookup
  obtain ⟨hwaiting, _⟩ := goOn_commands s handler'
  have hpending : (s.goOn handler').pending r ≤ s.pending r := by
    rw [pending_goOn hover, hnew.clientId]
    split
    · rename_i hclient
      rw [pending_eq hlookup hclient, hnew.settles]
      exact Nat.le_add_right _ _
    · exact Nat.le_refl _
  refine ⟨by rw [hwaiting], ?_, (goOn_game s handler').2 ▸ List.prefix_rfl⟩
  rw [hwaiting]
  omega

end Follows

section Moves
variable [Prost] [F64 F] [External F] {ord : DeadlineOrder MessageId} {s t : Tasks F} {op : Op}

theorem Underway.follows (h : s.Underway) (hover : s.isOver = false) (hmoved : s.Moved ord op t)
    {r : RequestId} (hr : r ∈ issued s.game.channels) : Follows r s t := by
  have htracked := h.tracked hover
  have hnodup := (h.moved hover hmoved).refines.nodup_issued
  cases hmoved with
  | blocked => exact .refl r s
  | polled hevents hgame hsent =>
    have hnew : (issued _).count r = 0 :=
      List.count_eq_zero_of_not_mem (not_mem_issued_of_append (hsent ▸ hnodup) hr)
    refine ⟨?_, ?_, List.prefix_append _ _⟩
    · rw [issued_append, List.count_append, hnew]
      exact Nat.le_refl _
    · rw [htracked.pending_spawn, issued_append, List.count_append, hnew]
      exact Nat.le_refl _
  | @executed clientId handler sent msg hlookup hsent =>
    have hcount := count_issued_eraseP hsent r
    refine ⟨by rw [hcount]; exact Nat.le_add_right _ _, ?_, List.prefix_rfl⟩
    obtain ⟨rfl, _, hsound⟩ := htracked.handlers clientId handler hlookup
    rw [hcount]
    simp only [pending, HashMap.lookup_insert_eq]
    split
    · rename_i hclient
      rw [hclient, hlookup]
      simp only [Option.elim_some, ClientHandler.openRequests_executed hsound]
      omega
    · exact Nat.le_refl _
  | timedOut hlookup hnew => exact .goOn htracked hover hlookup hnew r
  | @told clientId event handler new hlookup hnew =>
    have hrerouted : Tracked { s with routes := s.routes.took clientId event } :=
      htracked.reroute (s.routes.took_table _ _) (s.routes.took_tokens _ _)
    have hfollows := Follows.goOn hrerouted hover hlookup hnew r
    exact ⟨hfollows.waiting, hfollows.pending, hfollows.answered⟩
  | rerouted => exact ⟨Nat.le_refl _, Nat.le_refl _, List.prefix_rfl⟩

theorem over_of_step {stringify : Payload F → Bytes} (hover : s.isOver = true)
    (hstep : s.step stringify ord op = .ok t) : t.isOver = true := by
  have hgame := ((step_over stringify ord hover op).of_ok hstep).1
  rw [isOver, hgame]
  exact hover

end Moves

/-! ## Runs -/

section Runs
variable [Prost] [F64 F] [External F] {stringify : Payload F → Bytes}
  {ord : DeadlineOrder MessageId} {s t : Tasks F} {ops : List Op}

theorem runFrom_append (s : Tasks F) (before after : List Op) :
    runFrom stringify ord s (before ++ after) =
      runFrom stringify ord s before >>= fun u => runFrom stringify ord u after :=
  List.foldlM_append ..

/-- A match that is over stays so. -/
theorem over_of_run (hover : s.isOver = true) (hrun : runFrom stringify ord s ops = .ok t) :
    t.isOver = true := by
  induction ops generalizing s with
  | nil =>
    obtain rfl := Except.ok.inj hrun
    exact hover
  | cons op ops ih =>
    rw [runFrom, List.foldlM_cons, bind_eq_ok] at hrun
    obtain ⟨u, hstep, hrun⟩ := hrun
    exact ih (over_of_step hover hstep) hrun

theorem going_of_run (hover : t.isOver = false) (hrun : runFrom stringify ord s ops = .ok t) :
    s.isOver = false := by
  by_contra hgoing
  rw [over_of_run (by simpa using hgoing) hrun] at hover
  cases hover

theorem Queued.run (h : s.Queued) (hrun : runFrom stringify ord s ops = .ok t) : t.Queued :=
  (Safe.foldlM (A := fun _ => True) h fun op _ _ hs =>
    (step_passes stringify ord op).weaken fun _ ht => hs.passes ht).of_ok hrun

theorem channels_run (hrun : runFrom stringify ord s ops = .ok t) :
    s.game.channels <+: t.game.channels :=
  (Safe.foldlM (A := fun _ => True) (I := fun u : Tasks F => s.game.channels <+: u.game.channels)
    List.prefix_rfl fun op _ _ hu =>
      (step_passes stringify ord op).weaken fun _ hv => hu.trans hv.channels).of_ok hrun

theorem Underway.run_safe (h : s.Underway) (ops : List Op) :
    Safe (Stops F) Underway (runFrom stringify ord s ops) :=
  Safe.foldlM h fun op _ _ hs => hs.step stringify ord op

theorem Underway.run (h : s.Underway) (hrun : runFrom stringify ord s ops = .ok t) : t.Underway :=
  (h.run_safe ops).of_ok hrun

/-- What every step of a match that goes on preserves holds after a run of it. -/
theorem Underway.run_rule {I : List Op → Tasks F → Prop}
    (hstep : ∀ op ops s u, s.Underway → s.isOver = false → s.step stringify ord op = .ok u →
      s.Moved ord op u → u.isOver = false → I (op :: ops) s → I ops u)
    (h : s.Underway) (hrun : runFrom stringify ord s ops = .ok t) (hover : t.isOver = false)
    (hI : I ops s) : I [] t := by
  induction ops generalizing s with
  | nil =>
    obtain rfl := Except.ok.inj hrun
    exact hI
  | cons op ops ih =>
    have hgoing := going_of_run hover hrun
    rw [runFrom, List.foldlM_cons, bind_eq_ok] at hrun
    obtain ⟨u, hu, hrun⟩ := hrun
    have hmoved := (h.step_safe stringify ord hgoing op).of_ok hu
    exact ih (h.moved hgoing hmoved) hrun
      (hstep op ops s u h hgoing hu hmoved (going_of_run hover hrun) hI)

theorem Underway.follows_run (h : s.Underway) (hrun : runFrom stringify ord s ops = .ok t)
    (hover : t.isOver = false) {r : RequestId} (hr : r ∈ issued s.game.channels) :
    Follows r s t := by
  refine (h.run_rule (I := fun _ u => s.game.channels <+: u.game.channels ∧ Follows r s u) ?_
    hrun hover ⟨List.prefix_rfl, .refl r s⟩).2
  intro op ops u v hu hgoing hstep hmoved _ hI
  obtain ⟨hchannels, hfollows⟩ := hI
  have hpasses := (step_passes stringify ord op).of_ok hstep
  refine ⟨hchannels.trans hpasses.channels, hfollows.trans (hu.follows hgoing hmoved ?_)⟩
  exact (hchannels.filterMap _).subset hr

end Runs

/-! ## Rounds -/

/-- A handler executes a command. -/
def Op.commands (clientId : ClientId) : Op → Bool
  | .command clientId' => clientId' = clientId
  | _ => false

/-- The match takes an event. -/
def Op.polls : Op → Bool
  | .poll _ => true
  | _ => false

/-- All requests that a handler has made are due. -/
def Late (s : Tasks F) (clientId : ClientId) (now : Instant) : Prop :=
  ∀ h, s.handlers.lookup clientId = some h →
    ∀ d ∈ h.messageHandler.timeoutHeap.deadlines, d.instant < now

section Rounds
variable [Prost] [F64 F] [External F] (stringify : Payload F → Bytes)
  (ord : DeadlineOrder MessageId)

/-- Every handler executes the commands that wait for it; then every handler looks for requests
when all that it made are due; and then the match hears of as many events as there are by then.
Anything may happen in between. -/
structure Round (s : Tasks F) (commands timeouts polls : List Op) : Prop where
  executes : ∀ clientId,
    (sentTo clientId s.waiting).length ≤ commands.countP (Op.commands clientId)
  late : ∀ clientId ∈ s.handlers, ∃ before now after,
    timeouts = before ++ .timeouts clientId now :: after ∧
      ∀ t, runFrom stringify ord s (commands ++ before) = .ok t → t.Late clientId now
  hears : ∀ t, runFrom stringify ord s (commands ++ timeouts) = .ok t →
    t.events.length ≤ polls.countP Op.polls

/-- A number of rounds, one after the other. -/
inductive Rounds : Nat → Tasks F → Tasks F → Prop
  | none (s : Tasks F) : Rounds 0 s s
  | round {n : Nat} {s t u : Tasks F} {commands timeouts polls : List Op}
      (hround : Round stringify ord s commands timeouts polls)
      (hrun : runFrom stringify ord s (commands ++ timeouts ++ polls) = .ok t)
      (hrest : Rounds n t u) : Rounds (n + 1) s u

variable {stringify ord} {s t : Tasks F} {ops : List Op}

/-! ### What happens to a request in a round -/

/-- Commands that waited are executed. -/
theorem Underway.executes (h : s.Underway) (hq : s.Queued)
    (hrun : runFrom stringify ord s ops = .ok t) (hover : t.isOver = false) {clientId : ClientId}
    (hcount : (sentTo clientId s.waiting).length ≤ ops.countP (Op.commands clientId)) :
    (sentTo clientId s.game.channels).length ≤ t.executed clientId := by
  have hstart : (sentTo clientId s.game.channels).length ≤
      s.executed clientId + ops.countP (Op.commands clientId) := by
    rw [hq.waiting, List.length_drop] at hcount
    omega
  refine (h.run_rule (I := fun ops u => u.Queued ∧ s.game.channels <+: u.game.channels ∧
    (sentTo clientId s.game.channels).length ≤
      u.executed clientId + ops.countP (Op.commands clientId)) ?_ hrun hover
    ⟨hq, List.prefix_rfl, hstart⟩).2.2
  intro op ops u v hu hgoing hstep hmoved _ hI
  obtain ⟨hqueued, hchannels, hle⟩ := hI
  have hpasses := (step_passes stringify ord op).of_ok hstep
  refine ⟨hqueued.passes hpasses, hchannels.trans hpasses.channels, ?_⟩
  have hall : (sentTo clientId s.game.channels).length ≤
      (sentTo clientId u.game.channels).length := by
    obtain ⟨sent, hsent⟩ := hchannels
    rw [← hsent, sentTo_append, List.length_append]
    exact Nat.le_add_right _ _
  have hsame (hop : op.commands clientId = false) (heq : v.executed clientId = u.executed clientId) :
      (sentTo clientId s.game.channels).length ≤
        v.executed clientId + ops.countP (Op.commands clientId) := by
    rw [List.countP_cons_of_neg (by simp [hop])] at hle
    rwa [heq]
  cases hmoved with
  | blocked _ hblocked =>
    by_cases hop : op.commands clientId = true
    · -- nothing waits for the client
      obtain rfl : op = .command clientId := by
        cases op with
        | command id => rw [of_decide_eq_true hop]
        | poll | timeouts | connection | silence | connect | breakOff => cases hop
      have hnone : sentTo clientId u.waiting = [] := by
        rw [List.eq_nil_iff_forall_not_mem]
        intro sent hsent
        have hclient := (mem_sentTo.mp hsent).2
        rcases hblocked with hunknown | hnone
        · rw [hqueued.waiting] at hsent
          have hchannel := (mem_sentTo.mp (List.mem_of_mem_drop hsent)).1
          exact hunknown (hclient ▸ (hu.tracked hgoing).within.channels sent hchannel)
        · exact hnone sent (mem_sentTo.mp hsent).1 hclient
      rw [hqueued.waiting, List.drop_eq_nil_iff] at hnone
      exact Nat.le_add_right_of_le (hall.trans hnone)
    · exact hsame (by simpa using hop) rfl
  | polled => exact hsame rfl rfl
  | @executed id handler sent msg hlookup hsent =>
    change _ ≤ executed { u with written := u.written ++ [(id, msg)] } clientId + _
    rw [executed_concat (t := { u with written := u.written ++ [(id, msg)] }) rfl]
    by_cases hid : id = clientId
    · rw [List.countP_cons_of_pos (by simp [Op.commands, hid])] at hle
      rw [if_pos hid]
      omega
    · rw [List.countP_cons_of_neg (by simp [Op.commands, hid])] at hle
      rw [if_neg hid]
      exact hle
  | timedOut hlookup hnew | told hlookup hnew =>
    refine hsame rfl ?_
    rw [executed, (goOn_commands _ _).2]
    rfl
  | rerouted hop =>
    refine hsame ?_ rfl
    cases op with
    | connect | breakOff => rfl
    | poll | command | timeouts | connection | silence => cases hop

omit [Prost] [F64 F] [External F] in
/-- A request does not wait any more when its handler executed all that was sent before. -/
theorem Queued.not_waiting (hq : t.Queued) (hnodup : (issued t.game.channels).Nodup)
    (hchannels : s.game.channels <+: t.game.channels) {r : RequestId}
    (hr : r ∈ issued s.game.channels)
    (hexecuted : (sentTo r.clientId s.game.channels).length ≤ t.executed r.clientId) :
    r ∉ issued t.waiting := by
  intro hwaits
  obtain ⟨sent, hsent⟩ := hchannels
  obtain ⟨command, hcommand, hrequest⟩ := List.mem_filterMap.mp hwaits
  have hclient : command.clientId = r.clientId := by
    obtain ⟨num, _, rfl⟩ := Option.map_eq_some_iff.mp hrequest
    rfl
  have hmem : command ∈ sentTo r.clientId t.waiting := mem_sentTo.mpr ⟨hcommand, hclient⟩
  rw [hq.waiting, ← hsent, sentTo_append, List.drop_append, List.drop_eq_nil_of_le hexecuted,
    List.nil_append] at hmem
  have hnew := (mem_sentTo.mp (List.mem_of_mem_drop hmem)).1
  rw [← hsent] at hnodup
  exact not_mem_issued_of_append hnodup hr (List.mem_filterMap.mpr ⟨command, hnew, hrequest⟩)

/-- A request that is due is not pending any more when its handler looked for such. -/
theorem Underway.pending_timeouts (h : s.Underway) (hgoing : s.isOver = false) {clientId : ClientId}
    {now : Instant} (hmoved : s.Moved ord (.timeouts clientId now) t)
    (hlate : s.Late clientId now) {r : RequestId} (hr : r.clientId = clientId) :
    t.pending r = 0 := by
  cases hmoved with
  | blocked _ hblocked =>
    rw [pending, hr, Finmap.lookup_eq_none.mpr hblocked]
    rfl
  | @timedOut _ _ handler new hlookup hnew =>
    obtain ⟨rfl, _, hsound⟩ := (h.tracked hgoing).handlers clientId handler hlookup
    have hdue : ClientHandler.Due handler.messageHandler now := by
      intro messageId hmem
      obtain ⟨d, hd, hkey⟩ := hsound.queued messageId hmem
      exact ⟨d, hd, hkey, hlate handler hlookup d hd⟩
    rw [pending_goOn hgoing, hnew.clientId, if_pos hr]
    exact ClientHandler.openRequests_handleTimeouts ord now handler hsound hdue _
  | rerouted hop => cases hop

/-- The match hears of the events that are on its channel. -/
theorem Underway.hears (h : s.Underway) (hrun : runFrom stringify ord s ops = .ok t)
    (hover : t.isOver = false) {r : RequestId}
    (hr : r ∈ s.answered.map Prod.fst ∨ r ∈ settled s.events)
    (hcount : s.events.length ≤ ops.countP Op.polls) : r ∈ t.answered.map Prod.fst := by
  have hstart : r ∈ s.answered.map Prod.fst ∨
      r ∈ settled (s.events.take (ops.countP Op.polls)) := by
    rwa [List.take_of_length_le hcount]
  have hend := h.run_rule (I := fun ops u => r ∈ u.answered.map Prod.fst ∨
    r ∈ settled (u.events.take (ops.countP Op.polls))) ?_ hrun hover hstart
  · rcases hend with hend | hend
    · exact hend
    · cases hend
  intro op ops u v hu hgoing _ hmoved _ hI
  have hsame (hop : op.polls = false) (hanswered : v.answered = u.answered)
      (hevents : u.events <+: v.events) : r ∈ v.answered.map Prod.fst ∨
        r ∈ settled (v.events.take (ops.countP Op.polls)) := by
    rw [hanswered]
    rw [List.countP_cons_of_neg (by simp [hop])] at hI
    exact hI.imp_right fun hmem => ((hevents.take _).filterMap _).subset hmem
  cases hmoved with
  | blocked _ hblocked =>
    cases op with
    | poll rt =>
      have hnone : u.events = [] := hblocked
      rw [hnone] at hI ⊢
      simpa using hI
    | command | timeouts | connection | silence | connect | breakOff =>
      exact hsame rfl rfl List.prefix_rfl
  | @polled rt event events game sent hevents hgame hsent =>
    rw [hevents, List.countP_cons_of_pos rfl, List.take_succ_cons, ← List.singleton_append,
      settled_append, List.mem_append, ← map_responses] at hI
    rcases hI with hI | hI | hI
    · exact .inl (List.map_append .. ▸ List.mem_append_left _ hI)
    · exact .inl (List.map_append .. ▸ List.mem_append_right _ hI)
    · exact .inr hI
  | executed => exact hsame rfl rfl List.prefix_rfl
  | timedOut hlookup hnew | told hlookup hnew =>
    refine hsame rfl (goOn_game _ _).2 ?_
    rw [goOn, if_neg (by rw [isOver] at hgoing ⊢; simp [hgoing])]
    exact List.prefix_append _ _
  | rerouted hop =>
    refine hsame ?_ rfl List.prefix_rfl
    cases op with
    | connect | breakOff => rfl
    | poll | command | timeouts | connection | silence => cases hop

/-- Whatever was asked before a round is answered in it, or the match is over. -/
theorem Round.answers {commands timeouts polls : List Op}
    (hround : Round stringify ord s commands timeouts polls) (h : s.Underway) (hq : s.Queued)
    (hrun : runFrom stringify ord s (commands ++ timeouts ++ polls) = .ok t)
    (hover : t.isOver = false) {r : RequestId} (hr : r ∈ issued s.game.channels) :
    r ∈ t.answered.map Prod.fst := by
  rw [runFrom_append, bind_eq_ok] at hrun
  obtain ⟨u, hu, hpolls⟩ := hrun
  have hgoing := going_of_run hover hpolls
  have horder := h.run hu
  have hmissing : u.pending r + (issued u.waiting).count r = 0 := by
    have hclient : r.clientId ∈ s.handlers := by
      obtain ⟨sent, hsent, hrequest⟩ := List.mem_filterMap.mp hr
      obtain ⟨num, _, rfl⟩ := Option.map_eq_some_iff.mp hrequest
      exact (h.tracked (going_of_run hgoing hu)).within.channels sent hsent
    obtain ⟨before, now, after, rfl, hlate⟩ := hround.late r.clientId hclient
    rw [← List.append_assoc, runFrom_append, bind_eq_ok] at hu
    obtain ⟨v, hv, hafter⟩ := hu
    rw [runFrom, List.foldlM_cons, bind_eq_ok] at hafter
    obtain ⟨w, hw, hafter⟩ := hafter
    have hgoingw := going_of_run hgoing hafter
    have hgoingv : v.isOver = false := by
      by_contra hoverv
      rw [over_of_step (by simpa using hoverv) hw] at hgoingw
      cases hgoingw
    have hv' := hv
    rw [runFrom_append, bind_eq_ok] at hv'
    obtain ⟨x, hx, hbefore⟩ := hv'
    have hgoingx := going_of_run hgoingv hbefore
    have horderx := h.run hx
    have horderv := h.run hv
    have hmoved := (horderv.step_safe stringify ord hgoingv _).of_ok hw
    -- the commands first
    have hwaitx : (issued x.waiting).count r = 0 := by
      refine List.count_eq_zero_of_not_mem ?_
      exact (hq.run hx).not_waiting horderx.refines.nodup_issued
        (channels_run hx) hr (h.executes hq hx hgoingx (hround.executes r.clientId))
    -- then the timeouts
    have hrx : r ∈ issued x.game.channels := ((channels_run hx).filterMap _).subset hr
    have hrv : r ∈ issued v.game.channels := ((channels_run hv).filterMap _).subset hr
    have hrw : r ∈ issued w.game.channels :=
      (((step_passes stringify ord _).of_ok hw).channels.filterMap _).subset hrv
    have hwaitw := (horderv.follows hgoingv hmoved hrv).waiting
    have hwaitv := (horderx.follows_run hbefore hgoingv hrx).waiting
    have hpending := horderv.pending_timeouts hgoingv hmoved (hlate v hv) rfl
    have hrest := ((horderv.moved hgoingv hmoved).follows_run hafter hgoing hrw).pending
    omega
  have hru : r ∈ issued u.game.channels := ((channels_run hu).filterMap _).subset hr
  have hconserved := (horder.tracked hgoing).conserved r
  have hpos := List.count_pos_iff.mpr hru
  rw [found] at hconserved
  refine horder.hears hpolls hover ?_ (hround.hears u hu)
  by_contra hnowhere
  rw [not_or] at hnowhere
  rw [List.count_eq_zero_of_not_mem hnowhere.1, List.count_eq_zero_of_not_mem hnowhere.2]
    at hconserved
  omega

/-! ### What happens to the turn -/

/-- A turn of a match is going on. -/
structure Playing (roster : List ClientId) (maxTurns : Nat) (s : Tasks F) (c : PwController F) :
    Prop where
  game : s.game = .playing c
  inTurn : ∃ turn older, InTurn roster s.answered turn older c
  maxTurns : c.state.maxTurns = maxTurns

/-- Either the turn goes on, or there is a new one. -/
def Advances (c c' : PwController F) : Prop :=
  (c'.channels = c.channels ∧ c'.turns = c.turns) ∨ c.turns.length < c'.turns.length

omit [F64 F] [External F] [Prost] in
theorem Advances.trans {c c' c'' : PwController F} (h : Advances c c') (h' : Advances c' c'') :
    Advances c c'' := by
  rcases h with ⟨hchannels, hturns⟩ | hlt
  · rcases h' with ⟨hchannels', hturns'⟩ | hlt'
    · exact .inl ⟨hchannels'.trans hchannels, hturns'.trans hturns⟩
    · exact .inr (hturns ▸ hlt')
  · rcases h' with ⟨_, hturns'⟩ | hlt'
    · exact .inr (hturns' ▸ hlt)
    · exact .inr (hlt.trans hlt')

omit [Prost] in
theorem advances_of_delivered {rt : Runtime} {answered answered' : List (RequestId × ResponseValue)}
    {turn : Turn F} {c c' : PwController F} {input : Input}
    (h : Delivered rt answered turn c input ⟨.playing c', answered'⟩) :
    Advances c c' ∧ c'.state.maxTurns = c.state.maxTurns := by
  have hpolled {d : PwController F}
      (hd : PwMatchState.playing c' = if d.state.isFinished then .finished d else .playing d) :
      c' = d := by
    split at hd
    · cases hd
    · cases hd
      rfl
  generalize hs : (⟨.playing c', answered'⟩ : System F) = s at h
  cases h with
  | noticed =>
    obtain rfl := hpolled (congrArg System.game hs)
    exact ⟨.inl ⟨rfl, rfl⟩, rfl⟩
  | dropped =>
    cases hs
    exact ⟨.inl ⟨rfl, rfl⟩, rfl⟩
  | @heard i r v =>
    obtain rfl := hpolled (d := c.heard i v) (congrArg System.game hs)
    exact ⟨.inl ⟨rfl, rfl⟩, rfl⟩
  | @stepped i r v d hr hopen hw hstep =>
    obtain rfl := hpolled (congrArg System.game hs)
    obtain ⟨g, actions, htaken, hstep⟩ := hstep
    have hlength : (Turn.call (c.heard i v).commands c.turns).length = c.turns.length := by
      cases c.turns <;> rfl
    split at hstep
    · rename_i hfin
      have hstate : c'.state = g.state := congrArg Game.state hstep.toGame
      have hgame := congrArg System.game hs
      simp only [hstate, hfin, if_true, reduceCtorEq] at hgame
    · have hstate : c'.state = g.state := congrArg Game.state hstep.toGame
      refine ⟨.inr ?_, by rw [hstate]; exact htaken.maxTurns⟩
      rw [hstep.turns, List.length_cons]
      exact Nat.lt_succ_of_le hlength.ge

omit [Prost] in
theorem Underway.playing_polled {roster : List ClientId} (hroster : ProperRoster roster)
    {maxTurns : Nat} {c : PwController F} (h : s.Underway) (hp : Playing roster maxTurns s c)
    {rt : Runtime} {event : Event} {events : List Event} {game : PwMatchState F}
    (hevents : s.events = event :: events) (hgame : s.game.poll rt event = .ok game)
    (htgame : t.game = game) (htanswered : t.answered = s.answered ++ responses event)
    (hover : t.isOver = false) : ∃ c', Playing roster maxTurns t c' ∧ Advances c c' := by
  obtain ⟨turn, older, hturn⟩ := hp.inTurn
  have hgoing : s.isOver = false := by rw [isOver, hp.game]
  have hevent : System.event ⟨.playing c, s.answered⟩ (input event) = some event :=
    System.event_input fun r hr => hp.game ▸
      (h.tracked hgoing).open_of_event hevents h.refines.nodup_issued hr
  have hdeliver : System.deliver ⟨.playing c, s.answered⟩ rt (input event) =
      .ok ⟨t.game, t.answered⟩ := by
    rw [System.deliver_input rt hevent, ← hp.game, hgame, htgame, htanswered]
    rfl
  have hdelivered := (hturn.deliver_safe hroster rt (input event)).of_ok hdeliver
  have hphase := hturn.delivered hroster hdelivered
  generalize htg : t.game = g at hdelivered hphase
  cases hphase with
  | @playing _ turn' older' c' hturn' =>
    obtain ⟨hadvances, hmax⟩ := advances_of_delivered hdelivered
    exact ⟨c', ⟨htg, ⟨turn', older', hturn'⟩, hmax.trans hp.maxTurns⟩, hadvances⟩
  | unplayed | ended => simp [isOver, htg] at hover

theorem Underway.playing_run {roster : List ClientId} (hroster : ProperRoster roster)
    {maxTurns : Nat} {c : PwController F} (h : s.Underway) (hp : Playing roster maxTurns s c)
    (hrun : runFrom stringify ord s ops = .ok t) (hover : t.isOver = false) :
    ∃ c', Playing roster maxTurns t c' ∧ Advances c c' := by
  refine h.run_rule (I := fun _ u => ∃ c', Playing roster maxTurns u c' ∧ Advances c c') ?_
    hrun hover ⟨c, hp, .inl ⟨rfl, rfl⟩⟩
  intro op ops u v hu hgoing _ hmoved hgoing' hI
  obtain ⟨c', hp', hadvances⟩ := hI
  have hsame (hgame : v.game = u.game) (hanswered : v.answered = u.answered) :
      Playing roster maxTurns v c' :=
    ⟨hgame.trans hp'.game, hanswered ▸ hp'.inTurn, hp'.maxTurns⟩
  cases hmoved with
  | blocked => exact ⟨c', hp', hadvances⟩
  | polled hevents hgame hsent =>
    obtain ⟨c'', hp'', hadvances'⟩ := hu.playing_polled hroster hp' hevents hgame rfl rfl hgoing'
    exact ⟨c'', hp'', hadvances.trans hadvances'⟩
  | executed => exact ⟨c', hsame rfl rfl, hadvances⟩
  | timedOut | told => exact ⟨c', hsame (goOn_game _ _).1 (goOn_game _ _).2, hadvances⟩
  | rerouted => exact ⟨c', hsame rfl rfl, hadvances⟩

/-- A round ends a turn. -/
theorem Round.turn {roster : List ClientId} (hroster : ProperRoster roster) {maxTurns : Nat}
    {c : PwController F} {commands timeouts polls : List Op}
    (hround : Round stringify ord s commands timeouts polls) (h : s.Underway) (hq : s.Queued)
    (hp : Playing roster maxTurns s c)
    (hrun : runFrom stringify ord s (commands ++ timeouts ++ polls) = .ok t)
    (hover : t.isOver = false) :
    ∃ c', Playing roster maxTurns t c' ∧ c.turns.length < c'.turns.length := by
  obtain ⟨c', hp', hadvances⟩ := h.playing_run hroster hp hrun hover
  refine ⟨c', hp', hadvances.resolve_left ?_⟩
  rintro ⟨hchannels, _⟩
  -- somebody would still be asked, and was asked before
  obtain ⟨turn, older, hturn⟩ := hp'.inTurn
  obtain ⟨i, hi⟩ := hturn.waiting
  obtain ⟨r, hr, hopen⟩ := (hturn.waitingFor i).mp hi
  have hissued : r ∈ issued s.game.channels := by
    rw [hp.game]
    change r ∈ issued c.channels
    rw [← hchannels, hturn.issued]
    exact ⟨turn, hturn.turns ▸ List.mem_cons_self, i, hr⟩
  exact hopen (hround.answers h hq hrun hover hissued)

theorem Rounds.turns {roster : List ClientId} (hroster : ProperRoster roster) {maxTurns n : Nat}
    (hrounds : Rounds stringify ord n s t) (h : s.Underway) (hq : s.Queued) {c : PwController F}
    (hp : Playing roster maxTurns s c) (hover : t.isOver = false) :
    ∃ c', Playing roster maxTurns t c' ∧ c.turns.length + n ≤ c'.turns.length := by
  induction hrounds generalizing c with
  | none s => exact ⟨c, hp, Nat.le_refl _⟩
  | @round n s u t commands timeouts polls hround hrun hrest ih =>
    cases hgoing : u.isOver with
    | true =>
      have hstays {n : Nat} {v w : Tasks F} (hrounds : Rounds stringify ord n v w)
          (hv : v.isOver = true) : w.isOver = true := by
        induction hrounds with
        | none => exact hv
        | round _ hrun _ ih => exact ih (over_of_run hv hrun)
      rw [hstays hrest hgoing] at hover
      cases hover
    | false =>
      obtain ⟨c', hp', hlt⟩ := hround.turn hroster h hq hp hrun hgoing
      obtain ⟨c'', hp'', hle⟩ := ih (h.run hrun) (hq.run hrun) hp' hover
      exact ⟨c'', hp'', by omega⟩

/-- A match that was started after clients were added under tokens of their own. -/
theorem underway_of_run {ctrlToken : Bytes} {now : Instant}
    (hfresh : (new ctrlToken now : Tasks F).freshRun stringify ord ops = true)
    (hrun : run stringify ord ctrlToken now ops = .ok s) {c : PwController F}
    (hgame : s.game = .playing c) : s.Underway where
  toInOrder := ((inOrder_new ctrlToken now).run stringify ord hfresh).of_ok hrun
  started l hl := by
    rw [hgame] at hl
    cases hl

/-- No client can hold up a match in which every client was added under a token of its own. It is
over after as many rounds as it has turns left, whatever the clients send and whenever their
connections come and go. -/
theorem rounds_end {ctrlToken : Bytes} {now : Instant}
    (hfresh : (new ctrlToken now : Tasks F).freshRun stringify ord ops = true)
    (hrun : run stringify ord ctrlToken now ops = .ok s) {c : PwController F}
    (hgame : s.game = .playing c) (hplayers : c.state.players ≠ []) {n : Nat} (hpos : 0 < n)
    (hn : c.state.maxTurns ≤ c.state.turnNum + n) (hrounds : Rounds stringify ord n s t) :
    t.isOver = true := by
  have horder := underway_of_run hfresh hrun hgame
  have hqueued : s.Queued := (queued_new ctrlToken now).run hrun
  cases horder.refines with
  | lobby l hl =>
    rw [hgame] at hl
    cases hl
  | run rt lobby inputs hsystem =>
    have henrolled := (run_enrolled rt lobby inputs).of_ok hsystem c (by rw [hgame]; rfl)
    have hne : lobby.players ≠ ∅ := by
      intro hempty
      apply hplayers
      rw [← List.length_eq_zero_iff, henrolled.size, length_roster, hempty]
      rfl
    have hphase := ((System.run_safe (A := fun _ => True) (I := fun _ _ => True) hne
      (fun _ _ => trivial) (fun _ _ _ _ => trivial) (fun _ _ _ _ _ _ _ _ _ =>
        ⟨fun _ _ => trivial, fun _ _ => trivial⟩) (fun _ _ _ _ _ => trivial) inputs).of_ok
      hsystem).1
    rw [hgame] at hphase
    cases hphase with
    | @playing _ turn older _ hturn =>
      by_contra hover
      obtain ⟨c', hp', hle⟩ := hrounds.turns (properRoster rt lobby) horder hqueued
        ⟨hgame, ⟨turn, older, hturn⟩, rfl⟩ (by simpa using hover)
      obtain ⟨turn', older', hturn'⟩ := hp'.inTurn
      have hlength := congrArg List.length hturn.turns
      have hlength' := congrArg List.length hturn'.turns
      have hturnNum := hturn.turnNum
      have hturnNum' := hturn'.turnNum
      have hmax := hp'.maxTurns
      simp only [List.length_cons] at hlength hlength'
      rcases hturn'.going with hold | hfinished
      · simp only [hold, List.length_nil] at hlength'
        omega
      · simp only [PlanetWars.isFinished, Bool.or_eq_false_iff, decide_eq_false_iff_not]
          at hfinished
        omega

end Rounds

/-! ## The server on its own -/

section Serve
variable [Prost] [F64 F] [External F] (stringify : Payload F → Bytes)
  (ord : DeadlineOrder MessageId)

/-- A time at which all requests of a handler are due. -/
def lateFor (s : Tasks F) (clientId : ClientId) : Instant :=
  (s.handlers.lookup clientId).elim 0 fun h =>
    (h.messageHandler.timeoutHeap.deadlines.map (·.instant)).sum + 1

def lookForTimeouts (s : Tasks F) (clientId : ClientId) : Tasks F :=
  match s.handlers.lookup clientId with
  | some h => s.goOn (h.handleTimeouts ord (s.lateFor clientId))
  | none => s

def timeoutsOf : List ClientId → Tasks F → List Op
  | [], _ => []
  | clientId :: ids, s =>
    .timeouts clientId (s.lateFor clientId) :: timeoutsOf ids (s.lookForTimeouts ord clientId)

/-- A round in which no client has anything to say. -/
def serve (rt : Runtime) (s : Tasks F) : Except Panic (Tasks F) := do
  let t ← runFrom stringify ord s (s.waiting.map fun sent => .command sent.clientId)
  let u ← runFrom stringify ord t (timeoutsOf ord (rt.lobbyOrder.order s.handlers.keys) t)
  runFrom stringify ord u (u.events.map fun _ => .poll rt)

def serveRounds (rt : Runtime) : Nat → Tasks F → Except Panic (Tasks F)
  | 0, s => pure s
  | n + 1, s => s.serve stringify ord rt >>= serveRounds rt n

variable {stringify ord} {s t : Tasks F} {rt : Runtime} {n : Nat}

omit [Prost] [F64 F] [External F] in
theorem late_lateFor (s : Tasks F) (clientId : ClientId) :
    s.Late clientId (s.lateFor clientId) := by
  intro h hlookup d hd
  rw [lateFor, hlookup]
  exact Nat.lt_succ_of_le (List.single_le_sum (fun _ _ => Nat.zero_le _) _
    (List.mem_map_of_mem hd))

omit [Prost] [F64 F] [External F] in
theorem countP_commands (waiting : Channels F) (clientId : ClientId) :
    (waiting.map fun sent => Op.command sent.clientId).countP (Op.commands clientId) =
      (sentTo clientId waiting).length := by
  rw [List.countP_map, sentTo, ← List.countP_eq_length_filter]
  rfl

theorem step_timeouts (s : Tasks F) (clientId : ClientId) :
    s.step stringify ord (.timeouts clientId (s.lateFor clientId)) =
      .ok (s.lookForTimeouts ord clientId) := by
  rw [step, lookForTimeouts]
  cases s.handlers.lookup clientId <;> rfl

/-- Every handler that is looked after has its turn at a time that is late for it. -/
theorem late_timeoutsOf (ids : List ClientId) (s : Tasks F) {clientId : ClientId}
    (hid : clientId ∈ ids) : ∃ before now after,
      timeoutsOf ord ids s = before ++ .timeouts clientId now :: after ∧
        ∀ t, runFrom stringify ord s before = .ok t → t.Late clientId now := by
  induction ids generalizing s with
  | nil => cases hid
  | cons id ids ih =>
    by_cases hfirst : clientId = id
    · subst hfirst
      refine ⟨[], _, _, rfl, fun t ht => ?_⟩
      obtain rfl := Except.ok.inj ht
      exact late_lateFor s clientId
    · obtain ⟨before, now, after, heq, hlate⟩ := ih (s.lookForTimeouts ord id)
        ((List.mem_cons.mp hid).resolve_left hfirst)
      refine ⟨.timeouts id (s.lateFor id) :: before, now, after, ?_, fun t ht => hlate t ?_⟩
      · rw [timeoutsOf, heq]
        rfl
      · rwa [runFrom, List.foldlM_cons, step_timeouts, ok_bind] at ht

/-- Serving is a round. -/
theorem exists_round (hserve : s.serve stringify ord rt = .ok t) :
    ∃ commands timeouts polls, Round stringify ord s commands timeouts polls ∧
      runFrom stringify ord s (commands ++ timeouts ++ polls) = .ok t := by
  rw [serve, bind_eq_ok] at hserve
  obtain ⟨u, hu, hserve⟩ := hserve
  rw [bind_eq_ok] at hserve
  obtain ⟨v, hv, hserve⟩ := hserve
  have hrest : runFrom stringify ord s (s.waiting.map (fun sent => .command sent.clientId) ++
      timeoutsOf ord (rt.lobbyOrder.order s.handlers.keys) u) = .ok v := by
    rw [runFrom_append, hu, ok_bind, hv]
  refine ⟨_, _, v.events.map fun _ => .poll rt, ⟨?_, ?_, ?_⟩, by
    rw [runFrom_append, hrest]
    exact hserve⟩
  · exact fun clientId => (countP_commands s.waiting clientId).ge
  · intro clientId hid
    obtain ⟨before, now, after, heq, hlate⟩ : ∃ before now after,
        timeoutsOf ord _ u = before ++ .timeouts clientId now :: after ∧
          ∀ t, runFrom stringify ord u before = .ok t → t.Late clientId now :=
      late_timeoutsOf _ u (HashMap.mem_order_keys.mpr hid)
    refine ⟨before, now, after, heq, fun t ht => hlate t ?_⟩
    rwa [runFrom_append, hu, ok_bind] at ht
  · intro t ht
    obtain rfl := Except.ok.inj (hrest.symm.trans ht)
    rw [List.countP_map]
    exact (List.countP_eq_length.mpr fun _ _ => rfl).ge

theorem rounds_serveRounds (hserve : s.serveRounds stringify ord rt n = .ok t) :
    Rounds stringify ord n s t := by
  induction n generalizing s with
  | zero =>
    obtain rfl := Except.ok.inj hserve
    exact .none s
  | succ n ih =>
    rw [serveRounds, bind_eq_ok] at hserve
    obtain ⟨u, hu, hrest⟩ := hserve
    obtain ⟨commands, timeouts, polls, hround, hrun⟩ := exists_round hu
    exact .round hround hrun (ih hrest)

end Serve

section Skirmish

/-- The number of turns that are left in a game that is played. -/
def turnsLeft? (s : Tasks Int) : Option Nat :=
  match s.game with
  | .playing c => if c.state.players = [] then none else some (c.state.maxTurns - c.state.turnNum)
  | _ => none

theorem exists_skirmish :
    letI := plainWire
    letI := Server.tokenServer
    (new (F := Int) [0] 0).freshRun (fun _ => []) (.oldest Deadline.instant) skirmishOps = true ∧
    ∃ s c t, run (F := Int) (fun _ => []) (.oldest Deadline.instant) [0] 0 skirmishOps = .ok s ∧
      s.game = .playing c ∧ c.state.players ≠ [] ∧ c.state.maxTurns ≤ c.state.turnNum + 9 ∧
      s.serveRounds (fun _ => []) (.oldest Deadline.instant) skirmishRuntime 9 = .ok t := by
  let := plainWire
  let := Server.tokenServer
  have hleft : ((run (F := Int) (fun _ => []) (.oldest Deadline.instant) [0] 0
      skirmishOps).toOption.bind turnsLeft?) = some 9 := by
    decide +kernel
  have hserved : ((run (F := Int) (fun _ => []) (.oldest Deadline.instant) [0] 0
      skirmishOps).toOption.bind fun s => (s.serveRounds (fun _ => []) (.oldest Deadline.instant)
        skirmishRuntime 9).toOption.map fun _ => ()) = some () := by
    decide +kernel
  cases hrun : run (F := Int) (fun _ => []) (.oldest Deadline.instant) [0] 0 skirmishOps with
  | error e =>
    rw [hrun] at hleft
    cases hleft
  | ok s =>
    rw [hrun] at hleft hserved
    change turnsLeft? s = some 9 at hleft
    rw [turnsLeft?] at hleft
    split at hleft
    · rename_i c hgame
      split at hleft
      · cases hleft
      · rename_i hplayers
        obtain ⟨t, ht, _⟩ := Option.map_eq_some_iff.mp hserved
        have hserve : s.serveRounds (fun _ => []) (.oldest Deadline.instant) skirmishRuntime 9 =
            .ok t := by
          cases hserve : s.serveRounds (fun _ => []) (.oldest Deadline.instant) skirmishRuntime 9 with
          | error e =>
            rw [hserve] at ht
            cases ht
          | ok u =>
            rw [hserve] at ht
            rw [Option.some.inj ht]
        have hle := Option.some.inj hleft
        exact ⟨by decide +kernel, s, c, t, rfl, hgame, hplayers, by omega, hserve⟩
    · cases hleft

theorem rounds_end_skirmish :
    letI := plainWire
    letI := Server.tokenServer
    ∃ s t, run (F := Int) (fun _ => []) (.oldest Deadline.instant) [0] 0 skirmishOps = .ok s ∧
      Rounds (fun _ => []) (.oldest Deadline.instant) 9 s t ∧ t.isOver = true := by
  let := plainWire
  let := Server.tokenServer
  obtain ⟨hfresh, s, c, t, hrun, hgame, hplayers, hn, hserve⟩ := exists_skirmish
  have hrounds := rounds_serveRounds hserve
  exact ⟨s, t, hrun, hrounds, rounds_end hfresh hrun hgame hplayers (by decide) hn hrounds⟩

end Skirmish
end Tasks
end Mozaic.Controller
