import Mozaic.Controller.Events

/-! What each player is sent over a match, next to what is logged. -/
namespace Mozaic.Controller
open Rust Rules Network Outcome

variable {F : Type}

/-! ## Streams -/

/-- What was sent through the handle of a client. -/
def inbox (cl : ClientId) (channels : Channels F) : List (Payload F) :=
  channels.filterMap fun s => if s.clientId = cl then some s.command.data else none

/-- The states logged on the control channel. -/
def logged (channels : Channels F) : List (Proto.State F) :=
  channels.filterMap fun s => if s.clientId = ctrlId then s.command.loggedState? else none

@[simp] theorem inbox_append (cl : ClientId) (channels channels' : Channels F) :
    inbox cl (channels ++ channels') = inbox cl channels ++ inbox cl channels' := by
  simp [inbox]

@[simp] theorem logged_append (channels channels' : Channels F) :
    logged (channels ++ channels') = logged channels ++ logged channels' := by
  simp [logged]

/-- The last message about a state: the state itself, or the news that it is the last one. -/
def closing (final : Bool) (s : Proto.State F) : Payload F :=
  .server (if final then .finalState s else .gameState s)

/-- One state after the other, each followed by a report of the player's action; the
last one has no report. -/
inductive Stream (final : Bool) : List (Proto.State F) → List (Payload F) → Prop
  | last (s : Proto.State F) : Stream final [s] [closing final s]
  | turn (s : Proto.State F) (action : Proto.PlayerAction) {states : List (Proto.State F)}
      {msgs : List (Payload F)} (h : Stream final states msgs) :
      Stream final (s :: states)
        (.server (.gameState s) :: .server (.playerAction action) :: msgs)

/-- A stream goes on with a report and another state. -/
theorem Stream.extend {states : List (Proto.State F)} {msgs : List (Payload F)}
    (h : Stream false states msgs) (action : Proto.PlayerAction) (s : Proto.State F)
    (final : Bool) :
    Stream final (states ++ [s]) (msgs ++ [.server (.playerAction action), closing final s]) := by
  induction h with
  | last s₀ => exact .turn s₀ action (.last s)
  | turn s₀ action₀ _ ih => exact .turn s₀ action₀ ih

theorem Stream.no_final {states : List (Proto.State F)} {msgs : List (Payload F)}
    (h : Stream false states msgs) (s : Proto.State F) : .server (.finalState s) ∉ msgs := by
  induction h with
  | last => simp [closing]
  | turn _ _ _ ih => simp [ih]

/-- There is one final state, and nothing follows it. -/
theorem Stream.exists_final {states : List (Proto.State F)} {msgs : List (Payload F)}
    (h : Stream true states msgs) : ∃ before s, msgs = before ++ [.server (.finalState s)] ∧
      ∀ s', .server (.finalState s') ∉ before := by
  induction h with
  | last s => exact ⟨[], s, rfl, by simp⟩
  | turn s₀ action _ ih =>
    obtain ⟨before, s, rfl, hbefore⟩ := ih
    exact ⟨.server (.gameState s₀) :: .server (.playerAction action) :: before, s, rfl,
      by simp [hbefore]⟩

/-! ## Who is sent what -/

theorem inbox_eq_nil {cl : ClientId} {channels : Channels F}
    (h : ∀ s ∈ channels, s.clientId ≠ cl) : inbox cl channels = [] := by
  rw [inbox, List.filterMap_eq_nil_iff]
  intro s hs
  exact if_neg (h s hs)

/-- Of messages to all players, each gets its own. -/
theorem inbox_map {α : Type} {cl : ClientId} {i : PlayerId} {send : PlayerId × α → Sent F}
    {l : List (PlayerId × α)} (hnd : (l.map Prod.fst).Nodup)
    (hto : ∀ e ∈ l, (send e).clientId = cl ↔ e.1 = i) {a : α} (ha : (i, a) ∈ l) :
    inbox cl (l.map send) = [(send (i, a)).command.data] := by
  obtain ⟨before, after, rfl⟩ := List.append_of_mem ha
  rw [List.map_append, List.map_cons, List.nodup_append] at hnd
  obtain ⟨_, hafter, hbefore⟩ := hnd
  have hnil (l' : List (PlayerId × α)) (hsub : ∀ e ∈ l', e ∈ before ++ (i, a) :: after)
      (hne : ∀ e ∈ l', e.1 ≠ i) : inbox cl (l'.map send) = [] := by
    apply inbox_eq_nil
    intro s hs
    obtain ⟨e, he, rfl⟩ := List.mem_map.mp hs
    exact fun hcl => hne e he ((hto e (hsub e he)).mp hcl)
  have hone : inbox cl [send (i, a)] = [(send (i, a)).command.data] := by
    simp [inbox, (hto (i, a) (by simp)).mpr rfl]
  rw [List.map_append, List.map_cons, inbox_append, ← List.singleton_append, inbox_append, hone]
  rw [hnil before (fun e he => by simp [he]), hnil after (fun e he => by simp [he])]
  · rfl
  · intro e he heq
    exact (List.nodup_cons.mp hafter).1 (List.mem_map.mpr ⟨e, he, heq⟩)
  · intro e he heq
    exact hbefore e.1 (List.mem_map_of_mem he) i (by simp) heq

@[simp] theorem inbox_logSent {cl : ClientId} (hcl : cl ≠ ctrlId) {handle : ClientHandle}
    (hctrl : handle.clientId = ctrlId) (s : PlanetWars F) : inbox cl [logSent handle s] = [] := by
  apply inbox_eq_nil
  intro sent hsent
  rw [List.mem_singleton.mp hsent]
  exact fun h => hcl (h.symm.trans hctrl)

theorem logged_logSent {handle : ClientHandle} (hctrl : handle.clientId = ctrlId)
    (s : PlanetWars F) : logged [logSent handle s] = [s.view 0] := by
  simp [logged, logSent, hctrl, Command.loggedState?]

theorem logged_eq_nil {channels : Channels F}
    (h : ∀ s ∈ channels, s.command.loggedState? = none) : logged channels = [] := by
  rw [logged, List.filterMap_eq_nil_iff]
  intro s hs
  rw [h s hs, ite_self]

theorem logged_append_silent {channels sent : Channels F}
    (h : ∀ s ∈ sent, s.command.loggedState? = none) :
    logged (channels ++ sent) = logged channels := by
  rw [logged_append, logged_eq_nil h, List.append_nil]

/-- A new match logs its first state. -/
theorem logged_opening (lobby : Lobby F) (s : PlanetWars F) :
    logged (lobby.channels ++ [logSent lobby.ctrlHandle s]) = [s.view 0] := by
  have hctrl : lobby.ctrlHandle.clientId = ctrlId := congrArg ClientHandle.clientId lobby.control
  rw [logged_append, logged_eq_nil fun s hs => (lobby.quiet s hs).2.2, logged_logSent hctrl]
  rfl

/-- Before the first prompt the players have not heard of the match. -/
theorem inbox_opening (lobby : Lobby F) {s : PlanetWars F} {cl : ClientId} (hcl : cl ≠ ctrlId) :
    inbox cl (lobby.channels ++ [logSent lobby.ctrlHandle s]) = [] := by
  have hctrl : lobby.ctrlHandle.clientId = ctrlId := congrArg ClientHandle.clientId lobby.control
  rw [inbox_append, inbox_logSent hcl hctrl, inbox_eq_nil]
  · rfl
  · exact fun s hs heq => hcl (heq.symm.trans (lobby.quiet s hs).1)

/-! ## The invariant -/

/-- The logged states the way player `i` is shown them. -/
def seenBy (roster : List ClientId) (i : PlayerId) (channels : Channels F) :
    List (Proto.State F) :=
  (logged channels).map (relabel (renumber roster.length i))

/-- Whoever is in the game was sent every state, and the others all states up to some
state that was their last. -/
structure Streams (roster : List ClientId) (c : PwController F) : Prop where
  live : ∀ i cl, roster[i]? = some cl → i ∈ c.players →
    Stream false (seenBy roster i c.channels) (inbox cl c.channels)
  gone : ∀ i cl, roster[i]? = some cl → i ∉ c.players →
    ∃ seen, seen <+: seenBy roster i c.channels ∧ Stream true seen (inbox cl c.channels)

/-- A state was logged, which the players are about to be sent. -/
structure Announced (roster : List ClientId) (c : PwController F) : Prop where
  live : ∀ i cl, roster[i]? = some cl → i ∈ c.players → ∀ final,
    Stream final (seenBy roster i c.channels) (inbox cl c.channels ++
      [closing final (relabel (renumber roster.length i) (c.state.view 0))])
  gone : ∀ i cl, roster[i]? = some cl → i ∉ c.players →
    ∃ seen, seen <+: seenBy roster i c.channels ∧ Stream true seen (inbox cl c.channels)

/-- What `prompt_players` and `finish_game` send to a player, according to whether it is
the last message. -/
def stateSent (s : PlanetWars F) (deadline : Instant) (final : Bool) (p : Player) : Sent F :=
  if final then finalSent s p else requestSent s deadline p

theorem clientId_stateSent (s : PlanetWars F) (deadline : Instant) (final : Bool) (p : Player) :
    (stateSent s deadline final p).clientId = p.handle.clientId := by
  cases final <;> rfl

theorem data_stateSent (s : PlanetWars F) (deadline : Instant) (final : Bool) (p : Player) :
    (stateSent s deadline final p).command.data = closing final (p.viewOf s) := by
  cases final <;> rfl

theorem loggedState?_stateSent (s : PlanetWars F) (deadline : Instant) (final : Bool) (p : Player) :
    (stateSent s deadline final p).command.loggedState? = none := by
  cases final <;> rfl

section Sending
variable {roster : List ClientId} {answered : List (RequestId × ResponseValue)}
  {c c' : PwController F}

/-- Sending an announced state to the players keeps their streams in order. -/
theorem Announced.sent (hroster : ProperRoster roster) (hready : Ready roster answered c)
    (h : Announced roster c) (ord : IterOrder PlayerId) (deadline : Instant)
    (final : PlayerId → Bool)
    (hchannels : c'.channels = c.channels ++ (c.players.entriesIn ord).map fun e =>
      stateSent c.state deadline (final e.1) e.2)
    (hplayers : ∀ i, i ∈ c'.players ↔ i ∈ c.players ∧ final i = false) :
    Streams roster c' := by
  have hto {i : PlayerId} {cl : ClientId} (hcl : roster[i]? = some cl) :
      ∀ e ∈ c.players.entriesIn ord,
        (stateSent c.state deadline (final e.1) e.2).clientId = cl ↔ e.1 = i := by
    rintro ⟨j, p⟩ he
    obtain ⟨cl', hcl', rfl⟩ := hready.handles j p (HashMap.mem_entriesIn.mp he)
    rw [clientId_stateSent]
    constructor
    · intro heq
      subst heq
      exact hroster.inj hcl' hcl
    · intro heq
      subst heq
      rw [hcl] at hcl'
      exact (Option.some.inj hcl').symm
  have hlogged (i : PlayerId) : seenBy roster i c'.channels = seenBy roster i c.channels := by
    rw [seenBy, hchannels, logged_append_silent]
    · rfl
    · intro s hs
      obtain ⟨e, _, rfl⟩ := List.mem_map.mp hs
      exact loggedState?_stateSent _ _ _ _
  have hinbox {i : PlayerId} {cl : ClientId} (hcl : roster[i]? = some cl) (hi : i ∈ c.players) :
      inbox cl c'.channels = inbox cl c.channels ++
        [closing (final i) (relabel (renumber roster.length i) (c.state.view 0))] := by
    obtain ⟨p, hp⟩ := Finmap.mem_iff.mp hi
    have hlt : i < c.state.players.length := hready.size ▸ (List.getElem?_eq_some_iff.mp hcl).1
    have hvalid := hready.consistent.settled.toValid
    obtain ⟨_, _, rfl⟩ := hready.handles i p hp
    rw [hchannels, inbox_append,
      inbox_map (HashMap.nodup_fst_entriesIn ord _) (hto hcl) (HashMap.mem_entriesIn.mpr hp),
      data_stateSent, Player.viewOf, view_eq_relabel hvalid hlt, hready.size]
  have hsilent {i : PlayerId} {cl : ClientId} (hcl : roster[i]? = some cl) (hi : i ∉ c.players) :
      inbox cl c'.channels = inbox cl c.channels := by
    have hnil : inbox cl ((c.players.entriesIn ord).map fun e =>
        stateSent c.state deadline (final e.1) e.2) = [] := by
      apply inbox_eq_nil
      intro s hs hto'
      obtain ⟨⟨j, p⟩, he, rfl⟩ := List.mem_map.mp hs
      obtain rfl : j = i := (hto hcl _ he).mp hto'
      exact hi (Finmap.mem_iff.mpr ⟨p, HashMap.mem_entriesIn.mp he⟩)
    rw [hchannels, inbox_append, hnil, List.append_nil]
  constructor
  · intro i cl hcl hi
    obtain ⟨hi, hf⟩ := (hplayers i).mp hi
    rw [hlogged, hinbox hcl hi, hf]
    exact h.live i cl hcl hi false
  · intro i cl hcl hi
    rw [hlogged]
    by_cases hic : i ∈ c.players
    · have hf : final i = true := by
        by_contra hf
        exact hi ((hplayers i).mpr ⟨hic, by simpa using hf⟩)
      refine ⟨_, List.prefix_rfl, ?_⟩
      rw [hinbox hcl hic, hf]
      exact h.live i cl hcl hic true
    · obtain ⟨seen, hseen, hstream⟩ := h.gone i cl hcl hic
      exact ⟨seen, hseen, by rwa [hsilent hcl hic]⟩

theorem promptSent_eq (s : PlanetWars F) (deadline : Instant) (e : PlayerId × Player) :
    promptSent s deadline e = stateSent s deadline (!s.aliveAt e.1) e.2 := by
  cases h : s.aliveAt e.1 <;> simp [promptSent, stateSent, h]

theorem PwController.Prompted.streams {rt : Runtime} (hroster : ProperRoster roster)
    (hready : Ready roster answered c) (h : Announced roster c)
    (hc : PwController.Prompted rt c c') : Streams roster c' := by
  refine h.sent hroster hready rt.retainOrder (rt.now + fromSecs 1) (fun i => !c.state.aliveAt i)
    ?_ fun i => ?_
  · rw [hc.channels]
    exact congrArg (c.channels ++ ·) (List.map_congr_left fun e _ => promptSent_eq _ _ e)
  · rw [Finmap.mem_iff, Finmap.mem_iff, hc.players]
    cases c.state.aliveAt i <;> simp

theorem PwController.Finished.streams {rt : Runtime} (hroster : ProperRoster roster)
    (hready : Ready roster answered c) (h : Announced roster c)
    (hc : PwController.Finished rt c c') : Streams roster c' := by
  refine h.sent hroster hready rt.retainOrder 0 (fun _ => true) ?_ fun i => ?_
  · rw [hc.channels]
    rfl
  · rw [hc.players]
    constructor
    · exact fun hi => absurd hi Finmap.notMem_empty
    · intro h
      obtain ⟨_, hfinal⟩ := h
      cases hfinal

end Sending

/-! ## Whole matches -/

section Run
variable [F64 F] [External F] {rt : Runtime} {lobby : Lobby F} {roster : List ClientId}

omit [F64 F] in
theorem Started.streams {c : PwController F} (h : Started rt lobby c) :
    Streams (Controller.roster rt lobby) c := by
  obtain ⟨conf, state, _, hcreated, hprompted⟩ := h.opened
  refine hprompted.streams (properRoster rt lobby) (ready_enrolled hcreated) ?_
  constructor
  · intro i cl hcl _ final
    have hinbox : inbox cl (lobby.channels ++ [logSent lobby.ctrlHandle state]) = [] :=
      inbox_opening lobby ((properRoster rt lobby).ne_ctrlId hcl)
    rw [hinbox, seenBy, logged_opening]
    exact .last _
  · intro i cl hcl hi
    exact absurd (Finmap.mem_iff.mpr ⟨_, (lookup_players_enrolled state).mpr ⟨cl, hcl, rfl⟩⟩) hi

section Actions
variable {answered : List (RequestId × ResponseValue)} {t : Turn F} {older : List (Turn F)}
  {c : PwController F} {i : PlayerId} {r : RequestId} {v : ResponseValue}
  {ord : IterOrder PlayerId} {g : Game F} {actions : List (PlayerId × Proto.PlayerAction)}

/-- Every player of the game was prompted, and everybody who was prompted answered. -/
theorem InTurn.mem_actions (hroster : ProperRoster roster) (h : InTurn roster answered t older c)
    (hr : (i, r) ∈ t.requests) (hopen : r ∉ answered.map Prod.fst)
    (hw : (c.heard i v).waitingFor = ∅)
    (htaken : TurnTaken c.toGame ((c.heard i v).commands.entriesIn ord) g actions) (j : PlayerId) :
    j ∈ actions.map Prod.fst ↔ j ∈ c.players := by
  rw [htaken.map_fst_actions, HashMap.map_fst_entriesIn, HashMap.mem_order_keys]
  constructor
  · intro hj
    obtain ⟨w, hw⟩ := Finmap.mem_iff.mp hj
    obtain ⟨r', hr', _⟩ := (h.commands_heard hroster hr hopen j w).mp hw
    exact h.mem_players hr'
  · intro hj
    obtain ⟨p, hp⟩ := Finmap.mem_iff.mp hj
    obtain ⟨ha, cl, hcl, _⟩ := (h.players j p).mp hp
    have hr' := (h.requested.mem_iff j _).mpr ⟨h.state ▸ ha, cl, hcl, rfl⟩
    have hanswered : ⟨cl, older.length⟩ ∈ (answered ++ [(r, v)]).map Prod.fst := by
      by_contra hopen'
      have hj := (h.waitingFor_heard hroster (v := v) hr j).mpr ⟨_, hr', hopen'⟩
      rw [hw] at hj
      exact Finset.notMem_empty _ hj
    obtain ⟨⟨_, w⟩, hw, rfl⟩ := List.mem_map.mp hanswered
    exact Finmap.mem_iff.mpr ⟨w, (h.commands_heard hroster hr hopen j w).mpr ⟨_, hr', hw⟩⟩

omit [F64 F] [External F] in
theorem InTurn.actionSent_to (hroster : ProperRoster roster) (h : InTurn roster answered t older c)
    {j k : PlayerId} {cl : ClientId} (hcl : roster[j]? = some cl) (hk : k ∈ c.players)
    (action : Proto.PlayerAction) :
    (actionSent (F := F) c.players (k, action)).clientId = cl ↔ k = j := by
  obtain ⟨p, hp⟩ := Finmap.mem_iff.mp hk
  obtain ⟨_, cl', hcl', rfl⟩ := (h.players k p).mp hp
  simp only [actionSent, hp, Option.map_some, Option.getD_some]
  constructor
  · intro heq
    subst heq
    exact hroster.inj hcl' hcl
  · intro heq
    subst heq
    rw [hcl] at hcl'
    exact (Option.some.inj hcl').symm

/-- Whoever is in the game is told about one action, its own. -/
theorem InTurn.inbox_actions (hroster : ProperRoster roster) (h : InTurn roster answered t older c)
    (hr : (i, r) ∈ t.requests) (hopen : r ∉ answered.map Prod.fst)
    (hw : (c.heard i v).waitingFor = ∅)
    (htaken : TurnTaken c.toGame ((c.heard i v).commands.entriesIn ord) g actions) {j : PlayerId}
    {cl : ClientId} (hcl : roster[j]? = some cl) (hj : j ∈ c.players) :
    ∃ action, (j, action) ∈ actions ∧ inbox (F := F) cl (actions.map (actionSent c.players)) =
      [.server (.playerAction action)] := by
  have hmem := h.mem_actions hroster hr hopen hw htaken
  have hnd : (actions.map Prod.fst).Nodup :=
    htaken.map_fst_actions ▸ HashMap.nodup_fst_entriesIn ord _
  obtain ⟨⟨k, action⟩, ha, hk⟩ := List.mem_map.mp ((hmem j).mpr hj)
  obtain rfl : k = j := hk
  refine ⟨action, ha, ?_⟩
  have hto : ∀ a ∈ actions, (actionSent (F := F) c.players a).clientId = cl ↔ a.1 = k :=
    fun a ha => h.actionSent_to hroster hcl ((hmem a.1).mp (List.mem_map_of_mem ha)) a.2
  exact inbox_map hnd hto ha

theorem InTurn.inbox_actions_of_gone (hroster : ProperRoster roster)
    (h : InTurn roster answered t older c) (hr : (i, r) ∈ t.requests)
    (hopen : r ∉ answered.map Prod.fst) (hw : (c.heard i v).waitingFor = ∅)
    (htaken : TurnTaken c.toGame ((c.heard i v).commands.entriesIn ord) g actions) {j : PlayerId}
    {cl : ClientId} (hcl : roster[j]? = some cl) (hj : j ∉ c.players) :
    inbox (F := F) cl (actions.map (actionSent c.players)) = [] := by
  apply inbox_eq_nil
  intro s hs hto
  obtain ⟨a, ha, rfl⟩ := List.mem_map.mp hs
  have hplayer := (h.mem_actions hroster hr hopen hw htaken a.1).mp (List.mem_map_of_mem ha)
  obtain rfl : a.1 = j := (h.actionSent_to hroster hcl hplayer a.2).mp hto
  exact hj hplayer

/-- Between the responses and the next prompt everybody is told about their action. -/
theorem InTurn.announced (hroster : ProperRoster roster) (h : InTurn roster answered t older c)
    (hstreams : Streams roster c) (hr : (i, r) ∈ t.requests) (hopen : r ∉ answered.map Prod.fst)
    (hw : (c.heard i v).waitingFor = ∅)
    (htaken : TurnTaken c.toGame ((c.heard i v).commands.entriesIn ord) g actions) :
    Announced roster
      (PwController.played { c.heard i v with commands := ∅ } (c.heard i v).commands g actions) := by
  have hlogged : logged (c.channels ++ actions.map (actionSent c.players) ++
      [logSent c.ctrlHandle g.state]) = logged c.channels ++ [g.state.view 0] := by
    have hnone : ∀ s ∈ actions.map (actionSent (F := F) c.players),
        s.command.loggedState? = none := by
      intro s hs
      obtain ⟨a, _, rfl⟩ := List.mem_map.mp hs
      rfl
    rw [logged_append, logged_append_silent hnone, logged_logSent h.ctrlHandle]
  constructor
  · intro j cl hcl hj final
    obtain ⟨action, _, haction⟩ := h.inbox_actions hroster hr hopen hw htaken hcl hj
    change Stream final ((logged (c.channels ++ actions.map (actionSent c.players) ++
      [logSent c.ctrlHandle g.state])).map _) (inbox cl (c.channels ++
        actions.map (actionSent c.players) ++ [logSent c.ctrlHandle g.state]) ++ _)
    rw [hlogged, inbox_append, inbox_append, haction, inbox_logSent (hroster.ne_ctrlId hcl) h.ctrlHandle,
      List.append_nil, List.map_append, List.append_assoc]
    exact (hstreams.live j cl hcl hj).extend action _ final
  · intro j cl hcl hj
    have hnil := h.inbox_actions_of_gone hroster hr hopen hw htaken hcl hj
    obtain ⟨seen, hseen, hstream⟩ := hstreams.gone j cl hcl hj
    refine ⟨seen, ?_, ?_⟩
    · change seen <+: (logged (c.channels ++ actions.map (actionSent c.players) ++
        [logSent c.ctrlHandle g.state])).map _
      rw [hlogged, List.map_append]
      exact hseen.trans (List.prefix_append _ _)
    · change Stream true seen (inbox cl (c.channels ++ actions.map (actionSent c.players) ++
        [logSent c.ctrlHandle g.state]))
      rw [inbox_append, inbox_append, hnil, inbox_logSent (hroster.ne_ctrlId hcl) h.ctrlHandle,
        List.append_nil, List.append_nil]
      exact hstream

end Actions

/-- The streams are in order after every input. -/
theorem InTurn.streams {answered : List (RequestId × ResponseValue)} {t : Turn F}
    {older : List (Turn F)} {c c' : PwController F} (hroster : ProperRoster roster)
    (h : InTurn roster answered t older c) (hstreams : Streams roster c) {i : PlayerId}
    {r : RequestId} {v : ResponseValue} (hr : (i, r) ∈ t.requests)
    (hopen : r ∉ answered.map Prod.fst) (hw : (c.heard i v).waitingFor = ∅)
    (hc : PwController.Stepped rt (c.heard i v).commands { c.heard i v with commands := ∅ } c') :
    Streams roster c' := by
  obtain ⟨g, actions, htaken, hc⟩ := hc
  have hready := h.ready hroster hr hopen hw htaken
  have hannounced := h.announced hroster hstreams hr hopen hw htaken
  split at hc
  · exact hc.streams hroster hready hannounced
  · exact hc.streams hroster hready hannounced

/-- The streams of the game of a match are in order. -/
def PwMatchState.Streams (roster : List ClientId) : PwMatchState F → Prop
  | .lobby _ => False
  | .playing c => Controller.Streams roster c
  | .finished c => Controller.Streams roster c

theorem run_streams (hne : lobby.players ≠ ∅) (inputs : List (Runtime × Input)) :
    Safe (fun _ => True) (fun s => s.game.Streams (Controller.roster rt lobby))
      (System.run rt lobby inputs) := by
  refine Safe.weaken (System.run_safe (I := fun _ s => s.game.Streams (Controller.roster rt lobby))
    hne ?_ ?_ ?_ ?_ inputs) fun s hs => hs.2
  · exact fun _ _ => trivial
  · exact fun c t hc _ => hc.streams
  · intro done rt' input answered t older c h hstreams
    refine ⟨fun _ _ => trivial, fun s hs => ?_⟩
    have hpolled (c' : PwController F) (hc' : Controller.Streams (Controller.roster rt lobby) c') :
        PwMatchState.Streams (Controller.roster rt lobby)
          (if c'.state.isFinished then .finished c' else .playing c') := by
      split <;> exact hc'
    cases hs with
    | noticed => exact hpolled c hstreams
    | dropped => exact hstreams
    | @heard i _ v => exact hpolled (c.heard i v) ⟨hstreams.live, hstreams.gone⟩
    | stepped hr hopen hw hc =>
      exact hpolled _ (h.streams (properRoster rt lobby) hstreams hr hopen hw hc)
  · exact fun _ _ _ _ h => h

end Run
end Mozaic.Controller
