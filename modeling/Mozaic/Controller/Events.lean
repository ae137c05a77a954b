import Mozaic.Controller.LockStep

/-! What the events of a match do to the turn that is going on, and turn lock-step
over whole matches. -/
namespace Mozaic.Controller
open Rust Rules Network Outcome

variable {F : Type}

/-! ## Responses -/

/-- The controller after player `i` answered `v`. -/
def PwController.heard (c : PwController F) (i : PlayerId) (v : ResponseValue) : PwController F :=
  { c with commands := c.commands.insert i v, waitingFor := c.waitingFor.erase i }

section Answer
variable {roster : List ClientId} {answered : List (RequestId × ResponseValue)} {t : Turn F}
  {older : List (Turn F)} {c : PwController F} {i : PlayerId} {r : RequestId} {v : ResponseValue}

/-- The request a player has in a turn is unlike those of the others. -/
theorem Requested.unique (hroster : ProperRoster roster) {k : Nat} (h : Requested roster k t)
    {j : PlayerId} {r' : RequestId} (hr : (i, r) ∈ t.requests) (hr' : (j, r') ∈ t.requests) :
    r = r' ↔ i = j := by
  obtain ⟨_, cl, hcl, rfl⟩ := (h.mem_iff i r).mp hr
  obtain ⟨_, cl', hcl', rfl⟩ := (h.mem_iff j r').mp hr'
  constructor
  · intro h
    obtain ⟨rfl⟩ := h
    exact hroster.inj hcl hcl'
  · intro heq
    subst heq
    rw [hcl] at hcl'
    cases hcl'
    rfl

/-- A request that is open belongs to the current turn. -/
theorem InTurn.request_of_issued (h : InTurn roster answered t older c)
    (hr : r ∈ issued c.channels) (hopen : r ∉ answered.map Prod.fst) :
    ∃ i, (i, r) ∈ t.requests ∧ c.clientPlayer.lookup r.clientId = some i := by
  obtain ⟨u, hu, i, hi⟩ := (h.issued r).mp hr
  rw [h.turns] at hu
  rcases List.mem_cons.mp hu with rfl | hu
  · obtain ⟨_, cl, hcl, rfl⟩ := (h.requested.mem_iff i r).mp hi
    exact ⟨i, hi, (h.clientPlayer cl i).mpr hcl⟩
  · exact absurd ((h.history.closed hu).1.complete i r hi) hopen

theorem InTurn.commands_heard (hroster : ProperRoster roster) (h : InTurn roster answered t older c)
    (hr : (i, r) ∈ t.requests) (hopen : r ∉ answered.map Prod.fst) (j : PlayerId)
    (w : ResponseValue) : (c.heard i v).commands.lookup j = some w ↔
      ∃ r', (j, r') ∈ t.requests ∧ (r', w) ∈ answered ++ [(r, v)] := by
  simp only [PwController.heard, HashMap.lookup_insert_eq, List.mem_append, List.mem_singleton,
    Prod.mk.injEq]
  by_cases hj : j = i
  · subst j
    rw [if_pos rfl]
    constructor
    · intro h
      obtain ⟨rfl⟩ := h
      exact ⟨r, hr, .inr ⟨rfl, rfl⟩⟩
    · intro h
      obtain ⟨r', hr', hmem | ⟨_, rfl⟩⟩ := h
      · have heq := (h.requested.unique hroster hr hr').mpr rfl
        exact absurd (List.mem_map_of_mem hmem) (heq ▸ hopen)
      · rfl
  · rw [if_neg hj, h.commands]
    refine exists_congr fun r' => and_congr_right fun hr' => ?_
    have hne : r' ≠ r := fun heq => hj ((h.requested.unique hroster hr' hr).mp heq)
    simp [hne]

theorem InTurn.waitingFor_heard (hroster : ProperRoster roster)
    (h : InTurn roster answered t older c) (hr : (i, r) ∈ t.requests) (j : PlayerId) :
    j ∈ (c.heard i v).waitingFor ↔
      ∃ r', (j, r') ∈ t.requests ∧ r' ∉ (answered ++ [(r, v)]).map Prod.fst := by
  simp only [PwController.heard, Finset.mem_erase, h.waitingFor, List.map_append, List.map_singleton,
    List.mem_append, List.mem_singleton, not_or]
  constructor
  · intro h
    obtain ⟨hj, r', hr', hopen⟩ := h
    exact ⟨r', hr', hopen, fun heq => hj ((h.requested.unique hroster hr' hr).mp heq)⟩
  · intro h
    obtain ⟨r', hr', hopen, hne⟩ := h
    refine ⟨?_, r', hr', hopen⟩
    intro heq
    subst heq
    exact hne ((h.requested.unique hroster hr' hr).mpr rfl)

theorem InTurn.asked_answer (h : InTurn roster answered t older c) (hr : (i, r) ∈ t.requests)
    (hopen : r ∉ answered.map Prod.fst) : Asked (answered ++ [(r, v)]) c where
  issued := h.issued
  known := fun a ha => by
    rcases List.mem_append.mp ha with ha | ha
    · exact h.known a ha
    · rw [List.mem_singleton.mp ha]
      exact (h.issued r).mpr ⟨t, h.turns ▸ List.mem_cons_self, i, hr⟩
  distinct := by
    rw [List.map_append, List.nodup_append]
    refine ⟨h.distinct, List.nodup_singleton _, fun a ha b hb => ?_⟩
    rw [List.mem_singleton.mp hb]
    intro heq
    subst heq
    exact hopen ha

/-- A response that is not the last one is noted. -/
theorem InTurn.heard (hroster : ProperRoster roster) (h : InTurn roster answered t older c)
    (hr : (i, r) ∈ t.requests) (hopen : r ∉ answered.map Prod.fst)
    (hw : (c.heard i v).waitingFor.Nonempty) :
    InTurn roster (answered ++ [(r, v)]) t older (c.heard i v) :=
  { toSeats := ⟨h.consistent, h.covered, h.size, h.ctrlHandle, h.clientPlayer⟩
    toAsked :=
      have hasked := h.asked_answer (v := v) hr hopen
      ⟨hasked.issued, hasked.known, hasked.distinct⟩
    turns := h.turns
    players := h.players
    state := h.state
    requested := h.requested
    uncalled := h.uncalled
    history := h.history.answer hopen v
    commands := h.commands_heard hroster hr hopen
    waitingFor := h.waitingFor_heard hroster hr
    waiting := hw
    going := h.going
    turnNum := h.turnNum }

/-- The last response closes the turn. -/
theorem InTurn.ready [F64 F] [External F] (hroster : ProperRoster roster)
    (h : InTurn roster answered t older c) (hr : (i, r) ∈ t.requests)
    (hopen : r ∉ answered.map Prod.fst) (hw : (c.heard i v).waitingFor = ∅) {ord : IterOrder PlayerId}
    {g : Game F} {actions : List (PlayerId × Proto.PlayerAction)}
    (htaken : TurnTaken c.toGame ((c.heard i v).commands.entriesIn ord) g actions) :
    Ready roster (answered ++ [(r, v)])
      (PwController.played { c.heard i v with commands := ∅ } (c.heard i v).commands g actions) := by
  have hnd := HashMap.nodup_fst_entriesIn ord (c.heard i v).commands
  have hconsistent := h.consistent.taken hnd htaken
  have hasked := h.asked_answer (v := v) hr hopen
  have hclosed : Closed (answered ++ [(r, v)])
      ({ t with calls := t.calls ++ [(c.heard i v).commands] } : Turn F) :=
    { complete := fun j r' hr' => by
        by_contra hopen'
        have hj := (h.waitingFor_heard hroster (v := v) hr j).mpr ⟨r', hr', hopen'⟩
        rw [hw] at hj
        exact Finset.notMem_empty _ hj
      call := by
        refine ⟨(c.heard i v).commands, by rw [h.uncalled]; rfl, fun j w => ?_⟩
        exact h.commands_heard hroster hr hopen j w }
  have hturns : Turn.call (c.heard i v).commands c.turns =
      { t with calls := t.calls ++ [(c.heard i v).commands] } :: older := by
    rw [h.turns]
    rfl
  have hlength : (Turn.call (c.heard i v).commands c.turns).length = older.length + 1 := by
    rw [hturns]
    rfl
  have hissued : issued (PwController.played { c.heard i v with commands := ∅ }
      (c.heard i v).commands g actions).channels = issued c.channels := by
    simp [PwController.played, PwController.heard]
  exact
    { consistent := hconsistent
      covered := fun j p hp hj => (alive_iff_of_stepped htaken.stepped hp).mpr hj
      size := htaken.length_players.trans h.size
      ctrlHandle := h.ctrlHandle
      clientPlayer := h.clientPlayer
      issued := fun r' => by
        rw [hissued, hasked.issued, h.turns]
        change _ ↔ ∃ u ∈ Turn.call _ c.turns, _
        rw [hturns]
        simp
      known := fun a ha => by
        rw [hissued]
        exact hasked.known a ha
      distinct := hasked.distinct
      handles := fun j p hp => by
        obtain ⟨_, cl, hcl, rfl⟩ := (h.players j p).mp hp
        exact ⟨cl, hcl, by rw [← hlength]; rfl⟩
      seated := fun j ha => by
        have ha' : j ∈ g.state.livingPlayers :=
          (PlanetWars.aliveAt_iff_mem_livingPlayers hconsistent.settled.toValid).mp ha
        have hj := (outlived_taken h.consistent h.covered hnd htaken).living ha'
        have hjc := (PlanetWars.aliveAt_iff_mem_livingPlayers h.consistent.settled.toValid).mpr hj
        have hlt : j < roster.length := h.size ▸ PlanetWars.lt_of_aliveAt hjc
        exact Finmap.mem_iff.mpr ⟨_, (h.players j _).mpr
          ⟨hjc, _, List.getElem?_eq_getElem hlt, rfl⟩⟩
      history := by
        change History roster _ (Turn.call _ c.turns)
        rw [hturns]
        have hreq := h.requested
        exact ⟨⟨hreq.valid, hreq.size, hreq.nodup, hreq.mem_iff⟩, hclosed, h.history.answer hopen v⟩
      commands := rfl
      waitingFor := hw
      turnNum := by
        change g.state.turnNum = (Turn.call _ c.turns).length
        rw [hlength, htaken.turnNum, h.turnNum] }

end Answer

/-! ## Events -/

/-- What an input does to a game in the turn `t`. -/
inductive Delivered [F64 F] [External F] (rt : Runtime) (answered : List (RequestId × ResponseValue))
    (t : Turn F) (c : PwController F) : Input → System F → Prop
  /-- An event that is no response only finds out that the game is finished. -/
  | noticed {input : Input} (h : input.answers = []) : Delivered rt answered t c input
      ⟨if c.state.isFinished then .finished c else .playing c, answered⟩
  /-- A response to nothing that is asked never gets there. -/
  | dropped {r : RequestId} {v : ResponseValue}
      (h : r ∉ issued c.channels ∨ r ∈ answered.map Prod.fst) :
      Delivered rt answered t c (.response r v) ⟨.playing c, answered⟩
  | heard {i : PlayerId} {r : RequestId} {v : ResponseValue} (hr : (i, r) ∈ t.requests)
      (hopen : r ∉ answered.map Prod.fst) (hw : (c.heard i v).waitingFor.Nonempty) :
      Delivered rt answered t c (.response r v)
        ⟨if c.state.isFinished then .finished (c.heard i v) else .playing (c.heard i v),
          answered ++ [(r, v)]⟩
  | stepped {i : PlayerId} {r : RequestId} {v : ResponseValue} {c' : PwController F}
      (hr : (i, r) ∈ t.requests) (hopen : r ∉ answered.map Prod.fst)
      (hw : (c.heard i v).waitingFor = ∅)
      (h : PwController.Stepped rt (c.heard i v).commands { c.heard i v with commands := ∅ } c') :
      Delivered rt answered t c (.response r v)
        ⟨if c'.state.isFinished then .finished c' else .playing c', answered ++ [(r, v)]⟩

/-- How an event may fail. -/
def DeliveryPanic [F64 F] [External F] (c : PwController F) (e : Panic) : Prop :=
  e = .addOverflow .requestCounter ∨
    ∃ messages, (messages.map Prod.fst).Nodup ∧ TurnOverflow c.toGame messages e

section Deliver
variable [F64 F] [External F] {roster : List ClientId}
  {answered : List (RequestId × ResponseValue)} {t : Turn F} {older : List (Turn F)}
  {c : PwController F}

omit [F64 F] [External F] in
theorem InTurn.seated (h : InTurn roster answered t older c) : c.Seated := by
  intro i p hp
  obtain ⟨ha, _, _, rfl⟩ := (h.players i p).mp hp
  exact ⟨rfl, PlanetWars.lt_of_aliveAt ha⟩

omit [F64 F] [External F] in
/-- Whoever has a request in this turn is in the game. -/
theorem InTurn.mem_players (h : InTurn roster answered t older c) {i : PlayerId} {r : RequestId}
    (hr : (i, r) ∈ t.requests) : i ∈ c.players := by
  obtain ⟨ha, cl, hcl, _⟩ := (h.requested.mem_iff i r).mp hr
  exact Finmap.mem_iff.mpr ⟨_, (h.players i _).mpr ⟨h.state ▸ ha, cl, hcl, rfl⟩⟩

/-- A response to an open request is noted, and the last one of the turn makes it step. -/
theorem InTurn.handleEvent_safe (hroster : ProperRoster roster)
    (h : InTurn roster answered t older c) {i : PlayerId} {r : RequestId} {v : ResponseValue}
    (hr : (i, r) ∈ t.requests) (hopen : r ∉ answered.map Prod.fst)
    (hi : c.clientPlayer.lookup r.clientId = some i) (rt : Runtime) :
    Safe (DeliveryPanic c)
      (fun c' => ((c.heard i v).waitingFor.Nonempty ∧ c' = c.heard i v) ∨
        ((c.heard i v).waitingFor = ∅ ∧
          PwController.Stepped rt (c.heard i v).commands { c.heard i v with commands := ∅ } c'))
      (c.handleEvent rt ⟨r.clientId, .response r v⟩) := by
  have hreceive : c.receive ⟨r.clientId, .response r v⟩ = .ok (c.heard i v) := by
    simp only [PwController.receive, hi, unwrap_some, ok_bind]
    rfl
  rw [PwController.handleEvent, hreceive, ok_bind]
  split
  · rename_i hw
    have hplayers : ∀ j, j ∈ (c.heard i v).commands → j ∈ c.players := by
      intro j hj
      obtain ⟨w, hw⟩ := Finmap.mem_iff.mp hj
      obtain ⟨r', hr', _⟩ := (h.commands_heard hroster hr hopen j w).mp hw
      exact h.mem_players hr'
    refine (PwController.step_safe rt (c := { c.heard i v with commands := ∅ }) h.consistent
      h.seated hplayers).mono ?_ fun c' hc' => .inr ⟨hw, hc'⟩
    intro e h
    rcases h with he | he
    · exact .inr ⟨_, HashMap.nodup_fst_entriesIn _ _, he⟩
    · exact .inl he
  · rename_i hw
    exact .inl ⟨Finset.nonempty_iff_ne_empty.mpr hw, rfl⟩

theorem InTurn.deliver_safe (hroster : ProperRoster roster) (h : InTurn roster answered t older c)
    (rt : Runtime) (input : Input) :
    Safe (DeliveryPanic c) (Delivered rt answered t c input)
      (System.deliver ⟨.playing c, answered⟩ rt input) := by
  have hwaiting : c.waitingFor ≠ ∅ := h.waiting.ne_empty
  cases input with
  | connected | disconnected | message =>
    simp only [System.deliver, System.event, PwMatchState.poll, PwController.handleEvent,
      PwController.receive, pure_bind, if_neg hwaiting, Input.answers, List.append_nil]
    exact .noticed rfl
  | response r v =>
    by_cases hr : r ∈ issued c.channels ∧ r ∉ answered.map Prod.fst
    · obtain ⟨hr, hopen⟩ := hr
      obtain ⟨i, hreq, hi⟩ := h.request_of_issued hr hopen
      simp only [System.deliver, System.event, PwMatchState.channels, hr, hopen,
        not_false_eq_true, and_self, if_true, PwMatchState.poll, bind_assoc, pure_bind]
      refine (h.handleEvent_safe hroster hreq hopen hi rt).bind ?_
      intro c' h
      rcases h with ⟨hw, rfl⟩ | ⟨hw, hc'⟩
      · exact .heard hreq hopen hw
      · exact .stepped hreq hopen hw hc'
    · have hevent : System.event ⟨.playing c, answered⟩ (.response r v) = none := if_neg hr
      rw [System.deliver, hevent]
      exact .dropped (by tauto)

/-! ## Whole matches -/

/-- Where a match stands between two events. -/
inductive Phase (roster : List ClientId) : System F → Prop
  | playing {answered : List (RequestId × ResponseValue)} {t : Turn F} {older : List (Turn F)}
      {c : PwController F} (h : InTurn roster answered t older c) :
      Phase roster ⟨.playing c, answered⟩
  /-- The first event showed the game to be finished from the start. -/
  | unplayed {answered : List (RequestId × ResponseValue)} {t : Turn F} {c : PwController F}
      (h : InTurn roster answered t [] c) : Phase roster ⟨.finished c, answered⟩
  | ended {answered : List (RequestId × ResponseValue)} {c : PwController F}
      (h : History roster answered c.turns) (hd : (answered.map Prod.fst).Nodup) :
      Phase roster ⟨.finished c, answered⟩

/-- The controller after the last response of a turn, according to whether the game
goes on. -/
theorem InTurn.stepped (hroster : ProperRoster roster) (h : InTurn roster answered t older c)
    {i : PlayerId} {r : RequestId} {v : ResponseValue} (hr : (i, r) ∈ t.requests)
    (hopen : r ∉ answered.map Prod.fst) (hw : (c.heard i v).waitingFor = ∅) {rt : Runtime}
    {c' : PwController F}
    (hc : PwController.Stepped rt (c.heard i v).commands { c.heard i v with commands := ∅ } c') :
    if c'.state.isFinished then
      History roster (answered ++ [(r, v)]) c'.turns ∧ ((answered ++ [(r, v)]).map Prod.fst).Nodup
    else ∃ t', InTurn roster (answered ++ [(r, v)]) t' (Turn.call (c.heard i v).commands c.turns) c' := by
  obtain ⟨g, actions, htaken, hc⟩ := hc
  have hready := h.ready hroster hr hopen hw htaken
  cases hfin : g.state.isFinished with
  | true =>
    rw [if_pos hfin] at hc
    have hstate : c'.state = g.state := congrArg Game.state hc.toGame
    rw [hstate, if_pos hfin, hc.turns]
    exact ⟨hready.history, hready.distinct⟩
  | false =>
    rw [hfin, if_neg Bool.false_ne_true] at hc
    have hstate : c'.state = g.state := congrArg Game.state hc.toGame
    rw [hstate, hfin, if_neg Bool.false_ne_true]
    exact ⟨_, hready.prompted hc (PlanetWars.exists_aliveAt hfin) (.inr hfin)⟩

theorem InTurn.delivered (hroster : ProperRoster roster) (h : InTurn roster answered t older c)
    {rt : Runtime} {input : Input} {s : System F} (hs : Delivered rt answered t c input s) :
    Phase roster s := by
  have hearly (hfin : c.state.isFinished = true) : older = [] :=
    h.going.resolve_right (by simp [hfin])
  cases hs with
  | noticed =>
    split
    · obtain rfl := hearly ‹_›
      exact .unplayed h
    · exact .playing h
  | dropped => exact .playing h
  | heard hr hopen hw =>
    split
    · obtain rfl := hearly ‹_›
      exact .unplayed (h.heard hroster hr hopen hw)
    · exact .playing (h.heard hroster hr hopen hw)
  | stepped hr hopen hw hc =>
    have hnext := h.stepped hroster hr hopen hw hc
    split
    · rename_i hfin
      rw [if_pos hfin] at hnext
      exact .ended hnext.1 hnext.2
    · rename_i hfin
      rw [if_neg hfin] at hnext
      exact .playing hnext.choose_spec

end Deliver

section Run
variable [F64 F] [External F] {rt : Runtime} {lobby : Lobby F}

/-- The invariant rule of a match: what holds when the game was started and what every
input preserves holds after any inputs. `I` also sees the inputs so far. -/
theorem System.run_safe (hne : lobby.players ≠ ∅) {A : Panic → Prop}
    {I : List (Runtime × Input) → System F → Prop} (hpanic : ∀ e, StartPanic lobby e → A e)
    (hstart : ∀ c t, Started rt lobby c → InTurn (roster rt lobby) [] t [] c →
      I [] ⟨.playing c, []⟩)
    (hstep : ∀ done rt' input answered t older c, InTurn (roster rt lobby) answered t older c →
      I done ⟨.playing c, answered⟩ →
      (∀ e, DeliveryPanic c e → A e) ∧
        ∀ s, Delivered rt' answered t c input s → I (done ++ [(rt', input)]) s)
    (hover : ∀ done input answered c, I done ⟨.finished c, answered⟩ →
      I (done ++ [input]) ⟨.finished c, answered⟩)
    (inputs : List (Runtime × Input)) :
    Safe A (fun s => Phase (roster rt lobby) s ∧ I inputs s) (System.run rt lobby inputs) := by
  have hroster := properRoster rt lobby
  unfold System.run System.start
  refine Safe.bind (P := fun s => Phase (roster rt lobby) s ∧ I [] s) ?_ fun s hs => ?_
  · refine ((new_safe rt lobby).mono hpanic fun _ h => h).bind fun c hc => ?_
    obtain ⟨t, ht⟩ := hc.inTurn hne
    exact ⟨.playing ht, hstart c t hc ht⟩
  · refine Safe.foldlM_prefix (I := fun done s => Phase (roster rt lobby) s ∧ I done s) hs ?_
    rintro done ⟨rt', input⟩ _ _ _ ⟨hphase, hI⟩
    cases hphase with
    | playing h =>
      obtain ⟨hA, hS⟩ := hstep done rt' input _ _ _ _ h hI
      exact (h.deliver_safe hroster rt' input).mono hA fun s hs => ⟨h.delivered hroster hs, hS s hs⟩
    | unplayed h => exact ⟨.unplayed h, hover _ _ _ _ hI⟩
    | ended h hd => exact ⟨.ended h hd, hover _ _ _ _ hI⟩

/-- Turn number `k` was played in lock-step. -/
structure LockStep (answered : List (RequestId × ResponseValue)) (k : Nat) (t : Turn F) : Prop where
  /-- The players who are asked are those alive in the state they are shown. -/
  prompted : ∀ i, (∃ r, (i, r) ∈ t.requests) ↔ i ∈ t.state.livingPlayers
  /-- They are asked once. -/
  once : (t.requests.map Prod.fst).Nodup
  /-- They are asked in this turn. -/
  numbered : ∀ i r, (i, r) ∈ t.requests → r.requestNum = k
  /-- `step` is called once everybody answered, and once only, with all the answers to
  the requests of the turn and nothing else. -/
  closed : (∀ i r, (i, r) ∈ t.requests → r ∈ answered.map Prod.fst) → ∃ m, t.calls = [m] ∧
    ∀ i v, m.lookup i = some v ↔ ∃ r, (i, r) ∈ t.requests ∧ (r, v) ∈ answered
  /-- It is not called before. -/
  pending : ∀ i r, (i, r) ∈ t.requests → r ∉ answered.map Prod.fst → t.calls = []

section
omit [F64 F] [External F]

theorem Requested.prompted {roster : List ClientId} {k : Nat} {t : Turn F}
    (h : Requested roster k t) (i : PlayerId) :
    (∃ r, (i, r) ∈ t.requests) ↔ i ∈ t.state.livingPlayers := by
  rw [← PlanetWars.aliveAt_iff_mem_livingPlayers h.valid]
  constructor
  · intro h
    obtain ⟨r, hr⟩ := h
    exact ((h.mem_iff i r).mp hr).1
  · intro ha
    have hi : i < roster.length := h.size ▸ PlanetWars.lt_of_aliveAt ha
    exact ⟨_, (h.mem_iff i _).mpr ⟨ha, _, List.getElem?_eq_getElem hi, rfl⟩⟩

theorem Requested.numbered {roster : List ClientId} {k : Nat} {t : Turn F}
    (h : Requested roster k t) (i : PlayerId) (r : RequestId) (hr : (i, r) ∈ t.requests) :
    r.requestNum = k := by
  obtain ⟨_, cl, _, rfl⟩ := (h.mem_iff i r).mp hr
  rfl

theorem Requested.lockStep {roster : List ClientId} {answered : List (RequestId × ResponseValue)}
    {k : Nat} {t : Turn F} (h : Requested roster k t) (hc : Closed answered t) :
    LockStep answered k t where
  prompted := h.prompted
  once := h.nodup
  numbered := h.numbered
  closed := fun _ => hc.call
  pending := fun i r hr hopen => absurd (hc.complete i r hr) hopen

theorem History.lockStep {roster : List ClientId} {answered : List (RequestId × ResponseValue)}
    {newer : List (Turn F)} {t : Turn F} {older : List (Turn F)}
    (h : History roster answered (newer ++ t :: older)) : LockStep answered older.length t := by
  induction newer with
  | nil => exact h.1.lockStep h.2.1
  | cons u newer ih => exact ih h.2.2

theorem InTurn.lockStep {roster : List ClientId} {answered : List (RequestId × ResponseValue)}
    {t u : Turn F} {older older' newer : List (Turn F)} {c : PwController F}
    (h : InTurn roster answered t older c) (hu : c.turns = newer ++ u :: older') :
    LockStep answered older'.length u := by
  rw [h.turns] at hu
  cases newer with
  | nil =>
    obtain ⟨rfl, rfl⟩ := List.cons.inj hu
    obtain ⟨i, hi⟩ := h.waiting
    obtain ⟨r, hr, hopen⟩ := (h.waitingFor i).mp hi
    exact
      { prompted := h.requested.prompted
        once := h.requested.nodup
        numbered := h.requested.numbered
        closed := fun hall => absurd (hall i r hr) hopen
        pending := fun _ _ _ _ => h.uncalled }
  | cons _ newer =>
    obtain ⟨rfl, rfl⟩ := List.cons.inj hu
    exact h.history.lockStep

theorem Phase.lockStep {roster : List ClientId} {s : System F} (h : Phase roster s) :
    (s.answered.map Prod.fst).Nodup ∧ ∀ newer t older,
      s.game.turns = newer ++ t :: older → LockStep s.answered older.length t := by
  cases h with
  | playing h => exact ⟨h.distinct, fun _ _ _ ht => h.lockStep ht⟩
  | unplayed h => exact ⟨h.distinct, fun _ _ _ ht => h.lockStep ht⟩
  | @ended answered c h hd =>
    refine ⟨hd, fun newer t older ht => ?_⟩
    have hturns : c.turns = newer ++ t :: older := ht
    rw [hturns] at h
    exact h.lockStep

end

theorem DeliveryPanic.overflow {c : PwController F} {e : Panic} (h : DeliveryPanic c e) :
    ∃ counter, e = .addOverflow counter := by
  rcases h with rfl | ⟨_, _, h⟩
  · exact ⟨_, rfl⟩
  · exact h.overflow

theorem run_lockStep (rt : Runtime) (lobby : Lobby F) (hne : lobby.players ≠ ∅)
    (inputs : List (Runtime × Input)) :
    Safe (fun e => PwController.createGame lobby = .error e ∨ ∃ counter, e = .addOverflow counter)
      (fun s => (s.answered.map Prod.fst).Nodup ∧ ∀ newer t older,
        s.game.turns = newer ++ t :: older → LockStep s.answered older.length t)
      (System.run rt lobby inputs) := by
  refine Safe.weaken (System.run_safe (I := fun _ _ => True) hne ?_ ?_ ?_ ?_ inputs)
    fun s hs => hs.1.lockStep
  · intro e h
    rcases h with he | rfl
    · exact .inl he
    · exact .inr ⟨_, rfl⟩
  · exact fun _ _ _ _ => trivial
  · exact fun _ _ _ _ _ _ _ _ _ => ⟨fun e he => .inr he.overflow, fun _ _ => trivial⟩
  · exact fun _ _ _ _ _ => trivial

theorem run_lockStep_skirmish :
    Safe (fun e => PwController.createGame (skirmishLobby [[1], [2]]) = .error e ∨
        ∃ counter, e = .addOverflow counter)
      (fun s => (s.answered.map Prod.fst).Nodup ∧ ∀ newer t older,
        s.game.turns = newer ++ t :: older → LockStep s.answered older.length t)
      (System.run skirmishRuntime (skirmishLobby [[1], [2]])
        [(skirmishRuntime, .response ⟨⟨2⟩, 0⟩ (.ok [])), (skirmishRuntime, .connected ⟨1⟩)]) :=
  run_lockStep _ _ (by decide) _

end Run
end Mozaic.Controller
