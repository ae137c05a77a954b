import Mozaic.Controller.System
import Mozaic.Game.Elimination

/-! Turn lock-step: the invariant of a match between two events, and what an event
can do to it. -/
namespace Mozaic
open Rust Rules Network Outcome

variable {F : Type}

theorem Rules.PlanetWars.aliveAt_iff {s : PlanetWars F} {i : PlayerId} :
    s.aliveAt i = true ↔ ∃ p, s.players[i]? = some p ∧ p.alive = true := by
  rw [aliveAt]
  cases s.players[i]? <;> simp

theorem Rules.PlanetWars.aliveAt_iff_mem_livingPlayers {s : PlanetWars F} (hs : Valid s)
    {i : PlayerId} : s.aliveAt i = true ↔ i ∈ s.livingPlayers := by
  rw [aliveAt_iff, mem_livingPlayers hs.playerIds]

theorem Rules.PlanetWars.lt_of_aliveAt {s : PlanetWars F} {i : PlayerId}
    (h : s.aliveAt i = true) : i < s.players.length := by
  obtain ⟨p, hp, _⟩ := aliveAt_iff.mp h
  exact (List.getElem?_eq_some_iff.mp hp).1

theorem Rules.PlanetWars.exists_aliveAt {s : PlanetWars F} (h : s.isFinished = false) :
    ∃ i, s.aliveAt i = true := by
  simp only [isFinished, ge_iff_le, Bool.or_eq_false_iff, decide_eq_false_iff_not] at h
  obtain ⟨p, hp⟩ := List.exists_mem_of_length_pos (by omega : 0 < (s.players.filter (·.alive)).length)
  obtain ⟨hmem, ha⟩ := List.mem_filter.mp hp
  obtain ⟨i, hi⟩ := List.mem_iff_getElem?.mp hmem
  exact ⟨i, aliveAt_iff.mpr ⟨p, hi, ha⟩⟩

namespace Controller

/-! ## Turns and their requests -/

/-- The requests of turn number `k`: one for each player alive, numbered `k`. -/
structure Requested (roster : List ClientId) (k : Nat) (t : Turn F) : Prop where
  valid : Valid t.state
  size : t.state.players.length = roster.length
  nodup : (t.requests.map Prod.fst).Nodup
  mem_iff : ∀ i r, (i, r) ∈ t.requests ↔
    t.state.aliveAt i = true ∧ ∃ cl, roster[i]? = some cl ∧ r = ⟨cl, k⟩

/-- Everybody answered, and `step` was called once, with the answers. -/
structure Closed (answered : List (RequestId × ResponseValue)) (t : Turn F) : Prop where
  complete : ∀ i r, (i, r) ∈ t.requests → r ∈ answered.map Prod.fst
  call : ∃ m, t.calls = [m] ∧
    ∀ i v, m.lookup i = some v ↔ ∃ r, (i, r) ∈ t.requests ∧ (r, v) ∈ answered

/-- The turns before the current one. -/
def History (roster : List ClientId) (answered : List (RequestId × ResponseValue)) :
    List (Turn F) → Prop
  | [] => True
  | t :: older => Requested roster older.length t ∧ Closed answered t ∧ History roster answered older

theorem History.requestNum_lt {roster : List ClientId} {answered : List (RequestId × ResponseValue)}
    {turns : List (Turn F)} (h : History roster answered turns) {t : Turn F} (ht : t ∈ turns)
    {i : PlayerId} {r : RequestId} (hr : (i, r) ∈ t.requests) : r.requestNum < turns.length := by
  induction turns with
  | nil => cases ht
  | cons u older ih =>
    obtain ⟨hreq, _, hold⟩ := h
    rcases List.mem_cons.mp ht with rfl | ht
    · obtain ⟨_, cl, _, rfl⟩ := (hreq.mem_iff i r).mp hr
      exact Nat.lt_succ_self _
    · exact Nat.lt_succ_of_lt (ih hold ht)

theorem History.closed {roster : List ClientId} {answered : List (RequestId × ResponseValue)}
    {turns : List (Turn F)} (h : History roster answered turns) {t : Turn F} (ht : t ∈ turns) :
    Closed answered t ∧ ∃ k, Requested roster k t := by
  induction turns with
  | nil => cases ht
  | cons u older ih =>
    obtain ⟨hreq, hclosed, hold⟩ := h
    rcases List.mem_cons.mp ht with rfl | ht
    · exact ⟨hclosed, _, hreq⟩
    · exact ih hold ht

/-- An answer to another request changes nothing about a turn that is over. -/
theorem Closed.answer {answered : List (RequestId × ResponseValue)} {t : Turn F}
    (h : Closed answered t) {r : RequestId} (hr : r ∉ answered.map Prod.fst) (v : ResponseValue) :
    Closed (answered ++ [(r, v)]) t where
  complete := fun i r' hr' => by
    rw [List.map_append, List.mem_append]
    exact .inl (h.complete i r' hr')
  call := by
    obtain ⟨m, hm, hvalues⟩ := h.call
    refine ⟨m, hm, fun i v' => (hvalues i v').trans (exists_congr fun r' => ?_)⟩
    refine and_congr_right fun hr' => ?_
    have hne : r' ≠ r := fun heq => hr (heq ▸ h.complete i r' hr')
    simp [hne]

theorem History.answer {roster : List ClientId} {answered : List (RequestId × ResponseValue)}
    {turns : List (Turn F)} (h : History roster answered turns) {r : RequestId}
    (hr : r ∉ answered.map Prod.fst) (v : ResponseValue) :
    History roster (answered ++ [(r, v)]) turns := by
  induction turns with
  | nil => trivial
  | cons t older ih => exact ⟨h.1, h.2.1.answer hr v, ih h.2.2⟩

/-! ## The invariant -/

/-- The clients of a game: no two are the same and none is the control client. -/
structure ProperRoster (roster : List ClientId) : Prop where
  nodup : roster.Nodup
  control : ctrlId ∉ roster

theorem properRoster (rt : Runtime) (lobby : Lobby F) : ProperRoster (roster rt lobby) :=
  ⟨nodup_roster rt lobby, ctrlId_not_mem_roster rt lobby⟩

theorem ProperRoster.ne_ctrlId {roster : List ClientId} (h : ProperRoster roster) {i : Nat}
    {cl : ClientId} (hcl : roster[i]? = some cl) : cl ≠ ctrlId := by
  rintro rfl
  exact h.control (List.mem_of_getElem? hcl)

theorem ProperRoster.inj {roster : List ClientId} (h : ProperRoster roster) {i j : Nat}
    {cl : ClientId} (hi : roster[i]? = some cl) (hj : roster[j]? = some cl) : i = j := by
  obtain ⟨hlt, _⟩ := List.getElem?_eq_some_iff.mp hi
  exact (List.getElem?_inj hlt h.nodup).mp (hi.trans hj.symm)

/-- A game and its players, whatever the turn. -/
structure Seats (roster : List ClientId) (c : PwController F) : Prop where
  consistent : c.toGame.Consistent
  covered : FlagsCover c.state
  size : c.state.players.length = roster.length
  ctrlHandle : c.ctrlHandle.clientId = ctrlId
  clientPlayer : ∀ cl i, c.clientPlayer.lookup cl = some i ↔ roster[i]? = some cl

/-- What was asked and answered on the channels. -/
structure Asked (answered : List (RequestId × ResponseValue)) (c : PwController F) : Prop where
  issued : ∀ r, r ∈ issued c.channels ↔ ∃ t ∈ c.turns, ∃ i, (i, r) ∈ t.requests
  known : ∀ a ∈ answered, a.1 ∈ Controller.issued c.channels
  distinct : (answered.map Prod.fst).Nodup

/-- A controller about to prompt its players. -/
structure Ready (roster : List ClientId) (answered : List (RequestId × ResponseValue))
    (c : PwController F) : Prop extends Seats roster c, Asked answered c where
  handles : ∀ i p, c.players.lookup i = some p →
    ∃ cl, roster[i]? = some cl ∧ p = ⟨i, ⟨cl, c.turns.length⟩⟩
  seated : ∀ i, c.state.aliveAt i = true → i ∈ c.players
  history : History roster answered c.turns
  commands : c.commands = ∅
  waitingFor : c.waitingFor = ∅
  turnNum : c.state.turnNum = c.turns.length

/-- A controller in the turn `t`, after the turns `older`. -/
structure InTurn (roster : List ClientId) (answered : List (RequestId × ResponseValue))
    (t : Turn F) (older : List (Turn F)) (c : PwController F) : Prop
    extends Seats roster c, Asked answered c where
  turns : c.turns = t :: older
  players : ∀ i p, c.players.lookup i = some p ↔ c.state.aliveAt i = true ∧
    ∃ cl, roster[i]? = some cl ∧ p = ⟨i, ⟨cl, older.length + 1⟩⟩
  state : t.state = c.state
  requested : Requested roster older.length t
  uncalled : t.calls = []
  history : History roster answered older
  commands : ∀ i v, c.commands.lookup i = some v ↔ ∃ r, (i, r) ∈ t.requests ∧ (r, v) ∈ answered
  waitingFor : ∀ i, i ∈ c.waitingFor ↔ ∃ r, (i, r) ∈ t.requests ∧ r ∉ answered.map Prod.fst
  waiting : c.waitingFor.Nonempty
  going : older = [] ∨ c.state.isFinished = false
  turnNum : c.state.turnNum = older.length

/-! ## Prompting opens a turn -/

theorem mem_requestsTo {s : PlanetWars F} {ord : IterOrder PlayerId}
    {players : HashMap PlayerId Player} {i : PlayerId} {r : RequestId} :
    (i, r) ∈ requestsTo s (players.entriesIn ord) ↔
      s.aliveAt i = true ∧ ∃ p, players.lookup i = some p ∧ r = p.requestId := by
  simp only [requestsTo, List.mem_map, List.mem_filter, Prod.exists, Prod.mk.injEq,
    HashMap.mem_entriesIn]
  constructor
  · intro h
    obtain ⟨j, p, ⟨hp, ha⟩, rfl, rfl⟩ := h
    exact ⟨ha, p, hp, rfl⟩
  · intro h
    obtain ⟨ha, p, hp, rfl⟩ := h
    exact ⟨i, p, ⟨hp, ha⟩, rfl, rfl⟩

theorem nodup_requestsTo (s : PlanetWars F) (ord : IterOrder PlayerId)
    (players : HashMap PlayerId Player) :
    ((requestsTo s (players.entriesIn ord)).map Prod.fst).Nodup := by
  have hmap : (requestsTo s (players.entriesIn ord)).map Prod.fst =
      ((players.entriesIn ord).filter fun e => s.aliveAt e.1).map Prod.fst := by
    simp [requestsTo]
  rw [hmap]
  exact (HashMap.nodup_fst_entriesIn ord players).sublist (List.filter_sublist.map _)

theorem issued_prompts (s : PlanetWars F) (deadline : Instant)
    (entries : List (PlayerId × Player)) :
    issued (entries.map (promptSent s deadline)) = (requestsTo s entries).map Prod.snd := by
  induction entries with
  | nil => rfl
  | cons e entries ih =>
    have hcons (sent : Sent F) (rest : Channels F) : issued (sent :: rest) =
        issued [sent] ++ issued rest := issued_append [sent] rest
    rw [List.map_cons, hcons, ih]
    by_cases ha : s.aliveAt e.1
    · simp [promptSent, requestsTo, ha, issued, requestSent, Command.requestNum?, Player.requestId]
    · simp [promptSent, requestsTo, ha, issued, finalSent, Command.requestNum?]

/-- The requests of the next turn are numbered by it. -/
theorem Ready.requested {roster : List ClientId} {answered : List (RequestId × ResponseValue)}
    {c : PwController F} (h : Ready roster answered c) (rt : Runtime) :
    Requested roster c.turns.length
      ⟨c.state, requestsTo c.state (c.players.entriesIn rt.retainOrder), []⟩ := by
  refine ⟨h.consistent.settled.toValid, h.size, nodup_requestsTo _ _ _, fun i r => ?_⟩
  rw [mem_requestsTo]
  refine and_congr_right fun ha => ⟨?_, ?_⟩
  · intro h
    obtain ⟨p, hp, rfl⟩ := h
    obtain ⟨cl, hcl, rfl⟩ := h.handles i p hp
    exact ⟨cl, hcl, rfl⟩
  · intro h
    obtain ⟨cl, hcl, rfl⟩ := h
    obtain ⟨p, hp⟩ := Finmap.mem_iff.mp (h.seated i ha)
    obtain ⟨cl', hcl', rfl⟩ := h.handles i p hp
    rw [hcl] at hcl'
    cases hcl'
    exact ⟨_, hp, rfl⟩

/-- None of them was answered before. -/
theorem Ready.unanswered {roster : List ClientId} {answered : List (RequestId × ResponseValue)}
    {c : PwController F} (h : Ready roster answered c) {rt : Runtime} {i : PlayerId} {r : RequestId}
    (hr : (i, r) ∈ requestsTo c.state (c.players.entriesIn rt.retainOrder)) :
    r ∉ answered.map Prod.fst := by
  intro hmem
  obtain ⟨a, ha, rfl⟩ := List.mem_map.mp hmem
  obtain ⟨t, ht, j, hj⟩ := (h.issued _).mp (h.known a ha)
  obtain ⟨_, cl, _, heq⟩ := ((h.requested rt).mem_iff i a.1).mp hr
  have := h.history.requestNum_lt ht hj
  rw [heq] at this
  exact Nat.lt_irrefl _ this

theorem Ready.prompted {roster : List ClientId} {answered : List (RequestId × ResponseValue)}
    {rt : Runtime} {c c' : PwController F} (h : Ready roster answered c)
    (hc : PwController.Prompted rt c c') (halive : ∃ i, c.state.aliveAt i = true)
    (hgoing : c.turns = [] ∨ c.state.isFinished = false) :
    InTurn roster answered
      ⟨c.state, requestsTo c.state (c.players.entriesIn rt.retainOrder), []⟩ c.turns c' := by
  have hstate : c'.state = c.state := congrArg Game.state hc.toGame
  exact
    { consistent := hc.toGame ▸ h.consistent
      covered := hstate ▸ h.covered
      size := hstate ▸ h.size
      ctrlHandle := hc.ctrlHandle ▸ h.ctrlHandle
      clientPlayer := hc.clientPlayer ▸ h.clientPlayer
      issued := fun r => by
        rw [hc.channels, issued_append, issued_prompts, List.mem_append, h.issued, hc.turns]
        simp only [List.mem_cons, exists_eq_or_imp, List.mem_map, Prod.exists, exists_eq_right]
        exact or_comm
      known := fun a ha => by
        rw [hc.channels, issued_append, List.mem_append]
        exact .inl (h.known a ha)
      distinct := h.distinct
      turns := hc.turns
      players := fun i p => by
        rw [hc.players, hstate]
        split
        · rename_i ha
          obtain ⟨q, hq⟩ := Finmap.mem_iff.mp (h.seated i ha)
          obtain ⟨cl, hcl, rfl⟩ := h.handles i q hq
          simp only [hq, Option.map_some, Option.some.injEq, ha, true_and, hcl,
            exists_eq_left', Player.prompted, eq_comm]
        · rename_i ha
          simp [ha]
      state := hstate.symm
      requested := h.requested rt
      uncalled := rfl
      history := h.history
      commands := fun i v => by
        rw [hc.commands, h.commands]
        simp only [Finmap.lookup_empty, reduceCtorEq, false_iff, not_exists, not_and]
        exact fun r hr hv => h.unanswered hr (List.mem_map_of_mem hv)
      waitingFor := fun i => by
        rw [hc.waitingFor, h.waitingFor]
        simp only [Finset.notMem_empty, false_or]
        constructor
        · intro hi
          obtain ⟨ha, hi⟩ := hi
          obtain ⟨p, hp⟩ := Finmap.mem_iff.mp hi
          have hr : (i, p.requestId) ∈ requestsTo c.state (c.players.entriesIn rt.retainOrder) :=
            mem_requestsTo.mpr ⟨ha, p, hp, rfl⟩
          exact ⟨_, hr, h.unanswered hr⟩
        · intro h
          obtain ⟨r, hr, _⟩ := h
          obtain ⟨ha, p, hp, _⟩ := mem_requestsTo.mp hr
          exact ⟨ha, Finmap.mem_iff.mpr ⟨p, hp⟩⟩
      waiting := by
        obtain ⟨i, ha⟩ := halive
        exact ⟨i, (hc.waitingFor i).mpr (.inr ⟨ha, h.seated i ha⟩)⟩
      going := by rw [hstate]; exact hgoing
      turnNum := by rw [hstate]; exact h.turnNum }

/-! ## The start of a game -/

theorem issued_eq_nil_of_onlyControl {channels : Channels F} (h : OnlyControl channels) :
    issued channels = [] := by
  rw [issued, List.filterMap_eq_nil_iff]
  intro s hs
  rw [(h s hs).2.1]
  rfl

@[simp] theorem issued_logSent (handle : ClientHandle) (s : PlanetWars F) :
    issued [logSent handle s] = [] := rfl

@[simp] theorem issued_actionSent (players : HashMap PlayerId Player)
    (actions : List (PlayerId × Proto.PlayerAction)) :
    issued (F := F) (actions.map (actionSent players)) = [] := by
  rw [issued, List.filterMap_eq_nil_iff]
  intro s hs
  obtain ⟨a, _, rfl⟩ := List.mem_map.mp hs
  rfl

/-- The controller of a game about to start is ready to prompt. -/
theorem ready_enrolled [External F] {rt : Runtime} {lobby : Lobby F} {conf : Config}
    {state : PlanetWars F} (hcreated : Created conf lobby.players.keys.card state) :
    Ready (roster rt lobby) [] { enrolled rt lobby state with
      channels := lobby.channels ++ [logSent lobby.ctrlHandle state] } := by
  have hlen : state.players.length = (roster rt lobby).length := by
    rw [length_roster]
    simp [hcreated.players]
  have hissued : issued (lobby.channels ++ [logSent lobby.ctrlHandle state]) = [] := by
    rw [issued_append, issued_eq_nil_of_onlyControl lobby.quiet, issued_logSent]
    rfl
  exact
    { consistent := Game.consistent_ofState hcreated
      covered := hcreated.flagsCover
      size := hlen
      ctrlHandle := congrArg ClientHandle.clientId lobby.control
      clientPlayer := fun _ _ => lookup_clientPlayer_enrolled state
      issued := fun r => by
        rw [hissued]
        simp [enrolled]
      known := by simp
      distinct := by simp
      handles := fun i p hp => (lookup_players_enrolled state).mp hp
      seated := fun i ha => by
        have hi : i < (roster rt lobby).length := hlen ▸ PlanetWars.lt_of_aliveAt ha
        exact Finmap.mem_iff.mpr ⟨_, (lookup_players_enrolled state).mpr
          ⟨_, List.getElem?_eq_getElem hi, rfl⟩⟩
      history := trivial
      commands := rfl
      waitingFor := rfl
      turnNum := hcreated.turnNum }

theorem Started.inTurn [External F] {rt : Runtime} {lobby : Lobby F} {c : PwController F}
    (h : Started rt lobby c) (hne : lobby.players ≠ ∅) :
    ∃ t, InTurn (roster rt lobby) [] t [] c := by
  obtain ⟨conf, state, _, hcreated, hprompted⟩ := h.opened
  have halive (i : PlayerId) (hi : i < state.players.length) : state.aliveAt i = true := by
    have hi' : i < lobby.players.keys.card := by simpa [hcreated.players] using hi
    simp [PlanetWars.aliveAt, hcreated.players, hi']
  have hpos : 0 < state.players.length := by
    simp only [hcreated.players, List.length_map, List.length_range, Finset.card_pos]
    by_contra hempty
    refine hne (Finmap.ext_lookup fun cl => ?_)
    rw [Finmap.lookup_empty, Finmap.lookup_eq_none, ← Finmap.mem_keys]
    exact fun hcl => hempty ⟨cl, hcl⟩
  exact ⟨_, (ready_enrolled hcreated).prompted hprompted ⟨0, halive 0 hpos⟩ (.inl rfl)⟩

end Controller
end Mozaic
