import Mozaic.Controller.Streams

/-! Whether a match tells its players that it is over. Starting a game does not ask
whether it is finished already. -/
namespace Mozaic.Controller
open Rust Rules Network Outcome

variable {F : Type}

/-- The last message is a final state, and no other one is. -/
def EndsFinal (msgs : List (Payload F)) : Prop :=
  ∃ before s, msgs = before ++ [.server (.finalState s)] ∧
    ∀ s', .server (.finalState s') ∉ before

/-- Not a response, or one to a request issued when the game was started. -/
def opens (roster : List ClientId) : Input → Bool
  | .response r _ => r.clientId ∈ roster ∧ r.requestNum = 0
  | _ => true

/-- The first event of a game that was just started. -/
def firstEvent (roster : List ClientId) (inputs : List (Runtime × Input)) : Option Input :=
  (inputs.map Prod.snd).find? (opens roster)

theorem firstEvent_concat (roster : List ClientId) (inputs : List (Runtime × Input))
    (input : Runtime × Input) : firstEvent roster (inputs ++ [input]) =
      (firstEvent roster inputs).or (if opens roster input.2 then some input.2 else none) := by
  simp only [firstEvent, List.map_append, List.find?_append, List.map_cons, List.map_nil,
    List.find?_cons, List.find?_nil]
  cases opens roster input.2 <;> rfl

/-- The game is played at all: it has a turn for at least two players, or its only player
answers before anything else happens. -/
def PlayedOut (roster : List ClientId) (start : PlanetWars F)
    (inputs : List (Runtime × Input)) : Prop :=
  (2 ≤ roster.length ∧ 1 ≤ start.maxTurns) ∨
    (roster.length = 1 ∧ ∃ r v, firstEvent roster inputs = some (.response r v))

section Concluded
variable {roster : List ClientId} {c : PwController F}

/-- Everybody got the final state if and only if nobody is in the game any more. -/
theorem Streams.endsFinal_iff (h : Streams roster c) (hc : ∀ i, i ∈ c.players → i < roster.length) :
    (∀ cl ∈ roster, EndsFinal (inbox cl c.channels)) ↔ c.players = ∅ := by
  constructor
  · intro hall
    apply Finmap.ext_lookup
    intro i
    rw [Finmap.lookup_empty, Finmap.lookup_eq_none]
    intro hi
    have hcl := List.getElem?_eq_getElem (hc i hi)
    obtain ⟨before, s, hmsgs, _⟩ := hall _ (List.getElem_mem (hc i hi))
    apply (h.live i _ hcl hi).no_final s
    simp [hmsgs]
  · intro hempty cl hcl
    obtain ⟨i, hi⟩ := List.mem_iff_getElem?.mp hcl
    obtain ⟨seen, _, hstream⟩ := h.gone i cl hi (by rw [hempty]; exact Finmap.notMem_empty)
    exact hstream.exists_final

end Concluded

/-- A game that was just created is finished if it lacks players or turns. -/
theorem isFinished_eq_false_iff {conf : Config} {n : Nat} {s : PlanetWars F} (h : Created conf n s) :
    s.isFinished = false ↔ 2 ≤ n ∧ 1 ≤ s.maxTurns := by
  have halive : (s.players.filter (·.alive)).length = n := by
    rw [h.players, List.filter_eq_self.mpr, List.length_map, List.length_range]
    simp
  simp only [PlanetWars.isFinished, halive, h.turnNum, Bool.or_eq_false_iff,
    decide_eq_false_iff_not]
  omega

/-! ## The course of a match -/

/-- How far a match has got, after the inputs `done`. -/
inductive Course (roster : List ClientId) (start : PlanetWars F) (done : List (Runtime × Input)) :
    System F → Prop
  /-- The game is finished, and nothing happened since it was started. -/
  | unopened {c : PwController F} (hfin : start.isFinished = true) (hstate : c.state = start)
      (hturns : c.turns.length = 1) (hfirst : firstEvent roster done = none) :
      Course roster start done ⟨.playing c, []⟩
  | going {c : PwController F} {answered : List (RequestId × ResponseValue)}
      (hstart : start.isFinished = false) (hc : c.state.isFinished = false) :
      Course roster start done ⟨.playing c, answered⟩
  | finished {c : PwController F} {answered : List (RequestId × ResponseValue)}
      (hseats : ∀ i, i ∈ c.players → i < roster.length)
      (hout : c.players = ∅ ↔ PlayedOut roster start done)
      (hopened : (2 ≤ roster.length ∧ 1 ≤ start.maxTurns) ∨ (firstEvent roster done).isSome) :
      Course roster start done ⟨.finished c, answered⟩

section Opening
variable {roster : List ClientId} {start : PlanetWars F} {t : Turn F} {older : List (Turn F)}
  {c : PwController F} {answered : List (RequestId × ResponseValue)}

theorem InTurn.lt_length (h : InTurn roster answered t older c) {i : PlayerId} (hi : i ∈ c.players) :
    i < roster.length := by
  obtain ⟨p, hp⟩ := Finmap.mem_iff.mp hi
  exact h.size ▸ PlanetWars.lt_of_aliveAt ((h.players i p).mp hp).1

/-- In the first turn everybody has a request. -/
theorem InTurn.mem_requests_opening (h : InTurn roster answered t [] c)
    (halive : ∀ i < roster.length, c.state.aliveAt i = true) {i : PlayerId} {cl : ClientId}
    (hcl : roster[i]? = some cl) : (i, ⟨cl, 0⟩) ∈ t.requests :=
  (h.requested.mem_iff i _).mpr
    ⟨h.state ▸ halive i (List.getElem?_eq_some_iff.mp hcl).1, cl, hcl, rfl⟩

theorem InTurn.opens_of_mem (h : InTurn roster answered t [] c) {i : PlayerId} {r : RequestId}
    (hr : (i, r) ∈ t.requests) (v : ResponseValue) : opens roster (.response r v) = true := by
  obtain ⟨_, cl, hcl, rfl⟩ := (h.requested.mem_iff i r).mp hr
  simp [opens, List.mem_of_getElem? hcl]

theorem InTurn.not_opens (h : InTurn roster answered t [] c)
    (halive : ∀ i < roster.length, c.state.aliveAt i = true) {r : RequestId}
    (hr : r ∉ issued c.channels) (v : ResponseValue) : opens roster (.response r v) = false := by
  rw [Bool.eq_false_iff]
  intro hopens
  obtain ⟨hmem, hnum⟩ : r.clientId ∈ roster ∧ r.requestNum = 0 := by simpa [opens] using hopens
  obtain ⟨i, hi⟩ := List.mem_iff_getElem?.mp hmem
  apply hr
  rw [h.issued, h.turns]
  exact ⟨t, List.mem_cons_self, i, by
    have := h.mem_requests_opening halive hi
    rwa [← hnum] at this⟩

private theorem exists_other {n i : Nat} (hi : i < n) (hn : n ≠ 1) : ∃ j, j < n ∧ j ≠ i := by
  by_cases hzero : i = 0
  · exact ⟨1, by omega, by omega⟩
  · exact ⟨0, by omega, by omega⟩

/-- One answer in the first turn is enough if and only if there is one player. -/
theorem InTurn.waitingFor_opening (hroster : ProperRoster roster) (h : InTurn roster [] t [] c)
    (halive : ∀ i < roster.length, c.state.aliveAt i = true) {i : PlayerId} {r : RequestId}
    {v : ResponseValue} (hr : (i, r) ∈ t.requests) :
    (c.heard i v).waitingFor = ∅ ↔ roster.length = 1 := by
  have hi : i < roster.length := h.lt_length (h.mem_players hr)
  constructor
  · intro hw
    by_contra hlen
    obtain ⟨j, hj, hne⟩ := exists_other hi hlen
    have hreq := h.mem_requests_opening halive (List.getElem?_eq_getElem hj)
    have hmem := (h.waitingFor_heard hroster (v := v) hr j).mpr ⟨_, hreq, fun hr' => hne ?_⟩
    · rw [hw] at hmem
      exact Finset.notMem_empty _ hmem
    · have heq : (⟨roster[j], 0⟩ : RequestId) = r := by simpa using hr'
      exact ((h.requested.unique hroster hreq hr).mp heq)
  · intro hlen
    apply Finset.eq_empty_of_forall_notMem
    intro j hj
    obtain ⟨r', hr', hopen⟩ := (h.waitingFor_heard hroster hr j).mp hj
    have hjlt : j < roster.length := h.lt_length (h.mem_players hr')
    rw [hlen, Nat.lt_one_iff] at hi hjlt
    obtain rfl : j = i := hjlt.trans hi.symm
    obtain rfl := (h.requested.unique hroster hr hr').mpr rfl
    simp at hopen

end Opening

section Run
variable [F64 F] [External F] {rt : Runtime} {lobby : Lobby F} {start : PlanetWars F}
  {conf : Config} {done : List (Runtime × Input)} {answered : List (RequestId × ResponseValue)} {t : Turn F}
  {c : PwController F}

/-- The game of a single player is finished after every turn. -/
theorem isFinished_of_alone {g g' : Game F} {messages : List (PlayerId × ResponseValue)}
    {actions : List (PlayerId × Proto.PlayerAction)} (h : TurnTaken g messages g' actions)
    (hone : g.state.players.length = 1) : g'.state.isFinished = true := by
  have hle := List.length_filter_le (fun p : Rules.Player => p.alive) g'.state.players
  rw [h.length_players, hone] at hle
  simp only [PlanetWars.isFinished, Bool.or_eq_true, decide_eq_true_eq]
  omega

/-- What an input does to a game that was finished when it started. -/
theorem InTurn.course_of_unopened (h : InTurn (roster rt lobby) [] t [] c)
    (hcreated : Created conf lobby.players.keys.card start) (hfin : start.isFinished = true)
    (hstate : c.state = start) (hfirst : firstEvent (roster rt lobby) done = none) {rt' : Runtime}
    {input : Input} {s : System F} (hs : Delivered rt' [] t c input s) :
    Course (roster rt lobby) start (done ++ [(rt', input)]) s := by
  have hroster := properRoster rt lobby
  have halive : ∀ i < (roster rt lobby).length, c.state.aliveAt i = true := by
    intro i hi
    rw [length_roster] at hi
    simp [hstate, PlanetWars.aliveAt, hcreated.players, hi]
  have hcfin : c.state.isFinished = true := hstate ▸ hfin
  have hplay : ¬ (2 ≤ (roster rt lobby).length ∧ 1 ≤ start.maxTurns) := by
    rw [length_roster, ← isFinished_eq_false_iff hcreated, hfin]
    simp
  have hnonempty : c.players ≠ ∅ := by
    obtain ⟨i, hi⟩ := h.waiting
    obtain ⟨r, hr, _⟩ := (h.waitingFor i).mp hi
    intro hempty
    have hmem := h.mem_players hr
    rw [hempty] at hmem
    exact Finmap.notMem_empty hmem
  cases hs with
  | noticed hquiet =>
    have hopens : opens (roster rt lobby) input = true := by
      cases input with
      | response => simp [Input.answers] at hquiet
      | _ => rfl
    have hfirst' : firstEvent (roster rt lobby) (done ++ [(rt', input)]) = some input := by
      simp [firstEvent_concat, hfirst, hopens]
    rw [if_pos hcfin]
    refine .finished (fun i hi => h.lt_length hi) (iff_of_false hnonempty ?_) (.inr (by simp [hfirst']))
    intro h
    rcases h with hp | ⟨_, r, v, hr⟩
    · exact hplay hp
    · rw [hfirst'] at hr
      obtain rfl := Option.some.inj hr
      simp [Input.answers] at hquiet
  | @dropped r v hr =>
    have hr' : r ∉ issued c.channels := by simpa using hr
    refine .unopened hfin hstate (by rw [h.turns]; rfl) ?_
    rw [firstEvent_concat, hfirst, h.not_opens halive hr' v]
    rfl
  | @heard i r v hr hopen hw =>
    have hone : (roster rt lobby).length ≠ 1 := fun hone => by
      rw [(h.waitingFor_opening hroster halive hr).mpr hone] at hw
      exact Finset.not_nonempty_empty hw
    rw [if_pos hcfin]
    refine .finished (fun i hi => h.lt_length hi) (iff_of_false hnonempty ?_) (.inr ?_)
    · intro h
      rcases h with hp | ⟨hp, _⟩
      · exact hplay hp
      · exact hone hp
    · simp [firstEvent_concat, hfirst, h.opens_of_mem hr]
  | @stepped i r v c' hr hopen hw hc =>
    have hone := (h.waitingFor_opening hroster halive hr).mp hw
    obtain ⟨g, actions, htaken, hc⟩ := hc
    have hgfin : g.state.isFinished = true :=
      isFinished_of_alone htaken (h.size.trans hone)
    rw [if_pos hgfin] at hc
    have hc'fin : c'.state.isFinished = true := by
      rw [hc.toGame]
      exact hgfin
    rw [if_pos hc'fin]
    have hfirst' : firstEvent (roster rt lobby) (done ++ [(rt', .response r v)]) =
        some (.response r v) := by
      simp [firstEvent_concat, hfirst, h.opens_of_mem hr]
    refine .finished (fun i hi => ?_) (iff_of_true hc.players ?_) (.inr (by simp [hfirst']))
    · rw [hc.players] at hi
      exact absurd hi Finmap.notMem_empty
    · exact .inr ⟨hone, r, v, hfirst'⟩

/-- What an input does to a game that is going on. -/
theorem course_of_going (hcreated : Created conf lobby.players.keys.card start)
    (hstart : start.isFinished = false) (hgoing : c.state.isFinished = false) {rt' : Runtime} {input : Input} {s : System F}
    (hs : Delivered rt' answered t c input s) :
    Course (roster rt lobby) start (done ++ [(rt', input)]) s := by
  cases hs with
  | noticed =>
    rw [hgoing]
    exact .going hstart hgoing
  | dropped => exact .going hstart hgoing
  | heard =>
    rw [hgoing]
    exact .going hstart hgoing
  | @stepped i r v c' hr hopen hw hc =>
    obtain ⟨g, actions, htaken, hc⟩ := hc
    cases hfin : g.state.isFinished with
    | false =>
      rw [hfin, if_neg Bool.false_ne_true] at hc
      have hc'fin : c'.state.isFinished = false := by
        rw [hc.toGame]
        exact hfin
      rw [hc'fin]
      exact .going hstart hc'fin
    | true =>
      rw [if_pos hfin] at hc
      have hc'fin : c'.state.isFinished = true := by
        rw [hc.toGame]
        exact hfin
      rw [hc'fin]
      have hplay : 2 ≤ (roster rt lobby).length ∧ 1 ≤ start.maxTurns := by
        rw [length_roster]
        exact (isFinished_eq_false_iff hcreated).mp hstart
      refine .finished (fun i hi => ?_) (iff_of_true hc.players (.inl hplay)) (.inl hplay)
      rw [hc.players] at hi
      exact absurd hi Finmap.notMem_empty

omit [F64 F] [External F] in
/-- Nothing happens after the end. -/
theorem Course.concat (h : Course (roster rt lobby) start done ⟨.finished c, answered⟩)
    (input : Runtime × Input) :
    Course (roster rt lobby) start (done ++ [input]) ⟨.finished c, answered⟩ := by
  cases h with
  | finished hseats hout hopened =>
    have hfirst : (firstEvent (roster rt lobby) done).isSome →
        firstEvent (roster rt lobby) (done ++ [input]) = firstEvent (roster rt lobby) done := by
      intro hsome
      obtain ⟨first, hfirst⟩ := Option.isSome_iff_exists.mp hsome
      simp [firstEvent_concat, hfirst]
    refine .finished hseats (hout.trans ?_) (hopened.imp_right fun hsome => by rwa [hfirst hsome])
    rcases hopened with hplay | hsome
    · exact iff_of_true (.inl hplay) (.inl hplay)
    · rw [PlayedOut, PlayedOut, hfirst hsome]

/-- A match tells all its players that it is over exactly if it was played at all. -/
theorem run_endsFinal_iff (rt : Runtime) (lobby : Lobby F) (hne : lobby.players ≠ ∅)
    (hstart : PwController.createGame lobby = .ok start) (inputs : List (Runtime × Input)) :
    Safe (fun _ => True)
      (fun s => ∀ c, s.game = .finished c →
        ((∀ cl ∈ roster rt lobby, EndsFinal (inbox cl c.channels)) ↔
          PlayedOut (roster rt lobby) start inputs))
      (System.run rt lobby inputs) := by
  obtain ⟨conf, hcreated⟩ := createGame_created hstart
  refine Safe.weaken ((run_streams hne inputs).and (System.run_safe
    (I := fun done s => Course (roster rt lobby) start done s) hne ?_ ?_ ?_ ?_ inputs)) ?_
  · exact fun _ _ => trivial
  · intro c t hc h
    have hstate := hc.state_eq hstart
    cases hfin : start.isFinished with
    | true => exact .unopened hfin hstate (by rw [h.turns]; rfl) rfl
    | false => exact .going hfin (hstate ▸ hfin)
  · intro done rt' input answered t older c h hcourse
    refine ⟨fun _ _ => trivial, fun s hs => ?_⟩
    cases hcourse with
    | unopened hfin hstate hturns hfirst =>
      have holder : older = [] := by
        rw [h.turns] at hturns
        simpa using hturns
      subst holder
      exact h.course_of_unopened hcreated hfin hstate hfirst hs
    | going hfin hgoing => exact course_of_going hcreated hfin hgoing hs
  · exact fun done input answered c hcourse => hcourse.concat input
  · rintro s ⟨hstreams, _, hcourse⟩ c hgame
    cases hcourse with
    | unopened | going => cases hgame
    | finished hseats hout =>
      cases hgame
      exact (Streams.endsFinal_iff hstreams hseats).trans hout

end Run

/-- The controller of a match that is over. -/
def PwMatchState.ended? : PwMatchState F → Option (PwController F)
  | .lobby _ => none
  | .playing _ => none
  | .finished c => some c

theorem PwMatchState.ended?_eq_some {m : PwMatchState F} {c : PwController F} :
    m.ended? = some c ↔ m = .finished c := by
  cases m <;> simp [ended?]

/-- One player passes and the other one times out, until there are no turns left. -/
def skirmishTurns : List (Runtime × Input) :=
  (List.range 9).flatMap fun turn =>
    [(skirmishRuntime, .response ⟨⟨1⟩, turn⟩ (.ok [])),
      (skirmishRuntime, .response ⟨⟨2⟩, turn⟩ (.error .timeout))]

theorem run_endsFinal_iff_skirmish :
    ∃ s c, System.run skirmishRuntime (skirmishLobby [[1], [2]]) skirmishTurns = .ok s ∧
      s.game = .finished c ∧
      ∀ cl ∈ roster skirmishRuntime (skirmishLobby [[1], [2]]), EndsFinal (inbox cl c.channels) := by
  have hover : ((System.run skirmishRuntime (skirmishLobby [[1], [2]])
      skirmishTurns).toOption.bind fun s => s.game.ended?).isSome := by
    decide +kernel
  have hsafe := run_endsFinal_iff skirmishRuntime (skirmishLobby [[1], [2]]) (by decide)
    createGame_skirmish skirmishTurns
  cases hrun : System.run skirmishRuntime (skirmishLobby [[1], [2]]) skirmishTurns with
  | error e =>
    rw [hrun] at hover
    cases hover
  | ok s =>
    rw [hrun] at hover hsafe
    obtain ⟨c, hc⟩ := Option.isSome_iff_exists.mp hover
    have hgame := PwMatchState.ended?_eq_some.mp hc
    exact ⟨s, c, rfl, hgame, (hsafe c hgame).mpr (.inl (by decide))⟩

/-- A single player connects, and the match is over without a word. -/
theorem not_endsFinal_solo :
    ∃ s c, System.run skirmishRuntime (skirmishLobby [[1]])
        [(skirmishRuntime, .connected ⟨1⟩)] = .ok s ∧ s.game = .finished c ∧
      ∃ cl ∈ roster skirmishRuntime (skirmishLobby [[1]]), ¬ EndsFinal (inbox cl c.channels) := by
  have hrun : ((System.run skirmishRuntime (skirmishLobby [[1]])
      [(skirmishRuntime, .connected ⟨1⟩)]).toOption.bind fun s =>
        s.game.ended?.bind fun c => (inbox ⟨1⟩ c.channels).getLast?) =
      some (.server (.gameState ⟨[⟨6, 0, 0, some 1, "a"⟩, ⟨6, 3, 4, none, "b"⟩], []⟩)) := by
    decide +kernel
  obtain ⟨s, hs, hended⟩ := Option.bind_eq_some_iff.mp hrun
  obtain ⟨c, hc, hlast⟩ := Option.bind_eq_some_iff.mp hended
  cases hok : System.run skirmishRuntime (skirmishLobby [[1]])
      [(skirmishRuntime, .connected ⟨1⟩)] with
  | error e =>
    rw [hok] at hs
    cases hs
  | ok s' =>
    rw [hok] at hs
    obtain rfl := Option.some.inj hs
    refine ⟨s', c, rfl, PwMatchState.ended?_eq_some.mp hc, ⟨1⟩, by decide, ?_⟩
    intro h
    obtain ⟨before, final, hmsgs, _⟩ := h
    rw [hmsgs, List.getLast?_concat] at hlast
    cases hlast

end Mozaic.Controller
