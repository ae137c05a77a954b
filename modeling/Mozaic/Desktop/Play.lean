import Mozaic.Desktop.CommandLog

/-! A match with the client of one of its players. The server handles events, messages reach
the client and its bot writes lines, in any order. -/
namespace Mozaic.Desktop
open Rust Rules Network Controller Outcome

variable {F : Type}

/-! ## What may happen -/

inductive PlayStep where
  /-- The server handles an answer or a timeout of anybody, or another event. -/
  | server (rt : Runtime) (input : Input)
  | deliver
  | line (response : String)

/-- The match, and what the client of the player heard. -/
structure Play (F : Type) where
  system : System F
  heard : List (Heard F)

namespace Play

def client (p : Play F) : Client F := Client.run p.heard

/-- The first message to the client that is still on its way. -/
def next? (cl : ClientId) (p : Play F) : Option (Proto.ServerMessage F) :=
  match (inbox cl p.system.game.channels)[(messages p.heard).length]? with
  | some (.server msg) => some msg
  | _ => none

section Steps
variable [F64 F] [External F]

def step (cl : ClientId) (p : Play F) : PlayStep → Except Panic (Play F)
  | .server rt input => do
    let system ← p.system.deliver rt input
    pure { p with system }
  | .deliver => pure { p with heard := p.heard ++ ((p.next? cl).map Heard.message).toList }
  | .line response => pure { p with heard := p.heard ++ [.line response] }

def run (rt : Runtime) (lobby : Lobby F) (cl : ClientId) (steps : List PlayStep) :
    Except Panic (Play F) := do
  let system ← System.start rt lobby
  steps.foldlM (step cl) ⟨system, []⟩

end Steps
end Play

/-! ## What is sent stays sent -/

section Channels
variable [F64 F] [External F]

theorem channels_of_stepped {rt : Runtime} {messages : HashMap PlayerId ResponseValue}
    {c c' : PwController F} (h : PwController.Stepped rt messages c c') :
    c.channels <+: c'.channels := by
  obtain ⟨g, actions, _, h⟩ := h
  have hplayed : c.channels <+: (c.played messages g actions).channels := by
    rw [PwController.played, List.append_assoc]
    exact List.prefix_append _ _
  split at h
  · rw [h.channels]
    exact hplayed.trans (List.prefix_append _ _)
  · rw [h.channels]
    exact hplayed.trans (List.prefix_append _ _)

theorem channels_of_delivered {rt : Runtime} {answered : List (RequestId × ResponseValue)}
    {t : Turn F} {c : PwController F} {input : Input} {s : System F}
    (h : Delivered rt answered t c input s) : c.channels <+: s.game.channels := by
  have hpolled (c' : PwController F) (hc' : c.channels <+: c'.channels) : c.channels <+:
      (if c'.state.isFinished then PwMatchState.finished c' else .playing c').channels := by
    split <;> exact hc'
  cases h with
  | noticed => exact hpolled c List.prefix_rfl
  | dropped => exact List.prefix_rfl
  | @heard i _ v => exact hpolled (c.heard i v) List.prefix_rfl
  | @stepped i _ v _ _ _ _ hc =>
    exact hpolled _ (channels_of_stepped (c := { c.heard i v with commands := ∅ }) hc)

/-- The channels of a match only grow. -/
theorem channels_of_deliver {roster : List ClientId} (hroster : ProperRoster roster) {s s' : System F}
    (h : Phase roster s) {rt : Runtime} {input : Input} (hs : s.deliver rt input = .ok s') :
    Phase roster s' ∧ s.game.channels <+: s'.game.channels := by
  cases h with
  | playing h =>
    have hdelivered := (h.deliver_safe hroster rt input).of_ok hs
    exact ⟨h.delivered hroster hdelivered, channels_of_delivered hdelivered⟩
  | unplayed h =>
    obtain rfl := Except.ok.inj hs
    exact ⟨.unplayed h, List.prefix_rfl⟩
  | ended h hd =>
    obtain rfl := Except.ok.inj hs
    exact ⟨.ended h hd, List.prefix_rfl⟩

end Channels

/-! ## Runs -/

namespace Play
section Runs
variable [F64 F] [External F] {rt : Runtime} {lobby : Lobby F} {cl : ClientId}

theorem run_append_singleton (steps : List PlayStep) (last : PlayStep) :
    run rt lobby cl (steps ++ [last]) = run rt lobby cl steps >>= fun p => p.step cl last := by
  simp [run, List.foldlM_append, bind_assoc]

/-- Nothing that was heard is forgotten, and one step adds one thing at most. -/
theorem heard_step {p p' : Play F} {last : PlayStep} (h : p.step cl last = .ok p') :
    p'.heard = p.heard ∨ ∃ new, p'.heard = p.heard ++ [new] := by
  cases last with
  | server rt' input =>
    rw [step, bind_eq_ok] at h
    obtain ⟨system, _, h⟩ := h
    obtain rfl := Except.ok.inj h
    exact .inl rfl
  | deliver =>
    obtain rfl := Except.ok.inj h
    cases p.next? cl with
    | none => exact .inl (List.append_nil _)
    | some msg => exact .inr ⟨.message msg, rfl⟩
  | line response =>
    obtain rfl := Except.ok.inj h
    exact .inr ⟨.line response, rfl⟩

/-- The client is somewhere behind the server. -/
theorem run_behind (hne : lobby.players ≠ ∅) {steps : List PlayStep} {p : Play F}
    (h : run rt lobby cl steps = .ok p) :
    (∃ inputs, System.run rt lobby inputs = .ok p.system) ∧ Phase (roster rt lobby) p.system ∧
      (messages p.heard).map Payload.server <+: inbox cl p.system.game.channels := by
  induction steps using List.reverseRecOn generalizing p with
  | nil =>
    rw [run, bind_eq_ok] at h
    obtain ⟨system, hsystem, h⟩ := h
    obtain rfl := Except.ok.inj h
    have hrun : System.run rt lobby [] = .ok system := by
      rw [System.run, hsystem]
      rfl
    have hphase := (System.run_safe (A := fun _ => True) (I := fun _ _ => True) hne
      (fun _ _ => trivial) (fun _ _ _ _ => trivial) (fun _ _ _ _ _ _ _ _ _ =>
        ⟨fun _ _ => trivial, fun _ _ => trivial⟩) (fun _ _ _ _ _ => trivial) []).of_ok hrun
    exact ⟨⟨[], hrun⟩, hphase.1, List.nil_prefix⟩
  | append_singleton steps last ih =>
    rw [run_append_singleton, bind_eq_ok] at h
    obtain ⟨q, hq, h⟩ := h
    obtain ⟨⟨inputs, hinputs⟩, hphase, hbehind⟩ := ih hq
    cases last with
    | server rt' input =>
      rw [step, bind_eq_ok] at h
      obtain ⟨system, hsystem, h⟩ := h
      obtain rfl := Except.ok.inj h
      obtain ⟨hphase', hchannels⟩ := channels_of_deliver (properRoster rt lobby) hphase hsystem
      refine ⟨⟨inputs ++ [(rt', input)], ?_⟩, hphase', hbehind.trans (hchannels.filterMap _)⟩
      rw [System.run, bind_eq_ok] at hinputs ⊢
      obtain ⟨start, hstart, hfold⟩ := hinputs
      refine ⟨start, hstart, ?_⟩
      rw [List.foldlM_append, hfold, ok_bind]
      simp [hsystem]
    | deliver =>
      obtain rfl := Except.ok.inj h
      refine ⟨⟨inputs, hinputs⟩, hphase, ?_⟩
      change (messages (q.heard ++ _)).map Payload.server <+: inbox cl q.system.game.channels
      cases hnext : q.next? cl with
      | none => simpa using hbehind
      | some msg =>
        have hat : (inbox cl q.system.game.channels)[(messages q.heard).length]? =
            some (.server msg) := by
          unfold next? at hnext
          split at hnext
          · rename_i hmsg
            rw [hmsg, Option.some.inj hnext]
          · cases hnext
        obtain ⟨rest, hrest⟩ := hbehind
        rw [← hrest, List.getElem?_append_right (by simp), List.length_map, Nat.sub_self,
          ← List.head?_eq_getElem?] at hat
        obtain ⟨rest', rfl⟩ := List.head?_eq_some_iff.mp hat
        refine ⟨rest', ?_⟩
        simp [← hrest]
    | line response =>
      obtain rfl := Except.ok.inj h
      refine ⟨⟨inputs, hinputs⟩, hphase, ?_⟩
      rw [messages_append_line]
      exact hbehind

theorem heard_mono {steps steps' : List PlayStep} (hsteps : steps' <+: steps) {p p' : Play F}
    (h : run rt lobby cl steps = .ok p) (h' : run rt lobby cl steps' = .ok p') :
    p'.heard <+: p.heard := by
  induction steps using List.reverseRecOn generalizing p with
  | nil =>
    obtain rfl := List.prefix_nil.mp hsteps
    obtain rfl := Except.ok.inj (h'.symm.trans h)
    exact List.prefix_rfl
  | append_singleton steps last ih =>
    rcases List.prefix_concat_iff.mp hsteps with rfl | hsteps
    · obtain rfl := Except.ok.inj (h'.symm.trans h)
      exact List.prefix_rfl
    · rw [run_append_singleton, bind_eq_ok] at h
      obtain ⟨q, hq, h⟩ := h
      have hbefore := ih hsteps hq
      rcases heard_step h with heq | ⟨new, heq⟩
      · rwa [heq]
      · rw [heq]
        exact hbefore.trans (List.prefix_append _ _)

/-- Whatever was heard up to some time is what was heard in a state of the run. -/
theorem exists_run_of_prefix {steps : List PlayStep} {p : Play F}
    (h : run rt lobby cl steps = .ok p) {sofar : List (Heard F)} (hsofar : sofar <+: p.heard) :
    ∃ steps' p', steps' <+: steps ∧ run rt lobby cl steps' = .ok p' ∧ p'.heard = sofar := by
  induction steps using List.reverseRecOn generalizing p with
  | nil =>
    refine ⟨[], p, List.prefix_rfl, h, ?_⟩
    rw [run, bind_eq_ok] at h
    obtain ⟨system, _, h⟩ := h
    obtain rfl := Except.ok.inj h
    exact (List.prefix_nil.mp hsofar).symm
  | append_singleton steps last ih =>
    have hrun := h
    rw [run_append_singleton, bind_eq_ok] at h
    obtain ⟨q, hq, h⟩ := h
    have hearlier (hs : sofar <+: q.heard) : ∃ steps' p', steps' <+: steps ++ [last] ∧
        run rt lobby cl steps' = .ok p' ∧ p'.heard = sofar := by
      obtain ⟨steps', p', hsteps, hp', hheard⟩ := ih hq hs
      exact ⟨steps', p', hsteps.trans (List.prefix_append _ _), hp', hheard⟩
    rcases heard_step h with heq | ⟨new, heq⟩
    · exact hearlier (heq ▸ hsofar)
    · rw [heq] at hsofar
      rcases List.prefix_concat_iff.mp hsofar with hall | hs
      · exact ⟨_, p, List.prefix_rfl, hrun, heq.trans hall.symm⟩
      · exact hearlier hs

end Runs
end Play

/-! ## The log of the player -/

section Logs
variable [F64 F] [External F]

/-- The turns in the log of player `i` are turns of the match. -/
structure Faithful (roster : List ClientId) (i : PlayerId) (c : PwController F)
    (turns : PlayerLog F) : Prop where
  states : turns.map (·.state) <+: seenBy roster i c.channels
  /-- The action of a turn is what the server made of the answer to the state of this turn. -/
  actions : ∀ (k : Nat) turn, turns[k]? = some turn → ∀ action ∈ turn.action,
    ∃ t, turnNumber? c.turns k = some t ∧
      turn.state = relabel (renumber roster.length i) (t.state.view 0) ∧
      t.Judged c.planetMap i action

/-- The log of the player's client can be read, its actions belong to their turns, and so do
its commands. -/
def LogsTurns (roster : List ClientId) (i : PlayerId) (p : Play F) : Prop :=
  ∃ c turns, p.system.game.controller? = some c ∧
    PlayerLog.ofRecords p.client.log = some turns ∧ Faithful roster i c turns ∧
    ∀ (k : Nat) turn, turns[k]? = some turn →
      ∀ content ∈ turn.command, (k, content) ∈ (Dialogue.of p.heard).answers

variable {rt : Runtime} {lobby : Lobby F}

omit [F64 F] [External F] in
/-- The actions a client heard of were reported to it. -/
theorem actionsIn_of_behind {cl : ClientId} {channels : Channels F} {heard : List (Heard F)}
    (h : (messages heard).map Payload.server <+: inbox cl channels) :
    actionsIn (messages heard) <+: reportsTo cl channels := by
  have hserver : (reportedAction? ∘ Payload.server : Proto.ServerMessage F → _) = serverAction? := by
    funext msg
    cases msg <;> rfl
  have hreports := h.filterMap reportedAction?
  rwa [List.filterMap_map, hserver] at hreports

omit [F64 F] [External F] in
theorem statesIn_of_behind {cl : ClientId} {channels : Channels F} {heard : List (Heard F)}
    (h : (messages heard).map Payload.server <+: inbox cl channels) {final : Bool}
    {states : List (Proto.State F)} (hstream : Controller.Stream final states (inbox cl channels)) :
    statesIn (messages heard) <+: states := by
  have hstates := h.filterMap payloadState?
  rwa [List.filterMap_map, states_of_stream hstream] at hstates

/-- The turns of a log are faithful to the match, whenever its bot writes. -/
theorem Kept.faithful {roster : List ClientId} {i : PlayerId} {cl : ClientId}
    {c : PwController F} {heard : List (Heard F)} {turns : PlayerLog F} (h : Kept heard turns)
    (hcl : roster[i]? = some cl) (hreported : Reported roster c)
    (hstreaming : Streaming roster c.channels)
    (hbehind : (messages heard).map Payload.server <+: inbox cl c.channels) :
    Faithful roster i c turns := by
  obtain ⟨final, seen, hseen, hstream⟩ := hstreaming i cl hcl
  have hstates : turns.map (·.state) <+: seenBy roster i c.channels := by
    rw [h.states]
    exact (statesIn_of_behind hbehind hstream).trans hseen
  refine ⟨hstates, fun k turn hturn action haction => ?_⟩
  have hheard : (actionsIn (messages heard))[k]? = some action :=
    (h.actions k turn hturn).symm.trans haction
  obtain ⟨t, ht, hjudged⟩ := hreported.judged i cl hcl k action
    (getElem?_mono (actionsIn_of_behind hbehind) hheard)
  refine ⟨t, ht, ?_, hjudged⟩
  have hstate : (turns.map (·.state))[k]? = some turn.state := by simp [hturn]
  have hshown := getElem?_mono hstates hstate
  rw [seenBy, List.getElem?_map, hreported.shown k t ht] at hshown
  exact (Option.some.inj hshown).symm

variable {rt : Runtime} {lobby : Lobby F}

/-- What is so in every state of a run: the log can be read, and is faithful to the match. -/
theorem run_kept {i : PlayerId} {cl : ClientId} (hcl : (roster rt lobby)[i]? = some cl)
    {steps : List PlayStep} {p : Play F} (h : Play.run rt lobby cl steps = .ok p) :
    ∃ c turns final states, p.system.game.controller? = some c ∧ Kept p.heard turns ∧
      Faithful (roster rt lobby) i c turns ∧
      Controller.Stream final states (inbox cl c.channels) ∧
      (messages p.heard).map Payload.server <+: inbox cl c.channels := by
  have hne : lobby.players ≠ ∅ := by
    intro hempty
    have hlength := length_roster rt lobby
    rw [hempty] at hlength
    rw [List.length_eq_zero_iff.mp hlength] at hcl
    cases hcl
  obtain ⟨⟨inputs, hinputs⟩, hphase, hbehind⟩ := Play.run_behind hne h
  obtain ⟨c, hc, hchannels⟩ : ∃ c, p.system.game.controller? = some c ∧
      p.system.game.channels = c.channels := by
    generalize p.system = s at hphase
    cases hphase <;> exact ⟨_, rfl, rfl⟩
  rw [hchannels] at hbehind
  have hreported := (run_reported hne inputs).of_ok hinputs c hc
  have hstreaming := (run_streaming rt lobby inputs).of_ok hinputs
  rw [hchannels] at hstreaming
  obtain ⟨final, seen, _, hstream⟩ := hstreaming i cl hcl
  obtain ⟨turns, hkept⟩ := exists_kept hstream hbehind
  exact ⟨c, turns, final, seen, hc, hkept, hkept.faithful hcl hreported hstreaming hbehind, hstream,
    hbehind⟩

/-- The commands in a log belong to their turns in all states of a run if and only if no
answer of the bot comes after a later state. The rest of the log is right in any case. -/
theorem run_logsTurns_iff (rt : Runtime) (lobby : Lobby F) {i : PlayerId} {cl : ClientId}
    (hcl : (roster rt lobby)[i]? = some cl) (steps : List PlayStep) :
    Safe (fun _ => True)
      (fun p =>
        (∃ c turns, p.system.game.controller? = some c ∧
          PlayerLog.ofRecords p.client.log = some turns ∧ Faithful (roster rt lobby) i c turns ∧
          ∀ player entries log, recordsOf player entries = p.client.log →
            MatchLog.parseLog entries = some log → log.getPlayerLog player = turns) ∧
        ((∀ steps', steps' <+: steps → Safe (fun _ => True) (LogsTurns (roster rt lobby) i)
          (Play.run rt lobby cl steps')) ↔ Punctual p.heard))
      (Play.run rt lobby cl steps) := by
  cases hrun : Play.run rt lobby cl steps with
  | error e => trivial
  | ok p =>
    obtain ⟨c, turns, final, states, hc, hkept, hfaithful, hstream, hbehind⟩ := run_kept hcl hrun
    refine ⟨⟨c, turns, hc, hkept.built, hfaithful, fun player entries log hrecords hlog => ?_⟩, ?_⟩
    · have hread := getPlayerLog_of_parseLog hlog player
      rw [hrecords] at hread
      exact Option.some.inj (hread.symm.trans hkept.built)
    · rw [← commandsBelong_iff_punctual hstream hbehind]
      constructor
      · intro hall sofar hsofar built hbuilt
        obtain ⟨steps', p', hsteps, hp', rfl⟩ := Play.exists_run_of_prefix hrun hsofar
        obtain ⟨_, turns', _, hturns', _, hcommands⟩ := (hall steps' hsteps).of_ok hp'
        obtain rfl := Option.some.inj (hturns'.symm.trans hbuilt)
        exact hcommands
      · intro hall steps' hsteps
        cases hrun' : Play.run rt lobby cl steps' with
        | error e => trivial
        | ok p' =>
          obtain ⟨c', turns', _, _, hc', hkept', hfaithful', _⟩ := run_kept hcl hrun'
          exact ⟨c', turns', hc', hkept'.built, hfaithful',
            hall p'.heard (Play.heard_mono hsteps hrun hrun') turns' hkept'.built⟩

end Logs

/-! ## Two bots -/

theorem run_logsTurns_iff_skirmish :
    Safe (fun _ => True)
      (fun p =>
        (∃ c turns, p.system.game.controller? = some c ∧
          PlayerLog.ofRecords p.client.log = some turns ∧
          Faithful (roster skirmishRuntime (skirmishLobby [[1], [2]])) 0 c turns ∧
          ∀ player entries log, recordsOf player entries = p.client.log →
            MatchLog.parseLog entries = some log → log.getPlayerLog player = turns) ∧
        ((∀ steps', steps' <+: [.deliver, .line "{}", .deliver] → Safe (fun _ => True)
          (LogsTurns (roster skirmishRuntime (skirmishLobby [[1], [2]])) 0)
          (Play.run skirmishRuntime (skirmishLobby [[1], [2]]) ⟨1⟩ steps')) ↔ Punctual p.heard))
      (Play.run skirmishRuntime (skirmishLobby [[1], [2]]) ⟨1⟩
        [.deliver, .line "{}", .deliver]) :=
  run_logsTurns_iff _ _ (by decide) _

/-- The bot of the first player is asked about the first state, both players time out, and its
answer is late: it becomes the command of the second turn. -/
def lateSteps : List PlayStep :=
  [.deliver, .server skirmishRuntime (.response ⟨⟨1⟩, 0⟩ (.error .timeout)),
    .server skirmishRuntime (.response ⟨⟨2⟩, 0⟩ (.error .timeout)), .deliver, .deliver, .line "late"]

theorem not_logsTurns_late :
    ∃ p, Play.run skirmishRuntime (skirmishLobby [[1], [2]]) ⟨1⟩ lateSteps = .ok p ∧
      ¬ LogsTurns (roster skirmishRuntime (skirmishLobby [[1], [2]])) 0 p := by
  have hlate : (Play.run skirmishRuntime (skirmishLobby [[1], [2]]) ⟨1⟩ lateSteps).toOption.map
      (fun p => ((PlayerLog.ofRecords p.client.log).map (·.map (·.command)),
        (Dialogue.of p.heard).answers)) =
      some (some [none, some "late"], [(0, "late")]) := by
    decide +kernel
  cases hrun : Play.run skirmishRuntime (skirmishLobby [[1], [2]]) ⟨1⟩ lateSteps with
  | error e =>
    rw [hrun] at hlate
    cases hlate
  | ok p =>
    rw [hrun] at hlate
    obtain ⟨hcommands, hanswers⟩ := Prod.mk.inj (Option.some.inj hlate)
    refine ⟨p, rfl, fun h => ?_⟩
    obtain ⟨_, turns, _, hturns, _, hbelong⟩ := h
    rw [hturns] at hcommands
    have hmap : turns.map (·.command) = [none, some "late"] := Option.some.inj hcommands
    have hsecond : (turns.map (·.command))[1]? = some (some "late") := by
      rw [hmap]
      rfl
    rw [List.getElem?_map] at hsecond
    obtain ⟨turn, hturn, hcommand⟩ := Option.map_eq_some_iff.mp hsecond
    have hanswer := hbelong 1 turn hturn "late" hcommand
    rw [hanswers] at hanswer
    simp at hanswer

end Mozaic.Desktop
