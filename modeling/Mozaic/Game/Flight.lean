import Mozaic.Game.Commands
import Mozaic.Rules.Deliveries

/-! Flights. An expedition is under way for as many turns as its distance says, and arrives
in the last of them. -/
namespace Mozaic
open Rust Rules Network Outcome Game

variable {F : Type}

/-- The expedition, after `j` turns under way. -/
def Rules.Expedition.after (e : Expedition) (j : Nat) : Expedition :=
  { e with turnsRemaining := e.turnsRemaining - j }

/-- What is under way of an expedition once `j` turns are over since it set out. -/
def Rules.Expedition.inFlight (e : Expedition) (j : Nat) : List Expedition :=
  if j < e.turnsRemaining then [e.after j] else []

/-- What arrives of it in the turn after that. Even the shortest flight takes a turn. -/
def Rules.Expedition.arriving (e : Expedition) (j : Nat) : List Expedition :=
  if j + 1 = max e.turnsRemaining 1 then [e.after j] else []

/-- The expeditions with this id. -/
def withId (id : Nat) (es : List Expedition) : List Expedition := es.filter (·.id = id)

/-- A turn in which nobody is known to be alive yet. -/
def Rules.PlanetWars.nextTurn (s : PlanetWars F) : PlanetWars F :=
  { s with
    turnNum := s.turnNum + 1
    players := s.players.map fun player => { player with alive := false } }

section Turn
variable [F64 F] [External F]

/-- A turn up to its step: the planets grow, and the messages are executed. -/
def Game.command (g : Game F) (input : TurnInput) :
    Except Panic (Game F × List (PlayerId × Proto.PlayerAction)) := do
  let state ← g.state.repopulate
  { g with state }.executeMessages (input.messages.entriesIn input.drainOrder)

/-- What a turn delivers: these expeditions arrive in its step, before the combat. -/
structure TurnDelivers (g : Game F) (input : TurnInput) (g' : Game F) (arrived : List Expedition) :
    Prop where
  delivers : ∃ g₁ actions t, g.command input = .ok (g₁, actions) ∧
    g₁.state.nextTurn.stepExpeditions = .ok t ∧ Delivers g₁.state.nextTurn t arrived ∧
    t.resolveCombat = .ok g'.state

/-- In the turn, player `i`'s command `mv` turned `g₁` into `g₂`, and was not refused. -/
structure AcceptedIn (g : Game F) (input : TurnInput) (i : PlayerId) (mv : Proto.Command)
    (g₁ g₂ : Game F) : Prop where
  executed : ∃ state before message after g₀ actions, g.state.repopulate = .ok state ∧
    input.messages.entriesIn input.drainOrder = before ++ (i, .ok message) :: after ∧
    Game.executeMessages { g with state } before = .ok (g₀, actions) ∧
    ∃ action mvs mvs' done, External.actionFromSlice F message = .ok action ∧
      action.commands = mvs ++ mv :: mvs' ∧
      mvs.foldlM (Game.executeCommand i) (g₀, []) = .ok (g₁, done) ∧
      Game.executeCommand i (g₁, done) mv = .ok (g₂, done ++ [{ command := mv, error := none }])

end Turn

/-! ## Expeditions with one id -/

section WithId
variable {s t : PlanetWars F} {arrived : List Expedition} {id : Nat} {e : Expedition}

theorem Rules.Delivers.withId_flying (h : Delivers s t arrived) (id : Nat) :
    (withId id t.expeditions).Perm
      (((withId id s.expeditions).filter (2 ≤ ·.turnsRemaining)).map (·.after 1)) := by
  refine (h.expeditions.filter _).trans (.of_eq ?_)
  rw [List.filter_map, withId, List.filter_filter, List.filter_filter]
  congr 1
  apply List.filter_congr
  intro e _
  simp [Bool.and_comm]

theorem Rules.Delivers.withId_arrived (h : Delivers s t arrived) (id : Nat) :
    (withId id arrived).Perm ((withId id s.expeditions).filter (·.turnsRemaining ≤ 1)) := by
  refine (h.landed.filter _).trans (.of_eq ?_)
  rw [withId, List.filter_filter, List.filter_filter]
  apply List.filter_congr
  intro e _
  simp [Bool.and_comm]

theorem Rules.Delivers.none (h : Delivers s t arrived) (hs : withId id s.expeditions = []) :
    withId id t.expeditions = [] ∧ withId id arrived = [] := by
  have hflying := h.withId_flying id
  have harrived := h.withId_arrived id
  rw [hs] at hflying harrived
  exact ⟨List.perm_nil.mp hflying, List.perm_nil.mp harrived⟩

theorem Rules.Delivers.flies (h : Delivers s t arrived) (hs : withId id s.expeditions = [e])
    (he : 2 ≤ e.turnsRemaining) :
    withId id t.expeditions = [e.after 1] ∧ withId id arrived = [] := by
  have hflying := h.withId_flying id
  have harrived := h.withId_arrived id
  rw [hs, List.filter_cons_of_pos (by simpa using he)] at hflying
  rw [hs, List.filter_cons_of_neg (by simp only [decide_eq_true_eq]; omega)] at harrived
  exact ⟨List.perm_singleton.mp hflying, List.perm_nil.mp harrived⟩

theorem Rules.Delivers.arrives (h : Delivers s t arrived) (hs : withId id s.expeditions = [e])
    (he : e.turnsRemaining ≤ 1) : withId id t.expeditions = [] ∧ withId id arrived = [e] := by
  have hflying := h.withId_flying id
  have harrived := h.withId_arrived id
  rw [hs, List.filter_cons_of_neg (by simp only [decide_eq_true_eq]; omega)] at hflying
  rw [hs, List.filter_cons_of_pos (by simpa using he)] at harrived
  exact ⟨List.perm_nil.mp hflying, List.perm_singleton.mp harrived⟩

theorem withId_of_mem {es : List Expedition} (hnodup : (es.map (·.id)).Nodup) (he : e ∈ es) :
    withId e.id es = [e] := by
  induction es with
  | nil => cases he
  | cons a es ih =>
    obtain ⟨ha, hes⟩ := List.nodup_cons.mp hnodup
    rcases List.mem_cons.mp he with rfl | he
    · rw [withId, List.filter_cons_of_pos (by simp), List.filter_eq_nil_iff.mpr]
      intro b hb
      simp only [decide_eq_true_eq]
      exact fun heq => ha (List.mem_map.mpr ⟨b, hb, heq⟩)
    · have hne : a.id ≠ e.id := fun heq => ha (List.mem_map.mpr ⟨e, he, heq.symm⟩)
      rw [withId, List.filter_cons_of_neg (by simpa using hne)]
      exact ih hes he

theorem withId_numbered {num : Nat} {es : List Expedition} (h : id < num) :
    withId id (numbered num es) = [] := by
  rw [withId, List.filter_eq_nil_iff]
  intro e he
  obtain ⟨i, hi, rfl⟩ := List.mem_mapIdx.mp he
  simp only [decide_eq_true_eq]
  omega

/-- What is left of the flight once the messages of the turn are executed: in the first turn
even an expedition that has no distance to go. -/
def Rules.Expedition.departing (e : Expedition) (j : Nat) : List Expedition :=
  if j < max e.turnsRemaining 1 then [e.after j] else []

theorem Rules.Expedition.departing_zero (e : Expedition) : e.departing 0 = [e] := by
  rw [departing, if_pos (by omega)]
  rfl

theorem Rules.Expedition.departing_succ (e : Expedition) (j : Nat) :
    e.departing (j + 1) = e.inFlight (j + 1) := by
  rw [departing, inFlight]
  congr 1
  rw [eq_iff_iff]
  omega

theorem Rules.Delivers.flight {j : Nat} (h : Delivers s t arrived)
    (hs : withId e.id s.expeditions = e.departing j) :
    withId e.id t.expeditions = e.inFlight (j + 1) ∧ withId e.id arrived = e.arriving j := by
  rw [Expedition.departing] at hs
  rw [Expedition.inFlight, Expedition.arriving]
  split at hs
  · by_cases hlast : 2 ≤ e.turnsRemaining - j
    · obtain ⟨ht, harrived⟩ := h.flies hs hlast
      refine ⟨?_, ?_⟩
      · rw [if_pos (by omega), ht, Expedition.after, Expedition.after, Expedition.after]
        congr 2
      · rw [if_neg (by omega), harrived]
    · obtain ⟨ht, harrived⟩ := h.arrives hs (Nat.le_of_lt_succ (Nat.not_le.mp hlast))
      refine ⟨?_, ?_⟩
      · rw [if_neg (by omega), ht]
      · rw [if_pos (by omega), harrived]
  · obtain ⟨ht, harrived⟩ := h.none hs
    refine ⟨?_, ?_⟩
    · rw [if_neg (by omega), ht]
    · rw [if_neg (by omega), harrived]

end WithId

/-! ## One turn -/

section Turn
variable [F64 F] [External F] {g g' g₁ g₂ : Game F} {input : TurnInput} {i : PlayerId}
  {mv : Proto.Command} {e : Expedition} {actions : List (PlayerId × Proto.PlayerAction)}

omit [F64 F] [External F] in
theorem expeditions_of_resolveCombat {s t : PlanetWars F} (h : s.resolveCombat = .ok t) :
    t.expeditions = s.expeditions ∧ t.expeditionNum = s.expeditionNum := by
  rw [PlanetWars.resolveCombat] at h
  obtain ⟨_, -, ht⟩ := bind_eq_ok.mp h
  cases ht
  exact ⟨rfl, rfl⟩

/-- What a turn does, part by part. -/
theorem delivers_of_turn (h : g.turn input = .ok (g', actions)) :
    ∃ g₁ t arrived, g.command input = .ok (g₁, actions) ∧
      Delivers g₁.state.nextTurn t arrived ∧ g'.state.expeditions = t.expeditions ∧
      TurnDelivers g input g' arrived := by
  rw [Game.turn] at h
  obtain ⟨state, hstate, h⟩ := bind_eq_ok.mp h
  obtain ⟨⟨g₁, actions₁⟩, hexecute, h⟩ := bind_eq_ok.mp h
  obtain ⟨state', hstep, h⟩ := bind_eq_ok.mp h
  cases h
  rw [PlanetWars.step] at hstep
  obtain ⟨turnNum, hturnNum, hstep⟩ := bind_eq_ok.mp hstep
  obtain ⟨-, rfl⟩ := checkedAdd_eq_ok.mp hturnNum
  obtain ⟨t, hexpeditions, hcombat⟩ := bind_eq_ok.mp hstep
  obtain ⟨arrived, harrived⟩ := PlanetWars.stepExpeditions_delivers hexpeditions
  have hcommand : g.command input = .ok (g₁, actions) := by
    rw [Game.command, hstate, ok_bind]
    exact hexecute
  exact ⟨g₁, t, arrived, hcommand, harrived, (expeditions_of_resolveCombat hcombat).1,
    ⟨g₁, actions, t, hcommand, hexpeditions, harrived, hcombat⟩⟩

/-- The turn itself only launches expeditions before its step. -/
theorem Game.Consistent.command_launches (hg : g.Consistent) (input : TurnInput) :
    Safe (fun _ => True) (fun r => Launches { g with state := g.state.grown } r.1)
      (g.command input) := by
  rw [command]
  refine Safe.bind (g.state.repopulate_safe.mono (fun _ _ => trivial) fun _ h => h) ?_
  rintro _ rfl
  exact (executeMessages_launches hg.mapped_grown [] _).mono (fun _ _ => trivial) fun _ h => h

/-- After a command of a turn the rest of its messages only launch further expeditions. -/
theorem AcceptedIn.launches (hg : g.Consistent) (h : AcceptedIn g input i mv g₁ g₂) :
    Launches { g with state := g.state.grown } g₁ ∧
      (g₂.Mapped → ∀ g₃ actions, g.command input = .ok (g₃, actions) → Launches g₂ g₃) := by
  obtain ⟨state, before, message, after, g₀, actions₀, hstate, hentries, hbefore, action, mvs, mvs',
    done, haction, hcommands, hmvs, hmv⟩ := h.executed
  obtain rfl := g.state.repopulate_safe.of_ok hstate
  have hlaunched := (executeMessages_launches hg.mapped_grown [] before).of_ok hbefore
  refine ⟨hlaunched.trans ?_, fun hg₂ g₃ actions hcommand => ?_⟩
  · exact (executeCommands_launches (hlaunched.mapped hg.mapped_grown) i [] mvs).of_ok hmvs
  · rw [Game.command, hstate, ok_bind, Game.executeMessages, hentries, List.foldlM_append] at hcommand
    obtain ⟨r, hr, hrest⟩ := bind_eq_ok.mp hcommand
    obtain rfl : (g₀, actions₀) = r := Except.ok.inj (hbefore.symm.trans hr)
    rw [List.foldlM_cons] at hrest
    obtain ⟨⟨g₄, actions₄⟩, hmessage, hafter⟩ := bind_eq_ok.mp hrest
    rw [executeMessage, executeAction] at hmessage
    simp only [haction, hcommands, List.foldlM_append, hmvs, ok_bind, List.foldlM_cons, hmv] at hmessage
    obtain ⟨⟨g₅, reported⟩, haction', hr⟩ := bind_eq_ok.mp hmessage
    obtain ⟨⟨g₆, reports⟩, hmvs', hr'⟩ := bind_eq_ok.mp haction'
    cases hr
    cases hr'
    have hrest := (executeCommands_launches hg₂ i _ mvs').of_ok hmvs'
    exact hrest.trans ((executeMessages_launches (hrest.mapped hg₂) _ after).of_ok hafter)

/-- A command that is not refused sends an expedition off, which is still there when all
messages of the turn are executed. -/
theorem AcceptedIn.accepted (hg : g.Consistent) (h : AcceptedIn g input i mv g₁ g₂) :
    ∃ e, Accepted i mv e g₁ g₂ ∧
      ∀ g₃ actions, g.command input = .ok (g₃, actions) → e ∈ g₃.state.expeditions := by
  obtain ⟨hbefore, hafter⟩ := h.launches hg
  have hmapped := hbefore.mapped hg.mapped_grown
  obtain ⟨_, _, _, _, _, _, -, -, -, _, _, _, _, -, -, -, hmv⟩ := h.executed
  obtain ⟨e, he⟩ := accepted_of_executeCommand hmapped (hbefore.valid hg.settled.toValid.grown) hmv
  refine ⟨e, he, fun g₃ actions hcommand => ?_⟩
  obtain ⟨p, n, hp, -, -, rfl⟩ := he.game
  have hmapped₂ : Mapped { g₁ with state := { g₁.state with
      planets := g₁.state.planets.set e.origin { p with fleets := [⟨some i, n - mv.shipCount⟩] }
      expeditionNum := g₁.state.expeditionNum + 1
      expeditions := g₁.state.expeditions ++ [e] } } := fun name o ho => by
    simpa using hmapped name o ho
  obtain ⟨es, hes, -⟩ := (hafter hmapped₂ g₃ actions hcommand).expeditions
  rw [hes]
  simp

/-! ## Flights -/

/-- `j` turns after expedition `e` set out. -/
structure Underway (e : Expedition) (j : Nat) (g : Game F) : Prop where
  consistent : g.Consistent
  known : e.id < g.state.expeditionNum
  inFlight : withId e.id g.state.expeditions = e.inFlight j

theorem Game.Consistent.command_eq (hg : g.Consistent)
    (h : g.command input = .ok (g₁, actions)) :
    g₁ = g.ordered (input.messages.entriesIn input.drainOrder) := by
  obtain ⟨state, hstate, hexecute⟩ := bind_eq_ok.mp h
  obtain rfl := g.state.repopulate_safe.of_ok hstate
  have hnd := HashMap.nodup_fst_entriesIn input.drainOrder input.messages
  exact congrArg Prod.fst ((hg.executeMessages_safe hnd).of_ok hexecute)

/-- The turn in which expedition `e` sets out, or a later one. -/
theorem departed (hg : g.Consistent) (h : g.turn input = .ok (g', actions)) {j : Nat}
    (hcommand : ∀ g₁ actions, g.command input = .ok (g₁, actions) →
      e.id < g₁.state.expeditionNum ∧ withId e.id g₁.state.expeditions = e.departing j) :
    Underway e (j + 1) g' ∧
      ∃ arrived, TurnDelivers g input g' arrived ∧ withId e.id arrived = e.arriving j := by
  obtain ⟨g₁, t, arrived, hg₁, hdelivers, hg', hturn⟩ := delivers_of_turn h
  obtain ⟨hknown, hdeparting⟩ := hcommand g₁ actions hg₁
  obtain ⟨hinFlight, harriving⟩ := hdelivers.flight hdeparting
  have htaken := (turn_safe hg input).of_ok h
  refine ⟨⟨?_, ?_, ?_⟩, arrived, hturn, harriving⟩
  · exact hg.taken (HashMap.nodup_fst_entriesIn _ _) htaken
  · rw [htaken.stepped.expeditionNum, ← hg.command_eq hg₁]
    exact hknown
  · rw [hg', hinFlight]

theorem AcceptedIn.departs (hg : g.Consistent) (h : AcceptedIn g input i mv g₁ g₂) :
    ∃ e, Accepted i mv e g₁ g₂ ∧ ∀ g' actions, g.turn input = .ok (g', actions) →
      Underway e 1 g' ∧
        ∃ arrived, TurnDelivers g input g' arrived ∧ withId e.id arrived = e.arriving 0 := by
  obtain ⟨e, haccepted, hmem⟩ := h.accepted hg
  refine ⟨e, haccepted, fun g' actions hturn => departed hg hturn fun g₃ actions hcommand => ?_⟩
  have hvalid : Valid g₃.state :=
    ((hg.command_launches input).of_ok hcommand).valid hg.settled.toValid.grown
  have he := hmem g₃ actions hcommand
  refine ⟨hvalid.idsBelow e he, ?_⟩
  rw [withId_of_mem hvalid.idsDistinct he, Expedition.departing_zero]

/-- Expeditions of later turns get other ids. -/
theorem Underway.turn {j : Nat} (h : Underway e (j + 1) g)
    (hturn : g.turn input = .ok (g', actions)) :
    Underway e (j + 2) g' ∧
      ∃ arrived, TurnDelivers g input g' arrived ∧ withId e.id arrived = e.arriving (j + 1) := by
  refine departed h.consistent hturn fun g₁ actions hcommand => ?_
  obtain ⟨es, hes, hnum⟩ := ((h.consistent.command_launches input).of_ok hcommand).expeditions
  refine ⟨h.known.trans_le hnum, ?_⟩
  rw [hes, withId, List.filter_append]
  change withId e.id g.state.expeditions ++ withId e.id (numbered g.state.expeditionNum es) = _
  rw [h.inFlight, withId_numbered h.known, List.append_nil, Expedition.departing_succ]

theorem play_cons_eq_ok {inputs : List TurnInput} : g.play (input :: inputs) = .ok g' ↔
    ∃ g₁ actions, g.turn input = .ok (g₁, actions) ∧ g₁.play inputs = .ok g' := by
  rw [Game.play, List.foldlM_cons]
  cases hturn : g.turn input with
  | error e => simp
  | ok r => simp [Game.play, Prod.ext_iff]

theorem Underway.play {j : Nat} (h : Underway e (j + 1) g) {inputs : List TurnInput}
    (hplay : g.play inputs = .ok g') : Underway e (inputs.length + (j + 1)) g' := by
  induction inputs generalizing g j with
  | nil =>
    cases hplay
    rw [List.length_nil, Nat.zero_add]
    exact h
  | cons input inputs ih =>
    obtain ⟨g₁, actions, hturn, hrest⟩ := play_cons_eq_ok.mp hplay
    rw [List.length_cons, Nat.add_assoc, Nat.add_comm 1]
    exact ih (h.turn hturn).1 hrest

end Turn

end Mozaic
