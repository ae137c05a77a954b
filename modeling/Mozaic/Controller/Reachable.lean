import Mozaic.Controller.System

/-! The states a game can get into through `step`, and that none of them is broken. -/
namespace Mozaic.Controller
open Rust Rules Network Outcome

variable {F : Type} [F64 F] [External F]

/-- The controllers of the games a lobby may start, after any number of turns in which
players of the game answered anything. -/
inductive Reachable (lobby : Lobby F) : PwController F → Prop
  | started {rt : Runtime} {c : PwController F} (h : PwController.new rt lobby = .ok c) :
      Reachable lobby c
  | stepped {rt : Runtime} {c c' : PwController F} {messages : HashMap PlayerId ResponseValue}
      (h : Reachable lobby c) (hm : ∀ i, i ∈ messages → i ∈ c.players)
      (hc : c.step rt messages = .ok c') : Reachable lobby c'

omit [F64 F] in
theorem Started.consistent {rt : Runtime} {lobby : Lobby F} {c : PwController F}
    (h : Started rt lobby c) : c.toGame.Consistent := by
  obtain ⟨conf, state, _, hcreated, hprompted⟩ := h.opened
  rw [hprompted.toGame]
  exact Game.consistent_ofState hcreated

omit [F64 F] [External F] in
theorem PwController.Prompted.seated {rt : Runtime} {c c' : PwController F} (h : Prompted rt c c')
    (hc : c.Seated) : c'.Seated := by
  intro i p hp
  rw [h.players] at hp
  split at hp
  · obtain ⟨q, hq, rfl⟩ := Option.map_eq_some_iff.mp hp
    rw [h.toGame]
    exact hc i q hq
  · cases hp

omit [F64 F] in
theorem Started.seated {rt : Runtime} {lobby : Lobby F} {c : PwController F}
    (h : Started rt lobby c) : c.Seated := by
  obtain ⟨conf, state, _, hcreated, hprompted⟩ := h.opened
  refine hprompted.seated fun i p hp => ?_
  obtain ⟨cl, hcl, rfl⟩ := (lookup_players_enrolled state).mp hp
  have hlt := (List.getElem?_eq_some_iff.mp hcl).1
  rw [length_roster] at hlt
  have hlen : state.players.length = lobby.players.keys.card := by simp [hcreated.players]
  exact ⟨rfl, hlen ▸ hlt⟩

theorem PwController.Stepped.consistent {rt : Runtime} {messages : HashMap PlayerId ResponseValue}
    {c c' : PwController F} (h : Stepped rt messages c c') (hc : c.toGame.Consistent) :
    c'.toGame.Consistent := by
  obtain ⟨g, actions, htaken, h⟩ := h
  have hg := hc.taken (HashMap.nodup_fst_entriesIn _ _) htaken
  split at h
  · exact h.toGame ▸ hg
  · exact h.toGame ▸ hg

theorem PwController.Stepped.seated {rt : Runtime} {messages : HashMap PlayerId ResponseValue}
    {c c' : PwController F} (h : Stepped rt messages c c') (hc : c.Seated) : c'.Seated := by
  obtain ⟨g, actions, htaken, h⟩ := h
  have hplayed : (c.played messages g actions).Seated := fun i p hp => by
    obtain ⟨hid, hi⟩ := hc i p hp
    exact ⟨hid, htaken.length_players ▸ hi⟩
  split at h
  · intro i p hp
    simp [h.players] at hp
  · exact h.seated hplayed

theorem Reachable.consistent_seated {lobby : Lobby F} {c : PwController F}
    (h : Reachable lobby c) : c.toGame.Consistent ∧ c.Seated := by
  induction h with
  | started h =>
    have hstarted := (new_safe _ lobby).of_ok h
    exact ⟨hstarted.consistent, hstarted.seated⟩
  | stepped _ hm hc ih =>
    have hstepped := (PwController.step_safe _ ih.1 ih.2 hm).of_ok hc
    exact ⟨hstepped.consistent ih.1, hstepped.seated ih.2⟩

/-- Between two turns a game is in order, and all that can stop a turn is a counter that
overflows. -/
theorem reachable_settled {lobby : Lobby F} {c : PwController F} (h : Reachable lobby c) :
    Settled c.state ∧ ∀ rt messages, (∀ i, i ∈ messages → i ∈ c.players) → ∀ e,
      c.step rt messages = .error e → ∃ counter, e = .addOverflow counter := by
  obtain ⟨hc, hseat⟩ := h.consistent_seated
  refine ⟨hc.settled, fun rt messages hm e he => ?_⟩
  rcases (PwController.step_safe rt hc hseat hm).of_error he with h | rfl
  · exact h.overflow
  · exact ⟨_, rfl⟩

/-- Player 0 sends the order twice, player 1 says nothing of use. -/
def marchAnswers : HashMap PlayerId ResponseValue :=
  HashMap.collect [(0, .ok [1]), (1, .ok [2])]

/-- After the first turn of the march its expedition is under way, and both players answer
again. -/
theorem reachable_settled_march :
    ∃ c c', PwController.new skirmishRuntime marchLobby = .ok c ∧
      c.step skirmishRuntime marchAnswers = .ok c' ∧ c'.state.expeditions.length = 1 ∧
      Settled c'.state ∧ ∀ e, c'.step skirmishRuntime marchAnswers = .error e →
        ∃ counter, e = .addOverflow counter := by
  have hunderway : ((PwController.new skirmishRuntime marchLobby >>= fun c =>
      c.step skirmishRuntime marchAnswers).toOption.map fun c' =>
        (c'.state.expeditions.length, c'.players.keys)) = some (1, {0, 1}) := by
    decide +kernel
  have hplayers : (PwController.new skirmishRuntime marchLobby).toOption.map
      (fun c => c.players.keys) = some {0, 1} := by
    decide +kernel
  have hkeys (i : PlayerId) (hi : i ∈ marchAnswers) : i ∈ ({0, 1} : Finset PlayerId) := by
    have heq : marchAnswers.keys = {0, 1} := by decide +kernel
    rw [← heq]
    exact Finmap.mem_keys.mpr hi
  cases hnew : PwController.new skirmishRuntime marchLobby with
  | error e =>
    rw [hnew] at hplayers
    cases hplayers
  | ok c =>
    rw [hnew] at hplayers hunderway
    rw [ok_bind] at hunderway
    have hseated : c.players.keys = {0, 1} := Option.some.inj hplayers
    cases hstep : c.step skirmishRuntime marchAnswers with
    | error e =>
      rw [hstep] at hunderway
      cases hunderway
    | ok c' =>
      rw [hstep] at hunderway
      have hlength : c'.state.expeditions.length = 1 := (Prod.mk.inj (Option.some.inj hunderway)).1
      have hremaining : c'.players.keys = {0, 1} := (Prod.mk.inj (Option.some.inj hunderway)).2
      have hreachable := Reachable.stepped (.started hnew)
        (fun i hi => Finmap.mem_keys.mp (hseated ▸ hkeys i hi)) hstep
      obtain ⟨hsettled, hnext⟩ := reachable_settled hreachable
      refine ⟨c, c', rfl, hstep, hlength, hsettled, hnext skirmishRuntime marchAnswers ?_⟩
      exact fun i hi => Finmap.mem_keys.mp (hremaining ▸ hkeys i hi)

end Mozaic.Controller
