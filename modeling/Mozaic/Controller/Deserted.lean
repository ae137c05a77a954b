import Mozaic.Controller.Events
import Mozaic.Controller.Reachable

/-! Matches of nobody. A lobby without players can start a game, which its first event
ends. -/
namespace Mozaic.Controller
open Rust Rules Network Outcome

variable {F : Type}

/-- The controller of a match, if its game was started. -/
def PwMatchState.controller? : PwMatchState F → Option (PwController F)
  | .lobby _ => none
  | .playing c => some c
  | .finished c => some c

/-- The game a match was last seen in, if it was started. -/
def PwMatchState.game? : PwMatchState F → Option (PlanetWars F)
  | .lobby _ => none
  | .playing c => some c.state
  | .finished c => some c.state

theorem PwMatchState.controller?_of_game? {m : PwMatchState F} {state : PlanetWars F}
    (h : m.game? = some state) : ∃ c, m.controller? = some c ∧ c.state = state := by
  cases m with
  | lobby => cases h
  | playing c | finished c => exact ⟨c, rfl, Option.some.inj h⟩

variable [F64 F] [External F] {rt : Runtime} {lobby : Lobby F}

/-- A game without players. -/
structure Deserted (c : PwController F) : Prop where
  nobody : c.state.players = []
  players : c.players = ∅
  waitingFor : c.waitingFor = ∅
  commands : c.commands = ∅
  channels : issued c.channels = []

omit [F64 F] in
theorem Started.deserted {c : PwController F} (h : Started rt lobby c)
    (hempty : lobby.players = ∅) : Deserted c := by
  obtain ⟨conf, state, _, hcreated, hprompted⟩ := h.opened
  have hplayers : (enrolled rt lobby state).players = ∅ := by simp [enrolled, hempty]
  have hnobody : state.players = [] := by simp [hcreated.players, hempty]
  exact
    { nobody := (congrArg (fun g : Game F => g.state.players) hprompted.toGame).trans hnobody
      players := Finmap.ext_lookup fun i => by
        rw [hprompted.players, hplayers]
        split <;> rfl
      waitingFor := Finset.eq_empty_of_forall_notMem fun i hi => by
        rcases (hprompted.waitingFor i).mp hi with hi | ⟨_, hi⟩
        · exact Finset.notMem_empty i hi
        · rw [hplayers] at hi
          exact Finmap.notMem_empty hi
      commands := hprompted.commands
      channels := by
        rw [hprompted.channels, hplayers, HashMap.entriesIn_empty, List.map_nil, List.append_nil,
          issued_append, issued_eq_nil_of_onlyControl lobby.quiet, issued_logSent]
        rfl }

/-- Its first event is its end. -/
theorem Deserted.deliver_safe {c : PwController F} (h : Deserted c) (hc : c.toGame.Consistent)
    (rt : Runtime) (input : Input) :
    Safe (DeliveryPanic c)
      (fun s => s = ⟨.playing c, []⟩ ∨ ∃ c' answered, s = ⟨.finished c', answered⟩ ∧
        PwController.Stepped rt ∅ c c')
      (System.deliver ⟨.playing c, []⟩ rt input) := by
  have hseat : c.Seated := fun i p hp => by simp [h.players] at hp
  have hstep := PwController.step_safe rt hc hseat
    fun i (hi : i ∈ (∅ : HashMap PlayerId ResponseValue)) => absurd hi Finmap.notMem_empty
  have hcommands : ({ c with commands := ∅ } : PwController F) = c := by
    rw [← h.commands]
  have hfinished {c' : PwController F} (hc' : PwController.Stepped rt ∅ c c') :
      c'.state.isFinished = true := by
    obtain ⟨g, actions, htaken, hc'⟩ := hc'
    have hstate : c'.state = g.state := by
      split at hc' <;> exact congrArg Game.state hc'.toGame
    have hlen : g.state.players = [] := by
      rw [← List.length_eq_zero_iff, htaken.length_players, h.nobody, List.length_nil]
    simp [hstate, PlanetWars.isFinished, hlen]
  have hpoll {event : Event} (hreceive : c.receive event = .ok c) :
      Safe (DeliveryPanic c) (fun game => ∃ c', game = .finished c' ∧ PwController.Stepped rt ∅ c c')
        (PwMatchState.poll rt event (.playing c)) := by
    rw [PwMatchState.poll, PwController.handleEvent, hreceive, ok_bind, if_pos h.waitingFor,
      hcommands, h.commands]
    refine Safe.bind (hstep.mono ?_ fun _ h => h) fun c' hc' => ?_
    · intro e h
      rcases h with he | he
      · exact .inr ⟨_, HashMap.nodup_fst_entriesIn _ _, he⟩
      · exact .inl he
    · rw [if_pos (hfinished hc')]
      exact ⟨c', rfl, hc'⟩
  cases input with
  | connected | disconnected | message =>
    refine (hpoll rfl).bind ?_
    intro _ h
    obtain ⟨c', rfl, hc'⟩ := h
    exact .inr ⟨c', _, rfl, hc'⟩
  | response r v =>
    have hevent : System.event ⟨.playing c, []⟩ (.response r v) = none :=
      if_neg fun hr => by simpa [PwMatchState.channels, h.channels] using hr.1
    rw [System.deliver, hevent]
    exact .inl rfl

/-- The match has not begun, or is over. -/
private def Desolate (rt : Runtime) (lobby : Lobby F) (I : PwController F → Prop) (s : System F) :
    Prop :=
  (∃ c, s = ⟨.playing c, []⟩ ∧ Started rt lobby c) ∨ ∃ c answered, s = ⟨.finished c, answered⟩ ∧ I c

/-- The invariant rule of a match of nobody. -/
theorem System.run_safe_of_empty (hempty : lobby.players = ∅) {A : Panic → Prop}
    {I : PwController F → Prop} (hpanic : ∀ e, StartPanic lobby e → A e)
    (hstart : ∀ c, Started rt lobby c → I c)
    (hstep : ∀ c, Started rt lobby c → (∀ e, DeliveryPanic c e → A e) ∧
      ∀ rt' c', PwController.Stepped rt' ∅ c c' → I c')
    (inputs : List (Runtime × Input)) :
    Safe A (fun s => ∀ c, s.game.controller? = some c → I c) (System.run rt lobby inputs) := by
  have hrun : Safe A (Desolate rt lobby I) (System.run rt lobby inputs) := by
    unfold System.run System.start
    apply Safe.bind (P := Desolate rt lobby I)
    · exact ((new_safe rt lobby).mono hpanic fun _ h => h).bind fun c hc => .inl ⟨c, rfl, hc⟩
    · intro s hs
      apply Safe.foldlM hs
      rintro ⟨rt', input⟩ _ t (⟨c, rfl, hc⟩ | ⟨c, answered, rfl, hI⟩)
      · obtain ⟨hA, hI⟩ := hstep c hc
        apply ((hc.deserted hempty).deliver_safe hc.consistent rt' input).mono hA
        intro s h
        rcases h with rfl | ⟨c', answered, rfl, hc'⟩
        · exact .inl ⟨c, rfl, hc⟩
        · exact .inr ⟨c', answered, rfl, hI rt' c' hc'⟩
      · exact .inr ⟨c, answered, rfl, hI⟩
  apply hrun.weaken
  rintro s (⟨c, rfl, hc⟩ | ⟨c, answered, rfl, hI⟩) c' hc'
  · obtain rfl := Option.some.inj hc'
    exact hstart c hc
  · obtain rfl := Option.some.inj hc'
    exact hI

end Mozaic.Controller
