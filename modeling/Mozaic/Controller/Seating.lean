import Mozaic.Controller.Deserted

/-! Which player a client is, over a whole match, and under which number the control
client is told about it. -/
namespace Mozaic.Controller
open Rust Rules Network Outcome

variable {F : Type}

/-- The number of a client among the owners in the states `log_state` sends. -/
def PwController.ownerNumber (c : PwController F) (clientId : ClientId) : Except Panic Nat := do
  let playerId ← unwrap (c.clientPlayer.lookup clientId)
  { state := c.state, playerNumOffset := 0 : Serializer F }.playerNum playerId

/-- The clients are the players in the order of the roster. -/
structure Enrolled (roster : List ClientId) (c : PwController F) : Prop where
  size : c.state.players.length = roster.length
  clientPlayer : ∀ cl i, c.clientPlayer.lookup cl = some i ↔ roster[i]? = some cl

theorem Enrolled.ownerNumber_eq_ok {roster : List ClientId} {c : PwController F}
    (h : Enrolled roster c) {cl : ClientId} {k : Nat} :
    c.ownerNumber cl = .ok k ↔ ∃ i, roster[i]? = some cl ∧ k = i + 1 := by
  rw [PwController.ownerNumber, bind_eq_ok]
  apply exists_congr
  intro i
  rw [unwrap_eq_ok, h.clientPlayer]
  apply and_congr_right
  intro hi
  have hlt : i < c.state.players.length := h.size ▸ (List.getElem?_eq_some_iff.mp hi).1
  rw [Serializer.playerNum, checkedRem_of_pos (Nat.zero_lt_of_lt hlt), ok_bind]
  simp only [Nat.add_zero, Nat.mod_eq_of_lt hlt]
  exact ⟨fun heq => (Except.ok.inj heq).symm, fun heq => congrArg _ heq.symm⟩

/-- The number of a client is its place in the roster, counted from one. -/
theorem Enrolled.ownerNumber_iff {roster : List ClientId} {c : PwController F}
    (h : Enrolled roster c) {cl : ClientId} {i : Nat} :
    c.ownerNumber cl = .ok (i + 1) ↔ roster[i]? = some cl := by
  rw [h.ownerNumber_eq_ok]
  constructor
  · intro h
    obtain ⟨j, hj, heq⟩ := h
    rwa [Nat.succ.inj heq]
  · exact fun hi => ⟨i, hi, rfl⟩

section Run
variable [F64 F] [External F] {rt : Runtime} {lobby : Lobby F}

/-- The game of a controller is in order, and so is its control handle. -/
structure PwController.Orderly (c : PwController F) : Prop where
  consistent : c.toGame.Consistent
  control : c.ctrlHandle.clientId = ctrlId

omit [F64 F] in
theorem Started.orderly {c : PwController F} (h : Started rt lobby c) : c.Orderly where
  consistent := h.consistent
  control := by
    obtain ⟨conf, state, _, _, hprompted⟩ := h.opened
    rw [hprompted.ctrlHandle]
    exact congrArg ClientHandle.clientId lobby.control

/-- What holds when a game starts, and goes through a response and through a turn of a game
in order, holds of every controller of a match. -/
theorem System.run_orderly {I : PwController F → Prop} (hstart : ∀ c, Started rt lobby c → I c)
    (hheard : ∀ c i v, I c → I (c.heard i v))
    (hstepped : ∀ rt' messages c c', c.Orderly →
      PwController.Stepped rt' messages { c with commands := ∅ } c' → I c → I c')
    (inputs : List (Runtime × Input)) :
    Safe (fun _ => True) (fun s => ∀ c, s.game.controller? = some c → I c)
      (System.run rt lobby inputs) := by
  by_cases hempty : lobby.players = ∅
  · apply System.run_safe_of_empty hempty (fun _ _ => trivial) hstart
    intro c hc
    refine ⟨fun _ _ => trivial, fun rt' c' hc' => ?_⟩
    have hcommands : ({ c with commands := ∅ } : PwController F) = c := by
      rw [← (hc.deserted hempty).commands]
    exact hstepped rt' ∅ c c' hc.orderly (hcommands.symm ▸ hc') (hstart c hc)
  · have hpolled {c c' : PwController F} (hc : I c)
        (hc' : (if c.state.isFinished then PwMatchState.finished c else .playing c).controller? =
          some c') : I c' := by
      split at hc' <;> exact Option.some.inj hc' ▸ hc
    refine Safe.weaken (System.run_safe (I := fun _ s => ∀ c, s.game.controller? = some c → I c)
      hempty (fun _ _ => trivial) ?_ ?_ ?_ inputs) fun s hs => hs.2
    · intro c t hc _ c' hc'
      exact Option.some.inj hc' ▸ hstart c hc
    · intro done rt' input answered t older c h hI
      have hc : I c := hI c rfl
      refine ⟨fun _ _ => trivial, fun s hs c' hc' => ?_⟩
      cases hs with
      | noticed => exact hpolled hc hc'
      | dropped => exact hI c' hc'
      | heard => exact hpolled (hheard c _ _ hc) hc'
      | @stepped i _ v _ _ _ _ hstep =>
        have hheard' : (c.heard i v).Orderly := ⟨h.consistent, h.ctrlHandle⟩
        exact hpolled (hstepped _ _ _ _ hheard' hstep (hheard c _ _ hc)) hc'
    · exact fun _ _ _ _ hI => hI

/-- What holds when a game starts, and goes through a response and through a turn, holds
of every controller of a match. -/
theorem System.run_controllers {I : PwController F → Prop} (hstart : ∀ c, Started rt lobby c → I c)
    (hheard : ∀ c i v, I c → I (c.heard i v))
    (hstepped : ∀ rt' messages c c', PwController.Stepped rt' messages { c with commands := ∅ } c' →
      I c → I c')
    (inputs : List (Runtime × Input)) :
    Safe (fun _ => True) (fun s => ∀ c, s.game.controller? = some c → I c)
      (System.run rt lobby inputs) :=
  System.run_orderly hstart hheard (fun rt' messages c c' _ => hstepped rt' messages c c') inputs

omit [F64 F] in
theorem Started.enrolled {c : PwController F} (h : Started rt lobby c) :
    Enrolled (roster rt lobby) c := by
  obtain ⟨conf, state, _, hcreated, hprompted⟩ := h.opened
  have hready : Ready (roster rt lobby) [] _ := ready_enrolled hcreated
  constructor
  · rw [hprompted.toGame]
    exact hready.size
  · rw [hprompted.clientPlayer]
    exact hready.clientPlayer

theorem PwController.Stepped.enrolled {roster : List ClientId} {rt : Runtime}
    {messages : HashMap PlayerId ResponseValue} {c c' : PwController F}
    (h : Stepped rt messages c c') (hc : Enrolled roster c) : Enrolled roster c' := by
  obtain ⟨g, actions, htaken, h⟩ := h
  have hsize : g.state.players.length = roster.length := htaken.length_players.trans hc.size
  split at h
  · exact ⟨h.toGame ▸ hsize, h.clientPlayer ▸ hc.clientPlayer⟩
  · exact ⟨h.toGame ▸ hsize, h.clientPlayer ▸ hc.clientPlayer⟩

theorem run_enrolled (rt : Runtime) (lobby : Lobby F) (inputs : List (Runtime × Input)) :
    Safe (fun _ => True)
      (fun s => ∀ c, s.game.controller? = some c → Enrolled (roster rt lobby) c)
      (System.run rt lobby inputs) := by
  apply System.run_controllers
  · exact fun c hc => hc.enrolled
  · exact fun c i v hc => ⟨hc.size, hc.clientPlayer⟩
  · exact fun rt' messages c c' h hc => h.enrolled ⟨hc.size, hc.clientPlayer⟩

end Run
end Mozaic.Controller
