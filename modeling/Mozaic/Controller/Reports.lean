import Mozaic.Controller.Chronicle

/-! What the players are told about their actions: report number `k` is the verdict on the
response to the request of turn number `k`. -/
namespace Mozaic.Controller
open Rust Rules Network Outcome

variable {F : Type}

/-! ## Reports -/

/-- The action a message is about. -/
def reportedAction? : Payload F → Option Proto.PlayerAction
  | .server (.playerAction action) => some action
  | _ => none

/-- The actions that were reported to a client. -/
def reportsTo (cl : ClientId) (channels : Channels F) : List Proto.PlayerAction :=
  (inbox cl channels).filterMap reportedAction?

@[simp] theorem reportsTo_append (cl : ClientId) (channels channels' : Channels F) :
    reportsTo cl (channels ++ channels') = reportsTo cl channels ++ reportsTo cl channels' := by
  simp [reportsTo]

theorem reportsTo_eq_nil {cl : ClientId} {channels : Channels F}
    (h : ∀ s ∈ channels, reportedAction? s.command.data = none) : reportsTo cl channels = [] := by
  rw [reportsTo, List.filterMap_eq_nil_iff]
  intro msg hmsg
  rw [inbox, List.mem_filterMap] at hmsg
  obtain ⟨s, hs, hdata⟩ := hmsg
  split at hdata
  · exact Option.some.inj hdata ▸ h s hs
  · cases hdata

theorem reportsTo_append_silent {cl : ClientId} {channels sent : Channels F}
    (h : ∀ s ∈ sent, reportedAction? s.command.data = none) :
    reportsTo cl (channels ++ sent) = reportsTo cl channels := by
  rw [reportsTo_append, reportsTo_eq_nil h, List.append_nil]

/-- Prompting the players reports nothing. -/
theorem PwController.Prompted.reportsTo {rt : Runtime} {c c' : PwController F}
    (h : Prompted rt c c') (cl : ClientId) :
    reportsTo cl c'.channels = reportsTo cl c.channels := by
  rw [h.channels]
  apply reportsTo_append_silent
  intro s hs
  obtain ⟨e, _, rfl⟩ := List.mem_map.mp hs
  rw [promptSent_eq]
  cases !c.state.aliveAt e.1 <;> rfl

theorem PwController.Finished.reportsTo {rt : Runtime} {c c' : PwController F}
    (h : Finished rt c c') (cl : ClientId) :
    reportsTo cl c'.channels = reportsTo cl c.channels := by
  rw [h.channels]
  apply reportsTo_append_silent
  intro s hs
  obtain ⟨e, _, rfl⟩ := List.mem_map.mp hs
  rfl

/-! ## Turns by their number -/

/-- The turns are kept with the last one first. -/
def turnNumber? (turns : List (Turn F)) (k : Nat) : Option (Turn F) := turns.reverse[k]?

theorem turnNumber?_cons (t : Turn F) (turns : List (Turn F)) (k : Nat) :
    turnNumber? (t :: turns) k = if k = turns.length then some t else turnNumber? turns k := by
  rw [turnNumber?, turnNumber?, List.reverse_cons, List.getElem?_append]
  simp only [List.length_reverse]
  rcases Nat.lt_trichotomy k turns.length with h | rfl | h
  · rw [if_pos h, if_neg (Nat.ne_of_lt h)]
  · simp
  · rw [if_neg (Nat.not_lt.mpr (Nat.le_of_lt h)), if_neg (Nat.ne_of_gt h),
      List.getElem?_eq_none (by simp; omega), List.getElem?_eq_none (by simp; omega)]

theorem turnNumber?_lt {turns : List (Turn F)} {k : Nat} {t : Turn F}
    (h : turnNumber? turns k = some t) : k < turns.length := by
  have hlt := (List.getElem?_eq_some_iff.mp h).1
  rwa [List.length_reverse] at hlt

/-- The last turn keeps its number and its state when it is called. -/
theorem exists_of_turnNumber?_called {t t' : Turn F} {older : List (Turn F)}
    {calls : List (HashMap PlayerId ResponseValue)} {k : Nat}
    (h : turnNumber? ({ t with calls } :: older) k = some t') :
    ∃ t₀, turnNumber? (t :: older) k = some t₀ ∧ t₀.state = t'.state := by
  rw [turnNumber?_cons] at h
  rw [turnNumber?_cons]
  split at h
  · rename_i hk
    obtain rfl := Option.some.inj h
    exact ⟨t, if_pos hk, rfl⟩
  · rename_i hk
    exact ⟨t', by rw [if_neg hk, h], rfl⟩

/-- The turn stepped once, and this is what became of the response of player `i`. -/
def Turn.Judged [F64 F] [External F] (planetMap : HashMap String Nat) (t : Turn F) (i : PlayerId)
    (action : Proto.PlayerAction) : Prop :=
  ∃ messages v, t.calls = [messages] ∧ messages.lookup i = some v ∧
    action = (verdict planetMap t.state.grown.planets i v).2

/-- What was judged before goes with a turn that is over. -/
theorem Turn.Judged.turnNumber?_called [F64 F] [External F] {planetMap : HashMap String Nat}
    {t t' : Turn F} {older : List (Turn F)} {calls : List (HashMap PlayerId ResponseValue)}
    {i : PlayerId} {action : Proto.PlayerAction} {k : Nat} (h : t'.Judged planetMap i action)
    (huncalled : t.calls = []) (ht' : turnNumber? (t :: older) k = some t') :
    turnNumber? ({ t with calls } :: older) k = some t' := by
  rw [turnNumber?_cons] at ht'
  rw [turnNumber?_cons]
  split at ht'
  · obtain rfl := Option.some.inj ht'
    obtain ⟨_, _, hcalls, _⟩ := h
    rw [huncalled] at hcalls
    cases hcalls
  · rename_i hk
    rw [if_neg hk, ht']

/-! ## The invariant -/

section Reported
variable [F64 F] [External F]

/-- What was logged and reported goes with the turns. -/
structure Reported (roster : List ClientId) (c : PwController F) : Prop where
  length : (logged c.channels).length = c.state.turnNum + 1
  current : (logged c.channels)[c.state.turnNum]? = some (c.state.view 0)
  shown : ∀ k t, turnNumber? c.turns k = some t → (logged c.channels)[k]? = some (t.state.view 0)
  judged : ∀ i cl, roster[i]? = some cl → ∀ k action, (reportsTo cl c.channels)[k]? = some action →
    ∃ t, turnNumber? c.turns k = some t ∧ t.Judged c.planetMap i action
  count : ∀ i cl, roster[i]? = some cl → i ∈ c.players →
    (reportsTo cl c.channels).length = c.state.turnNum

variable {roster : List ClientId} {rt : Runtime} {c c' : PwController F}

theorem Reported.prompted (h : Reported roster c) (hturns : c.state.turnNum = c.turns.length)
    (hc : PwController.Prompted rt c c') : Reported roster c' where
  length := by rw [hc.logged, hc.toGame, h.length]
  current := by rw [hc.logged, hc.toGame, h.current]
  shown := by
    intro k t ht
    rw [hc.turns, turnNumber?_cons] at ht
    rw [hc.logged]
    split at ht
    · rename_i hk
      obtain rfl := Option.some.inj ht
      rw [hk, ← hturns, h.current]
    · exact h.shown k t ht
  judged := by
    intro i cl hcl k action haction
    rw [hc.reportsTo] at haction
    obtain ⟨t, ht, hjudged⟩ := h.judged i cl hcl k action haction
    refine ⟨t, ?_, hc.toGame ▸ hjudged⟩
    rw [hc.turns, turnNumber?_cons, if_neg (Nat.ne_of_lt (turnNumber?_lt ht)), ht]
  count := by
    intro i cl hcl hi
    rw [hc.reportsTo, hc.toGame]
    apply h.count i cl hcl
    by_contra hic
    rw [Finmap.mem_iff, hc.players, Finmap.lookup_eq_none.mpr hic] at hi
    simp at hi

theorem Reported.finished (h : Reported roster c) (hc : PwController.Finished rt c c') :
    Reported roster c' where
  length := by rw [hc.logged, hc.toGame, h.length]
  current := by rw [hc.logged, hc.toGame, h.current]
  shown := by rw [hc.logged, hc.turns]; exact h.shown
  judged := by
    intro i cl hcl k action haction
    rw [hc.reportsTo] at haction
    rw [hc.turns, hc.toGame]
    exact h.judged i cl hcl k action haction
  count := by
    intro i cl hcl hi
    rw [hc.players] at hi
    exact absurd hi Finmap.notMem_empty

section Turn
variable {answered : List (RequestId × ResponseValue)} {t : Turn F} {older : List (Turn F)}
  {i : PlayerId} {r : RequestId} {v : ResponseValue} {ord : IterOrder PlayerId} {g : Game F}
  {actions : List (PlayerId × Proto.PlayerAction)}

omit [F64 F] [External F] in
theorem reportsTo_played (c : PwController F) (messages : HashMap PlayerId ResponseValue)
    (g : Game F) (actions : List (PlayerId × Proto.PlayerAction)) (cl : ClientId) :
    reportsTo cl (c.played messages g actions).channels = reportsTo cl c.channels ++
      reportsTo (F := F) cl (actions.map (actionSent c.players)) := by
  change reportsTo cl (c.channels ++ actions.map (actionSent c.players) ++ [_]) = _
  rw [reportsTo_append_silent, reportsTo_append]
  intro s hs
  rw [List.mem_singleton.mp hs]
  rfl

/-- The verdict that is reported is the one on the response of the turn. -/
theorem InTurn.judged (h : InTurn roster answered t older c)
    (htaken : TurnTaken c.toGame ((c.heard i v).commands.entriesIn ord) g actions) {j : PlayerId}
    {action : Proto.PlayerAction} (ha : (j, action) ∈ actions) :
    Turn.Judged g.planetMap { t with calls := t.calls ++ [(c.heard i v).commands] } j action := by
  rw [htaken.actions, reports, List.mem_map] at ha
  obtain ⟨⟨j, w⟩, hw, heq⟩ := ha
  obtain ⟨rfl, rfl⟩ := Prod.mk.inj heq
  refine ⟨(c.heard i v).commands, w, by rw [h.uncalled]; rfl, HashMap.mem_entriesIn.mp hw, ?_⟩
  change _ = (verdict g.planetMap t.state.grown.planets j w).2
  rw [htaken.planetMap, h.state]

/-- A player who is still in the game is told one thing more. -/
theorem InTurn.reportsTo_of_mem (hroster : ProperRoster roster)
    (h : InTurn roster answered t older c) (hr : (i, r) ∈ t.requests)
    (hopen : r ∉ answered.map Prod.fst) (hw : (c.heard i v).waitingFor = ∅)
    (htaken : TurnTaken c.toGame ((c.heard i v).commands.entriesIn ord) g actions)
    {j : PlayerId} {cl : ClientId} (hcl : roster[j]? = some cl) (hj : j ∈ c.players) :
    ∃ action, (j, action) ∈ actions ∧
      reportsTo (F := F) cl (actions.map (actionSent c.players)) = [action] := by
  obtain ⟨action, ha, hinbox⟩ := h.inbox_actions hroster hr hopen hw htaken hcl hj
  refine ⟨action, ha, ?_⟩
  rw [reportsTo, hinbox]
  rfl

theorem InTurn.reportsTo_of_not_mem (hroster : ProperRoster roster)
    (h : InTurn roster answered t older c) (hr : (i, r) ∈ t.requests)
    (hopen : r ∉ answered.map Prod.fst) (hw : (c.heard i v).waitingFor = ∅)
    (htaken : TurnTaken c.toGame ((c.heard i v).commands.entriesIn ord) g actions)
    {j : PlayerId} {cl : ClientId} (hcl : roster[j]? = some cl) (hj : j ∉ c.players) :
    reportsTo (F := F) cl (actions.map (actionSent c.players)) = [] := by
  rw [reportsTo, h.inbox_actions_of_gone hroster hr hopen hw htaken hcl hj]
  rfl

/-- The last response of a turn adds a state and one report for each player. -/
theorem InTurn.reported_played (hroster : ProperRoster roster)
    (h : InTurn roster answered t older c) (hrep : Reported roster c) (hr : (i, r) ∈ t.requests)
    (hopen : r ∉ answered.map Prod.fst) (hw : (c.heard i v).waitingFor = ∅)
    (htaken : TurnTaken c.toGame ((c.heard i v).commands.entriesIn ord) g actions) :
    Reported roster
      (PwController.played { c.heard i v with commands := ∅ } (c.heard i v).commands g actions) := by
  set c₁ := PwController.played { c.heard i v with commands := ∅ } (c.heard i v).commands g actions
  have hlogged : logged c₁.channels = logged c.channels ++ [g.state.view 0] :=
    PwController.logged_played h.ctrlHandle (c.heard i v).commands g actions
  have hturnNum : g.state.turnNum = c.state.turnNum + 1 := htaken.turnNum
  have hturns : c₁.turns = { t with calls := t.calls ++ [(c.heard i v).commands] } :: older := by
    change Turn.call _ c.turns = _
    rw [h.turns]
    rfl
  have hreports (cl : ClientId) : reportsTo cl c₁.channels = reportsTo cl c.channels ++
      reportsTo (F := F) cl (actions.map (actionSent c.players)) :=
    reportsTo_played { c.heard i v with commands := ∅ } (c.heard i v).commands g actions cl
  have hold {j : PlayerId} {cl : ClientId} (hcl : roster[j]? = some cl) (k : Nat)
      (action : Proto.PlayerAction) (haction : (reportsTo cl c.channels)[k]? = some action) :
      ∃ t', turnNumber? c₁.turns k = some t' ∧ t'.Judged g.planetMap j action := by
    obtain ⟨t', ht', hjudged⟩ := hrep.judged j cl hcl k action haction
    rw [h.turns] at ht'
    rw [hturns]
    exact ⟨t', hjudged.turnNumber?_called h.uncalled ht', htaken.planetMap ▸ hjudged⟩
  exact
    { length := by
        change _ = g.state.turnNum + 1
        rw [hlogged, List.length_append, hrep.length, hturnNum]
        rfl
      current := by
        change _[g.state.turnNum]? = some (g.state.view 0)
        rw [hlogged, hturnNum, ← hrep.length, List.getElem?_concat_length]
      shown := by
        intro k t' ht'
        rw [hturns] at ht'
        obtain ⟨t₀, ht₀, hstate⟩ := exists_of_turnNumber?_called ht'
        rw [← h.turns] at ht₀
        have hk := hrep.shown k t₀ ht₀
        rw [hlogged, List.getElem?_append_left (List.getElem?_eq_some_iff.mp hk).1, hk, hstate]
      judged := by
        intro j cl hcl k action haction
        change ∃ t' : Turn F, _ ∧ t'.Judged g.planetMap j action
        rw [hreports] at haction
        by_cases hj : j ∈ c.players
        · obtain ⟨action', ha, hlast⟩ := h.reportsTo_of_mem hroster hr hopen hw htaken hcl hj
          rw [hlast] at haction
          rcases Nat.lt_or_ge k (reportsTo cl c.channels).length with hk | hk
          · rw [List.getElem?_append_left hk] at haction
            exact hold hcl k action haction
          · -- the verdict of the turn that is called now
            have hk' : k = (reportsTo cl c.channels).length := by
              have hlt := (List.getElem?_eq_some_iff.mp haction).1
              rw [List.length_append, List.length_singleton] at hlt
              omega
            rw [hk', List.getElem?_concat_length] at haction
            obtain rfl := Option.some.inj haction
            refine ⟨_, ?_, h.judged htaken ha⟩
            rw [hturns, turnNumber?_cons, if_pos]
            rw [hk', hrep.count j cl hcl hj, h.turnNum]
        · rw [h.reportsTo_of_not_mem hroster hr hopen hw htaken hcl hj, List.append_nil] at haction
          exact hold hcl k action haction
      count := by
        intro j cl hcl hj
        obtain ⟨action, _, hlast⟩ := h.reportsTo_of_mem hroster hr hopen hw htaken hcl hj
        change _ = g.state.turnNum
        rw [hreports, hlast, List.length_append, hrep.count j cl hcl hj, hturnNum]
        rfl }

theorem InTurn.reported (hroster : ProperRoster roster) (h : InTurn roster answered t older c)
    (hrep : Reported roster c) (hr : (i, r) ∈ t.requests) (hopen : r ∉ answered.map Prod.fst)
    (hw : (c.heard i v).waitingFor = ∅)
    (hc : PwController.Stepped rt (c.heard i v).commands { c.heard i v with commands := ∅ } c') :
    Reported roster c' := by
  obtain ⟨g, actions, htaken, hc⟩ := hc
  have hready := h.ready hroster hr hopen hw htaken
  have hplayed := h.reported_played hroster hrep hr hopen hw htaken
  split at hc
  · exact hplayed.finished hc
  · exact hplayed.prompted hready.turnNum hc

end Turn

/-! ## Whole matches -/

section Run
variable {lobby : Lobby F}

theorem Started.reported (h : Started rt lobby c) : Reported (Controller.roster rt lobby) c := by
  obtain ⟨conf, state, _, hcreated, hprompted⟩ := h.opened
  have hreports {i : PlayerId} {cl : ClientId} (hcl : (Controller.roster rt lobby)[i]? = some cl) :
      reportsTo cl (lobby.channels ++ [logSent lobby.ctrlHandle state]) = [] := by
    rw [reportsTo, inbox_opening lobby ((properRoster rt lobby).ne_ctrlId hcl)]
    rfl
  have hturnNum : state.turnNum = 0 := hcreated.turnNum
  refine Reported.prompted (c := { Controller.enrolled rt lobby state with
    channels := lobby.channels ++ [logSent lobby.ctrlHandle state] }) ?_ hturnNum hprompted
  exact
    { length := by
        change (logged (_ ++ [_])).length = state.turnNum + 1
        rw [logged_opening, hturnNum]
        rfl
      current := by
        change (logged (_ ++ [_]))[state.turnNum]? = some (state.view 0)
        rw [logged_opening, hturnNum]
        rfl
      shown := by
        intro k t ht
        cases turnNumber?_lt ht
      judged := by
        intro i cl hcl k action haction
        rw [hreports hcl] at haction
        cases haction
      count := by
        intro i cl hcl _
        change (reportsTo cl (_ ++ [_])).length = state.turnNum
        rw [hreports hcl, hturnNum]
        rfl }

theorem run_reported (hne : lobby.players ≠ ∅) (inputs : List (Runtime × Input)) :
    Safe (fun _ => True)
      (fun s => ∀ c, s.game.controller? = some c → Reported (Controller.roster rt lobby) c)
      (System.run rt lobby inputs) := by
  have hpolled {c c' : PwController F} (hc : Reported (Controller.roster rt lobby) c)
      (hc' : (if c.state.isFinished then PwMatchState.finished c else .playing c).controller? =
        some c') : Reported (Controller.roster rt lobby) c' := by
    split at hc' <;> exact Option.some.inj hc' ▸ hc
  refine Safe.weaken (System.run_safe (I := fun _ s => ∀ c, s.game.controller? = some c →
    Reported (Controller.roster rt lobby) c) hne (fun _ _ => trivial) ?_ ?_ ?_ inputs)
    fun s hs => hs.2
  · intro c t hc _ c' hc'
    exact Option.some.inj hc' ▸ hc.reported
  · intro done rt' input answered t older c h hI
    have hc : Reported (Controller.roster rt lobby) c := hI c rfl
    refine ⟨fun _ _ => trivial, fun s hs c' hc' => ?_⟩
    cases hs with
    | noticed => exact hpolled hc hc'
    | dropped => exact hI c' hc'
    | @heard i _ v =>
      have hheard : Reported (Controller.roster rt lobby) (c.heard i v) :=
        ⟨hc.length, hc.current, hc.shown, hc.judged, hc.count⟩
      exact hpolled hheard hc'
    | stepped hr hopen hw hstep =>
      exact hpolled (h.reported (properRoster rt lobby) hc hr hopen hw hstep) hc'
  · exact fun _ _ _ _ hI => hI

end Run
end Reported
end Mozaic.Controller
