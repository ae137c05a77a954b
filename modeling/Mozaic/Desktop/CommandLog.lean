import Mozaic.Controller.Reports
import Mozaic.Desktop.Alignment
import Mozaic.Desktop.Dialogue

/-! The turns in the log of a player: the command and the action a turn is given. -/
namespace Mozaic.Desktop
open Rust Rules Network Controller Outcome

variable {F : Type}

/-! ## Messages in order -/

/-- The messages in what a client heard. -/
def messages (heard : List (Heard F)) : List (Proto.ServerMessage F) :=
  heard.filterMap Heard.message?

@[simp] theorem messages_append_line (heard : List (Heard F)) (response : String) :
    messages (heard ++ [.line response]) = messages heard := by
  simp [messages, Heard.message?]

@[simp] theorem messages_append_message (heard : List (Heard F)) (msg : Proto.ServerMessage F) :
    messages (heard ++ [.message msg]) = messages heard ++ [msg] := by
  simp [messages, Heard.message?]

def serverAction? : Proto.ServerMessage F → Option Proto.PlayerAction
  | .playerAction action => some action
  | _ => none

/-- The states of the messages, in their order. -/
def statesIn (msgs : List (Proto.ServerMessage F)) : List (Proto.State F) :=
  msgs.filterMap serverState?

/-- The actions they report. -/
def actionsIn (msgs : List (Proto.ServerMessage F)) : List Proto.PlayerAction :=
  msgs.filterMap serverAction?

/-- An action is reported between two states. -/
theorem length_of_stream {final : Bool} {states : List (Proto.State F)} {payloads : List (Payload F)}
    (h : Stream final states payloads) {msgs : List (Proto.ServerMessage F)}
    {action : Proto.PlayerAction}
    (hp : (msgs ++ [Proto.ServerMessage.playerAction action]).map Payload.server <+: payloads) :
    (statesIn msgs).length = (actionsIn msgs).length + 1 := by
  induction h generalizing msgs with
  | last s =>
    obtain ⟨rest, hrest⟩ := hp
    cases msgs with
    | nil => cases final <;> cases hrest
    | cons msg msgs => cases msgs <;> cases hrest
  | turn s action' _ ih =>
    cases msgs with
    | nil =>
      obtain ⟨rest, hrest⟩ := hp
      cases hrest
    | cons msg msgs =>
      rw [List.cons_append, List.map_cons, List.cons_prefix_cons] at hp
      obtain ⟨hmsg, hp⟩ := hp
      obtain rfl := Payload.server.inj hmsg
      cases msgs with
      | nil => rfl
      | cons msg msgs =>
        rw [List.cons_append, List.map_cons, List.cons_prefix_cons] at hp
        obtain ⟨hmsg, hp⟩ := hp
        obtain rfl := Payload.server.inj hmsg
        simpa [statesIn, actionsIn, List.filterMap_cons, serverState?, serverAction?] using ih hp

/-! ## Records -/

/-- Only the last turn is assigned to. -/
theorem getElem?_setLast {turns turns' : PlayerLog F} {f : PlayerTurn F → PlayerTurn F}
    (h : setLast turns f = some turns') (k : Nat) :
    turns'[k]? = if k + 1 = turns.length then turns[k]?.map f else turns[k]? := by
  simp only [setLast, Option.bind_eq_bind, Option.bind_eq_some_iff, Option.pure_def,
    Option.some.injEq] at h
  obtain ⟨turn, hturn, rfl⟩ := h
  obtain ⟨before, rfl⟩ := List.getLast?_eq_some_iff.mp hturn
  simp only [List.dropLast_concat, List.length_append, List.length_singleton,
    Nat.add_right_cancel_iff]
  split
  · rename_i hk
    simp [hk]
  · rename_i hk
    rw [List.getElem?_append, List.getElem?_append]
    split
    · rfl
    · rw [List.getElem?_singleton, List.getElem?_singleton, if_neg (by omega), if_neg (by omega)]

/-- The record a client writes about what it hears. -/
def Dialogue.record? (d : Dialogue) : Heard F → Option (LogRecord F)
  | .message (.gameState state) => some (.step (d.states + 1) state)
  | .message (.playerAction action) => some (.playerAction action)
  | .message (.finalState state) => some (.step (d.states + 1) state)
  | .line response => d.waiting.head?.map fun _ => .command response

/-- A client as it is in this dialogue. -/
structure Follows (c : Client F) (d : Dialogue) : Prop where
  turnNum : c.turnNum = d.states
  handlers : c.handlers = d.waiting.length

theorem Follows.hear {c : Client F} {d : Dialogue} (h : Follows c d) (last : Heard F) :
    Follows (c.hear last) (d.hear last) ∧ (c.hear last).log = c.log ++ (d.record? last).toList := by
  cases last with
  | message msg =>
    cases msg with
    | gameState state =>
      refine ⟨⟨congrArg (· + 1) h.turnNum, ?_⟩, ?_⟩
      · change c.handlers + 1 = (d.waiting ++ [d.states]).length
        rw [h.handlers, List.length_append, List.length_singleton]
      · change c.log ++ [.step (c.turnNum + 1) state] = _
        rw [h.turnNum]
        rfl
    | playerAction action => exact ⟨⟨h.turnNum, h.handlers⟩, rfl⟩
    | finalState state =>
      refine ⟨⟨congrArg (· + 1) h.turnNum, h.handlers⟩, ?_⟩
      change c.log ++ [.step (c.turnNum + 1) state] = _
      rw [h.turnNum]
      rfl
  | line response =>
    cases hw : d.waiting with
    | nil =>
      have hidle : c.handlers = 0 := by rw [h.handlers, hw, List.length_nil]
      have hsame : c.hear (.line response) = c := by simp [Client.hear, Client.onLine, hidle]
      rw [hsame, Dialogue.hear_line_of_idle hw]
      exact ⟨h, by simp [Dialogue.record?, hw]⟩
    | cons number waiting =>
      have hbusy : c.handlers = waiting.length + 1 := by rw [h.handlers, hw, List.length_cons]
      rw [Dialogue.hear_line hw]
      simp only [Client.hear, Client.onLine, hbusy]
      exact ⟨⟨h.turnNum, rfl⟩, by simp [Dialogue.record?, hw]⟩

theorem run_append_singleton (heard : List (Heard F)) (last : Heard F) :
    Client.run (heard ++ [last]) = (Client.run heard).hear last := by
  simp [Client.run]

theorem follows_run (heard : List (Heard F)) : Follows (Client.run heard) (Dialogue.of heard) := by
  induction heard using List.reverseRecOn with
  | nil => exact ⟨rfl, rfl⟩
  | append_singleton heard last ih =>
    rw [run_append_singleton, Dialogue.of_append_singleton]
    exact (ih.hear last).1

/-! ## The turns of a log -/

/-- The turns the log of a client is read as. -/
def turnsOf (heard : List (Heard F)) : Option (PlayerLog F) :=
  PlayerLog.ofRecords (Client.run heard).log

theorem turnsOf_append_singleton (heard : List (Heard F)) (last : Heard F) :
    turnsOf (heard ++ [last]) = turnsOf heard >>= fun turns =>
      ((Dialogue.of heard).record? last).toList.foldlM PlayerLog.addRecord turns := by
  rw [turnsOf, run_append_singleton, ((follows_run heard).hear last).2, PlayerLog.ofRecords_append]
  rfl

/-- The turns in the log, but for their commands, are the states and actions that were heard. -/
structure Kept (heard : List (Heard F)) (turns : PlayerLog F) : Prop where
  built : turnsOf heard = some turns
  states : turns.map (·.state) = statesIn (messages heard)
  actions : ∀ (k : Nat) turn, turns[k]? = some turn → turn.action = (actionsIn (messages heard))[k]?
  count : (Dialogue.of heard).states = turns.length
  reported : (actionsIn (messages heard)).length ≤ turns.length

theorem Kept.nil : Kept ([] : List (Heard F)) [] := ⟨rfl, rfl, by simp, rfl, Nat.le_refl 0⟩

/-- A state opens a turn. -/
theorem Kept.state {heard : List (Heard F)} {turns : PlayerLog F} (h : Kept heard turns)
    {msg : Proto.ServerMessage F} {state : Proto.State F} (hmsg : serverState? msg = some state) :
    Kept (heard ++ [.message msg]) (turns ++ [⟨state, none, none⟩]) := by
  have haction : serverAction? msg = none := by cases msg <;> first | rfl | cases hmsg
  have hactions : actionsIn (messages (heard ++ [.message msg])) = actionsIn (messages heard) := by
    simp [actionsIn, List.filterMap_append, haction]
  constructor
  · rw [turnsOf_append_singleton, h.built]
    cases msg with
    | gameState state' | finalState state' =>
      obtain rfl := Option.some.inj hmsg
      rfl
    | playerAction => cases hmsg
  · rw [List.map_append, h.states]
    simp [statesIn, List.filterMap_append, hmsg]
  · intro k turn hturn
    rw [hactions]
    rw [List.getElem?_append] at hturn
    split at hturn
    · exact h.actions k turn hturn
    · rename_i hk
      rw [List.getElem?_singleton] at hturn
      split at hturn
      · obtain rfl := Option.some.inj hturn
        rw [List.getElem?_eq_none (h.reported.trans (Nat.not_lt.mp hk))]
      · cases hturn
  · rw [Dialogue.of_append_singleton, List.length_append, List.length_singleton, ← h.count]
    cases msg with
    | gameState | finalState => rfl
    | playerAction => cases hmsg
  · rw [hactions, List.length_append]
    exact h.reported.trans (Nat.le_add_right _ _)

/-- An action belongs to the turn that is open, if it is the first one since the state. -/
theorem Kept.action {heard : List (Heard F)} {turns : PlayerLog F} (h : Kept heard turns)
    {action : Proto.PlayerAction}
    (hturn : (statesIn (messages heard)).length = (actionsIn (messages heard)).length + 1) :
    ∃ turns', setLast turns (fun turn => { turn with action := some action }) = some turns' ∧
      Kept (heard ++ [.message (.playerAction action)]) turns' := by
  have hlength : turns.length = (actionsIn (messages heard)).length + 1 := by
    rw [← hturn, ← h.states, List.length_map]
  obtain ⟨turns', hturns'⟩ : ∃ turns', PlayerLog.addRecord turns (.playerAction action) = some turns' :=
    exists_addRecord (.inl (List.ne_nil_of_length_eq_add_one hlength))
  have hset : setLast turns (fun turn => { turn with action := some action }) = some turns' := hturns'
  have hstates : turns'.map (·.state) = turns.map (·.state) := by
    simpa [LogRecord.state?] using states_addRecord hturns'
  have hsame : turns'.length = turns.length := by
    rw [← List.length_map (f := (·.state)), hstates, List.length_map]
  have hactions : actionsIn (messages (heard ++ [.message (.playerAction action)])) =
      actionsIn (messages heard) ++ [action] := by
    simp [actionsIn, List.filterMap_append, serverAction?]
  refine ⟨turns', hset, ?_, ?_, ?_, ?_, ?_⟩
  · rw [turnsOf_append_singleton, h.built]
    change List.foldlM PlayerLog.addRecord turns [.playerAction action] = some turns'
    simp [hturns']
  · rw [hstates, h.states]
    simp [statesIn, List.filterMap_append, serverState?]
  · intro k turn hk
    rw [hactions]
    rw [getElem?_setLast hset] at hk
    split at hk
    · rename_i hlast
      obtain ⟨_, _, rfl⟩ := Option.map_eq_some_iff.mp hk
      have hend : k = (actionsIn (messages heard)).length := by omega
      rw [hend, List.getElem?_concat_length]
    · rename_i hlast
      have hlt := (List.getElem?_eq_some_iff.mp hk).1
      rw [List.getElem?_append_left (by omega)]
      exact h.actions k turn hk
  · rw [Dialogue.of_append_singleton, hsame]
    exact h.count
  · rw [hactions, hsame, hlength, List.length_append, List.length_singleton]

/-- A line nobody waits for leaves the log as it is, and any other is the command of the last
turn. -/
theorem Kept.line {heard : List (Heard F)} {turns : PlayerLog F} (h : Kept heard turns)
    (response : String) : ∃ turns', Kept (heard ++ [.line response]) turns' ∧
      if (Dialogue.of heard).waiting = [] then turns' = turns
      else setLast turns (fun turn => { turn with command := some response }) = some turns' := by
  have hstates : ((Dialogue.of heard).hear (.line response : Heard F)).states =
      (Dialogue.of heard).states := by
    cases hw : (Dialogue.of heard).waiting with
    | nil => rw [Dialogue.hear_line_of_idle hw]
    | cons => rw [Dialogue.hear_line hw]
  split
  · rename_i hw
    refine ⟨turns, ⟨?_, ?_, ?_, ?_, ?_⟩, rfl⟩
    · rw [turnsOf_append_singleton, h.built]
      simp [Dialogue.record?, hw]
    · rw [messages_append_line, h.states]
    · rw [messages_append_line]
      exact h.actions
    · rw [Dialogue.of_append_singleton, hstates, h.count]
    · rw [messages_append_line]
      exact h.reported
  · rename_i hw
    obtain ⟨number, waiting, hw⟩ := List.exists_cons_of_ne_nil hw
    have hlt := (Dialogue.inOrder_of heard).waiting_lt hw
    rw [h.count] at hlt
    obtain ⟨turns', hturns'⟩ : ∃ turns', PlayerLog.addRecord turns (.command response) = some turns' :=
      exists_addRecord (.inl (List.ne_nil_of_length_pos (Nat.zero_lt_of_lt hlt)))
    have hset : setLast turns (fun turn => { turn with command := some response }) = some turns' :=
      hturns'
    have hsame : turns'.map (·.state) = turns.map (·.state) := by
      simpa [LogRecord.state?] using states_addRecord hturns'
    have hlength : turns'.length = turns.length := by
      rw [← List.length_map (f := (·.state)), hsame, List.length_map]
    refine ⟨turns', ⟨?_, ?_, ?_, ?_, ?_⟩, hset⟩
    · rw [turnsOf_append_singleton, h.built]
      simp [Dialogue.record?, hw, hturns']
    · rw [messages_append_line, hsame, h.states]
    · intro k turn hk
      rw [messages_append_line]
      rw [getElem?_setLast hset] at hk
      split at hk
      · obtain ⟨turn', hturn', rfl⟩ := Option.map_eq_some_iff.mp hk
        exact h.actions k turn' hturn'
      · exact h.actions k turn hk
    · rw [Dialogue.of_append_singleton, hstates, h.count, hlength]
    · rw [messages_append_line, hlength]
      exact h.reported

/-- A log of messages in order can always be read. -/
theorem exists_kept {final : Bool} {states : List (Proto.State F)} {payloads : List (Payload F)}
    (hstream : Stream final states payloads) {heard : List (Heard F)}
    (hheard : (messages heard).map Payload.server <+: payloads) : ∃ turns, Kept heard turns := by
  induction heard using List.reverseRecOn with
  | nil => exact ⟨[], .nil⟩
  | append_singleton heard last ih =>
    cases last with
    | line response =>
      rw [messages_append_line] at hheard
      obtain ⟨turns, h⟩ := ih hheard
      obtain ⟨turns', h', _⟩ := h.line response
      exact ⟨turns', h'⟩
    | message msg =>
      rw [messages_append_message] at hheard
      obtain ⟨turns, h⟩ := ih ((List.prefix_append _ _).map _ |>.trans hheard)
      cases msg with
      | gameState state | finalState state => exact ⟨_, h.state rfl⟩
      | playerAction action =>
        obtain ⟨turns', _, h'⟩ := h.action (length_of_stream hstream hheard)
        exact ⟨turns', h'⟩

/-! ## Commands and their turns -/

/-- Every command in the log is the answer to the state of its turn. -/
def CommandsBelong (heard : List (Heard F)) : Prop :=
  ∀ turns, turnsOf heard = some turns → ∀ (k : Nat) turn, turns[k]? = some turn →
    ∀ content ∈ turn.command, (k, content) ∈ (Dialogue.of heard).answers

/-- A command stays where it belongs when a message is heard. -/
theorem Kept.commandsBelong_message {heard : List (Heard F)} {turns : PlayerLog F}
    (h : Kept heard turns) {msg : Proto.ServerMessage F} {turns' : PlayerLog F}
    (h' : Kept (heard ++ [.message msg]) turns') (hbelong : CommandsBelong heard) :
    CommandsBelong (heard ++ [.message msg]) := by
  have hcommands (k : Nat) turn' (hk : turns'[k]? = some turn') (content : String)
      (hc : content ∈ turn'.command) : ∃ turn, turns[k]? = some turn ∧ content ∈ turn.command := by
    have hadded := h'.built
    rw [turnsOf_append_singleton, h.built] at hadded
    cases msg with
    | gameState state | finalState state =>
      obtain rfl := Option.some.inj hadded
      rw [List.getElem?_append] at hk
      split at hk
      · exact ⟨turn', hk, hc⟩
      · rw [List.getElem?_singleton] at hk
        split at hk
        · obtain rfl := Option.some.inj hk
          cases hc
        · cases hk
    | playerAction action =>
      have hset : PlayerLog.addRecord turns (.playerAction action) = some turns' := by
        simpa [Dialogue.record?] using hadded
      rw [getElem?_setLast (f := fun turn => { turn with action := some action }) hset] at hk
      split at hk
      · obtain ⟨turn, hturn, rfl⟩ := Option.map_eq_some_iff.mp hk
        exact ⟨turn, hturn, hc⟩
      · exact ⟨turn', hk, hc⟩
  intro built hbuilt k turn' hk content hc
  obtain rfl := Option.some.inj (h'.built.symm.trans hbuilt)
  obtain ⟨turn, hturn, hc⟩ := hcommands k turn' hk content hc
  have hanswers : ((Dialogue.of heard).hear (.message msg)).answers = (Dialogue.of heard).answers := by
    cases msg <;> rfl
  rw [Dialogue.of_append_singleton, hanswers]
  exact hbelong turns h.built k turn hturn content hc

/-- A line is put where it belongs if and only if it comes in time. -/
theorem Kept.commandsBelong_line {heard : List (Heard F)} {turns : PlayerLog F}
    (h : Kept heard turns) (response : String) (hbelong : CommandsBelong heard) :
    CommandsBelong (heard ++ [.line response]) ↔ (Dialogue.of heard).InTime := by
  obtain ⟨turns', h', hset⟩ := h.line response
  have horder := Dialogue.inOrder_of heard
  cases hw : (Dialogue.of heard).waiting with
  | nil =>
    rw [if_pos hw] at hset
    subst hset
    have hintime : (Dialogue.of heard).InTime := by simp [Dialogue.InTime, hw]
    refine iff_of_true ?_ hintime
    intro built hbuilt
    rw [Dialogue.of_append_singleton, Dialogue.hear_line_of_idle hw]
    obtain rfl := Option.some.inj (h'.built.symm.trans hbuilt)
    exact hbelong turns' h.built
  | cons number waiting =>
    rw [if_neg (by simp [hw])] at hset
    have hlt := horder.waiting_lt hw
    rw [h.count] at hlt
    constructor
    · intro hnew number' hnumber'
      rw [hw, List.head?_cons] at hnumber'
      obtain rfl := Option.some.inj hnumber'
      -- the line became the command of the last turn, which it is the answer to
      have hlast : turns.length - 1 + 1 = turns.length := Nat.sub_add_cancel (Nat.zero_lt_of_lt hlt)
      have hturn := List.getElem?_eq_getElem (Nat.sub_lt (Nat.zero_lt_of_lt hlt) Nat.one_pos)
      have hk := getElem?_setLast hset (turns.length - 1)
      rw [if_pos hlast, hturn] at hk
      have hanswer := hnew turns' h'.built _ _ hk response rfl
      rw [Dialogue.of_append_singleton, Dialogue.hear_line hw] at hanswer
      rw [h.count]
      rcases List.mem_append.mp hanswer with hanswer | hanswer
      · -- a later state cannot have been answered before
        have hbefore := horder.answered_lt hw hanswer
        dsimp only at hbefore
        omega
      · obtain ⟨heq, _⟩ := Prod.mk.inj (List.mem_singleton.mp hanswer)
        omega
    · intro hintime built hbuilt k turn' hk content hc
      have hnumber : (Dialogue.of heard).states = number + 1 := hintime number (by simp [hw])
      obtain rfl := Option.some.inj (h'.built.symm.trans hbuilt)
      rw [Dialogue.of_append_singleton, Dialogue.hear_line hw, List.mem_append]
      rw [getElem?_setLast hset] at hk
      split at hk
      · rename_i hlast
        obtain ⟨turn, _, rfl⟩ := Option.map_eq_some_iff.mp hk
        obtain rfl := Option.some.inj hc
        right
        rw [← h.count, hnumber] at hlast
        rw [Nat.succ.inj hlast, List.mem_singleton]
      · left
        exact hbelong turns h.built k turn' hk content hc

theorem commandsBelong_nil : CommandsBelong ([] : List (Heard F)) := by
  intro turns hturns k turn hk
  obtain rfl := Option.some.inj hturns
  cases hk

/-- Commands belong to their turns at all times if and only if every answer is in time. -/
theorem commandsBelong_iff_punctual {final : Bool} {states : List (Proto.State F)}
    {payloads : List (Payload F)} (hstream : Stream final states payloads) {heard : List (Heard F)}
    (hheard : (messages heard).map Payload.server <+: payloads) :
    (∀ sofar, sofar <+: heard → CommandsBelong sofar) ↔ Punctual heard := by
  induction heard using List.reverseRecOn with
  | nil =>
    refine iff_of_true (fun sofar hs => ?_) punctual_nil
    rw [List.prefix_nil.mp hs]
    exact commandsBelong_nil
  | append_singleton heard last ih =>
    have hpre : heard <+: heard ++ [last] := List.prefix_append _ _
    have hheard' : (messages heard).map Payload.server <+: payloads :=
      ((hpre.filterMap _).map _).trans hheard
    have ih := ih hheard'
    obtain ⟨turns, h⟩ := exists_kept hstream hheard'
    obtain ⟨turns', h'⟩ := exists_kept hstream hheard
    have hsteps : (∀ sofar, sofar <+: heard ++ [last] → CommandsBelong sofar) ↔
        (∀ sofar, sofar <+: heard → CommandsBelong sofar) ∧ CommandsBelong (heard ++ [last]) := by
      constructor
      · exact fun hall => ⟨fun sofar hs => hall sofar (hs.trans hpre), hall _ List.prefix_rfl⟩
      · intro hall sofar hs
        rcases List.prefix_concat_iff.mp hs with rfl | hs
        · exact hall.2
        · exact hall.1 sofar hs
    rw [hsteps, ih]
    constructor
    · intro hall
      refine hall.1.append fun response hlast => ?_
      subst hlast
      exact (h.commandsBelong_line response (ih.mpr hall.1 heard List.prefix_rfl)).mp hall.2
    · intro hpunctual
      have hbefore := hpunctual.mono hpre
      have hbelong := ih.mpr hbefore heard List.prefix_rfl
      refine ⟨hbefore, ?_⟩
      cases last with
      | message msg => exact h.commandsBelong_message h' hbelong
      | line response =>
        exact (h.commandsBelong_line response hbelong).mpr (hpunctual heard response List.prefix_rfl)

end Mozaic.Desktop
