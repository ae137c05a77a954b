import Mozaic.Desktop.Answers

/-! The state that is left once every outstanding request is answered. The server handles
requests in order, so that state is known when a request is made, and requests change it
at once. -/
namespace Mozaic.Desktop
open Rust Rules Network Outcome Controller

variable {F : Type}

/-- The client ids of the slots, the slots of the client ids, and the lobby. -/
@[ext]
structure View where
  left : Token → Option (Option Nat)
  holder : Nat → Option Token
  roll : Roll

namespace View

/-- The lobby gives the next client id to a slot. -/
def enrol (v : View) (token : Token) : View where
  left := Function.update v.left token (some (some v.roll.counter))
  holder := Function.update v.holder v.roll.counter (some token)
  roll := (v.roll.answer (.addPlayer token)).2

def dismiss (v : View) (token : Token) (clientId : Nat) : View where
  left := Function.update v.left token none
  holder := Function.update v.holder clientId none
  roll := (v.roll.answer (.removePlayer clientId)).2

/-- The players of the lobby are the clients of these slots. -/
structure Seats (v : View) (seats : List (Token × Nat)) : Prop where
  left : ∀ seat ∈ seats, v.left seat.1 = some (some seat.2)
  holder : ∀ token clientId, v.holder clientId = some token ↔ (token, clientId) ∈ seats
  players : ∀ clientId, clientId ∈ v.roll.players ↔ clientId ∈ seats.map Prod.snd
  below : ∀ seat ∈ seats, 0 < seat.2 ∧ seat.2 < v.roll.counter
  started : 0 < v.roll.counter
  distinct : (seats.map Prod.snd).Nodup

/-- Once another request is answered. -/
def after (v : View) (request : Request) : View where
  left token := Answer.rename token (v.left token) ((v.roll.answer request.message).1, request.resolve)
  holder id := Answer.rebind id (v.holder id) ((v.roll.answer request.message).1, request.resolve)
  roll := (v.roll.answer request.message).2

variable {v : View} {seats seats' : List (Token × Nat)} {token : Token} {clientId : Nat}

theorem enrol_congr {v' : View} (hleft : ∀ token' ≠ token, v.left token' = v'.left token')
    (hholder : v.holder = v'.holder) (hroll : v.roll = v'.roll) : v.enrol token = v'.enrol token := by
  refine View.ext ?_ ?_ ?_
  · funext token'
    by_cases heq : token' = token
    · simp [enrol, heq, hroll]
    · simp [enrol, heq, hleft]
  · rw [enrol, enrol, hholder, hroll]
  · rw [enrol, enrol, hroll]

theorem after_registered {messageId : MessageId} (h : (v.left token).isSome) :
    v.after ⟨messageId, .addPlayer token, .registered token⟩ = v.enrol token := by
  refine View.ext ?_ ?_ rfl
  · funext token'
    obtain ⟨client, hclient⟩ := Option.isSome_iff_exists.mp h
    by_cases heq : token' = token
    · subst heq
      simp [after, enrol, Roll.answer, hclient]
    · simp [after, enrol, Roll.answer, Answer.rename, heq, Ne.symm heq]
  · funext id
    by_cases heq : id = v.roll.counter
    · simp [after, enrol, Roll.answer, heq]
    · simp [after, enrol, Roll.answer, Answer.rebind, heq, Ne.symm heq]

theorem after_unregistered {messageId : MessageId} :
    v.after ⟨messageId, .removePlayer clientId, .unregistered token clientId⟩ =
      v.dismiss token clientId := by
  refine View.ext ?_ ?_ rfl
  · funext token'
    by_cases heq : token' = token
    · simp [after, dismiss, Roll.answer, heq]
    · simp [after, dismiss, Roll.answer, Answer.rename, heq, Ne.symm heq]
  · funext id
    by_cases heq : id = clientId
    · simp [after, dismiss, Roll.answer, heq]
    · simp [after, dismiss, Roll.answer, Answer.rebind, heq, Ne.symm heq]

theorem Seats.perm (h : v.Seats seats) (hperm : seats.Perm seats') : v.Seats seats' where
  left seat hseat := h.left seat (hperm.mem_iff.mpr hseat)
  holder token clientId := (h.holder token clientId).trans hperm.mem_iff
  players clientId := (h.players clientId).trans (hperm.map Prod.snd).mem_iff
  below seat hseat := h.below seat (hperm.mem_iff.mpr hseat)
  started := h.started
  distinct := (hperm.map Prod.snd).nodup_iff.mp h.distinct

theorem Seats.enrol (h : v.Seats seats) (hnew : token ∉ seats.map Prod.fst) :
    (v.enrol token).Seats ((token, v.roll.counter) :: seats) where
  left seat hseat := by
    rcases List.mem_cons.mp hseat with rfl | hseat
    · exact Function.update_self ..
    · have hne : seat.1 ≠ token := fun heq => hnew (heq ▸ List.mem_map_of_mem hseat)
      exact (Function.update_of_ne hne ..).trans (h.left seat hseat)
  holder token' clientId := by
    by_cases hid : clientId = v.roll.counter
    · subst hid
      have hnone : (token', v.roll.counter) ∉ seats :=
        fun hseat => absurd (h.below _ hseat).2 (Nat.lt_irrefl _)
      simp [View.enrol, hnone, eq_comm]
    · simp [View.enrol, h.holder, hid]
  players clientId := by
    simp [View.enrol, Roll.answer, h.players]
  below seat hseat := by
    rcases List.mem_cons.mp hseat with rfl | hseat
    · exact ⟨h.started, Nat.lt_succ_self _⟩
    · exact (h.below seat hseat).imp_right Nat.lt_succ_of_lt
  started := Nat.succ_pos _
  distinct := by
    rw [List.map_cons, List.nodup_cons]
    refine ⟨fun hmem => ?_, h.distinct⟩
    obtain ⟨seat, hseat, heq⟩ := List.mem_map.mp hmem
    exact absurd (h.below seat hseat).2 (heq ▸ Nat.lt_irrefl _)

theorem Seats.dismiss (h : v.Seats ((token, clientId) :: seats)) (hnd : token ∉ seats.map Prod.fst) :
    (v.dismiss token clientId).Seats seats := by
  obtain ⟨hid, hdistinct⟩ := List.nodup_cons.mp h.distinct
  constructor
  · intro seat hseat
    have hne : seat.1 ≠ token := fun heq => hnd (heq ▸ List.mem_map_of_mem hseat)
    exact (Function.update_of_ne hne ..).trans (h.left seat (List.mem_cons_of_mem _ hseat))
  · intro token' clientId'
    by_cases heq : clientId' = clientId
    · subst heq
      have hnone : (token', clientId') ∉ seats := fun hseat => hid (List.mem_map.mpr ⟨_, hseat, rfl⟩)
      simp [View.dismiss, hnone]
    · simp [View.dismiss, h.holder, heq]
  · intro clientId'
    simp only [View.dismiss, Roll.answer, Finset.mem_erase, h.players, List.map_cons, List.mem_cons]
    constructor
    · rintro ⟨hne, heq | hmem⟩
      · exact absurd heq hne
      · exact hmem
    · intro hmem
      exact ⟨fun heq => hid (heq ▸ hmem), .inr hmem⟩
  · exact fun seat hseat => h.below seat (List.mem_cons_of_mem _ hseat)
  · exact h.started
  · exact hdistinct

end View

namespace SlotManager

/-- The answers that are still to come. -/
def due (r : Roll) (replies : List Answer) (m : SlotManager) : List Answer :=
  replies ++ (r.answerAll m.requests).1

def view (r : Roll) (replies : List Answer) (m : SlotManager) : View where
  left token := (m.due r replies).foldl (Answer.rename token) (m.clientId? token)
  holder clientId := (m.due r replies).foldl (Answer.rebind clientId) (m.clients.lookup clientId)
  roll := (r.answerAll m.requests).2

/-- No answer is due that gives the slot a client id, unless it has that one already. -/
def Answered (r : Roll) (replies : List Answer) (m : SlotManager) (token : Token) : Prop :=
  ∀ clientId, (.addPlayer clientId, .registered token) ∈ m.due r replies →
    m.clientId? token = some (some clientId)

variable {r : Roll} {replies : List Answer} {m m' : SlotManager} {slot : Slot} {token : Token}
  {clientId : Nat} {draws : Draws}

theorem due_request {request : Request} (h : m'.requests = m.requests ++ [request]) :
    m'.due r replies = m.due r replies ++
      [(((m.view r replies).roll.answer request.message).1, request.resolve)] := by
  rw [due, due, h, Roll.answerAll_append, List.append_assoc]
  rfl

theorem view_request {request : Request} (h : m'.requests = m.requests ++ [request])
    (hids : m'.clientId? = m.clientId?) (hclients : m'.clients = m.clients) :
    m'.view r replies = (m.view r replies).after request := by
  have hdue : m'.due r replies = _ := due_request h
  refine View.ext ?_ ?_ ?_
  · funext token
    change List.foldl _ _ (m'.due r replies) = _
    rw [hdue, hids, List.foldl_append]
    rfl
  · funext id
    change List.foldl _ _ (m'.due r replies) = _
    rw [hdue, hclients, List.foldl_append]
    rfl
  · change (r.answerAll m'.requests).2 = _
    rw [h, Roll.answerAll_append]
    rfl

theorem requests_registerSlot {runner : MatchRunner} (h : m.matchRunner = some runner)
    (slot : Slot) : (m.registerSlot slot).requests = m.requests ++
      [⟨runner.messageCounter, .addPlayer slot.token, .registered slot.token⟩] := by
  simp [registerSlot, requests, h, MatchRunner.addPlayer, MatchRunner.lobbyRequest]

theorem unregisterSlot_eq (hid : slot.clientId = some clientId) (hpos : 0 < clientId) :
    m.unregisterSlot slot =
      { m with matchRunner := m.matchRunner.map (·.removePlayer slot.token clientId) } := by
  have hfilter : slot.clientId.filter (· ≠ 0) = some clientId := by
    simp [hid, Option.filter, hpos.ne']
  rw [unregisterSlot, hfilter]

theorem requests_unregisterSlot {runner : MatchRunner} (h : m.matchRunner = some runner)
    (hid : slot.clientId = some clientId) (hpos : 0 < clientId) :
    (m.unregisterSlot slot).requests = m.requests ++
      [⟨runner.messageCounter, .removePlayer clientId, .unregistered slot.token clientId⟩] := by
  rw [unregisterSlot_eq hid hpos]
  simp [requests, h, MatchRunner.removePlayer, MatchRunner.lobbyRequest]

theorem view_registerSlot (hrunner : m.matchRunner.isSome)
    (h : ((m.view r replies).left slot.token).isSome) :
    (m.registerSlot slot).view r replies = (m.view r replies).enrol slot.token := by
  obtain ⟨runner, hrunner⟩ := Option.isSome_iff_exists.mp hrunner
  rw [view_request (requests_registerSlot hrunner slot) rfl rfl]
  exact View.after_registered h

theorem view_unregisterSlot (hrunner : m.matchRunner.isSome) (hid : slot.clientId = some clientId)
    (hpos : 0 < clientId) :
    (m.unregisterSlot slot).view r replies = (m.view r replies).dismiss slot.token clientId := by
  obtain ⟨runner, hrunner⟩ := Option.isSome_iff_exists.mp hrunner
  have hrequests := requests_unregisterSlot hrunner hid hpos
  rw [unregisterSlot_eq hid hpos] at hrequests ⊢
  rw [view_request hrequests rfl rfl]
  exact View.after_unregistered

/-- The slot that is created next. -/
def newSlot (draws : Draws) (m : SlotManager) : Slot where
  name := draws.name m.drawn
  token := draws.token m.drawn
  connected := false
  clientId := none
  bot := none

/-- A new slot object, before anybody is told of it. -/
def place (m : SlotManager) (slot : Slot) : SlotManager :=
  { m with
    objects := m.objects.insert slot.token slot
    slots := insert slot.token m.slots
    drawn := m.drawn + 1 }

theorem createSlot_eq (draws : Draws) (m : SlotManager) :
    m.createSlot draws =
      (m.newSlot draws, (m.place (m.newSlot draws)).registerSlot (m.newSlot draws)) := rfl

theorem clientId?_place (m : SlotManager) (slot : Slot) (token : Token) :
    (m.place slot).clientId? token =
      if token = slot.token then some slot.clientId else m.clientId? token := by
  by_cases h : token = slot.token
  · subst h
    simp [clientId?, slot?, place]
  · simp [clientId?, slot?, place, h]

theorem left_place_of_ne {slot : Slot} (h : token ≠ slot.token) :
    ((m.place slot).view r replies).left token = (m.view r replies).left token := by
  change List.foldl _ _ (m.due r replies) = _
  rw [clientId?_place, if_neg h]
  rfl

theorem left_place_isSome {slot : Slot}
    (h : ∀ id, (.removePlayer, .unregistered slot.token id) ∉ m.due r replies) :
    (((m.place slot).view r replies).left slot.token).isSome := by
  change Option.isSome (List.foldl _ _ (m.due r replies)) = true
  rw [clientId?_place, if_pos rfl]
  exact Answer.foldl_rename_isSome h

theorem view_createSlot (hrunner : m.matchRunner.isSome)
    (h : ∀ id, (.removePlayer, .unregistered (draws.token m.drawn) id) ∉ m.due r replies) :
    (m.createSlot draws).2.view r replies = (m.view r replies).enrol (draws.token m.drawn) := by
  have hleft : (((m.place (m.newSlot draws)).view r replies).left (m.newSlot draws).token).isSome :=
    left_place_isSome h
  have hplace : (m.place (m.newSlot draws)).matchRunner.isSome := hrunner
  rw [createSlot_eq, view_registerSlot hplace hleft]
  exact View.enrol_congr (fun token htoken => left_place_of_ne htoken) rfl rfl

theorem registerSlot_of_none (h : m.matchRunner = none) : m.registerSlot slot = m := by
  rw [registerSlot, h, Option.map_none, ← h]

theorem unregisterSlot_of_none (h : m.matchRunner = none) : m.unregisterSlot slot = m := by
  rw [unregisterSlot]
  split
  · rw [h, Option.map_none, ← h]
  · rfl

theorem popSlot_eq (hlast : m.slotList.getLast? = some token) (hslot : m.slot? token = some slot) :
    m.popSlot = { m.unregisterSlot slot with slotList := m.slotList.dropLast } := by
  rw [popSlot, hlast, Option.bind_some, hslot]
  dsimp only
  unfold unregisterSlot
  split <;> rfl

theorem popSlot_of_none (hlast : m.slotList.getLast? = none) : m.popSlot = m := by
  rw [popSlot, hlast, Option.bind_none]
  dsimp only
  have hnil := List.getLast?_eq_none_iff.mp hlast
  rw [hnil, List.dropLast_nil, ← hnil]

/-- Removing a slot brings nobody a client id. -/
theorem mem_due_of_unregisterSlot
    (h : (.addPlayer clientId, .registered token) ∈ (m.unregisterSlot slot).due r replies) :
    (.addPlayer clientId, .registered token) ∈ m.due r replies := by
  cases hrunner : m.matchRunner with
  | none => rwa [unregisterSlot_of_none hrunner] at h
  | some runner =>
    cases hid : slot.clientId.filter (· ≠ 0) with
    | none => rwa [unregisterSlot, hid] at h
    | some id =>
      obtain ⟨hid, hne⟩ := Option.filter_eq_some_iff.mp hid
      have hpos : 0 < id := Nat.pos_of_ne_zero (by simpa using hne)
      rw [due_request (requests_unregisterSlot hrunner hid hpos), List.mem_append,
        List.mem_singleton] at h
      rcases h with h | h
      · exact h
      · cases h

theorem isSome_left_createSlot
    (h : ∀ id, (.removePlayer, .unregistered (draws.token m.drawn) id) ∉ m.due r replies)
    (htoken : token = draws.token m.drawn ∨ ((m.view r replies).left token).isSome) :
    (((m.createSlot draws).2.view r replies).left token).isSome := by
  cases hrunner : m.matchRunner with
  | none =>
    have hplace : (m.place (m.newSlot draws)).matchRunner = none := hrunner
    rw [createSlot_eq, registerSlot_of_none hplace]
    by_cases heq : token = draws.token m.drawn
    · rw [heq]
      exact left_place_isSome h
    · rw [left_place_of_ne heq]
      exact htoken.resolve_left heq
  | some runner =>
    rw [view_createSlot (by rw [hrunner]; rfl) h, View.enrol]
    by_cases heq : token = draws.token m.drawn
    · rw [heq]
      simp
    · simpa [heq] using htoken.resolve_left heq

end SlotManager
end Mozaic.Desktop
