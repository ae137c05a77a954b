import Mozaic.Desktop.Registration

/-! What the server of a match runner is going to answer, and what each answer changes: the
client id of one slot and the slot of one client id. -/
namespace Mozaic
open Rust Rules Network Outcome

variable {F : Type}

namespace Desktop

/-- A response, and what is done with it. -/
abbrev Answer := Proto.LobbyResponse × Resolve

/-- The client ids a lobby hands out and the players it has. -/
@[ext]
structure Roll where
  counter : Nat
  players : Finset Nat

namespace Roll

/-- The roll of a server that was just started. -/
def new : Roll := ⟨1, ∅⟩

def answer (r : Roll) : Proto.LobbyMessage → Proto.LobbyResponse × Roll
  | .addPlayer _ => (.addPlayer r.counter, ⟨r.counter + 1, insert r.counter r.players⟩)
  | .removePlayer clientId => (.removePlayer, ⟨r.counter, r.players.erase clientId⟩)
  | .startGame _ => (.startGame, r)

def answerAll (r : Roll) : List Request → List Answer × Roll
  | [] => ([], r)
  | request :: requests =>
    let (response, r) := r.answer request.message
    let (answers, r) := r.answerAll requests
    ((response, request.resolve) :: answers, r)

theorem answerAll_append (r : Roll) (requests requests' : List Request) :
    r.answerAll (requests ++ requests') =
      ((r.answerAll requests).1 ++ ((r.answerAll requests).2.answerAll requests').1,
        ((r.answerAll requests).2.answerAll requests').2) := by
  induction requests generalizing r with
  | nil => rfl
  | cons request requests ih => simp [answerAll, ih]

end Roll
end Desktop

namespace Controller.Lobby

def roll (l : Lobby F) : Desktop.Roll := ⟨l.clientCounter, l.players.keys.image ClientId.num⟩

theorem mem_roll {l : Lobby F} {clientId : ClientId} :
    clientId.num ∈ l.roll.players ↔ clientId ∈ l.players := by
  obtain ⟨num⟩ := clientId
  simp only [roll, Finset.mem_image, Finmap.mem_keys]
  constructor
  · rintro ⟨⟨_⟩, h, rfl⟩
    exact h
  · exact fun h => ⟨_, h, rfl⟩

theorem roll_enter (l : Lobby F) (token : Bytes) :
    (l.enter token).roll = (l.roll.answer (.addPlayer token)).2 := by
  refine Desktop.Roll.ext rfl ?_
  ext num
  rw [show num = (⟨num⟩ : ClientId).num from rfl, mem_roll, Desktop.Roll.answer, Finset.mem_insert,
    mem_roll, enter, Finmap.mem_insert]
  exact or_congr_left (ClientId.mk.injEq _ _).to_iff

theorem roll_removePlayer (l : Lobby F) (clientId : ClientId) :
    (l.removePlayer clientId).roll = (l.roll.answer (.removePlayer clientId.num)).2 := by
  refine Desktop.Roll.ext rfl ?_
  ext num
  rw [show num = (⟨num⟩ : ClientId).num from rfl, mem_roll, Desktop.Roll.answer, Finset.mem_erase,
    mem_roll, removePlayer, Finmap.mem_erase]
  exact and_congr_left' (not_congr (ClientId.mk.injEq _ _).to_iff)

/-- What a lobby answers is on the roll. -/
theorem roll_answer {l l' : Lobby F} {message : Proto.LobbyMessage} {response : Proto.LobbyResponse}
    (h : l.answer message = .ok (response, l')) : l.roll.answer message = (response, l'.roll) := by
  cases message with
  | addPlayer token =>
    simp only [answer, addPlayer] at h
    obtain ⟨⟨clientId, entered⟩, hadd, h⟩ := bind_eq_ok.mp h
    obtain ⟨_, _, hadd⟩ := bind_eq_ok.mp hadd
    obtain ⟨rfl, rfl⟩ := Prod.mk.inj (Except.ok.inj hadd)
    obtain ⟨rfl, rfl⟩ := Prod.mk.inj (Except.ok.inj h)
    exact Prod.ext rfl (l.roll_enter token).symm
  | removePlayer clientId =>
    obtain ⟨rfl, rfl⟩ := Prod.mk.inj (Except.ok.inj h)
    exact Prod.ext rfl (l.roll_removePlayer ⟨clientId⟩).symm
  | startGame payload =>
    obtain ⟨rfl, rfl⟩ := Prod.mk.inj (Except.ok.inj h)
    rfl

theorem gameData_answer {l l' : Lobby F} {message : Proto.LobbyMessage}
    {response : Proto.LobbyResponse} (h : l.answer message = .ok (response, l'))
    (hplain : ∀ payload, message ≠ .startGame payload) : l'.gameData = l.gameData := by
  cases message with
  | addPlayer token =>
    simp only [answer, addPlayer] at h
    obtain ⟨⟨clientId, entered⟩, hadd, h⟩ := bind_eq_ok.mp h
    obtain ⟨_, _, hadd⟩ := bind_eq_ok.mp hadd
    obtain ⟨rfl, rfl⟩ := Prod.mk.inj (Except.ok.inj hadd)
    obtain ⟨rfl, rfl⟩ := Prod.mk.inj (Except.ok.inj h)
    rfl
  | removePlayer clientId =>
    obtain ⟨rfl, rfl⟩ := Prod.mk.inj (Except.ok.inj h)
    rfl
  | startGame payload => exact absurd rfl (hplain payload)

/-- Who is connected is not on the roll. -/
theorem handleEvent_connection [External F] (l : Lobby F) (clientId : ClientId) (connected : Bool) :
    Safe (fun e : Panic => e = .addOverflow .clientCounter)
      (fun l' : Lobby F => l'.roll = l.roll ∧ l'.gameData = l.gameData)
      (l.handleEvent ⟨clientId, if connected then .connected else .disconnected⟩) := by
  rw [handleEvent]
  cases connected <;> simp only [Bool.false_eq_true, if_true, if_false] <;> split <;>
    exact ⟨rfl, rfl⟩

end Controller.Lobby

namespace Desktop
open Controller

/-! ## What an answer writes -/

namespace Answer

/-- The client id of `token` after an answer. A slot that is gone has no place for one. -/
def rename (token : Token) (client : Option (Option Nat)) : Answer → Option (Option Nat)
  | (.addPlayer clientId, .registered slot) =>
    if slot = token then client.map fun _ => some clientId else client
  | (.removePlayer, .unregistered slot _) => if slot = token then none else client
  | _ => client

/-- The slot of `clientId` after an answer. -/
def rebind (clientId : Nat) (slot : Option Token) : Answer → Option Token
  | (.addPlayer clientId', .registered slot') => if clientId' = clientId then some slot' else slot
  | (.removePlayer, .unregistered _ clientId') => if clientId' = clientId then none else slot
  | _ => slot

variable {token : Token} {clientId : Nat} {answers : List Answer}

theorem rename_cases (token : Token) (a : Answer) :
    (∃ id, a = (.addPlayer id, .registered token)) ∨
      (∃ id, a = (.removePlayer, .unregistered token id)) ∨
      ∀ client, rename token client a = client := by
  rcases a with ⟨id | - | -, slot | ⟨slot, id⟩ | -⟩
  · by_cases h : slot = token
    · exact .inl ⟨id, by rw [h]⟩
    · exact .inr (.inr fun client => if_neg h)
  · exact .inr (.inr fun _ => rfl)
  · exact .inr (.inr fun _ => rfl)
  · exact .inr (.inr fun _ => rfl)
  · by_cases h : slot = token
    · exact .inr (.inl ⟨id, by rw [h]⟩)
    · exact .inr (.inr fun client => if_neg h)
  all_goals exact .inr (.inr fun _ => rfl)

theorem rebind_cases (clientId : Nat) (a : Answer) :
    (∃ slot, a = (.addPlayer clientId, .registered slot)) ∨
      (∃ slot, a = (.removePlayer, .unregistered slot clientId)) ∨
      ∀ slot, rebind clientId slot a = slot := by
  rcases a with ⟨id | - | -, slot | ⟨slot, id⟩ | -⟩
  · by_cases h : id = clientId
    · exact .inl ⟨slot, by rw [h]⟩
    · exact .inr (.inr fun client => if_neg h)
  · exact .inr (.inr fun _ => rfl)
  · exact .inr (.inr fun _ => rfl)
  · exact .inr (.inr fun _ => rfl)
  · by_cases h : id = clientId
    · exact .inr (.inl ⟨slot, by rw [h]⟩)
    · exact .inr (.inr fun client => if_neg h)
  all_goals exact .inr (.inr fun _ => rfl)

@[simp] theorem rename_registered (id : Nat) (client : Option (Option Nat)) :
    rename token client (.addPlayer id, .registered token) = client.map fun _ => some id :=
  if_pos rfl

@[simp] theorem rename_unregistered (id : Nat) (client : Option (Option Nat)) :
    rename token client (.removePlayer, .unregistered token id) = none :=
  if_pos rfl

@[simp] theorem rebind_registered (slot : Token) (slot' : Option Token) :
    rebind clientId slot' (.addPlayer clientId, .registered slot) = some slot :=
  if_pos rfl

@[simp] theorem rebind_unregistered (slot : Token) (slot' : Option Token) :
    rebind clientId slot' (.removePlayer, .unregistered slot clientId) = none :=
  if_pos rfl

@[simp] theorem foldl_rename_none : answers.foldl (rename token) none = none := by
  induction answers with
  | nil => rfl
  | cons a answers ih =>
    rw [List.foldl_cons]
    obtain ⟨id, rfl⟩ | ⟨id, rfl⟩ | hkeep := rename_cases token a
    · rw [rename_registered, Option.map_none, ih]
    · rw [rename_unregistered, ih]
    · rw [hkeep, ih]

/-- A slot that is not removed has a place for a client id. -/
theorem foldl_rename_isSome {client : Option Nat}
    (h : ∀ id, (.removePlayer, .unregistered token id) ∉ answers) :
    (answers.foldl (rename token) (some client)).isSome := by
  induction answers generalizing client with
  | nil => rfl
  | cons a answers ih =>
    have hrest (id : Nat) : (.removePlayer, .unregistered token id) ∉ answers :=
      fun hmem => h id (List.mem_cons_of_mem a hmem)
    rw [List.foldl_cons]
    obtain ⟨id, rfl⟩ | ⟨id, rfl⟩ | hkeep := rename_cases token a
    · rw [rename_registered]
      exact ih hrest
    · exact absurd List.mem_cons_self (h id)
    · rw [hkeep]
      exact ih hrest

/-- The client id that is left does not depend on the one that was there, if an answer
brings one. -/
theorem foldl_rename_of_mem {id : Nat} (h : (.addPlayer id, .registered token) ∈ answers)
    (client client' : Option Nat) :
    answers.foldl (rename token) (some client) = answers.foldl (rename token) (some client') := by
  induction answers generalizing client client' with
  | nil => cases h
  | cons a answers ih =>
    rw [List.foldl_cons, List.foldl_cons]
    obtain ⟨id', rfl⟩ | ⟨id', rfl⟩ | hkeep := rename_cases token a
    · simp only [rename_registered, Option.map_some]
    · simp only [rename_unregistered]
    · rw [hkeep, hkeep]
      rcases List.mem_cons.mp h with rfl | h
      · have hid := hkeep (some (some (id + 1)))
        simp at hid
      · exact ih h client client'

/-- Without an answer that brings one, the client id stays. -/
theorem foldl_rename_of_forall {client : Option Nat} {id : Nat}
    (hbring : ∀ id, (.addPlayer id, .registered token) ∈ answers → client = some id)
    (hleft : answers.foldl (rename token) (some client) = some (some id)) : client = some id := by
  induction answers with
  | nil => exact Option.some.inj hleft
  | cons a answers ih =>
    have hrest (id : Nat) (hmem : (.addPlayer id, .registered token) ∈ answers) :
        client = some id := hbring id (List.mem_cons_of_mem a hmem)
    rw [List.foldl_cons] at hleft
    obtain ⟨id', rfl⟩ | ⟨id', rfl⟩ | hkeep := rename_cases token a
    · obtain rfl := hbring id' List.mem_cons_self
      rw [rename_registered] at hleft
      exact ih hrest hleft
    · simp at hleft
    · rw [hkeep] at hleft
      exact ih hrest hleft

/-- What is left stays if it was there before. -/
theorem foldl_rename_idem {client : Option (Option Nat)} {id : Nat}
    (hleft : answers.foldl (rename token) client = some (some id)) :
    answers.foldl (rename token) (some (some id)) = some (some id) := by
  by_cases h : ∃ id', (.addPlayer id', .registered token) ∈ answers
  · obtain ⟨id', h⟩ := h
    cases client with
    | none => simp at hleft
    | some client => rw [foldl_rename_of_mem h _ client, hleft]
  · cases client with
    | none => simp at hleft
    | some client =>
      have hclient := foldl_rename_of_forall (fun id' hmem => absurd ⟨id', hmem⟩ h) hleft
      rwa [hclient] at hleft

/-- The same for the slot of a client id. -/
theorem foldl_rebind_idem {slot slot' : Option Token}
    (hleft : answers.foldl (rebind clientId) slot = slot') :
    answers.foldl (rebind clientId) slot' = slot' := by
  induction answers generalizing slot with
  | nil => rfl
  | cons a answers ih =>
    rw [List.foldl_cons] at hleft ⊢
    obtain ⟨token, rfl⟩ | ⟨token, rfl⟩ | hkeep := rebind_cases clientId a
    · rwa [rebind_registered] at hleft ⊢
    · rwa [rebind_unregistered] at hleft ⊢
    · rw [hkeep] at hleft ⊢
      exact ih hleft

theorem foldl_rebind_of_some {slot : Token}
    (h : answers.foldl (rebind clientId) none = some slot) (slot' : Option Token) :
    answers.foldl (rebind clientId) slot' = some slot := by
  induction answers with
  | nil => cases h
  | cons a answers ih =>
    rw [List.foldl_cons] at h ⊢
    obtain ⟨token, rfl⟩ | ⟨token, rfl⟩ | hkeep := rebind_cases clientId a
    · rwa [rebind_registered] at h ⊢
    · rwa [rebind_unregistered] at h ⊢
    · rw [hkeep] at h ⊢
      exact ih h

/-- Whether an answer says whose client id `clientId` is. -/
def About (clientId : Nat) (a : Answer) : Prop :=
  (∃ slot, a = (.addPlayer clientId, .registered slot)) ∨
    ∃ slot, a = (.removePlayer, .unregistered slot clientId)

theorem foldl_rebind_of_mem {a : Answer} (ha : a ∈ answers) (habout : a.About clientId)
    (slot slot' : Option Token) :
    answers.foldl (rebind clientId) slot = answers.foldl (rebind clientId) slot' := by
  induction answers generalizing slot slot' with
  | nil => cases ha
  | cons b answers ih =>
    rw [List.foldl_cons, List.foldl_cons]
    rcases List.mem_cons.mp ha with rfl | ha
    · obtain ⟨token, rfl⟩ | ⟨token, rfl⟩ := habout
      · rw [rebind_registered, rebind_registered]
      · rw [rebind_unregistered, rebind_unregistered]
    · exact ih ha _ _

end Answer

/-! ## Slots and their client ids -/

namespace SlotManager

/-- The client id of a slot, if there is such a slot. -/
def clientId? (m : SlotManager) (token : Token) : Option (Option Nat) :=
  (m.slot? token).map (·.clientId)

/-- The requests of the current match runner that its server did not handle yet. -/
def requests (m : SlotManager) : List Request :=
  match m.matchRunner with
  | some runner => runner.requests
  | none => []

section Modify
variable (m : SlotManager) (token token' : Token) (f : Slot → Slot)

@[simp] theorem slotList_modify : (m.modify token f).slotList = m.slotList := by
  rw [modify]
  split <;> rfl

@[simp] theorem slots_modify : (m.modify token f).slots = m.slots := by
  rw [modify]
  split <;> rfl

@[simp] theorem clients_modify : (m.modify token f).clients = m.clients := by
  rw [modify]
  split <;> rfl

@[simp] theorem matchRunner_modify : (m.modify token f).matchRunner = m.matchRunner := by
  rw [modify]
  split <;> rfl

@[simp] theorem drawn_modify : (m.modify token f).drawn = m.drawn := by
  rw [modify]
  split <;> rfl

theorem lookup_modify : (m.modify token f).objects.lookup token' =
    if token' = token then (m.objects.lookup token').map f else m.objects.lookup token' := by
  rw [modify]
  split
  · rename_i slot hslot
    rw [HashMap.lookup_insert_eq]
    split
    · rename_i heq
      rw [heq, hslot]
      rfl
    · rfl
  · rename_i hnone
    split
    · rename_i heq
      rw [heq, hnone]
      rfl
    · rfl

theorem clientId?_modify : (m.modify token f).clientId? token' =
    if token' = token then (m.slot? token').map fun slot => (f slot).clientId
    else m.clientId? token' := by
  rw [clientId?, clientId?, slot?, slot?, slots_modify, lookup_modify]
  split <;> split <;> simp [Function.comp_def]

/-- What does not touch client ids keeps them all. -/
theorem clientId?_modify_of_keep (hf : ∀ slot, (f slot).clientId = slot.clientId) :
    (m.modify token f).clientId? token' = m.clientId? token' := by
  rw [clientId?_modify]
  simp only [hf, clientId?, ite_self]

end Modify

section Resolve
variable (m : SlotManager) (a : Answer)

theorem resolve_cases : (∃ slot clientId, a = (.addPlayer clientId, .registered slot) ∧
      m.resolve a.1 a.2 = m.registered slot clientId) ∨
    (∃ slot clientId, a = (.removePlayer, .unregistered slot clientId) ∧
      m.resolve a.1 a.2 = m.unregistered slot clientId) ∨
    (m.resolve a.1 a.2 = m ∧ (∀ token client, Answer.rename token client a = client) ∧
      ∀ clientId slot, Answer.rebind clientId slot a = slot) := by
  rcases a with ⟨id | - | -, slot | ⟨slot, id⟩ | -⟩
  · exact .inl ⟨slot, id, rfl, rfl⟩
  · exact .inr (.inr ⟨rfl, fun _ _ => rfl, fun _ _ => rfl⟩)
  · exact .inr (.inr ⟨rfl, fun _ _ => rfl, fun _ _ => rfl⟩)
  · exact .inr (.inr ⟨rfl, fun _ _ => rfl, fun _ _ => rfl⟩)
  · exact .inr (.inl ⟨slot, id, rfl, rfl⟩)
  all_goals exact .inr (.inr ⟨rfl, fun _ _ => rfl, fun _ _ => rfl⟩)

theorem clientId?_resolve (token : Token) :
    (m.resolve a.1 a.2).clientId? token = a.rename token (m.clientId? token) := by
  obtain ⟨slot, id, rfl, heq⟩ | ⟨slot, id, rfl, heq⟩ | ⟨heq, hkeep, -⟩ := m.resolve_cases a
  · rw [heq]
    by_cases hslot : slot = token
    · subst hslot
      rw [Answer.rename_registered]
      exact (m.clientId?_modify slot slot _).trans (by rw [if_pos rfl, clientId?, Option.map_map]; rfl)
    · rw [Answer.rename, if_neg hslot]
      exact (m.clientId?_modify slot token _).trans (if_neg (Ne.symm hslot))
  · rw [heq]
    by_cases hslot : slot = token
    · subst hslot
      simp [clientId?, slot?, unregistered]
    · rw [Answer.rename, if_neg hslot]
      simp [clientId?, slot?, unregistered, Ne.symm hslot]
  · rw [heq, hkeep]

theorem clients_resolve (clientId : Nat) :
    (m.resolve a.1 a.2).clients.lookup clientId = a.rebind clientId (m.clients.lookup clientId) := by
  obtain ⟨slot, id, rfl, heq⟩ | ⟨slot, id, rfl, heq⟩ | ⟨heq, -, hkeep⟩ := m.resolve_cases a
  · rw [heq, registered, HashMap.lookup_insert_eq, clients_modify]
    by_cases hid : id = clientId
    · subst hid
      simp
    · rw [if_neg (Ne.symm hid), Answer.rebind, if_neg hid]
  · rw [heq, unregistered, HashMap.lookup_erase_eq]
    by_cases hid : id = clientId
    · subst hid
      simp
    · rw [if_neg (Ne.symm hid), Answer.rebind, if_neg hid]
  · rw [heq, hkeep]

end Resolve

section Kept
variable (m : SlotManager) (a : Answer)

theorem slotList_resolve : (m.resolve a.1 a.2).slotList = m.slotList := by
  obtain ⟨slot, id, rfl, heq⟩ | ⟨slot, id, rfl, heq⟩ | ⟨heq, -⟩ := m.resolve_cases a
  · rw [heq]
    exact slotList_modify ..
  · rw [heq]
    rfl
  · rw [heq]

theorem matchRunner_resolve : (m.resolve a.1 a.2).matchRunner = m.matchRunner := by
  obtain ⟨slot, id, rfl, heq⟩ | ⟨slot, id, rfl, heq⟩ | ⟨heq, -⟩ := m.resolve_cases a
  · rw [heq]
    exact matchRunner_modify ..
  · rw [heq]
    rfl
  · rw [heq]

theorem drawn_resolve : (m.resolve a.1 a.2).drawn = m.drawn := by
  obtain ⟨slot, id, rfl, heq⟩ | ⟨slot, id, rfl, heq⟩ | ⟨heq, -⟩ := m.resolve_cases a
  · rw [heq]
    exact drawn_modify ..
  · rw [heq]
    rfl
  · rw [heq]

theorem tokens_resolve
    (h : ∀ token slot, m.objects.lookup token = some slot → slot.token = token) (token : Token)
    (slot : Slot) (hslot : (m.resolve a.1 a.2).objects.lookup token = some slot) :
    slot.token = token := by
  obtain ⟨slot', id, rfl, heq⟩ | ⟨slot', id, rfl, heq⟩ | ⟨heq, -⟩ := m.resolve_cases a
  · rw [heq] at hslot
    change (m.modify slot' _).objects.lookup token = some slot at hslot
    rw [lookup_modify] at hslot
    split at hslot
    · obtain ⟨before, hbefore, rfl⟩ := Option.map_eq_some_iff.mp hslot
      exact h token before hbefore
    · exact h token slot hslot
  · rw [heq] at hslot
    exact h token slot hslot
  · rw [heq] at hslot
    exact h token slot hslot

theorem requests_resolve : (m.resolve a.1 a.2).requests = m.requests := by
  rw [requests, requests, matchRunner_resolve]

end Kept

end SlotManager
end Desktop
end Mozaic
