import Mozaic.Desktop.Orderly
import Mozaic.Desktop.PlayerNumbers

/-! The lobby of the desktop client with every server it had, and what holds of slots and
players whenever nothing is outstanding. -/
namespace Mozaic.Desktop
open Rust Rules Network Outcome Controller

variable {F : Type}

/-! ## Sessions -/

/-- A match runner that was replaced, and what its server still answers. -/
structure Former (F : Type) where
  lobby : Lobby F
  requests : List Request
  replies : List Answer

/-- A lobby of the desktop client and all the servers it had. -/
structure Session (F : Type) where
  world : World F
  former : List (Former F)

inductive SlotOp where
  | update (slots : Nat)
  | bindLocalBot (bot : Bot)
  | removeBot (playerNum : Nat)
  | connectClient (clientId : Nat)
  | disconnectClient (clientId : Nat)
  | setMatchRunner (ctrlToken : Bytes)
  /-- A client connects to the current server, or disconnects. -/
  | peer (clientId : ClientId) (connected : Bool)
  /-- The current server handles the next request. -/
  | serve
  /-- Its next response arrives. -/
  | deliver
  /-- The server of a former match runner handles the next request. -/
  | serveFormer (runner : Nat)
  | deliverFormer (runner : Nat)

namespace Former

def serve (f : Former F) : Except Panic (Former F) :=
  match f.requests with
  | request :: requests => do
    let (response, lobby) ← f.lobby.answer request.message
    pure
      { lobby := lobby.respond request.messageId response
        requests
        replies := f.replies ++ [(response, request.resolve)] }
  | [] => pure f

theorem serve_safe (f : Former F) :
    Safe (· = .addOverflow .clientCounter) (fun _ => True) f.serve := by
  rw [serve]
  split
  · exact (World.answer_safe _ _).bind fun _ _ => trivial
  · trivial

end Former

namespace World

/-- The match runner that is going to be replaced. -/
def former? (w : World F) : Option (Former F) :=
  match w.server, w.manager.matchRunner with
  | some lobby, some runner => some ⟨lobby, runner.requests, w.replies⟩
  | _, _ => none

def roll (w : World F) : Roll :=
  match w.server with
  | some lobby => lobby.roll
  | none => .new

end World

namespace Session

def new : Session F := ⟨.new, []⟩

def deliverFormer (s : Session F) (runner : Nat) : Session F :=
  match s.former[runner]? with
  | some ⟨lobby, requests, a :: replies⟩ =>
    { world := { s.world with manager := s.world.manager.resolve a.1 a.2 }
      former := s.former.set runner ⟨lobby, requests, replies⟩ }
  | _ => s

variable [External F]

def step (draws : Draws) (s : Session F) : SlotOp → Except Panic (Session F)
  | .update slots => pure { s with world.manager := s.world.manager.update draws slots }
  | .bindLocalBot bot => pure { s with world.manager := s.world.manager.bindLocalBot bot }
  | .removeBot playerNum =>
    pure { s with world.manager := s.world.manager.removeBot draws playerNum }
  | .connectClient clientId =>
    pure { s with world.manager := s.world.manager.connectClient clientId }
  | .disconnectClient clientId =>
    pure { s with world.manager := s.world.manager.disconnectClient clientId }
  | .setMatchRunner ctrlToken =>
    pure ⟨s.world.setMatchRunner ctrlToken, s.former ++ s.world.former?.toList⟩
  | .peer clientId connected => do
    let world ← s.world.peer clientId connected
    pure { s with world }
  | .serve => do
    let world ← s.world.serve
    pure { s with world }
  | .deliver => pure { s with world := s.world.deliver }
  | .serveFormer runner =>
    match s.former[runner]? with
    | some former => do
      let former ← former.serve
      pure { s with former := s.former.set runner former }
    | none => pure s
  | .deliverFormer runner => pure (s.deliverFormer runner)

def run (draws : Draws) (ops : List SlotOp) : Except Panic (Session F) := ops.foldlM (step draws) new

end Session

/-! ## Quiescence -/

namespace World

/-- Every request to the current server was answered, and the answer arrived. -/
def Quiet (w : World F) : Prop := w.manager.requests = [] ∧ w.replies = []

/-- The slots of the list and the players of the lobby are the same clients. -/
structure Agrees (w : World F) (lobby : Lobby F) : Prop where
  registered : ∀ clientId, clientId ∈ lobby.players ↔
    ∃ token ∈ w.manager.slotList, w.manager.clientId? token = some (some clientId.num)
  clients : ∀ token clientId, w.manager.clients.lookup clientId = some token ↔
    token ∈ w.manager.slotList ∧ w.manager.clientId? token = some (some clientId)
  bound : ∀ token ∈ w.manager.slotList, ∃ clientId, w.manager.clientId? token = some (some clientId)
  apart : (w.manager.slotList.map w.manager.clientId?).Nodup

/-- What is to be once a runner is set and nothing is outstanding. -/
def Settled (w : World F) : Prop :=
  w.manager.matchRunner.isSome → w.Quiet → ∃ lobby, w.server = some lobby ∧ w.Agrees lobby

structure Orderly (draws : Draws) (w : World F) : Prop where
  manager : w.manager.Orderly draws w.server.isSome w.roll w.replies
  waiting : ∀ lobby ∈ w.server, lobby.gameData = none

variable {w : World F} {draws : Draws}

theorem Orderly.settled (h : w.Orderly draws) : w.Settled := by
  intro hrunner hquiet
  obtain ⟨hrequests, hreplies⟩ := hquiet
  have hserver := h.manager.runner
  rw [hrunner] at hserver
  obtain ⟨lobby, hlobby⟩ := Option.isSome_iff_exists.mp hserver.symm
  obtain ⟨seats, hseats, hview⟩ := h.manager.seated hrunner
  have hdue : w.manager.due w.roll w.replies = [] := by
    rw [SlotManager.due, hrequests, hreplies]
    rfl
  have hleft (token : Token) : (w.manager.view w.roll w.replies).left token =
      w.manager.clientId? token := by
    change List.foldl _ _ (w.manager.due w.roll w.replies) = _
    rw [hdue, List.foldl_nil]
  have hholder (clientId : Nat) : (w.manager.view w.roll w.replies).holder clientId =
      w.manager.clients.lookup clientId := by
    change List.foldl _ _ (w.manager.due w.roll w.replies) = _
    rw [hdue, List.foldl_nil]
  have hroll : (w.manager.view w.roll w.replies).roll = lobby.roll := by
    change (w.roll.answerAll w.manager.requests).2 = _
    rw [hrequests, roll, hlobby]
    rfl
  have hseat (token : Token) (clientId : Nat) : (token, clientId) ∈ seats ↔
      token ∈ w.manager.slotList ∧ w.manager.clientId? token = some (some clientId) := by
    rw [← hleft, hseats.mem_iff]
    constructor
    · exact fun hmem => ⟨List.mem_map_of_mem hmem, hview.left _ hmem⟩
    · rintro ⟨hmem, hid⟩
      obtain ⟨⟨_, id⟩, hseat, rfl⟩ := List.mem_map.mp hmem
      have heq := (hview.left _ hseat).symm.trans hid
      rw [Option.some.injEq, Option.some.injEq] at heq
      exact heq ▸ hseat
  refine ⟨lobby, hlobby, ?_, ?_, ?_, ?_⟩
  · intro clientId
    rw [← Lobby.mem_roll, ← hroll, hview.players, List.mem_map]
    constructor
    · rintro ⟨⟨token, _⟩, hmem, rfl⟩
      exact ⟨token, (hseat _ _).mp hmem⟩
    · rintro ⟨token, hmem⟩
      exact ⟨_, (hseat _ _).mpr hmem, rfl⟩
  · intro token clientId
    rw [← hholder, hview.holder, hseat]
  · intro token htoken
    obtain ⟨⟨_, id⟩, hmem, rfl⟩ := List.mem_map.mp (hseats.subset htoken)
    exact ⟨id, ((hseat _ _).mp hmem).2⟩
  · have hids : (seats.map Prod.fst).map w.manager.clientId? =
        (seats.map Prod.snd).map fun id => some (some id) := by
      rw [List.map_map, List.map_map]
      exact List.map_congr_left fun seat hmem => ((hseat _ _).mp hmem).2
    rw [(hseats.map _).nodup_iff, hids]
    exact hview.distinct.map fun _ _ heq => by simpa using heq

theorem roll_of_server {lobby : Lobby F} (h : w.server = some lobby) : w.roll = lobby.roll := by
  rw [roll, h]

theorem Orderly.setMatchRunner (h : w.Orderly draws)
    (hclients : ∀ clientId ∈ w.manager.clients,
      0 < clientId ∧ clientId ≤ w.manager.slotList.length) (ctrlToken : Bytes) :
    (w.setMatchRunner ctrlToken).Orderly draws := by
  refine ⟨h.manager.setMatchRunner hclients, ?_⟩
  intro lobby hlobby
  obtain rfl := Option.some.inj hlobby
  rfl

theorem Orderly.deliver (h : w.Orderly draws) : w.deliver.Orderly draws := by
  rw [World.deliver]
  split
  · rename_i response resolve replies hreplies
    have hmanager := h.manager
    rw [hreplies] at hmanager
    exact ⟨hmanager.deliver, h.waiting⟩
  · exact h

theorem Orderly.serve (h : w.Orderly draws) : Safe (· = .addOverflow .clientCounter)
    (fun w' : World F => w'.Orderly draws) w.serve := by
  cases hserve : w.serve with
  | error e => exact w.serve_safe.of_error hserve
  | ok w' =>
    rw [World.serve] at hserve
    split at hserve
    · rename_i lobby runner hlobby hrunner
      split at hserve
      · rename_i request requests hrequests
        rw [if_neg (by simp [h.waiting lobby hlobby])] at hserve
        obtain ⟨⟨response, lobby'⟩, hanswer, hserve⟩ := bind_eq_ok.mp hserve
        obtain rfl := Except.ok.inj hserve
        have hmanager := h.manager
        rw [hlobby, roll_of_server hlobby] at hmanager
        have hqueue : w.manager.requests = request :: requests := by
          rw [SlotManager.requests, hrunner]
          exact hrequests
        have hrequest : request ∈ w.manager.requests := hqueue ▸ List.mem_cons_self
        have hserved := hmanager.serve hrunner hrequests hanswer
        refine ⟨hserved, fun lobby'' hmem => ?_⟩
        obtain rfl := Option.some.inj hmem
        exact (Lobby.gameData_answer hanswer (hmanager.plain request hrequest)).trans
          (h.waiting lobby hlobby)
      · obtain rfl := Except.ok.inj hserve
        exact h
    · obtain rfl := Except.ok.inj hserve
      exact h

theorem Orderly.peer [External F] (h : w.Orderly draws) (clientId : ClientId) (connected : Bool) :
    Safe (· = .addOverflow .clientCounter) (fun w' : World F => w'.Orderly draws)
      (w.peer clientId connected) := by
  rw [World.peer]
  split
  · rename_i lobby hlobby
    rw [if_neg (by simp [h.waiting lobby hlobby])]
    refine (lobby.handleEvent_connection clientId connected).bind fun lobby' hlobby' => ?_
    obtain ⟨hroll, hdata⟩ := hlobby'
    have hmanager := h.manager
    rw [hlobby, roll_of_server hlobby, ← hroll] at hmanager
    refine ⟨hmanager, fun lobby'' hmem => ?_⟩
    obtain rfl := Option.some.inj hmem
    rw [hdata]
    exact h.waiting lobby hlobby
  · exact h

end World

namespace Session

/-- A slot is removed once the answer to its registration arrived; a runner is set while
all known client ids are ids that the slots of the list get again; late answers of former
servers are harmless. -/
def Allowed (s : Session F) : SlotOp → Prop
  | .update slots => ∀ token ∈ s.world.manager.slotList.drop slots,
    s.world.manager.Answered s.world.roll s.world.replies token
  | .removeBot playerNum => ∀ token ∈ s.world.manager.slotList[playerNum]?,
    s.world.manager.Answered s.world.roll s.world.replies token
  | .setMatchRunner _ => ∀ clientId ∈ s.world.manager.clients,
    0 < clientId ∧ clientId ≤ s.world.manager.slotList.length
  | .deliverFormer runner => ∀ former ∈ s.former[runner]?, ∀ a ∈ former.replies.head?,
    s.world.manager.Harmless s.world.roll s.world.replies a
  | _ => True

variable [External F]

/-- Every step of a run is allowed in the state before it. -/
def Careful (draws : Draws) (ops : List SlotOp) : Prop :=
  ∀ i op (s : Session F), ops[i]? = some op → run draws (ops.take i) = .ok s → s.Allowed op

theorem step_orderly {draws : Draws} {s : Session F} {op : SlotOp} (h : s.world.Orderly draws)
    (hop : s.Allowed op) : Safe (· = .addOverflow .clientCounter)
      (fun s' : Session F => s'.world.Orderly draws) (s.step draws op) := by
  cases op with
  | update slots => exact ⟨h.manager.update hop, h.waiting⟩
  | bindLocalBot bot => exact ⟨h.manager.bindLocalBot bot, h.waiting⟩
  | removeBot playerNum => exact ⟨h.manager.removeBot hop, h.waiting⟩
  | connectClient clientId => exact ⟨h.manager.connectClient clientId, h.waiting⟩
  | disconnectClient clientId => exact ⟨h.manager.disconnectClient clientId, h.waiting⟩
  | setMatchRunner ctrlToken => exact h.setMatchRunner hop ctrlToken
  | peer clientId connected => exact (h.peer clientId connected).bind fun w hw => hw
  | serve => exact h.serve.bind fun w hw => hw
  | deliver => exact h.deliver
  | serveFormer runner =>
    rw [step]
    split
    · rename_i former _
      exact former.serve_safe.bind fun former' _ => h
    · exact h
  | deliverFormer runner =>
    rw [step, deliverFormer]
    split
    · rename_i lobby requests a replies hformer
      exact ⟨h.manager.late (hop _ hformer a rfl), h.waiting⟩
    · exact h

omit [External F] in
theorem new_orderly (draws : Draws) : (new : Session F).world.Orderly draws where
  manager :=
    { runner := rfl
      nodup := List.nodup_nil
      tokens := fun token slot h => by simp [new, World.new, SlotManager.new] at h
      listed := fun token h => absurd h List.not_mem_nil
      drawn := fun token h => absurd h List.not_mem_nil
      removed := fun token clientId h => absurd h List.not_mem_nil
      plain := fun request h => absurd h List.not_mem_nil
      seated := fun h => by cases h }
  waiting lobby h := by cases h

theorem run_orderly {draws : Draws} {ops : List SlotOp} (h : Careful (F := F) draws ops) :
    Safe (· = .addOverflow .clientCounter) (fun s : Session F => s.world.Orderly draws)
      (run draws ops) := by
  have hrun : Safe (· = .addOverflow .clientCounter)
      (fun s : Session F => run draws ops = .ok s ∧ s.world.Orderly draws) (run draws ops) := by
    apply Safe.foldlM_prefix (I := fun done s => run draws done = .ok s ∧ s.world.Orderly draws)
      ⟨rfl, new_orderly draws⟩
    rintro done op rest rfl s ⟨hs, horderly⟩
    have hop : s.Allowed op := h done.length op s (by simp) (by simpa using hs)
    have hstep := step_orderly horderly hop
    cases hs' : s.step draws op with
    | error e => exact hstep.of_error hs'
    | ok s' =>
      refine ⟨?_, hstep.of_ok hs'⟩
      rw [run, List.foldlM_append]
      change run draws done >>= _ = _
      rw [hs, ok_bind, List.foldlM_cons, hs']
      rfl
  exact hrun.weaken fun s hs => hs.2

theorem Careful.of_prefix {draws : Draws} {all ops : List SlotOp} (h : Careful (F := F) draws all)
    (hops : ops <+: all) : Careful (F := F) draws ops := by
  obtain ⟨later, rfl⟩ := hops
  intro i op s hop hs
  obtain ⟨hi, _⟩ := List.getElem?_eq_some_iff.mp hop
  refine h i op s (by rw [List.getElem?_append_left hi, hop]) ?_
  rwa [List.take_append_of_le_length hi.le]

/-- In a run of which every step is allowed, slots and players agree whenever a runner is
set and nothing is outstanding. -/
theorem run_settled {draws : Draws} {all ops : List SlotOp} (h : Careful (F := F) draws all)
    (hops : ops <+: all) :
    Safe (· = .addOverflow .clientCounter) (fun s : Session F => s.world.Settled)
      (run draws ops) :=
  (run_orderly (h.of_prefix hops)).weaken fun _ hs => hs.settled

/-- Two slots are registered, one of them is removed, and the server is started anew. -/
def rematch : List SlotOp :=
  [.update 2, .setMatchRunner [1], .serve, .serve, .deliver, .deliver, .update 1, .serve,
    .deliver, .setMatchRunner [2], .serve, .deliver]

theorem of_run {draws : Draws} {ops : List SlotOp} {α : Type} {s : Session F}
    (hs : run draws ops = .ok s) (f : Session F → α) (v : α)
    (h : (run draws ops).toOption.map f = some v) : f s = v := by
  rw [hs] at h
  exact Option.some.inj h

theorem careful_rematch : Careful (F := Int) skirmishDraws rematch := by
  intro i op s hop hs
  rcases i with - | - | - | - | - | - | - | - | - | - | - | - | i
  all_goals
    simp only [rematch, List.getElem?_cons_zero, List.getElem?_cons_succ, List.getElem?_nil,
      Option.some.injEq, reduceCtorEq] at hop
  all_goals subst hop
  all_goals try trivial
  · have hnew := of_run hs (fun s => s.world.manager.slotList) [] (by decide +kernel)
    simp [Allowed, hnew]
  · have hnone := of_run hs (fun s => s.world.manager.clients.keys) ∅ (by decide +kernel)
    intro clientId hclient
    rw [← Finmap.mem_keys, hnone] at hclient
    exact absurd hclient (Finset.notMem_empty _)
  · have hdue := of_run hs (fun s => s.world.manager.due s.world.roll s.world.replies) []
      (by decide +kernel)
    intro token _ clientId hmem
    rw [hdue] at hmem
    exact absurd hmem List.not_mem_nil
  · have hkeys := of_run hs (fun s => s.world.manager.clients.keys) {1} (by decide +kernel)
    have hlength := of_run hs (fun s => s.world.manager.slotList.length) 1 (by decide +kernel)
    intro clientId hclient
    rw [← Finmap.mem_keys, hkeys, Finset.mem_singleton] at hclient
    rw [hlength, hclient]
    decide

theorem run_settled_rematch :
    ∃ (s : Session Int) (lobby : Lobby Int), run skirmishDraws rematch = .ok s ∧ s.world.Quiet ∧
      s.world.server = some lobby ∧ s.world.Agrees lobby := by
  cases hs : run (F := Int) skirmishDraws rematch with
  | error e =>
    have hok : (run (F := Int) skirmishDraws rematch).toOption.isSome := by decide +kernel
    rw [hs] at hok
    cases hok
  | ok s =>
    have hrunner := of_run hs (fun s => s.world.manager.matchRunner.isSome) true (by decide +kernel)
    have hquiet : s.world.Quiet :=
      ⟨of_run hs (fun s => s.world.manager.requests) [] (by decide +kernel),
        of_run hs (fun s => s.world.replies) [] (by decide +kernel)⟩
    obtain ⟨lobby, hlobby, hagrees⟩ :=
      (run_settled careful_rematch (List.prefix_refl _)).of_ok hs hrunner hquiet
    exact ⟨s, lobby, rfl, hquiet, hlobby, hagrees⟩

/-- A slot is dropped while its registration is under way. -/
def ghost : List SlotOp := [.setMatchRunner [1], .update 1, .update 0, .serve, .deliver]

/-- The server keeps a player without a slot. -/
theorem not_settled_ghost :
    ∃ (s : Session Int) (lobby : Lobby Int), run skirmishDraws ghost = .ok s ∧
      s.world.manager.matchRunner.isSome ∧ s.world.Quiet ∧ s.world.server = some lobby ∧
      lobby.players.keys = {⟨1⟩} ∧ s.world.manager.slotList = [] ∧ ¬ s.world.Settled := by
  cases hs : run (F := Int) skirmishDraws ghost with
  | error e =>
    have hok : (run (F := Int) skirmishDraws ghost).toOption.isSome := by decide +kernel
    rw [hs] at hok
    cases hok
  | ok s =>
    have hrunner := of_run hs (fun s => s.world.manager.matchRunner.isSome) true (by decide +kernel)
    have hquiet : s.world.Quiet :=
      ⟨of_run hs (fun s => s.world.manager.requests) [] (by decide +kernel),
        of_run hs (fun s => s.world.replies) [] (by decide +kernel)⟩
    have hlist := of_run hs (fun s => s.world.manager.slotList) [] (by decide +kernel)
    have hplayers := of_run hs (fun s => s.world.server.map fun lobby => lobby.players.keys)
      (some {⟨1⟩}) (by decide +kernel)
    obtain ⟨lobby, hlobby, hkeys⟩ := Option.map_eq_some_iff.mp hplayers
    refine ⟨s, lobby, rfl, hrunner, hquiet, hlobby, hkeys, hlist, fun hsettled => ?_⟩
    obtain ⟨lobby', hlobby', hagrees⟩ := hsettled hrunner hquiet
    obtain rfl := Option.some.inj (hlobby.symm.trans hlobby')
    have hmem : (⟨1⟩ : ClientId) ∈ lobby.players := by
      rw [← Finmap.mem_keys, hkeys]
      exact Finset.mem_singleton_self _
    obtain ⟨token, htoken, _⟩ := (hagrees.registered _).mp hmem
    rw [hlist] at htoken
    exact absurd htoken List.not_mem_nil

end Session

end Mozaic.Desktop
