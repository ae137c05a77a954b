import Mozaic.Desktop.PlayerNumbers
import Mozaic.Desktop.Answers

/-! The connection status in the lobby. Two subscribers hear of every player that connects
or disconnects, one after the other. -/
namespace Mozaic.Desktop
open Rust

/-! ## The subscribers -/

/-- What a match runner tells of its players. -/
inductive PlayerEvent where
  | playerConnected (clientId : Nat)
  | playerDisconnected (clientId : Nat)
deriving DecidableEq, Repr

def PlayerEvent.clientId : PlayerEvent → Nat
  | .playerConnected clientId | .playerDisconnected clientId => clientId

/-- The subscribers of a match runner, in the order in which they subscribed. -/
structure Subscribers where
  onPlayerConnected : List (Nat → SlotManager → SlotManager)
  onPlayerDisconnected : List (Nat → SlotManager → SlotManager)

namespace Subscribers

def none : Subscribers := ⟨[], []⟩

/-- The subscriptions of `SlotManager.setMatchRunner`. -/
def setMatchRunner (s : Subscribers) : Subscribers where
  onPlayerConnected := s.onPlayerConnected ++ [SlotManager.connectClient]
  onPlayerDisconnected := s.onPlayerDisconnected ++ [SlotManager.disconnectClient]

/-- The subscriptions of `Lobby.startServer`, which subscribes `connectClient` twice. -/
def startServer (s : Subscribers) : Subscribers where
  onPlayerConnected := s.setMatchRunner.onPlayerConnected ++ [SlotManager.connectClient]
  onPlayerDisconnected := s.setMatchRunner.onPlayerDisconnected ++ [SlotManager.connectClient]

def dispatch (s : Subscribers) (m : SlotManager) : PlayerEvent → SlotManager
  | .playerConnected clientId => s.onPlayerConnected.foldl (fun m f => f clientId m) m
  | .playerDisconnected clientId => s.onPlayerDisconnected.foldl (fun m f => f clientId m) m

end Subscribers

/-- What happens in a lobby between the start of its server and the launch of the game. -/
inductive LobbyStep where
  | event (e : PlayerEvent)
  | update (slots : Nat)
  | bindLocalBot (bot : Bot)
  | removeBot (playerNum : Nat)
  /-- The server answers a request. -/
  | answered (a : Answer)

def LobbyStep.event? : LobbyStep → Option PlayerEvent
  | .event e => some e
  | _ => none

namespace SlotManager

def lobbyStep (draws : Draws) (m : SlotManager) : LobbyStep → SlotManager
  | .event e => Subscribers.none.startServer.dispatch m e
  | .update slots => m.update draws slots
  | .bindLocalBot bot => m.bindLocalBot bot
  | .removeBot playerNum => m.removeBot draws playerNum
  | .answered a => m.resolve a.1 a.2

def lobbySteps (draws : Draws) (m : SlotManager) (steps : List LobbyStep) : SlotManager :=
  steps.foldl (lobbyStep draws) m

/-! ## Registered clients -/

/-- The slot with this token is the slot of a registered client. -/
structure Seat (draws : Draws) (clientId : Nat) (token : Token) (m : SlotManager) : Prop where
  client : m.clients.lookup clientId = some token
  slot : (m.objects.lookup token).map (·.clientId) = some (some clientId)
  drawn : ∃ n < m.drawn, draws.token n = token

/-- Events are those of registered clients, and the client stays registered. -/
def Fits (draws : Draws) (clientId : Nat) (token : Token) (m : SlotManager) : LobbyStep → Prop
  | .event e => ∃ token', m.Seat draws e.clientId token'
  | .answered a => ¬ a.About clientId ∧ ∀ id, a ≠ (.addPlayer id, .registered token)
  | _ => True

def AllFit (draws : Draws) (clientId : Nat) (token : Token) : SlotManager → List LobbyStep → Prop
  | _, [] => True
  | m, step :: steps =>
    m.Fits draws clientId token step ∧ AllFit draws clientId token (m.lobbyStep draws step) steps

/-- The last event of a client. -/
def lastEvent (clientId : Nat) (steps : List LobbyStep) : Option PlayerEvent :=
  ((steps.filterMap LobbyStep.event?).filter (·.clientId = clientId)).getLast?

/-- The slot of the client is shown as connected. -/
def Shown (token : Token) (m : SlotManager) : Prop :=
  (m.objects.lookup token).map (·.connected) = some true

instance (token : Token) (m : SlotManager) : Decidable (m.Shown token) :=
  inferInstanceAs (Decidable (_ = _))

/-- The flag of the slot and the set of the connected clients say what the last event of
the client was. -/
structure Follows (clientId : Nat) (token : Token) (last : Option PlayerEvent) (m : SlotManager) :
    Prop where
  shown : m.Shown token ↔ last = some (.playerConnected clientId)
  listed : clientId ∈ m.connectedClients ↔ last = some (.playerConnected clientId)

/-! ## What a step does for one client -/

/-- Nothing happens to the client. -/
structure Keeps (clientId : Nat) (token : Token) (m m' : SlotManager) : Prop where
  client : m'.clients.lookup clientId = m.clients.lookup clientId
  slot : (m'.objects.lookup token).map (fun s => (s.connected, s.clientId)) =
    (m.objects.lookup token).map fun s => (s.connected, s.clientId)
  listed : clientId ∈ m'.connectedClients ↔ clientId ∈ m.connectedClients
  drawn : m.drawn ≤ m'.drawn

variable {draws : Draws} {clientId : Nat} {token : Token} {m m' m'' : SlotManager}

theorem Keeps.refl (m : SlotManager) : Keeps clientId token m m := ⟨rfl, rfl, .rfl, le_rfl⟩

theorem Keeps.trans (h : Keeps clientId token m m') (h' : Keeps clientId token m' m'') :
    Keeps clientId token m m'' :=
  ⟨h'.client.trans h.client, h'.slot.trans h.slot, h'.listed.trans h.listed, h.drawn.trans h'.drawn⟩

theorem Keeps.seat (h : Keeps clientId token m m') (hm : m.Seat draws clientId token) :
    m'.Seat draws clientId token := by
  obtain ⟨n, hn, htoken⟩ := hm.drawn
  have hid := congrArg (Option.map Prod.snd) h.slot
  rw [Option.map_map, Option.map_map] at hid
  exact ⟨h.client.trans hm.client, hid.trans hm.slot, n, hn.trans_le h.drawn, htoken⟩

theorem Keeps.shown (h : Keeps clientId token m m') : m'.Shown token ↔ m.Shown token := by
  have hconnected := congrArg (Option.map Prod.fst) h.slot
  rw [Option.map_map, Option.map_map] at hconnected
  exact Eq.congr_left hconnected

/-- One slot belongs to one registered client. -/
theorem Seat.inj {clientId' : Nat} (h : m.Seat draws clientId token)
    (h' : m.Seat draws clientId' token) : clientId' = clientId := by
  have hids := h'.slot.symm.trans h.slot
  simpa using hids

theorem keeps_modify {token' : Token} {f : Slot → Slot}
    (h : token' = token → ∀ slot, ((f slot).connected, (f slot).clientId) =
      (slot.connected, slot.clientId)) : Keeps clientId token m (m.modify token' f) := by
  constructor
  · rw [clients_modify]
  · rw [lookup_modify]
    split
    · rename_i heq
      rw [Option.map_map]
      congr 1
      funext slot
      exact h heq.symm slot
    · rfl
  · rw [modify]
    split <;> rfl
  · rw [drawn_modify]

section Event
variable {id : Nat} {token' : Token}

theorem connectClient_eq (h : m.clients.lookup id = some token') :
    m.connectClient id = { m with connectedClients := insert id m.connectedClients }.modify token'
      fun slot => { slot with connected := true } := by
  rw [connectClient, setConnected]
  dsimp only
  rw [h]

theorem disconnectClient_eq (h : m.clients.lookup id = some token') :
    m.disconnectClient id = { m with connectedClients := m.connectedClients.erase id }.modify token'
      fun slot => { slot with connected := false } := by
  rw [disconnectClient, setConnected]
  dsimp only
  rw [h]

theorem seat_modify {f : Slot → Slot} (hf : ∀ slot, (f slot).clientId = slot.clientId)
    (h : m.Seat draws clientId token) : (m.modify token' f).Seat draws clientId token := by
  refine ⟨?_, ?_, ?_⟩
  · rw [clients_modify]
    exact h.client
  · rw [lookup_modify]
    split
    · rw [Option.map_map]
      simp only [Function.comp_def, hf]
      exact h.slot
    · exact h.slot
  · rw [drawn_modify]
    exact h.drawn

theorem Seat.connectClient (h : m.Seat draws id token') (hm : m.Seat draws clientId token) :
    (m.connectClient id).Seat draws clientId token := by
  rw [connectClient_eq h.client]
  exact seat_modify (fun _ => rfl) ⟨hm.client, hm.slot, hm.drawn⟩

theorem Seat.disconnectClient (h : m.Seat draws id token') (hm : m.Seat draws clientId token) :
    (m.disconnectClient id).Seat draws clientId token := by
  rw [disconnectClient_eq h.client]
  exact seat_modify (fun _ => rfl) ⟨hm.client, hm.slot, hm.drawn⟩

/-- Events of other clients change other slots. -/
theorem Seat.keeps_connectClient (h : m.Seat draws id token') (hm : m.Seat draws clientId token)
    (hne : id ≠ clientId) : Keeps clientId token m (m.connectClient id) := by
  rw [connectClient_eq h.client]
  have hset : Keeps clientId token m { m with connectedClients := insert id m.connectedClients } :=
    ⟨rfl, rfl, by simp [hne.symm], le_rfl⟩
  refine hset.trans (keeps_modify fun heq => ?_)
  exact absurd (hm.inj (heq ▸ h)) hne

theorem Seat.keeps_disconnectClient (h : m.Seat draws id token')
    (hm : m.Seat draws clientId token) (hne : id ≠ clientId) :
    Keeps clientId token m (m.disconnectClient id) := by
  rw [disconnectClient_eq h.client]
  have hset : Keeps clientId token m
      { m with connectedClients := m.connectedClients.erase id } :=
    ⟨rfl, rfl, by simp [hne.symm], le_rfl⟩
  refine hset.trans (keeps_modify fun heq => ?_)
  exact absurd (hm.inj (heq ▸ h)) hne

theorem Seat.shown_connectClient (h : m.Seat draws clientId token) :
    (m.connectClient clientId).Shown token ∧ clientId ∈ (m.connectClient clientId).connectedClients := by
  have hslot := h.slot
  rw [connectClient_eq h.client]
  constructor
  · rw [Shown, lookup_modify, if_pos rfl, Option.map_map]
    obtain ⟨slot, hlookup, -⟩ := Option.map_eq_some_iff.mp hslot
    rw [hlookup]
    rfl
  · rw [modify]
    split <;> exact Finset.mem_insert_self _ _

/-- Whatever happened to a client, both subscribers together show it as connected. -/
theorem Seat.dispatch {e : PlayerEvent} (h : m.Seat draws e.clientId token') :
    (Subscribers.none.startServer.dispatch m e).Seat draws e.clientId token' ∧
      (Subscribers.none.startServer.dispatch m e).Shown token' ∧
      e.clientId ∈ (Subscribers.none.startServer.dispatch m e).connectedClients := by
  cases e with
  | playerConnected id =>
    have hfirst := h.connectClient h
    exact ⟨hfirst.connectClient hfirst, hfirst.shown_connectClient⟩
  | playerDisconnected id =>
    have hfirst := h.disconnectClient h
    exact ⟨hfirst.connectClient hfirst, hfirst.shown_connectClient⟩

theorem Seat.keeps_dispatch {e : PlayerEvent} (h : m.Seat draws e.clientId token')
    (hm : m.Seat draws clientId token) (hne : e.clientId ≠ clientId) :
    Keeps clientId token m (Subscribers.none.startServer.dispatch m e) := by
  cases e with
  | playerConnected id =>
    have hfirst := h.keeps_connectClient hm hne
    exact hfirst.trans ((h.connectClient h).keeps_connectClient (hfirst.seat hm) hne)
  | playerDisconnected id =>
    have hfirst := h.keeps_disconnectClient hm hne
    exact hfirst.trans ((h.disconnectClient h).keeps_connectClient (hfirst.seat hm) hne)

end Event

section Slots

theorem keeps_unregisterSlot (m : SlotManager) (slot : Slot) :
    Keeps clientId token m (m.unregisterSlot slot) := by
  rw [unregisterSlot]
  split
  · exact ⟨rfl, rfl, .rfl, le_rfl⟩
  · exact .refl m

/-- A new slot has a token that was never drawn before. -/
theorem Seat.keeps_createSlot (h : m.Seat draws clientId token) :
    Keeps clientId token m (m.createSlot draws).2 := by
  obtain ⟨n, hn, htoken⟩ := h.drawn
  have hne : token ≠ draws.token m.drawn := by
    intro heq
    exact absurd (draws.fresh (htoken.trans heq)) hn.ne
  refine ⟨rfl, ?_, .rfl, Nat.le_succ _⟩
  change ((m.objects.insert _ _).lookup token).map _ = _
  rw [HashMap.lookup_insert_eq, if_neg hne]

theorem keeps_slotList (m : SlotManager) (list : List Token) :
    Keeps clientId token m { m with slotList := list } := ⟨rfl, rfl, .rfl, le_rfl⟩

theorem Seat.keeps_addSlot (h : m.Seat draws clientId token) :
    Keeps clientId token m (m.addSlot draws) :=
  h.keeps_createSlot.trans (keeps_slotList _ _)

theorem keeps_popSlot (m : SlotManager) : Keeps clientId token m m.popSlot := by
  unfold popSlot
  dsimp only
  split
  · exact (keeps_slotList m _).trans (keeps_unregisterSlot _ _)
  · exact keeps_slotList m _

theorem Seat.keeps_update (h : m.Seat draws clientId token) (slots : Nat) :
    Keeps clientId token m (m.update draws slots) := by
  have hgrow : Keeps clientId token m ((growLoop draws slots).run m) := by
    refine (growLoop draws slots).run_rule
      (P := fun s r => s.Seat draws clientId token → Keeps clientId token s r) ?_ ?_ m h
    · intro s r hbody _
      simp only [growLoop] at hbody
      split at hbody
      · cases hbody
      · cases hbody
        exact .refl s
    · intro s t r hbody ih hs
      simp only [growLoop] at hbody
      split at hbody
      · cases hbody
        exact hs.keeps_addSlot.trans (ih (hs.keeps_addSlot.seat hs))
      · cases hbody
  refine hgrow.trans ?_
  refine (shrinkLoop slots).run_rule (P := fun s r => Keeps clientId token s r) ?_ ?_ _
  · intro s r hbody
    simp only [shrinkLoop] at hbody
    split at hbody
    · cases hbody
    · cases hbody
      exact .refl s
  · intro s t r hbody ih
    simp only [shrinkLoop] at hbody
    split at hbody
    · cases hbody
      exact (keeps_popSlot s).trans ih
    · cases hbody

theorem keeps_bindLocalBot (m : SlotManager) (bot : Bot) :
    Keeps clientId token m (m.bindLocalBot bot) := by
  rw [bindLocalBot]
  split
  · exact keeps_modify fun _ _ => rfl
  · exact .refl m

theorem Seat.keeps_removeBot (h : m.Seat draws clientId token) (playerNum : Nat) :
    Keeps clientId token m (m.removeBot draws playerNum) := by
  rw [removeBot]
  split
  · rename_i oldSlot _
    have hout : Keeps clientId token m (m.unregisterSlot oldSlot) := keeps_unregisterSlot m oldSlot
    exact hout.trans ((hout.seat h).keeps_createSlot.trans (keeps_slotList _ _))
  · exact .refl m

/-- Answers about other clients and other slots. -/
theorem keeps_resolve {a : Answer} (habout : ¬ a.About clientId)
    (hslot : ∀ id, a ≠ (.addPlayer id, .registered token)) :
    Keeps clientId token m (m.resolve a.1 a.2) := by
  obtain ⟨slot, id, rfl, heq⟩ | ⟨slot, id, rfl, heq⟩ | ⟨heq, -⟩ := m.resolve_cases a
  · have hid : clientId ≠ id := fun h => habout (.inl ⟨slot, h ▸ rfl⟩)
    rw [heq, registered]
    have hmodify : Keeps clientId token m
        (m.modify slot fun s => { s with clientId := some id }) :=
      keeps_modify fun h => absurd rfl (h ▸ hslot id)
    refine hmodify.trans ⟨?_, rfl, .rfl, le_rfl⟩
    rw [HashMap.lookup_insert_eq, if_neg hid]
  · have hid : clientId ≠ id := fun h => habout (.inr ⟨slot, h ▸ rfl⟩)
    rw [heq]
    refine ⟨?_, rfl, .rfl, le_rfl⟩
    change (m.clients.erase id).lookup clientId = _
    rw [HashMap.lookup_erase_eq, if_neg hid]
  · rw [heq]
    exact .refl m

end Slots

/-! ## Whole runs -/

theorem lastEvent_cons (clientId : Nat) (step : LobbyStep) (steps : List LobbyStep) :
    lastEvent clientId (step :: steps) = (lastEvent clientId steps).or
      (step.event?.filter (·.clientId = clientId)) := by
  rw [lastEvent, lastEvent, List.filterMap_cons]
  cases step.event? with
  | none => simp
  | some e =>
    dsimp only
    by_cases he : e.clientId = clientId
    · rw [List.filter_cons_of_pos (by simpa using he), List.getLast?_cons,
        Option.filter_some_pos (by simpa using he), Option.or_some]
    · rw [List.filter_cons_of_neg (by simpa using he),
        Option.filter_some_neg (by simpa using he), Option.or_none]

theorem clientId_of_lastEvent {steps : List LobbyStep} {e : PlayerEvent}
    (h : lastEvent clientId steps = some e) : e.clientId = clientId := by
  have hmem := List.mem_of_getLast? h
  simpa using (List.mem_filter.mp hmem).2

/-- A step either leaves the client alone or is an event of it. -/
theorem Seat.lobbyStep {step : LobbyStep} (h : m.Seat draws clientId token)
    (hfits : m.Fits draws clientId token step) :
    step.event?.filter (·.clientId = clientId) = none ∧
        Keeps clientId token m (m.lobbyStep draws step) ∨
      (step.event?.filter (·.clientId = clientId)).isSome ∧
        (m.lobbyStep draws step).Seat draws clientId token ∧
        (m.lobbyStep draws step).Shown token ∧
        clientId ∈ (m.lobbyStep draws step).connectedClients := by
  cases step with
  | event e =>
    obtain ⟨token', hseat⟩ := hfits
    by_cases he : e.clientId = clientId
    · subst he
      obtain rfl : token' = token := Option.some.inj (hseat.client.symm.trans h.client)
      exact .inr ⟨by simp [LobbyStep.event?], hseat.dispatch⟩
    · exact .inl ⟨by simp [LobbyStep.event?, he], hseat.keeps_dispatch h he⟩
  | update slots => exact .inl ⟨rfl, h.keeps_update slots⟩
  | bindLocalBot bot => exact .inl ⟨rfl, keeps_bindLocalBot m bot⟩
  | removeBot playerNum => exact .inl ⟨rfl, h.keeps_removeBot playerNum⟩
  | answered a => exact .inl ⟨rfl, keeps_resolve hfits.1 hfits.2⟩

/-- Once it had an event, a client is shown as connected for good. -/
theorem Seat.lobbySteps {steps : List LobbyStep} (h : m.Seat draws clientId token)
    (hfits : AllFit draws clientId token m steps) :
    lastEvent clientId steps = none ∧ Keeps clientId token m (m.lobbySteps draws steps) ∨
      (lastEvent clientId steps).isSome ∧ (m.lobbySteps draws steps).Shown token ∧
        clientId ∈ (m.lobbySteps draws steps).connectedClients := by
  induction steps generalizing m with
  | nil => exact .inl ⟨rfl, .refl m⟩
  | cons step steps ih =>
    obtain ⟨hfirst, hrest⟩ := hfits
    rw [lastEvent_cons]
    change _ ∧ Keeps clientId token m ((m.lobbyStep draws step).lobbySteps draws steps) ∨
      _ ∧ ((m.lobbyStep draws step).lobbySteps draws steps).Shown token ∧
        clientId ∈ ((m.lobbyStep draws step).lobbySteps draws steps).connectedClients
    rcases h.lobbyStep hfirst with ⟨hnone, hkeeps⟩ | ⟨hsome, hseat, hshown, hlisted⟩
    · rw [hnone, Option.or_none]
      rcases ih (hkeeps.seat h) hrest with ⟨hlast, hkeeps'⟩ | hlast
      · exact .inl ⟨hlast, hkeeps.trans hkeeps'⟩
      · exact .inr hlast
    · rcases ih hseat hrest with ⟨hlast, hkeeps'⟩ | ⟨hlast, hon⟩
      · rw [hlast, Option.none_or]
        exact .inr ⟨hsome, hkeeps'.shown.mpr hshown, hkeeps'.listed.mpr hlisted⟩
      · exact .inr ⟨by rw [Option.isSome_or, hlast, Bool.true_or], hon⟩

/-- From any state of a lobby with a registered client, and in any order of events and other
steps: what the lobby shows of the client follows its last event if and only if that event is
no disconnect and, where there was no event, the client was not shown as connected before. -/
theorem lobbySteps_follows_iff (draws : Draws) (m : SlotManager) (clientId : Nat) (token : Token)
    (steps : List LobbyStep) (hseat : m.Seat draws clientId token)
    (hfits : AllFit draws clientId token m steps) :
    (m.lobbySteps draws steps).Follows clientId token (lastEvent clientId steps) ↔
      lastEvent clientId steps ≠ some (.playerDisconnected clientId) ∧
        (lastEvent clientId steps = none → ¬ m.Shown token ∧ clientId ∉ m.connectedClients) := by
  rcases hseat.lobbySteps hfits with ⟨hlast, hkeeps⟩ | ⟨hlast, hshown, hlisted⟩
  · rw [hlast]
    constructor
    · intro h
      refine ⟨by simp, fun _ => ⟨?_, ?_⟩⟩
      · rw [← hkeeps.shown, h.shown]
        simp
      · rw [← hkeeps.listed, h.listed]
        simp
    · intro h
      obtain ⟨hshown, hlisted⟩ := h.2 rfl
      refine ⟨?_, ?_⟩
      · rw [hkeeps.shown]
        simp [hshown]
      · rw [hkeeps.listed]
        simp [hlisted]
  · obtain ⟨e, he⟩ := Option.isSome_iff_exists.mp hlast
    have hid := clientId_of_lastEvent he
    rw [he]
    constructor
    · intro h
      have hconnected := h.shown.mp hshown
      exact ⟨by rw [hconnected]; simp, by simp⟩
    · intro h
      have hconnected : e = .playerConnected clientId := by
        cases e with
        | playerConnected id => exact congrArg _ hid
        | playerDisconnected id =>
          refine absurd ?_ h.1
          rw [← hid]
          rfl
      rw [hconnected]
      exact ⟨iff_of_true hshown rfl, iff_of_true hlisted rfl⟩

/-! ## One client -/

section Skirmish

/-- One slot, whose client is registered with the server. -/
def skirmishLobby : SlotManager :=
  ((SlotManager.new.update skirmishDraws 1).setMatchRunner).resolve (.addPlayer 1) (.registered [])

theorem skirmishLobby_seat : skirmishLobby.Seat skirmishDraws 1 [] :=
  ⟨by decide +kernel, by decide +kernel, 0, by decide +kernel, rfl⟩

theorem lobbySteps_follows_iff_skirmish :
    (skirmishLobby.lobbySteps skirmishDraws [.event (.playerConnected 1)]).Follows 1 []
        (lastEvent 1 [.event (.playerConnected 1)]) ↔
      lastEvent 1 [.event (.playerConnected 1)] ≠ some (.playerDisconnected 1) ∧
        (lastEvent 1 [.event (.playerConnected 1)] = none →
          ¬ skirmishLobby.Shown [] ∧ 1 ∉ skirmishLobby.connectedClients) :=
  lobbySteps_follows_iff skirmishDraws skirmishLobby 1 [] [.event (.playerConnected 1)]
    skirmishLobby_seat ⟨⟨[], skirmishLobby_seat⟩, trivial⟩

/-- A player that connects and disconnects is shown as connected. -/
theorem not_follows_skirmish :
    ¬ ∀ (draws : Draws) (m : SlotManager) (clientId : Nat) (token : Token) (steps : List LobbyStep),
        m.Seat draws clientId token → AllFit draws clientId token m steps → m.connectedClients = ∅ →
          (m.lobbySteps draws steps).Follows clientId token (lastEvent clientId steps) := by
  intro h
  have hsecond : (skirmishLobby.lobbyStep skirmishDraws
      (.event (.playerConnected 1))).Seat skirmishDraws 1 [] :=
    (skirmishLobby_seat.dispatch (e := .playerConnected 1)).1
  have hfollows := h skirmishDraws skirmishLobby 1 []
    [.event (.playerConnected 1), .event (.playerDisconnected 1)] skirmishLobby_seat
    ⟨⟨[], skirmishLobby_seat⟩, ⟨[], hsecond⟩, trivial⟩ (by decide +kernel)
  exact absurd (hfollows.listed.mp (by decide +kernel)) (by decide)

end Skirmish

end SlotManager
end Mozaic.Desktop
