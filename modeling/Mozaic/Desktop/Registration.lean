import Mozaic.Controller.Basic
import Mozaic.Desktop.SlotManager

/-! The lobby of the desktop client together with the lobby of its game server. Requests
and responses travel in order, and anything may happen in between. -/
namespace Mozaic
open Rust Rules Network Outcome

variable {F : Type}

/-- What a lobby answers to a request of the control client. -/
def Controller.Lobby.answer (l : Controller.Lobby F) :
    Proto.LobbyMessage → Except Panic (Proto.LobbyResponse × Controller.Lobby F)
  | .addPlayer token => do
    let (clientId, l) ← l.addPlayer token
    pure (.addPlayer clientId.num, l)
  | .removePlayer clientId => pure (.removePlayer, l.removePlayer ⟨clientId⟩)
  | .startGame payload => pure (.startGame, l.configure payload)

theorem Controller.Lobby.handleMessage_eq [External F] (l : Controller.Lobby F)
    (messageId : MessageId) {content : Bytes} {message : Proto.LobbyMessage}
    (h : External.decodeLobbyMessage F content = some (some message)) :
    l.handleMessage messageId content =
      (fun r => r.2.respond messageId r.1) <$> l.answer message := by
  rw [handleMessage]
  rw [h]
  cases message with
  | addPlayer token =>
    simp only [answer]
    cases l.addPlayer token with
    | error e => rfl
    | ok r => rfl
  | removePlayer clientId => rfl
  | startGame payload => rfl

namespace Desktop
open Controller

/-- The slots, the server of the current match runner and the responses that are on
their way back. -/
structure World (F : Type) where
  manager : SlotManager
  server : Option (Lobby F)
  replies : List (Proto.LobbyResponse × Resolve)

inductive LobbyOp where
  | update (slots : Nat)
  | bindLocalBot (bot : Bot)
  | removeBot (playerNum : Nat)
  | connectClient (clientId : Nat)
  | disconnectClient (clientId : Nat)
  | setMatchRunner (ctrlToken : Bytes)
  | startGame (payload : Bytes)
  /-- A client connects to the server, or disconnects. -/
  | peer (clientId : ClientId) (connected : Bool)
  /-- The server handles the next request. -/
  | serve
  /-- The next response arrives. -/
  | deliver

namespace World

def new : World F := ⟨.new, none, []⟩

/-- What a lobby hears of its clients. Once its game was started, it is no lobby. -/
def peer [External F] (clientId : ClientId) (connected : Bool) (w : World F) :
    Except Panic (World F) :=
  match w.server with
  | some lobby =>
    if lobby.gameData.isSome then pure w
    else do
      let lobby ← lobby.handleEvent ⟨clientId, if connected then .connected else .disconnected⟩
      pure { w with server := some lobby }
  | none => pure w

/-- Once its game was started, a server has no ear for requests to the lobby. -/
def serve (w : World F) : Except Panic (World F) :=
  match w.server, w.manager.matchRunner with
  | some lobby, some runner =>
    match runner.requests with
    | request :: requests => do
      let manager := { w.manager with matchRunner := some { runner with requests } }
      if lobby.gameData.isSome then
        pure { w with manager }
      else
        let (response, lobby) ← lobby.answer request.message
        pure
          { manager
            server := some (lobby.respond request.messageId response)
            replies := w.replies ++ [(response, request.resolve)] }
    | [] => pure w
  | _, _ => pure w

def deliver (w : World F) : World F :=
  match w.replies with
  | (response, resolve) :: replies =>
    { w with manager := w.manager.resolve response resolve, replies }
  | [] => w

/-- A new match runner has a server of its own; nothing more is heard of the last one. -/
def setMatchRunner (ctrlToken : Bytes) (w : World F) : World F where
  manager := w.manager.setMatchRunner
  server := some (.new ctrlToken .new)
  replies := []

section Run
variable [External F]

def step (draws : Draws) (w : World F) : LobbyOp → Except Panic (World F)
  | .update slots => pure { w with manager := w.manager.update draws slots }
  | .bindLocalBot bot => pure { w with manager := w.manager.bindLocalBot bot }
  | .removeBot playerNum => pure { w with manager := w.manager.removeBot draws playerNum }
  | .connectClient clientId => pure { w with manager := w.manager.connectClient clientId }
  | .disconnectClient clientId => pure { w with manager := w.manager.disconnectClient clientId }
  | .setMatchRunner ctrlToken => pure (w.setMatchRunner ctrlToken)
  | .startGame payload => pure { w with manager := w.manager.startGame payload }
  | .peer clientId connected => w.peer clientId connected
  | .serve => w.serve
  | .deliver => pure w.deliver

def run (draws : Draws) (ops : List LobbyOp) : Except Panic (World F) := ops.foldlM (step draws) new

omit [External F] in
/-- Lobbies can only run out of client ids. -/
theorem answer_safe (lobby : Lobby F) (message : Proto.LobbyMessage) :
    Safe (· = .addOverflow .clientCounter) (fun _ => True) (lobby.answer message) := by
  cases message with
  | addPlayer token =>
    apply Safe.bind (P := fun _ => True)
    · apply Safe.bind (P := fun _ => True)
      · exact checkedAdd_safe (fun _ => rfl) fun _ => trivial
      · exact fun _ _ => trivial
    · exact fun _ _ => trivial
  | removePlayer clientId => trivial
  | startGame payload => trivial

omit [External F] in
theorem serve_safe (w : World F) :
    Safe (· = .addOverflow .clientCounter) (fun _ => True) w.serve := by
  rw [serve]
  split
  · split
    · split
      · trivial
      · exact (answer_safe _ _).bind fun _ _ => trivial
    · trivial
  · trivial

theorem peer_safe (clientId : ClientId) (connected : Bool) (w : World F) :
    Safe (· = .addOverflow .clientCounter) (fun _ => True) (w.peer clientId connected) := by
  have hevent (lobby : Lobby F) : Safe (· = .addOverflow .clientCounter) (fun _ => True)
      (lobby.handleEvent ⟨clientId, if connected then .connected else .disconnected⟩) := by
    rw [Lobby.handleEvent]
    cases connected <;> simp only [Bool.false_eq_true, if_true, if_false] <;> split <;> trivial
  rw [peer]
  split
  · split
    · trivial
    · exact (hevent _).bind fun _ _ => trivial
  · trivial

theorem run_safe (draws : Draws) (ops : List LobbyOp) :
    Safe (· = .addOverflow .clientCounter) (fun _ => True) (run (F := F) draws ops) := by
  apply Safe.foldlM trivial
  intro op _ w _
  cases op with
  | peer clientId connected => exact w.peer_safe clientId connected
  | serve => exact w.serve_safe
  | _ => trivial

end Run

end World
end Desktop
end Mozaic
