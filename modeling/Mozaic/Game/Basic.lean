import Mozaic.Network.Handle
import Mozaic.Rules.Config

/-! A game as the match controller plays it: what the players answer is parsed into
commands, and the commands that are in order are executed. -/
namespace Mozaic
open Rust Rules Network

/-- The part of a controller that commands are checked and executed against. -/
structure Game (F : Type) where
  state : PlanetWars F
  planetMap : HashMap String Nat

/-- A turn's answers, and the order in which they are drained. -/
structure TurnInput where
  drainOrder : IterOrder PlayerId
  messages : HashMap PlayerId ResponseValue

variable {F : Type}

namespace Game

def ofState (state : PlanetWars F) : Game F where
  state
  planetMap := HashMap.collect (state.planets.map fun planet => (planet.name, planet.id))

def parseCommand (g : Game F) (playerId : PlayerId) (mv : Proto.Command) :
    Except Panic (Except Proto.CommandError Dispatch) :=
  match g.planetMap.lookup mv.origin with
  | none => pure (.error .originDoesNotExist)
  | some originId =>
    match g.planetMap.lookup mv.destination with
    | none => pure (.error .destinationDoesNotExist)
    | some targetId => do
      let origin ← index g.state.planets originId
      pure <|
        if origin.owner ≠ some playerId then .error .originNotOwned
        else if origin.shipCount < mv.shipCount then .error .notEnoughShips
        else if mv.shipCount = 0 then .error .zeroShipMove
        else .ok { origin := originId, target := targetId, shipCount := mv.shipCount }

section Execution
variable [F64 F]

/-- One command of an action, after the commands `done` of it. -/
def executeCommand (playerId : PlayerId) :
    Game F × List Proto.PlayerCommand → Proto.Command →
      Except Panic (Game F × List Proto.PlayerCommand)
  | (g, done), command => do
    match ← g.parseCommand playerId command with
    | .ok dispatch =>
      let state ← g.state.dispatch dispatch
      pure ({ g with state }, done ++ [{ command, error := none }])
    | .error error => pure (g, done ++ [{ command, error := some error }])

variable [External F]

def executeAction (g : Game F) (playerId : PlayerId) (response : ResponseValue) :
    Except Panic (Game F × Proto.PlayerAction) :=
  match response with
  | .error .timeout => pure (g, .timeout)
  | .ok message =>
    match External.actionFromSlice F message with
    | .error err => pure (g, .parseError err)
    | .ok action => do
      let (g, commands) ← action.commands.foldlM (executeCommand playerId) (g, [])
      pure (g, .commands commands)

/-- One round of the loop of `execute_messages`, after `actions` were reported. -/
def executeMessage :
    Game F × List (PlayerId × Proto.PlayerAction) → PlayerId × ResponseValue →
      Except Panic (Game F × List (PlayerId × Proto.PlayerAction))
  | (g, actions), (playerId, result) => do
    let (g, action) ← g.executeAction playerId result
    pure (g, actions ++ [(playerId, action)])

/-- The loop of `execute_messages`, with what is reported to whom. -/
def executeMessages (g : Game F) (messages : List (PlayerId × ResponseValue)) :
    Except Panic (Game F × List (PlayerId × Proto.PlayerAction)) :=
  messages.foldlM executeMessage (g, [])

/-- What a turn does to the game, and what it reports to the players. -/
def turn (g : Game F) (input : TurnInput) :
    Except Panic (Game F × List (PlayerId × Proto.PlayerAction)) := do
  let state ← g.state.repopulate
  let (g, actions) ← { g with state }.executeMessages (input.messages.entriesIn input.drainOrder)
  let state ← g.state.step
  pure ({ g with state }, actions)

end Execution
end Game
end Mozaic
