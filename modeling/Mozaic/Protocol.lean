import Mathlib

/-! The messages of the planet wars protocol, as values. The server writes them as
JSON; a field keeps its name, so nothing below depends on the encoding. -/
namespace Mozaic.Proto

structure Expedition where
  id : Nat
  shipCount : Nat
  origin : String
  destination : String
  owner : Nat
  turnsRemaining : Nat
deriving DecidableEq, Repr

structure Planet (F : Type) where
  shipCount : Nat
  x : F
  y : F
  owner : Option Nat
  name : String
deriving DecidableEq, Repr

structure Command where
  origin : String
  destination : String
  shipCount : Nat
deriving DecidableEq, Repr

structure Action where
  commands : List Command
deriving DecidableEq, Repr

structure Map (F : Type) where
  planets : List (Planet F)
deriving DecidableEq, Repr

structure State (F : Type) where
  planets : List (Planet F)
  expeditions : List Expedition
deriving DecidableEq, Repr

inductive CommandError where
  | notEnoughShips
  | originNotOwned
  | zeroShipMove
  | originDoesNotExist
  | destinationDoesNotExist
deriving DecidableEq, Repr

structure PlayerCommand where
  command : Command
  error : Option CommandError
deriving DecidableEq, Repr

inductive PlayerAction where
  | timeout
  | parseError (message : String)
  | commands (commands : List PlayerCommand)
deriving DecidableEq, Repr

inductive ServerMessage (F : Type) where
  /-- Game state in current turn -/
  | gameState (state : State F)
  /-- The action that was performed -/
  | playerAction (action : PlayerAction)
  /-- The game is over, and this is the concluding state. -/
  | finalState (state : State F)
deriving DecidableEq, Repr

inductive ControlMessage (F : Type) where
  | playerConnected (playerId : Nat)
  | playerDisconnected (playerId : Nat)
  | gameState (state : State F)
deriving DecidableEq, Repr

/-- The payload of a `LobbyMessage`, sent over the control connection. -/
inductive LobbyMessage where
  | addPlayer (token : List UInt8)
  | removePlayer (clientId : Nat)
  | startGame (payload : List UInt8)
deriving DecidableEq, Repr

inductive LobbyResponse where
  | addPlayer (clientId : Nat)
  | removePlayer
  | startGame
deriving DecidableEq, Repr

end Mozaic.Proto
