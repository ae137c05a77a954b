import Mozaic.Protocol
import Mozaic.Rules.Basic

/-! Game states as protocol messages, with the players renumbered. -/
namespace Mozaic.Rules
open Rust

structure Serializer (F : Type) where
  state : PlanetWars F
  playerNumOffset : Nat

variable {F : Type}

namespace Serializer

/-- Gets the player number for given player id. Player numbers are 1-based (as
opposed to player ids), and rotated based on the number offset. -/
def playerNum (z : Serializer F) (playerId : PlayerId) : Except Panic Nat := do
  let rotatedId ← checkedRem (playerId + z.playerNumOffset) z.state.players.length
  pure (rotatedId + 1)

def serializePlanet (z : Serializer F) (planet : Planet F) : Except Panic (Proto.Planet F) := do
  let owner ← match planet.owner with
    | some id => some <$> z.playerNum id
    | none => pure none
  pure
    { name := planet.name
      x := planet.x
      y := planet.y
      owner
      shipCount := planet.shipCount }

def serializeExpedition (z : Serializer F) (exp : Expedition) : Except Panic Proto.Expedition := do
  let owner ← z.playerNum (← unwrap exp.fleet.owner)
  let origin ← index z.state.planets exp.origin
  let destination ← index z.state.planets exp.target
  pure
    { id := exp.id
      owner
      shipCount := exp.fleet.shipCount
      origin := origin.name
      destination := destination.name
      turnsRemaining := exp.turnsRemaining }

def serializeState (z : Serializer F) : Except Panic (Proto.State F) := do
  let planets ← z.state.planets.mapM z.serializePlanet
  let expeditions ← z.state.expeditions.mapM z.serializeExpedition
  pure { planets, expeditions }

end Serializer

/-- Serialize given gamestate with player numbers rotated by given offset. -/
def serializeRotated (state : PlanetWars F) (offset : Nat) : Except Panic (Proto.State F) :=
  { state, playerNumOffset := offset : Serializer F }.serializeState

/-- Serialize given gamestate. -/
def serialize (state : PlanetWars F) : Except Panic (Proto.State F) := serializeRotated state 0

end Mozaic.Rules
