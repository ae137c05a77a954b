import Mozaic.Protocol
import Mozaic.Rules.Basic

/-! Creating a game from its configuration and map file. -/
namespace Mozaic.Rules
open Rust

structure Config where
  mapFile : String
  maxTurns : Nat
deriving DecidableEq, Repr

/-- What the server takes from outside: the file system, `serde_json` and `prost`.
A decoded lobby message may have no payload. -/
class External (F : Type) where
  readFile : String → Option String
  mapFromStr : String → Option (Proto.Map F)
  configFromSlice : List UInt8 → Option Config
  actionFromSlice : List UInt8 → Except String Proto.Action
  decodeLobbyMessage : List UInt8 → Option (Option Proto.LobbyMessage)

variable {F : Type} [External F]

namespace Config

def readMap (c : Config) : Option (Proto.Map F) := do
  let buf ← External.readFile F c.mapFile
  External.mapFromStr buf

/-- One planet of a map file, in a game of `numPlayers`. -/
def loadPlanet (numPlayers : Nat) (planet : Proto.Planet F) (num : Nat) :
    Except Panic (Planet F) := do
  let owner ← match planet.owner with
    | some num => do
      -- subtract one to convert from player num to player id
      let id ← checkedSub num 1
      -- ignore players that are not in the game
      pure (if id < numPlayers then some id else none)
    | none => pure none
  let fleets : List Fleet :=
    if planet.shipCount > 0 then [{ owner, shipCount := planet.shipCount }] else []
  pure { id := num, name := planet.name, x := planet.x, y := planet.y, fleets }

def loadMap (c : Config) (numPlayers : Nat) : Except Panic (List (Planet F)) := do
  let map ← expect "[PLANET_WARS] reading map failed" c.readMap
  map.planets.zipIdx.mapM fun (planet, num) => loadPlanet numPlayers planet num

def createGame (c : Config) (numPlayers : Nat) : Except Panic (PlanetWars F) := do
  let players := (List.range numPlayers).map fun id => { id, alive := true }
  let planets ← c.loadMap numPlayers
  pure
    { players
      planets
      expeditions := []
      expeditionNum := 0
      turnNum := 0
      maxTurns := c.maxTurns }

end Config
end Mozaic.Rules
