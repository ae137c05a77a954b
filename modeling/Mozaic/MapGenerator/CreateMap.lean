import Mozaic.Rust.Random
import Mozaic.Rust.Casts

/-! The map generator. -/
namespace Mozaic.MapGenerator
open Rust

/-- Nothing is counted here that could overflow. -/
abbrev Panic := Rust.Panic Empty

structure Bound (T : Type) where
  min : T
  max : T
deriving DecidableEq, Repr

namespace Bound

def rand {T : Type} [LT T] [DecidableLT T] (b : Bound T) (drawn : T) : Except Panic T :=
  genRange b.min b.max drawn

def sample {T : Type} [LT T] [DecidableLT T] (b : Bound T) (amount : Nat) (drawn : Nat → T) :
    Except Panic (List T) :=
  (List.range amount).mapM fun i => b.rand (drawn i)

def range (b : Bound Int) : List Int :=
  (List.range (b.max - b.min).toNat).map fun i : Nat => b.min + i

end Bound

structure Config where
  planetAmount : Bound Nat
  playerAmount : Bound Nat
  horizontalBound : Bound Int
  verticalBound : Bound Int
  startShips : Bound Nat

namespace Config

def new : Config where
  planetAmount := ⟨4, 10 + 1⟩
  playerAmount := ⟨2, 2 + 1⟩
  horizontalBound := ⟨-50, 50 + 1⟩
  verticalBound := ⟨-20, 20 + 1⟩
  startShips := ⟨1, 15 + 1⟩

/-- The grid points. -/
def euclidSpace (c : Config) : List (Int × Int) := c.horizontalBound.range ×ˢ c.verticalBound.range

end Config

/-- A planet. Its coordinates are numbers of type `f32`. -/
structure Planet where
  x : Int
  y : Int
  owner : Option String
  shipCount : Nat
  name : String
deriving DecidableEq, Repr

structure Map where
  players : List String
  planets : List Planet
deriving DecidableEq, Repr

/-- What the random number generator draws for one map, in this order. -/
structure Draws where
  numPlayers : Nat
  numPlanets : Nat
  planetLocs : List (Int × Int)
  shipCounts : Nat → Nat
  playerLocs : List Nat

def playerName (i : Nat) : String := s!"Player_{i}"

def planetName (i : Nat) : String := s!"Planet_{i}"

/-- `planet_owners`, where `player_locs` are the planets that were drawn for the players. -/
def planetOwners (numPlanets : Nat) (playerLocs : List Nat) : Except Panic (List (Option String)) :=
  playerLocs.zipIdx.foldlM
    (fun owners (player, i) => modifyAt owners i fun _ => .ok (some (playerName player)))
    (List.replicate numPlanets none)

def createMap (config : Config) (draws : Draws) : Except Panic Map := do
  let numPlayers ← config.playerAmount.rand draws.numPlayers
  let numPlanets ← config.planetAmount.rand draws.numPlanets
  -- a sample of `num_planets` points of the grid
  let planetLocs := draws.planetLocs
  let shipCounts ← config.startShips.sample numPlanets draws.shipCounts
  -- a sample of `num_players` numbers below `num_planets`
  let playerLocs := draws.playerLocs
  let playerNames := (List.range numPlayers).map fun i => playerName (i + 1)
  let planetOwners ← planetOwners planetLocs.length playerLocs
  let planetNames := (List.range numPlanets).map planetName
  let planetTuples := planetLocs.zip (shipCounts.zip (planetOwners.zip planetNames))
  pure
    { players := playerNames
      planets := planetTuples.map fun ((x, y), shipCount, owner, name) =>
        { x := asF32 x, y := asF32 y, owner, shipCount, name } }

/-- What can be drawn. -/
structure Draws.Possible (d : Draws) (config : Config) : Prop where
  numPlayers : InRange config.playerAmount.min config.playerAmount.max d.numPlayers
  numPlanets : InRange config.planetAmount.min config.planetAmount.max d.numPlanets
  planetLocs : IsSample config.euclidSpace d.numPlanets d.planetLocs
  shipCounts : ∀ i, InRange config.startShips.min config.startShips.max (d.shipCounts i)
  playerLocs : IsSample (List.range d.numPlanets) d.numPlayers d.playerLocs

end Mozaic.MapGenerator
