import Mozaic.Rust.SwapRemove

/-! The planet wars game rules. Vectors are lists, machine integers are natural
numbers with checked arithmetic, and a `while` loop is a recursion whose fuel is
the number of rounds it takes. -/
namespace Mozaic.Rules
open Rust

/-- The `+=` targets of the server, for the overflow panics. -/
inductive Counter where
  | shipCount | expeditionNum | turnNum | requestCounter | clientCounter | messageCounter
deriving DecidableEq, Repr

abbrev Panic := Rust.Panic Counter

/-- The floating point operations the rules use; coordinates are values of `F`. -/
class F64 (F : Type) where
  sub : F → F → F
  add : F → F → F
  powi : F → Nat → F
  sqrt : F → F
  ceil : F → F
  asU64 : F → Nat

/-- Player ids index `players`. -/
abbrev PlayerId := Nat

structure Player where
  id : PlayerId
  alive : Bool
deriving DecidableEq, Repr

@[ext]
structure Fleet where
  owner : Option PlayerId
  shipCount : Nat
deriving DecidableEq, Repr

structure Planet (F : Type) where
  id : Nat
  name : String
  fleets : List Fleet
  x : F
  y : F
deriving DecidableEq, Repr

structure Expedition where
  id : Nat
  origin : Nat
  target : Nat
  fleet : Fleet
  turnsRemaining : Nat
deriving DecidableEq, Repr

structure Dispatch where
  origin : Nat
  target : Nat
  shipCount : Nat
deriving DecidableEq, Repr

structure PlanetWars (F : Type) where
  players : List Player
  planets : List (Planet F)
  expeditions : List Expedition
  expeditionNum : Nat
  turnNum : Nat
  maxTurns : Nat
deriving DecidableEq, Repr

variable {F : Type}

namespace Planet

def owner (p : Planet F) : Option PlayerId := p.fleets.head?.bind (·.owner)

def shipCount (p : Planet F) : Nat := (p.fleets.head?.map (·.shipCount)).getD 0

/-- Merge a fleet into the one of its owner, or add it at the end. -/
def mergeFleet (fleet : Fleet) : List Fleet → Except Panic (List Fleet)
  | [] => .ok [fleet]
  | other :: rest =>
    if other.owner = fleet.owner then do
      let shipCount ← checkedAdd .shipCount other.shipCount fleet.shipCount
      pure ({ other with shipCount } :: rest)
    else do
      let rest ← mergeFleet fleet rest
      pure (other :: rest)

/-- Make a fleet orbit this planet. -/
def orbit (p : Planet F) (fleet : Fleet) : Except Panic (Planet F) := do
  let fleets ← mergeFleet fleet p.fleets
  pure { p with fleets }

/-- The rounds of a combat between sorted fleets: the smallest fleet goes down and
takes as many ships of every other fleet with it. -/
def combatRounds : Nat → List Fleet → Except Panic (List Fleet)
  | 0, fleets => .ok fleets
  | fuel + 1, fleets =>
    if fleets.length > 1 then do
      let fleet ← unwrap fleets.getLast?
      let others ← fleets.dropLast.mapM fun other => do
        let shipCount ← checkedSub other.shipCount fleet.shipCount
        pure { other with shipCount }
      combatRounds fuel (others.rdropWhile fun f => f.shipCount = 0)
    else .ok fleets

def resolveCombat (p : Planet F) : Except Panic (Planet F) := do
  let fleets := p.fleets.insertionSort fun a b => b.shipCount ≤ a.shipCount
  let fleets ← combatRounds fleets.length fleets
  pure { p with fleets }

/-- One round of `repopulate`: an occupied planet builds a ship. -/
def repopulate (p : Planet F) : Except Panic (Planet F) :=
  if p.owner.isSome then do
    let fleet ← index p.fleets 0
    let shipCount ← checkedAdd .shipCount fleet.shipCount 1
    pure { p with fleets := p.fleets.set 0 { fleet with shipCount } }
  else .ok p

def distance [F64 F] (p other : Planet F) : Nat :=
  let dx := F64.sub p.x other.x
  let dy := F64.sub p.y other.y
  F64.asU64 (F64.ceil (F64.sqrt (F64.add (F64.powi dx 2) (F64.powi dy 2))))

end Planet

/-- A sign of life of `owner`, if there is one. -/
def markAlive (players : List Player) : Option PlayerId → Except Panic (List Player)
  | some ownerId => do
    let player ← index players ownerId
    pure (players.set ownerId { player with alive := true })
  | none => .ok players

namespace PlanetWars

def dispatch [F64 F] (s : PlanetWars F) (d : Dispatch) : Except Panic (PlanetWars F) := do
  let origin ← index s.planets d.origin
  let target ← index s.planets d.target
  let distance := origin.distance target
  let fleet ← index origin.fleets 0
  let shipCount ← checkedSub fleet.shipCount d.shipCount
  let origin := { origin with fleets := origin.fleets.set 0 { fleet with shipCount } }
  let expedition : Expedition :=
    { id := s.expeditionNum
      origin := d.origin
      target := d.target
      turnsRemaining := distance
      fleet := { owner := origin.owner, shipCount := d.shipCount } }
  let expeditionNum ← checkedAdd .expeditionNum s.expeditionNum 1
  pure { s with
    planets := s.planets.set d.origin origin
    expeditionNum
    expeditions := s.expeditions ++ [expedition] }

def repopulate (s : PlanetWars F) : Except Panic (PlanetWars F) := do
  let planets ← s.planets.mapM Planet.repopulate
  pure { s with planets }

/-- The loop of `stepExpeditions` from index `i` on. A landed expedition is
swap-removed, so the one now at `i` is looked at next. -/
def stepExpeditionsFrom : Nat → Nat → PlanetWars F → Except Panic (PlanetWars F)
  | 0, _, s => .ok s
  | fuel + 1, i, s =>
    match s.expeditions[i]? with
    | none => .ok s
    | some exp =>
      -- compare with 1 to avoid issues with planet distance 0
      if exp.turnsRemaining ≤ 1 then do
        let (exp, expeditions) ← swapRemove s.expeditions i
        let planet ← index s.planets exp.target
        let planet ← planet.orbit exp.fleet
        stepExpeditionsFrom fuel i
          { s with expeditions, planets := s.planets.set exp.target planet }
      else do
        let turnsRemaining ← checkedSub exp.turnsRemaining 1
        let players ← markAlive s.players exp.fleet.owner
        stepExpeditionsFrom fuel (i + 1)
          { s with expeditions := s.expeditions.set i { exp with turnsRemaining }, players }

def stepExpeditions (s : PlanetWars F) : Except Panic (PlanetWars F) :=
  stepExpeditionsFrom s.expeditions.length 0 s

def resolveCombat (s : PlanetWars F) : Except Panic (PlanetWars F) := do
  let (planets, players) ← s.planets.foldlM (fun (planets, players) planet => do
      let planet ← planet.resolveCombat
      let players ← markAlive players planet.owner
      pure (planets ++ [planet], players)) ([], s.players)
  pure { s with planets, players }

/-- Play one step of the game. -/
def step (s : PlanetWars F) : Except Panic (PlanetWars F) := do
  let turnNum ← checkedAdd .turnNum s.turnNum 1
  -- everyone is dead until a sign of life is found
  let players := s.players.map fun player => { player with alive := false }
  let s ← stepExpeditions { s with turnNum, players }
  s.resolveCombat

def isFinished (s : PlanetWars F) : Bool :=
  (s.players.filter (·.alive)).length < 2 || s.turnNum ≥ s.maxTurns

def livingPlayers (s : PlanetWars F) : List PlayerId :=
  s.players.filterMap fun p => if p.alive then some p.id else none

end PlanetWars
end Mozaic.Rules
