import Mozaic.Desktop.LogFile
import Mozaic.JavaScript.Component

/-! The visualizer: it plays a match log, which may still grow while it is played. -/
namespace Mozaic.Visualizer
open Rust JavaScript Desktop

variable {F : Type}

/-! ## Logs and games -/

/-- A match log in memory. -/
structure LogObject (F : Type) where
  type : MatchType
  log : MatchLog F

/-- Where a log is: two logs with the same entries are different objects. -/
abbrev LogRef := Nat

abbrev Logs (F : Type) := LogRef → LogObject F

/-- `addEntry`. What throws leaves the game states as they are. -/
def LogObject.addEntry (o : LogObject F) (entry : LogEntry F) : LogObject F :=
  { o with log := (MatchLog.addEntryOf o.type o.log entry).getD o.log }

structure Game where
  matchLog : LogRef
deriving DecidableEq

/-- The players of the log get their colours; a log without states has none to ask for. -/
def Game.new (ord : IterOrder String) (setOrder : IterOrder Nat) (logs : Logs F)
    (matchLog : LogRef) : Option Game := do
  let _ ← (logs matchLog).log.getPlayers ord setOrder
  pure { matchLog }

/-- `gameStates[turnNum]`. -/
def gameState? (log : MatchLog F) (turnNum : Int) : Option (GameState F) :=
  if turnNum < 0 then none else log.gameStates[turnNum.toNat]?

/-! ## What is drawn -/

/-- `counts[player] += n`. -/
def addCount (counts : Scores) (player n : Nat) : Scores :=
  counts.insert player ((counts.lookup player).join.map (· + n))

def countPlanets (ord : IterOrder String) (players : List Nat) (state : GameState F) : Scores :=
  (state.owners ord).foldl (addCount · · 1) (HashMap.collect (players.map fun p => (p, some 0)))

def countShips (ord : IterOrder String) (players : List Nat) (state : GameState F) : Scores :=
  let counts := (state.planets.entriesIn ord).foldl
    (fun counts e => match truthy e.2.owner with
      | some owner => addCount counts owner e.2.shipCount
      | none => counts)
    (HashMap.collect (players.map fun p => (p, some 0)))
  state.expeditions.foldl (fun counts e => addCount counts e.owner e.shipCount) counts

/-- A row of the scoreboard. A count that is not a number is `none`. -/
structure Row where
  player : Nat
  planets : Option Nat
  ships : Option Nat
deriving DecidableEq, Repr

/-- The rows of the scoreboard. Without a game state there is nothing to count, which throws. -/
def scoreboard (ord : IterOrder String) (setOrder : IterOrder Nat) (log : MatchLog F)
    (turnNum : Int) : Option (List Row) := do
  let gameState ← gameState? log turnNum
  let players ← log.getPlayers ord setOrder
  let planetCounts := countPlanets ord players gameState
  let shipCounts := countShips ord players gameState
  pure <| players.map fun p => ⟨p, (planetCounts.lookup p).join, (shipCounts.lookup p).join⟩

/-- What the renderer draws: the planets and the expeditions of the game state. -/
def draw (ord : IterOrder String) (log : MatchLog F) (turnNum : Int) :
    Option (List (Proto.Planet F) × List (Expedition F)) := do
  let gameState ← gameState? log turnNum
  pure ((gameState.planets.entriesIn ord).map (·.2), gameState.expeditions)

/-! ## The component -/

structure VisualizerState where
  turnNum : Int
  speed : Float
  playing : Bool

/-- An interval, at whose end the next turn is shown. -/
structure Timer where
  delay : Float
  running : Bool

structure Fields where
  game : Game
  timer : Option Timer

abbrev Call := SetState VisualizerState Fields

def setTimer (s : VisualizerState) (f : Fields) : Fields :=
  -- stop old timer
  let f := { f with timer := f.timer.map fun timer => { timer with running := false } }
  if s.playing then { f with timer := some ⟨1000 / s.speed, true⟩ } else f

def setPlaying (value : Bool) : Call where
  update s := { s with playing := value }
  callback := setTimer

def setSpeed (speed : Float) : Call where
  update s := { s with speed }
  callback s f := if s.playing then setTimer s f else f

def setTurnNum (turnNum : Int) : Call where
  update s := { s with turnNum }
  callback _ f := f

/-- `setTurn` in a game whose last turn is given. -/
def setTurn (lastTurn num : Int) : List Call :=
  let turnNum := min num lastTurn
  (if turnNum = lastTurn then [setPlaying false] else []) ++ [setTurnNum turnNum]

/-- The page: the logs in memory, and a visualizer that was mounted. -/
structure Page (F : Type) where
  logs : Logs F
  matchLog : LogRef
  visualizer : Component VisualizerState Fields

namespace Page

def log (p : Page F) : MatchLog F := (p.logs p.matchLog).log

def turnNum (p : Page F) : Int := p.visualizer.state.turnNum

/-- The last turn of a log. -/
def lastTurnOf (logs : Logs F) (matchLog : LogRef) : Int :=
  ((logs matchLog).log.gameStates.length : Int) - 1

def lastTurn (p : Page F) : Int := lastTurnOf p.logs p.visualizer.fields.game.matchLog

def batch (p : Page F) (calls : List Call) : Page F :=
  { p with visualizer := p.visualizer.batch calls }

/-- `setGame`. It is called by the lifecycle, which collects its calls. -/
def setGame (ord : IterOrder String) (setOrder : IterOrder Nat) (p : Page F) (matchLog : LogRef) :
    Option (Page F) := do
  let game ← Game.new ord setOrder p.logs matchLog
  let visualizer := { p.visualizer with fields := { p.visualizer.fields with game } }
  let calls := setTurn (lastTurnOf p.logs matchLog) 0 ++ [setPlaying true]
  pure { p with visualizer := visualizer.batch calls }

end Page

/-! ## Controls -/

structure Controls where
  turnNum : Int
  numTurns : Int
  playing : Bool
  speed : Float

/-- What the user can do. The slider has no `min`, so it starts at 0. -/
inductive Click where
  | slider (value : Nat)
  | first
  | previous
  | playButton
  | next
  | last
  | decreaseSpeed
  | increaseSpeed
deriving DecidableEq

def Page.controls (p : Page F) : Controls where
  turnNum := p.turnNum
  numTurns := (p.log.gameStates.length : Int) - 1
  playing := p.visualizer.state.playing
  speed := p.visualizer.state.speed

/-- The handlers, in a game whose last turn is given. -/
def Controls.onClick (c : Controls) (lastTurn : Int) : Click → List Call
  | .slider value => setTurn lastTurn value
  | .first => setTurn lastTurn 0
  | .previous => setTurn lastTurn (c.turnNum - 1)
  | .playButton => if c.playing then [setPlaying false] else [setPlaying true]
  | .next => setTurn lastTurn (c.turnNum + 1)
  | .last => setTurn lastTurn c.numTurns
  | .decreaseSpeed => [setSpeed (c.speed / 2)]
  | .increaseSpeed => [setSpeed (c.speed * 2)]

/-! ## Runs -/

inductive Event (F : Type) where
  | click (click : Click)
  | tick
  | receiveProps (matchLog : LogRef)
  | addEntry (matchLog : LogRef) (entry : LogEntry F)

namespace Page
variable (ord : IterOrder String) (setOrder : IterOrder Nat)

/-- `componentWillReceiveProps`, and the props are the next ones. -/
def receiveProps (p : Page F) (matchLog : LogRef) : Option (Page F) := do
  let p ← if p.matchLog ≠ matchLog then p.setGame ord setOrder matchLog else some p
  pure { p with matchLog }

def nextTurn (p : Page F) : List Call := setTurn p.lastTurn (p.turnNum + 1)

/-- The interval is over, if it was not stopped. The turn is set outside of React. -/
def tick (p : Page F) : List (Page F) :=
  if p.visualizer.fields.timer.any (·.running) then
    (p.visualizer.changes p.nextTurn).map fun visualizer => { p with visualizer }
  else []

/-- The pages that an event leads to, one after the other. If a handler throws, the visualizer is
taken down. A page that cannot be drawn is a page all the same: whether there is one is the
question. -/
def pages (p : Page F) : Event F → Option (List (Page F))
  | .click click => some [p.batch (p.controls.onClick p.lastTurn click)]
  | .tick => some p.tick
  | .receiveProps matchLog => (p.receiveProps ord setOrder matchLog).map ([·])
  | .addEntry matchLog entry =>
    some [{ p with logs := Function.update p.logs matchLog ((p.logs matchLog).addEntry entry) }]

def step (p : Page F) (event : Event F) : Option (Page F) :=
  (p.pages ord setOrder event).map (·.getLastD p)

/-- A visualizer that was mounted with this log. -/
def mount (logs : Logs F) (matchLog : LogRef) : Option (Page F) :=
  setGame ord setOrder
    { logs
      matchLog
      visualizer :=
        { state := { turnNum := 0, speed := 1, playing := false }
          fields := { game := { matchLog }, timer := none } } }
    matchLog

/-- The page after these events. -/
def run (logs : Logs F) (matchLog : LogRef) (events : List (Event F)) : Option (Page F) := do
  let p ← mount ord setOrder logs matchLog
  events.foldlM (step ord setOrder) p

end Page
end Mozaic.Visualizer
