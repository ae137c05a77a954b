import Mozaic.Desktop.LogFile

/-! The view of a match. The entries of its log are in the store while it is played, and in a
file afterwards; the view adds the new ones to the log it has. -/
namespace Mozaic.Desktop.Matches
open Rust

variable {F : Type}

structure Match where
  uuid : String
  type : MatchType
  logPath : String
deriving DecidableEq, Repr

/-! ## The store -/

abbrev LogsState (F : Type) := HashMap String (List (LogEntry F))

inductive LogAction (F : Type) where
  | createLog (matchId : String)
  | addLogEntry (matchId : String) (entry : LogEntry F)

def logsReducer (state : LogsState F) : LogAction F → LogsState F
  | .createLog matchId => state.insert matchId []
  | .addLogEntry matchId entry =>
    let log := match state.lookup matchId with
      | some log => log ++ [entry]
      | none => [entry]
    state.insert matchId log

structure MatchViewProps (F : Type) where
  match? : Option Match
  log : Option (List (LogEntry F))

/-- The match and the log with an id, if an id is given. -/
def matchViewSelector (matchList : HashMap String Match) (logs : LogsState F)
    (matchId : Option String) : MatchViewProps F where
  match? := matchId.bind matchList.lookup
  log := matchId.bind logs.lookup

/-! ## Logs with a history -/

/-- Where an entry was read: a position in the log of a match in the store, or in a file. -/
inductive Origin where
  | store (matchId : String) (position : Nat)
  | file (path : String) (position : Nat)
deriving DecidableEq, Repr

/-- The origins before this one. -/
def Origin.preceding : Origin → List Origin
  | .store matchId position => (List.range position).map (.store matchId)
  | .file path position => (List.range position).map (.file path)

/-- Entries that were read at these positions, the first of them at position `k`. -/
def numbered (origin : Nat → Origin) (k : Nat) (entries : List (LogEntry F)) :
    List (Origin × LogEntry F) := (entries.zipIdx k).map fun (entry, i) => (origin i, entry)

def fromStore (matchId : String) (log : List (LogEntry F)) : List (Origin × LogEntry F) :=
  numbered (.store matchId) 0 log

def fromFile (path : String) (entries : List (LogEntry F)) : List (Origin × LogEntry F) :=
  numbered (.file path) 0 entries

/-- A match log, and which entries were added to it. -/
structure ViewedLog (F : Type) where
  type : MatchType
  log : MatchLog F
  history : List (Origin × LogEntry F)

def emptyLog (type : MatchType) : ViewedLog F := ⟨type, .empty, []⟩

def ViewedLog.addEntry (l : ViewedLog F) (e : Origin × LogEntry F) : Option (ViewedLog F) := do
  let log ← MatchLog.addEntryOf l.type l.log e.2
  pure { l with log, history := l.history ++ [e] }

/-! ## The component -/

structure MatchView (F : Type) where
  matchLog : Option (ViewedLog F)
  logPos : Nat

/-- `this.matchLog!.addEntry(entry)`: without a log it throws. -/
def addToLog (matchLog : Option (ViewedLog F)) (e : Origin × LogEntry F) :
    Option (Option (ViewedLog F)) := do
  let l ← matchLog
  let l ← l.addEntry e
  pure (some l)

namespace MatchView

def new : MatchView F := ⟨none, 0⟩

/-- If the match changed, a new log is initialized. -/
def resetFor (view : MatchView F) (currentMatch : Option Match) (nextMatch : Match) :
    MatchView F :=
  if currentMatch.all (·.uuid ≠ nextMatch.uuid) then
    { matchLog := some (emptyLog nextMatch.type), logPos := 0 }
  else view

/-- The entries that were not added yet. -/
def newEntries (view : MatchView F) (nextMatch : Match) (log : List (LogEntry F)) :
    List (Origin × LogEntry F) := (fromStore nextMatch.uuid log).drop view.logPos

variable [EntryJson F]

def readFromDisk (readFile : String → Option String) (nextMatch : Match) :
    Option (List (Origin × LogEntry F)) := do
  let content ← readFile nextMatch.logPath
  let entries ← logFileEntries content
  pure (fromFile nextMatch.logPath entries)

def componentWillReceiveProps (readFile : String → Option String) (view : MatchView F)
    (currentMatch : Option Match) (nextProps : MatchViewProps F) : Option (MatchView F) :=
  match nextProps.match? with
  | none => some { view with matchLog := none }
  | some nextMatch =>
    match nextProps.log with
    | some log => do
      -- a log is present in the redux store; use it
      let view := view.resetFor currentMatch nextMatch
      let matchLog ← (view.newEntries nextMatch log).foldlM addToLog view.matchLog
      pure { matchLog, logPos := log.length }
    | none => do
      -- no log is present in redux store; read from disk
      let entries ← readFromDisk readFile nextMatch
      let matchLog ← entries.foldlM ViewedLog.addEntry (emptyLog nextMatch.type)
      pure { view with matchLog := some matchLog }

end MatchView

/-! ## Calls of `addEntry` -/

/-- A call of `addEntry`: the log it is called on, if there is one, and the entry. -/
structure AddEntryCall (F : Type) where
  matchLog : Option (ViewedLog F)
  entry : Origin × LogEntry F

/-- The calls that are made, up to the first one that throws. -/
def addEntryCalls (matchLog : Option (ViewedLog F)) :
    List (Origin × LogEntry F) → List (AddEntryCall F)
  | [] => []
  | e :: es => ⟨matchLog, e⟩ :: match addToLog matchLog e with
    | some matchLog => addEntryCalls matchLog es
    | none => []

/-- The calls that an update of the props makes. -/
def MatchView.calls [EntryJson F] (readFile : String → Option String) (view : MatchView F)
    (currentMatch : Option Match) (nextProps : MatchViewProps F) : List (AddEntryCall F) :=
  match nextProps.match? with
  | none => []
  | some nextMatch =>
    match nextProps.log with
    | some log =>
      let view := view.resetFor currentMatch nextMatch
      addEntryCalls view.matchLog (view.newEntries nextMatch log)
    | none =>
      match readFromDisk readFile nextMatch with
      | some entries => addEntryCalls (some (emptyLog nextMatch.type)) entries
      | none => []

/-! ## Lifetimes -/

/-- Props that a view receives, and what is on disk at that time. -/
structure Update (F : Type) where
  props : MatchViewProps F
  readFile : String → Option String

/-- A view, and the last update of its props. -/
structure Mounted (F : Type) where
  last : Update F
  view : MatchView F

variable [EntryJson F]

def Mounted.step (s : Mounted F) (u : Update F) : Option (Mounted F) :=
  (s.view.componentWillReceiveProps u.readFile s.last.props.match? u.props).map (⟨u, ·⟩)

/-- The view that was mounted with these props, after these updates. -/
def run (mount : Update F) (updates : List (Update F)) : Option (Mounted F) :=
  updates.foldlM Mounted.step ⟨mount, .new⟩

end Mozaic.Desktop.Matches
