import Mozaic.Protocol
import Mozaic.Rust.HashMap

/-! The desktop client's side of a match: what a local bot's client writes to the log,
and how the log is put together again for the viewer. -/
namespace Mozaic.Desktop
open Rust

variable {F : Type}

/-! ## Log entries -/

inductive LogRecord (F : Type) where
  | step (turnNumber : Nat) (state : Proto.State F)
  | command (content : String)
  | playerAction (action : Proto.PlayerAction)
deriving DecidableEq

inductive LogEntry (F : Type) where
  | gameState (state : Proto.State F)
  | playerEntry (player : Nat) (record : LogRecord F)
deriving DecidableEq

def LogRecord.state? : LogRecord F → Option (Proto.State F)
  | .step _ state => some state
  | _ => none

def LogEntry.state? : LogEntry F → Option (Proto.State F)
  | .gameState state => some state
  | _ => none

/-- The record of an entry that is about this player. -/
def LogEntry.recordOf? (player : Nat) : LogEntry F → Option (LogRecord F)
  | .gameState _ => none
  | .playerEntry player' record => if player' = player then some record else none

/-! ## The client of a local bot -/

/-- The client of a bot: `handlers` bot responses are waited for. -/
structure Client (F : Type) where
  turnNum : Nat
  handlers : Nat
  log : List (LogRecord F)

/-- What a client hears: messages of the server, and lines its bot writes. -/
inductive Heard (F : Type) where
  | message (msg : Proto.ServerMessage F)
  | line (response : String)

def Heard.message? : Heard F → Option (Proto.ServerMessage F)
  | .message msg => some msg
  | .line _ => none

namespace Client

def new : Client F where
  turnNum := 0
  handlers := 0
  log := []

def logState (c : Client F) (state : Proto.State F) : Client F :=
  let turnNum := c.turnNum + 1
  { c with turnNum, log := c.log ++ [.step turnNum state] }

/-- The bot is sent the state, and its next line is the response. -/
def handleGameState (c : Client F) (state : Proto.State F) : Client F :=
  let c := c.logState state
  { c with handlers := c.handlers + 1 }

def handleFinalState (c : Client F) (state : Proto.State F) : Client F := c.logState state

def handlePlayerAction (c : Client F) (action : Proto.PlayerAction) : Client F :=
  { c with log := c.log ++ [.playerAction action] }

def handleGameMessage (c : Client F) : Proto.ServerMessage F → Client F
  | .gameState content => c.handleGameState content
  | .playerAction content => c.handlePlayerAction content
  | .finalState content => c.handleFinalState content

/-- A line nobody waits for is ignored. -/
def onLine (c : Client F) (response : String) : Client F :=
  match c.handlers with
  | 0 => c
  | handlers + 1 => { c with handlers, log := c.log ++ [.command response] }

def hear (c : Client F) : Heard F → Client F
  | .message msg => c.handleGameMessage msg
  | .line response => c.onLine response

/-- The log of a client that heard all this. -/
def run (heard : List (Heard F)) : Client F := heard.foldl hear new

end Client

/-! ## The match log -/

structure PlayerTurn (F : Type) where
  state : Proto.State F
  command : Option String
  action : Option Proto.PlayerAction

abbrev PlayerLog (F : Type) := List (PlayerTurn F)

/-- Assign to a field of the last turn; there is none in an empty log, which throws. -/
def setLast (turns : PlayerLog F) (f : PlayerTurn F → PlayerTurn F) : Option (PlayerLog F) := do
  let turn ← turns.getLast?
  pure (turns.dropLast ++ [f turn])

def PlayerLog.addRecord (turns : PlayerLog F) : LogRecord F → Option (PlayerLog F)
  | .step _ state => some (turns ++ [⟨state, none, none⟩])
  | .command content => setLast turns fun turn => { turn with command := some content }
  | .playerAction action => setLast turns fun turn => { turn with action := some action }

/-- A planet is kept under its name. -/
abbrev PlanetList (F : Type) := HashMap String (Proto.Planet F)

structure Expedition (F : Type) where
  id : Nat
  origin : Option (Proto.Planet F)
  destination : Option (Proto.Planet F)
  owner : Nat
  shipCount : Nat
  turnsRemaining : Nat

structure GameState (F : Type) where
  planets : PlanetList F
  expeditions : List (Expedition F)

/-- Assigning to this key of an object gives it a prototype, and no key. -/
def protoKey : String := "__proto__"

def GameState.fromJson (json : Proto.State F) : GameState F :=
  let planets : PlanetList F :=
    HashMap.collect ((json.planets.filter (·.name ≠ protoKey)).map fun p => (p.name, p))
  let prototype := (json.planets.filter (·.name = protoKey)).getLast?
  -- expeditions fly between planets of the state, so no other property is read
  let planet (name : String) := if name = protoKey then prototype else planets.lookup name
  { planets
    expeditions := json.expeditions.map fun e =>
      { id := e.id
        origin := planet e.origin
        destination := planet e.destination
        owner := e.owner
        shipCount := e.shipCount
        turnsRemaining := e.turnsRemaining } }

/-- A number in a condition: zero counts as none. -/
def truthy (n : Option Nat) : Option Nat := n.filter (· ≠ 0)

/-- The owners of the planets that have one, planet by planet. -/
def GameState.owners (ord : IterOrder String) (s : GameState F) : List Nat :=
  (s.planets.entriesIn ord).filterMap fun e => truthy e.2.owner

def GameState.livingPlayers (ord : IterOrder String) (s : GameState F) : Finset Nat :=
  (s.owners ord).toFinset ∪ (s.expeditions.map (·.owner)).toFinset

structure MatchLog (F : Type) where
  playerLogs : HashMap Nat (PlayerLog F)
  gameStates : List (GameState F)

namespace MatchLog

def empty : MatchLog F := ⟨∅, []⟩

def getPlayerLog (log : MatchLog F) (playerNum : Nat) : PlayerLog F :=
  (log.playerLogs.lookup playerNum).getD []

/-- `HostedMatchLog.addEntry`. -/
def addEntry (log : MatchLog F) : LogEntry F → Option (MatchLog F)
  | .gameState state => some { log with gameStates := log.gameStates ++ [.fromJson state] }
  | .playerEntry player record => do
    let turns ← (log.getPlayerLog player).addRecord record
    pure { log with playerLogs := log.playerLogs.insert player turns }

/-- `parseLog` of a hosted match. -/
def parseLog (entries : List (LogEntry F)) : Option (MatchLog F) := entries.foldlM addEntry empty

/-- There are none to ask for in a log without states, which throws. -/
def getPlayers (ord : IterOrder String) (setOrder : IterOrder Nat) (log : MatchLog F) :
    Option (List Nat) :=
  log.gameStates.head?.map fun state => setOrder.order (state.livingPlayers ord)

def getWinners (ord : IterOrder String) (log : MatchLog F) : Option (Finset Nat) :=
  log.gameStates.getLast?.map (·.livingPlayers ord)

/-- The turns of all players, one map for every game state. -/
def makePlayerLogs (log : MatchLog F) : List (Nat → Option (PlayerTurn F)) :=
  log.gameStates.mapIdx fun idx _ player => (log.playerLogs.lookup player).bind (·[idx]?)

end MatchLog

/-- The score of a player is `none` once it is not a number any more. -/
abbrev Scores := HashMap Nat (Option Nat)

/-- `scores[player] += 1`: what is not there yet is not a number. -/
def Scores.increment (scores : Scores) (player : Nat) : Scores :=
  scores.insert player ((scores.lookup player).join.map (· + 1))

def calcScores (ord : IterOrder String) (setOrder : IterOrder Nat) (log : MatchLog F) :
    Option Scores := do
  let players ← log.getPlayers ord setOrder
  -- initialize scores
  let scores : Scores := HashMap.collect (players.map fun playerNum => (playerNum, some 0))
  pure (log.gameStates.foldl (fun scores state => (state.owners ord).foldl Scores.increment scores)
    scores)

/-! ## What a log contains -/

theorem states_setLast {turns turns' : PlayerLog F} {f : PlayerTurn F → PlayerTurn F}
    (hf : ∀ turn, (f turn).state = turn.state) (h : setLast turns f = some turns') :
    turns'.map (·.state) = turns.map (·.state) := by
  simp only [setLast, Option.bind_eq_bind, Option.bind_eq_some_iff, Option.pure_def,
    Option.some.injEq] at h
  obtain ⟨turn, hturn, rfl⟩ := h
  obtain ⟨before, rfl⟩ := List.getLast?_eq_some_iff.mp hturn
  simp [hf]

theorem states_addRecord {turns turns' : PlayerLog F} {record : LogRecord F}
    (h : PlayerLog.addRecord turns record = some turns') :
    turns'.map (·.state) = turns.map (·.state) ++ record.state?.toList := by
  cases record with
  | step turnNumber state =>
    obtain rfl := Option.some.inj h
    simp [LogRecord.state?]
  | command content =>
    simpa [LogRecord.state?] using
      states_setLast (f := fun turn => { turn with command := some content }) (fun _ => rfl) h
  | playerAction action =>
    simpa [LogRecord.state?] using
      states_setLast (f := fun turn => { turn with action := some action }) (fun _ => rfl) h

/-- Only a log without turns can refuse a record. -/
theorem exists_addRecord {turns : PlayerLog F} {record : LogRecord F}
    (h : turns ≠ [] ∨ record.state?.isSome) : ∃ turns', PlayerLog.addRecord turns record = some turns' := by
  cases record with
  | step => exact ⟨_, rfl⟩
  | command | playerAction =>
    have hne : turns ≠ [] := h.resolve_right (by simp [LogRecord.state?])
    simp [PlayerLog.addRecord, setLast, List.getLast?_eq_some_getLast hne]

/-- What `addRecord` makes of the records of a player. -/
def PlayerLog.ofRecords (records : List (LogRecord F)) : Option (PlayerLog F) :=
  records.foldlM addRecord []

theorem PlayerLog.ofRecords_append (records records' : List (LogRecord F)) :
    ofRecords (records ++ records') =
      ofRecords records >>= fun turns => records'.foldlM addRecord turns := by
  rw [ofRecords, List.foldlM_append]
  rfl

/-- The states in a log of the match. -/
def statesOf (entries : List (LogEntry F)) : List (Proto.State F) :=
  entries.filterMap LogEntry.state?

/-- The records in it about one player. -/
def recordsOf (player : Nat) (entries : List (LogEntry F)) : List (LogRecord F) :=
  entries.filterMap (LogEntry.recordOf? player)

theorem recordsOf_concat (player : Nat) (entries : List (LogEntry F)) (entry : LogEntry F) :
    recordsOf player (entries ++ [entry]) =
      recordsOf player entries ++ (entry.recordOf? player).toList := by
  rw [recordsOf, List.filterMap_append]
  cases hrecord : entry.recordOf? player <;> simp [recordsOf, hrecord]

theorem statesOf_concat (entries : List (LogEntry F)) (entry : LogEntry F) :
    statesOf (entries ++ [entry]) = statesOf entries ++ entry.state?.toList := by
  rw [statesOf, List.filterMap_append]
  cases hstate : entry.state? <;> simp [statesOf, hstate]

theorem MatchLog.parseLog_concat (entries : List (LogEntry F)) (entry : LogEntry F) :
    parseLog (entries ++ [entry]) = (parseLog entries).bind (addEntry · entry) := by
  simp [parseLog, List.foldlM_append]

/-- A player's log is made of the records about this player. -/
theorem getPlayerLog_of_parseLog {entries : List (LogEntry F)} {log : MatchLog F}
    (h : MatchLog.parseLog entries = some log) (player : Nat) :
    PlayerLog.ofRecords (recordsOf player entries) = some (log.getPlayerLog player) := by
  induction entries using List.reverseRecOn generalizing log with
  | nil =>
    obtain rfl := Option.some.inj h
    rfl
  | append_singleton entries entry ih =>
    rw [MatchLog.parseLog_concat, Option.bind_eq_some_iff] at h
    obtain ⟨before, hbefore, hentry⟩ := h
    have hturns := ih hbefore
    rw [recordsOf_concat, PlayerLog.ofRecords_append, hturns]
    cases entry with
    | gameState state =>
      obtain rfl := Option.some.inj hentry
      rfl
    | playerEntry player' record =>
      simp only [MatchLog.addEntry, Option.bind_eq_bind, Option.bind_eq_some_iff, Option.pure_def,
        Option.some.injEq] at hentry
      obtain ⟨turns, hadded, rfl⟩ := hentry
      by_cases hplayer : player' = player
      · subst hplayer
        have hlog : MatchLog.getPlayerLog
            { before with playerLogs := before.playerLogs.insert player' turns } player' = turns := by
          simp [MatchLog.getPlayerLog]
        rw [hlog]
        simp [LogEntry.recordOf?, hadded]
      · simp [LogEntry.recordOf?, hplayer, MatchLog.getPlayerLog, Ne.symm hplayer]

/-- The first record is a step. -/
def Opened (records : List (LogRecord F)) : Prop :=
  ∀ record ∈ records.head?, record.state?.isSome

theorem Opened.mono {records records' : List (LogRecord F)} (h : Opened records')
    (hp : records <+: records') : Opened records := by
  obtain ⟨rest, rfl⟩ := hp
  intro record hr
  apply h
  rw [List.head?_append, Option.mem_def.mp hr]
  rfl

/-- A record can be added to the turns of the records before it, if the first one is a step. -/
theorem ready_of_opened {records : List (LogRecord F)} {record : LogRecord F} {turns : PlayerLog F}
    (h : Opened (records ++ [record]))
    (hturns : turns.map (·.state) = records.filterMap LogRecord.state?) :
    turns ≠ [] ∨ record.state?.isSome := by
  cases records with
  | nil => exact .inr (h record rfl)
  | cons first rest =>
    apply Or.inl
    rintro rfl
    obtain ⟨state, hstate⟩ := Option.isSome_iff_exists.mp (h first rfl)
    rw [List.filterMap_cons_some hstate] at hturns
    cases hturns

/-- What a log file is parsed to, if every player's records begin with a step. -/
theorem exists_parseLog {entries : List (LogEntry F)}
    (h : ∀ player, Opened (recordsOf player entries)) :
    ∃ log, MatchLog.parseLog entries = some log ∧
      log.gameStates = (statesOf entries).map GameState.fromJson ∧
      ∀ player, (log.getPlayerLog player).map (·.state) =
        (recordsOf player entries).filterMap LogRecord.state? := by
  induction entries using List.reverseRecOn with
  | nil => exact ⟨.empty, rfl, rfl, fun _ => rfl⟩
  | append_singleton entries entry ih =>
    have hpre (player : Nat) : recordsOf player entries <+: recordsOf player (entries ++ [entry]) := by
      rw [recordsOf_concat]
      exact List.prefix_append _ _
    obtain ⟨log, hlog, hstates, hplayers⟩ := ih fun player => (h player).mono (hpre player)
    rw [MatchLog.parseLog_concat, hlog, Option.bind_some, statesOf_concat]
    simp only [recordsOf_concat]
    cases entry with
    | gameState state =>
      have hother (player : Nat) : (LogEntry.gameState state).recordOf? player = none := rfl
      refine ⟨_, rfl, by simp [hstates, LogEntry.state?], fun player => ?_⟩
      rw [hother, Option.toList_none, List.append_nil]
      exact hplayers player
    | playerEntry player record =>
      have hown : (LogEntry.playerEntry player record).recordOf? player = some record := if_pos rfl
      have hready : log.getPlayerLog player ≠ [] ∨ record.state?.isSome := by
        have hopened := h player
        rw [recordsOf_concat, hown] at hopened
        exact ready_of_opened hopened (hplayers player)
      obtain ⟨turns, hturns⟩ := exists_addRecord hready
      refine ⟨{ log with playerLogs := log.playerLogs.insert player turns }, ?_, ?_, fun player' => ?_⟩
      · simp [MatchLog.addEntry, hturns]
      · simp [hstates, LogEntry.state?]
      · simp only [MatchLog.getPlayerLog, HashMap.lookup_insert_eq]
        split
        · rename_i heq
          rw [heq, hown, List.filterMap_append, ← hplayers player, Option.getD_some,
            states_addRecord hturns]
          cases hrec : record.state? <;> simp [hrec]
        · rename_i hne
          have hother : (LogEntry.playerEntry player record).recordOf? player' = none :=
            if_neg (Ne.symm hne)
          rw [hother, Option.toList_none, List.append_nil]
          exact hplayers player'

/-! ## What a client writes -/

def serverState? : Proto.ServerMessage F → Option (Proto.State F)
  | .gameState state => some state
  | .playerAction _ => none
  | .finalState state => some state

theorem Opened.append {records : List (LogRecord F)} (h : Opened records) {record : LogRecord F}
    (hr : records = [] → record.state?.isSome) : Opened (records ++ [record]) := by
  cases records with
  | nil =>
    intro _ h
    cases h
    exact hr rfl
  | cons first rest => exact h

/-- What a client has written when it heard all this. -/
private structure Written (heard : List (Heard F)) (c : Client F) : Prop where
  opened : Opened c.log
  states : c.log.filterMap LogRecord.state? =
    (heard.filterMap Heard.message?).filterMap serverState?
  silent : c.log = [] → heard.filterMap Heard.message? = []
  handlers : c.log = [] → c.handlers = 0

private theorem Written.write {heard : List (Heard F)} {c c' : Client F} (h : Written heard c)
    {last : Heard F} {record : LogRecord F} (hlog : c'.log = c.log ++ [record])
    (hstate : record.state? = last.message?.bind serverState?)
    (hopen : c.log = [] → record.state?.isSome) : Written (heard ++ [last]) c' where
  opened := hlog ▸ h.opened.append hopen
  states := by
    have hlast : (([last].filterMap Heard.message?).filterMap serverState?) =
        [record].filterMap LogRecord.state? := by
      cases hm : last.message? <;> simp [List.filterMap_cons, hm, hstate]
    rw [hlog, List.filterMap_append, List.filterMap_append, List.filterMap_append, h.states, hlast]
  silent := by simp [hlog]
  handlers := by simp [hlog]

private theorem Written.hear {heard : List (Heard F)} {c : Client F} (h : Written heard c)
    {last : Heard F} (hlast : heard.filterMap Heard.message? = [] →
      ∀ msg ∈ last.message?, (serverState? msg).isSome) :
    Written (heard ++ [last]) (c.hear last) := by
  cases last with
  | line response =>
    have hquiet : (heard ++ [Heard.line response]).filterMap Heard.message? =
        heard.filterMap Heard.message? := by
      simp [Heard.message?]
    cases hh : c.handlers with
    | zero =>
      have hsame : c.hear (.line response) = c := by simp [Client.hear, Client.onLine, hh]
      rw [hsame]
      exact ⟨h.opened, by rw [hquiet, h.states], by rw [hquiet]; exact h.silent, h.handlers⟩
    | succ handlers =>
      have hlog : (c.hear (.line response)).log = c.log ++ [.command response] := by
        simp [Client.hear, Client.onLine, hh]
      apply h.write hlog rfl
      intro hnil
      simp [h.handlers hnil] at hh
  | message msg =>
    cases msg with
    | gameState state | finalState state => exact h.write rfl rfl fun _ => rfl
    | playerAction action =>
      apply h.write rfl rfl
      intro hnil
      simpa [Heard.message?, serverState?] using hlast (h.silent hnil)

/-- A client logs a step for every state it is sent, and its first record is one if its
first message is. -/
theorem run_log {heard : List (Heard F)}
    (h : ∀ msg ∈ (heard.filterMap Heard.message?).head?, (serverState? msg).isSome) :
    Opened (Client.run heard).log ∧ (Client.run heard).log.filterMap LogRecord.state? =
      (heard.filterMap Heard.message?).filterMap serverState? := by
  suffices hrun : Written heard (Client.run heard) from ⟨hrun.opened, hrun.states⟩
  induction heard using List.reverseRecOn with
  | nil => exact ⟨by simp [Opened, Client.run, Client.new], rfl, fun _ => rfl, fun _ => rfl⟩
  | append_singleton heard last ih =>
    rw [List.filterMap_append] at h
    have hrun : Client.run (heard ++ [last]) = (Client.run heard).hear last := by
      simp [Client.run]
    rw [hrun]
    apply Written.hear
    · apply ih
      intro msg hmsg
      apply h
      rw [List.head?_append, Option.mem_def.mp hmsg]
      rfl
    · intro hnil msg hmsg
      apply h
      simp [hnil, Option.mem_def.mp hmsg]

end Mozaic.Desktop
