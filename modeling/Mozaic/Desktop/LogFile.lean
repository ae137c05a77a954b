import Mozaic.Desktop.MatchLog
import Mozaic.Text.Lines

/-! Log files: what a logger writes during a match, and how the file is read again. -/
namespace Mozaic.Desktop
open Rust

variable {F : Type}

/-! ## Logging -/

/-- The text of a log entry. A text that is no JSON has nothing to parse. -/
class EntryJson (F : Type) where
  stringify : LogEntry F → String
  parse : String → Option (LogEntry F)

/-- A logger: what is in its file, and what the subscribers of `onEntry` received. -/
structure Logger (F : Type) where
  sink : String
  received : List (LogEntry F)

namespace Logger
variable [EntryJson F]

def new : Logger F := ⟨"", []⟩

def log (l : Logger F) (entry : LogEntry F) : Logger F where
  sink := l.sink ++ (EntryJson.stringify entry ++ "\n")
  received := l.received ++ [entry]

/-- `ClientLogger.log` of the client of a player. -/
def clientLog (player : Nat) (l : Logger F) (record : LogRecord F) : Logger F :=
  l.log (.playerEntry player record)

/-- Game states are logged by the match runner, and the records of a player by its client. -/
def write (l : Logger F) : LogEntry F → Logger F
  | .gameState state => l.log (.gameState state)
  | .playerEntry player record => l.clientLog player record

def logAll (entries : List (LogEntry F)) : Logger F := entries.foldl write new

theorem write_eq (l : Logger F) (entry : LogEntry F) : l.write entry = l.log entry := by
  cases entry <;> rfl

theorem logAll_eq (entries : List (LogEntry F)) :
    (logAll entries).received = entries ∧ (logAll entries).sink =
      .ofList ((entries.map EntryJson.stringify).flatMap fun line => line.toList ++ ['\n']) := by
  induction entries using List.reverseRecOn with
  | nil => exact ⟨rfl, rfl⟩
  | append_singleton entries entry ih =>
    have hstep : logAll (entries ++ [entry]) = (logAll entries).log entry := by
      simp [logAll, write_eq]
    obtain ⟨hreceived, hsink⟩ := ih
    rw [hstep]
    constructor
    · exact congrArg (· ++ [entry]) hreceived
    · change (logAll entries).sink ++ _ = _
      rw [hsink, ← String.toList_inj]
      simp

end Logger

/-! ## Reading a file -/

inductive MatchType where
  | hosted
  | joined
deriving DecidableEq, Repr

namespace MatchLog

/-- `JoinedMatchLog.addEntry`. The game states are those the first player was sent. -/
def addEntryJoined (log : MatchLog F) : LogEntry F → Option (MatchLog F)
  | .gameState _ => some log
  | .playerEntry player record => do
    let turns ← (log.getPlayerLog player).addRecord record
    let log := { log with playerLogs := log.playerLogs.insert player turns }
    pure <|
      match player, record with
      | 1, .step _ state => { log with gameStates := log.gameStates ++ [.fromJson state] }
      | _, _ => log

/-- `addEntry` of the log that `emptyLog` makes for a type of match. -/
def addEntryOf : MatchType → MatchLog F → LogEntry F → Option (MatchLog F)
  | .hosted => addEntry
  | .joined => addEntryJoined

end MatchLog

section Reading
variable [EntryJson F]

def logFileEntries (logFileContent : String) : Option (List (LogEntry F)) :=
  (Text.split '\n' (Text.trim logFileContent)).mapM EntryJson.parse

def parseLog (logFileContent : String) (type : MatchType) : Option (MatchLog F) := do
  let entries ← logFileEntries logFileContent
  entries.foldlM (MatchLog.addEntryOf type) .empty

end Reading

/-! ## Which entries can be added -/

/-- The logs of the players after an entry, whatever the type of the match. -/
def addToPlayers (logs : HashMap Nat (PlayerLog F)) :
    LogEntry F → Option (HashMap Nat (PlayerLog F))
  | .gameState _ => some logs
  | .playerEntry player record =>
    (((logs.lookup player).getD [] : PlayerLog F).addRecord record).map (logs.insert player)

theorem playerLogs_addEntryOf (type : MatchType) (log : MatchLog F) (entry : LogEntry F) :
    (MatchLog.addEntryOf type log entry).map (·.playerLogs) = addToPlayers log.playerLogs entry := by
  cases entry with
  | gameState state => cases type <;> rfl
  | playerEntry player record =>
    cases hturns : (log.getPlayerLog player).addRecord record with
    | none =>
      have hnone : PlayerLog.addRecord ((log.playerLogs.lookup player).getD []) record = none := hturns
      cases type <;> simp [MatchLog.addEntryOf, MatchLog.addEntry, MatchLog.addEntryJoined,
        addToPlayers, hturns, hnone]
    | some turns =>
      have hsome : PlayerLog.addRecord ((log.playerLogs.lookup player).getD []) record =
        some turns := hturns
      cases type with
      | hosted => simp [MatchLog.addEntryOf, MatchLog.addEntry, addToPlayers, hturns, hsome]
      | joined =>
        simp only [MatchLog.addEntryOf, MatchLog.addEntryJoined, addToPlayers, hturns, hsome,
          Option.bind_eq_bind, Option.bind_some, Option.pure_def, Option.map_some]
        split <;> rfl

theorem playerLogs_foldlM (type : MatchType) (entries : List (LogEntry F)) (log : MatchLog F) :
    (entries.foldlM (MatchLog.addEntryOf type) log).map (·.playerLogs) =
      entries.foldlM addToPlayers log.playerLogs := by
  induction entries generalizing log with
  | nil => rfl
  | cons entry entries ih =>
    have hentry := playerLogs_addEntryOf type log entry
    rw [List.foldlM_cons, List.foldlM_cons, ← hentry]
    cases MatchLog.addEntryOf type log entry with
    | none => rfl
    | some log' => exact ih log'

/-- Records that can be read begin with a step. -/
theorem opened_of_ofRecords {records : List (LogRecord F)} {turns : PlayerLog F}
    (h : PlayerLog.ofRecords records = some turns) : Opened records := by
  intro first hfirst
  obtain ⟨rest, rfl⟩ := List.head?_eq_some_iff.mp hfirst
  cases first with
  | step => rfl
  | command | playerAction => cases h

/-- All entries can be added, to a log of either type, if and only if the first record of
every player is a step. -/
theorem isSome_foldlM_addEntryOf (type : MatchType) (entries : List (LogEntry F)) :
    (entries.foldlM (MatchLog.addEntryOf type) .empty).isSome ↔
      ∀ player, Opened (recordsOf player entries) := by
  have hsame : (entries.foldlM (MatchLog.addEntryOf type) .empty).isSome =
      (MatchLog.parseLog entries).isSome := by
    rw [← Option.isSome_map (f := (·.playerLogs)), playerLogs_foldlM, ← Option.isSome_map
      (x := MatchLog.parseLog entries) (f := (·.playerLogs))]
    exact congrArg Option.isSome (playerLogs_foldlM .hosted entries .empty).symm
  rw [hsame]
  constructor
  · intro h player
    obtain ⟨log, hlog⟩ := Option.isSome_iff_exists.mp h
    exact opened_of_ofRecords (getPlayerLog_of_parseLog hlog player)
  · intro h
    obtain ⟨log, hlog, _⟩ := exists_parseLog h
    rw [hlog]
    rfl

/-! ## Round trips -/

section RoundTrip
variable [EntryJson F]

/-- What is relied on about JSON, for the entries of a log: an entry is an object, its text is
one line and parses to the entry again. The empty text is no JSON. -/
structure Lawful (entries : List (LogEntry F)) : Prop where
  parse_stringify : ∀ entry ∈ entries, EntryJson.parse (EntryJson.stringify entry) = some entry
  line : ∀ entry ∈ entries, '\n' ∉ (EntryJson.stringify entry).toList
  object : ∀ entry ∈ entries, ∃ fields, EntryJson.stringify entry = "\x7b" ++ fields ++ "\x7d"
  parse_empty : EntryJson.parse "" = (none : Option (LogEntry F))

/-- The file of a logger that logged these entries is read as them, and parsed to the log that
the subscribers of the logger arrive at. -/
def RoundTrips (entries : List (LogEntry F)) : Prop :=
  logFileEntries (Logger.logAll entries).sink = some entries ∧
    ∀ type, (parseLog (F := F) (Logger.logAll entries).sink type).isSome ∧
      parseLog (Logger.logAll entries).sink type =
        (Logger.logAll entries).received.foldlM (MatchLog.addEntryOf type) .empty

theorem solid_of_object {text fields : String} (h : text = "\x7b" ++ fields ++ "\x7d") :
    Text.Solid text.toList := by
  subst h
  constructor
  · exact ⟨'\x7b', by simp, by decide⟩
  · refine ⟨'\x7d', ?_, by decide⟩
    rw [String.toList_append]
    exact List.getLast?_concat

theorem mapM_parse_stringify {entries : List (LogEntry F)}
    (h : ∀ entry ∈ entries, EntryJson.parse (EntryJson.stringify entry) = some entry) :
    (entries.map EntryJson.stringify).mapM EntryJson.parse = some entries := by
  induction entries with
  | nil => rfl
  | cons entry entries ih =>
    rw [List.map_cons, List.mapM_cons, h entry List.mem_cons_self,
      ih fun entry he => h entry (List.mem_cons_of_mem _ he)]
    rfl

/-- What was logged is what is read, if there is something. -/
theorem Lawful.logFileEntries {entries : List (LogEntry F)} (h : Lawful entries)
    (hne : entries ≠ []) : logFileEntries (Logger.logAll entries).sink = some entries := by
  have hlines : Text.split '\n' (Text.trim (Logger.logAll entries).sink) =
      entries.map EntryJson.stringify := by
    rw [(Logger.logAll_eq entries).2]
    apply Text.split_trim_lines
    · simpa using hne
    · intro line hline
      obtain ⟨entry, he, rfl⟩ := List.mem_map.mp hline
      obtain ⟨fields, hfields⟩ := h.object entry he
      exact solid_of_object hfields
    · intro line hline
      obtain ⟨entry, he, rfl⟩ := List.mem_map.mp hline
      exact h.line entry he
  rw [Desktop.logFileEntries, hlines]
  exact mapM_parse_stringify h.parse_stringify

/-- An empty file has one line, which is no entry. -/
theorem Lawful.logFileEntries_empty {entries : List (LogEntry F)} (h : Lawful entries) :
    Desktop.logFileEntries "" = (none : Option (List (LogEntry F))) := by
  have hlines : Text.split '\n' (Text.trim "") = [""] := by decide
  rw [Desktop.logFileEntries, hlines]
  simp [h.parse_empty]

/-- A log file can be read again if and only if something was logged, and the first record
of every player is a step. -/
theorem roundTrips_iff {entries : List (LogEntry F)} (h : Lawful entries) :
    RoundTrips entries ↔ entries ≠ [] ∧ ∀ player, Opened (recordsOf player entries) := by
  have hparse (hne : entries ≠ []) (type : MatchType) :
      parseLog (Logger.logAll entries).sink type =
        entries.foldlM (MatchLog.addEntryOf type) .empty := by
    rw [parseLog, h.logFileEntries hne]
    rfl
  constructor
  · intro hround
    have hne : entries ≠ [] := by
      intro hnil
      have hfile : (Logger.logAll entries).sink = "" := by
        rw [hnil]
        rfl
      have hread := hround.1
      rw [hfile, h.logFileEntries_empty] at hread
      cases hread
    refine ⟨hne, (isSome_foldlM_addEntryOf .hosted entries).mp ?_⟩
    rw [← hparse hne]
    exact (hround.2 .hosted).1
  · intro hcond
    refine ⟨h.logFileEntries hcond.1, fun type => ?_⟩
    rw [hparse hcond.1, (Logger.logAll_eq entries).1]
    exact ⟨(isSome_foldlM_addEntryOf type entries).mpr hcond.2, rfl⟩

end RoundTrip

/-! ## A log of one step -/

def stepEntry : LogEntry Int := .playerEntry 1 (.step 1 ⟨[], []⟩)

def stepText : String :=
  "\x7b\"type\":\"player_entry\",\"player\":1,\"record\":\x7b\"type\":\"step\"," ++
    "\"turn_number\":1,\"state\":\x7b\"planets\":[],\"expeditions\":[]\x7d\x7d\x7d"

/-- The text of this entry, as far as other entries are not asked for. -/
@[reducible] def stepJson : EntryJson Int where
  stringify _ := stepText
  parse text := if text = stepText then some stepEntry else none

theorem lawful_step :
    letI := stepJson
    Lawful [stepEntry] := by
  let := stepJson
  refine ⟨?_, ?_, ?_, ?_⟩
  · intro entry he
    rw [List.mem_singleton.mp he]
    exact if_pos rfl
  · intro entry _
    change '\n' ∉ stepText.toList
    decide +kernel
  · intro entry _
    refine ⟨String.ofList (stepText.toList.tail.dropLast), ?_⟩
    change stepText = _
    decide +kernel
  · decide

/-- The beginning of a match, as its server and the client of player 1 log it. -/
def turnEntries : List (LogEntry Int) :=
  [.gameState ⟨[], []⟩, stepEntry, .playerEntry 1 (.command "pass"),
    .playerEntry 1 (.playerAction (.commands []))]

def turnTexts : List String :=
  ["\x7b\"type\":\"game_state\",\"state\":\x7b\"planets\":[],\"expeditions\":[]\x7d\x7d", stepText,
    "\x7b\"type\":\"player_entry\",\"player\":1,\"record\":\x7b\"type\":\"command\"," ++
      "\"content\":\"pass\"\x7d\x7d",
    "\x7b\"type\":\"player_entry\",\"player\":1,\"record\":\x7b\"type\":\"player_action\"," ++
      "\"action\":\x7b\"type\":\"commands\",\"value\":[]\x7d\x7d\x7d"]

/-- The texts of these entries; no other texts are parsed. -/
@[reducible] def turnJson : EntryJson Int where
  stringify entry := ((turnEntries.zip turnTexts).lookup entry).getD ""
  parse text := (turnTexts.zip turnEntries).lookup text

theorem lawful_turn :
    letI := turnJson
    Lawful turnEntries := by
  let := turnJson
  have hobject : ∀ entry ∈ turnEntries, EntryJson.stringify entry = "\x7b" ++
      String.ofList ((EntryJson.stringify entry).toList.tail.dropLast) ++ "\x7d" := by
    decide +kernel
  refine ⟨by decide +kernel, by decide +kernel, fun entry he => ⟨_, hobject entry he⟩, ?_⟩
  decide +kernel

theorem roundTrips_iff_turn :
    letI := turnJson
    RoundTrips turnEntries := by
  let := turnJson
  refine (roundTrips_iff lawful_turn).mpr ⟨by decide, fun player => ?_⟩
  by_cases hplayer : 1 = player
  · subst hplayer
    intro record hrecord
    cases hrecord
    rfl
  · have hnone : recordsOf player turnEntries = [] := by
      simp [recordsOf, turnEntries, stepEntry, LogEntry.recordOf?, hplayer]
    rw [hnone]
    intro record hrecord
    cases hrecord

/-- The file of a match in which nothing was logged. -/
theorem not_roundTrips_empty :
    letI := stepJson
    Lawful ([] : List (LogEntry Int)) ∧ ¬ RoundTrips ([] : List (LogEntry Int)) := by
  let := stepJson
  have hlawful : Lawful ([] : List (LogEntry Int)) := ⟨by simp, by simp, by simp, lawful_step.parse_empty⟩
  refine ⟨hlawful, fun h => ?_⟩
  have hread := h.1
  have hfile : (Logger.logAll ([] : List (LogEntry Int))).sink = "" := rfl
  rw [hfile, hlawful.logFileEntries_empty] at hread
  cases hread

end Mozaic.Desktop
