import Mozaic.JavaScript.Dict
import Mozaic.Rust.Loop

/-! The migration of the database from one schema to the next. -/
namespace Mozaic.Desktop
open Rust Outcome JavaScript

/-- A number as JSON has it. -/
abbrev JsonNumber := Rat

/-- A score of a player. One that is not a number is `null` in JSON. -/
abbrev Score := Option JsonNumber

/-- Dates are not looked into. -/
abbrev Date := String

/-- A text as JavaScript has it, or `undefined`. -/
abbrev Text? := Option String

/-! ## Schemas -/

namespace V1

/-- Never used in production. -/
structure DbSchema where
deriving DecidableEq, Repr

structure MatchStats where
  winners : List String
  score : HashMap String Score

inductive Status where
  | playing
  | finished (stats : MatchStats)
  | error (error : String)

structure Match where
  uuid : String
  players : List String
  map : String
  timestamp : Date
  logPath : String
  status : Status

structure MapMeta where
  uuid : String
  name : String
  slots : JsonNumber
  mapPath : String
  createdAt : Date

inductive NotificationType where
  | finished
  | error
deriving DecidableEq, Repr

structure Notification where
  title : String
  body : String
  link : Text?
  type : NotificationType

end V1

namespace V2

structure BotConfig where
  name : String
  command : String
  args : List String

structure BotData where
  uuid : String
  config : BotConfig
  lastUpdatedAt : Date
  createdAt : Date
  history : List BotConfig

structure DbSchema where
  «matches» : Dict V1.Match
  bots : Dict BotData
  maps : Dict V1.MapMeta
  notifications : List V1.Notification

end V2

namespace V3

structure BotConfig where
  name : String
  command : String

structure BotData where
  uuid : String
  config : BotConfig
  lastUpdatedAt : Date
  createdAt : Date
  history : List BotConfig

structure DbSchema where
  «matches» : Dict V1.Match
  bots : Dict BotData
  maps : Dict V1.MapMeta
  notifications : List V1.Notification

end V3

namespace V4

structure MatchStats where
  winners : List JsonNumber
  score : HashMap String Score

inductive Status where
  | playing
  | finished (stats : MatchStats)
  | error (error : String)

structure Address where
  host : String
  port : JsonNumber

inductive BotSlot where
  | internal (token : String) (connected : Bool) (botId : String) (name : Text?)
  | external (token : String) (connected : Bool) (name : Text?)

def BotSlot.name : BotSlot → Text?
  | .internal _ _ _ name | .external _ _ name => name

structure MatchProps where
  uuid : String
  timestamp : Date
  network : Address
  logPath : String
  status : Status

inductive Match where
  | hosted (props : MatchProps) (players : List BotSlot) (maxTurns : JsonNumber) (map : String)
  | joined (props : MatchProps) (bot : BotSlot)

structure Bot where
  uuid : String
  lastUpdatedAt : Date
  createdAt : Date
  name : String
  command : String

/-- The properties of a bot. -/
def Bot.fields : List String := ["uuid", "name", "command", "lastUpdatedAt", "createdAt"]

structure DbSchema where
  «matches» : Dict Match
  bots : Dict Bot
  maps : Dict V1.MapMeta
  notifications : List V1.Notification

end V4

inductive DbSchema where
  | v1 (db : V1.DbSchema)
  | v2 (db : V2.DbSchema)
  | v3 (db : V3.DbSchema)
  | v4 (db : V4.DbSchema)

def DbSchema.version : DbSchema → String
  | .v1 _ => "v1"
  | .v2 _ => "v2"
  | .v3 _ => "v3"
  | .v4 _ => "v4"

/-! ## Upgrades -/

structure TypeError where
  message : String
deriving DecidableEq, Repr

def upgradeV1 (_ : V1.DbSchema) : V2.DbSchema where
  «matches» := .empty
  bots := .empty
  maps := .empty
  notifications := []

/-- `[command].concat(args).join(' ')`. -/
def joinCommand (command : String) (args : List String) : String :=
  " ".intercalate (command :: args)

def migrateConfig (config : V2.BotConfig) : V3.BotConfig where
  name := config.name
  command := joinCommand config.command config.args

def upgradeBot2 (bot : V2.BotData) : V3.BotData where
  uuid := bot.uuid
  config := migrateConfig bot.config
  lastUpdatedAt := bot.lastUpdatedAt
  createdAt := bot.createdAt
  history := bot.history.map migrateConfig

def upgradeBots2 (ord : IterOrder String) (bots : Dict V2.BotData) :
    Except TypeError (Dict V3.BotData) :=
  bots.rebuild ord fun bot => pure (upgradeBot2 bot)

def upgradeV2 (ord : IterOrder String) (db : V2.DbSchema) : Except TypeError V3.DbSchema := do
  let bots ← upgradeBots2 ord db.bots
  pure
    { «matches» := db.matches
      bots
      maps := db.maps
      notifications := db.notifications }

def upgradeBot3 (bot : V3.BotData) : V4.Bot where
  uuid := bot.uuid
  lastUpdatedAt := bot.lastUpdatedAt
  createdAt := bot.createdAt
  name := bot.config.name
  command := bot.config.command

def upgradeBots3 (ord : IterOrder String) (bots : Dict V3.BotData) :
    Except TypeError (Dict V4.Bot) :=
  bots.rebuild ord fun bot => pure (upgradeBot3 bot)

/-- `newBots[player].name`. -/
def botName (newBots : Dict V4.Bot) (player : String) : Except TypeError Text? :=
  match newBots.get V4.Bot.fields player with
  | .value bot => .ok (some bot.name)
  | .inherited => .ok (inheritedName player)
  | .undefined => .error ⟨"Cannot read property 'name' of undefined"⟩

def botSlot (newBots : Dict V4.Bot) (player : String) : Except TypeError V4.BotSlot := do
  let name ← botName newBots player
  pure (.internal "" true player name)

/-- `players.indexOf(bot)`. -/
def indexOf (players : List String) (bot : String) : Int :=
  if bot ∈ players then players.idxOf bot else -1

/-- The score stays under its old keys. -/
def upgradeStatus (players : List String) : V1.Status → V4.Status
  | .playing => .error "This match was aborted during migration"
  | .finished stats => .finished
    { winners := stats.winners.map fun bot => indexOf players bot
      score := stats.score }
  | .error error => .error error

def upgradeMatch (newBots : Dict V4.Bot) (oldMatch : V1.Match) : Except TypeError V4.Match := do
  let botSlots ← oldMatch.players.mapM (botSlot newBots)
  pure <| .hosted
    { uuid := oldMatch.uuid
      timestamp := oldMatch.timestamp
      network := ⟨"localhost", 0⟩
      logPath := oldMatch.logPath
      status := upgradeStatus oldMatch.players oldMatch.status }
    botSlots 0 oldMatch.map

def upgradeV3 (ord : IterOrder String) (db : V3.DbSchema) : Except TypeError V4.DbSchema := do
  let newBots ← upgradeBots3 ord db.bots
  let newMatches ← db.matches.rebuild ord (upgradeMatch newBots)
  pure
    { «matches» := newMatches
      bots := newBots
      maps := db.maps
      notifications := db.notifications }

/-- An upgrade that goes through is followed by the next one. -/
def upgraded {α : Type} (next : α → DbSchema) :
    Except TypeError α → Flow DbSchema (Except TypeError DbSchema)
  | .ok db => .next (next db)
  | .error e => .done (.error e)

/-- How many upgrades are left. -/
def upgradesLeft : DbSchema → Nat
  | .v1 _ => 3
  | .v2 _ => 2
  | .v3 _ => 1
  | .v4 _ => 0

/-- `while (db.version !== 'v4')`. -/
def migrateLoop (ord : IterOrder String) : Loop DbSchema (Except TypeError DbSchema) where
  body
    | .v1 db => .next (.v2 (upgradeV1 db))
    | .v2 db => upgraded .v3 (upgradeV2 ord db)
    | .v3 db => upgraded .v4 (upgradeV3 ord db)
    | .v4 db => .done (.ok (.v4 db))
  rest := upgradesLeft
  closer s t h := by
    cases s with
    | v1 db =>
      cases h
      exact Nat.lt_succ_self 2
    | v2 db =>
      cases hup : upgradeV2 ord db with
      | error e => simp [upgraded, hup] at h
      | ok db' =>
        simp only [upgraded, hup, Flow.next.injEq] at h
        rw [← h]
        exact Nat.lt_succ_self 1
    | v3 db =>
      cases hup : upgradeV3 ord db with
      | error e => simp [upgraded, hup] at h
      | ok db' =>
        simp only [upgraded, hup, Flow.next.injEq] at h
        rw [← h]
        exact Nat.lt_succ_self 0
    | v4 db => cases h

def migrate (ord : IterOrder String) (db : DbSchema) : Except TypeError DbSchema :=
  (migrateLoop ord).run db

/-! ## What a migration keeps -/

/-- What is to be kept of a database: the ids of its bots and its matches, the maps and the
notifications. -/
structure Tables where
  botIds : Finset String
  matchIds : Finset String
  maps : Dict V1.MapMeta
  notifications : List V1.Notification

namespace DbSchema

/-- The first schema has no tables. -/
def tables : DbSchema → Option Tables
  | .v1 _ => none
  | .v2 db => some ⟨db.bots.own.keys, db.matches.own.keys, db.maps, db.notifications⟩
  | .v3 db => some ⟨db.bots.own.keys, db.matches.own.keys, db.maps, db.notifications⟩
  | .v4 db => some ⟨db.bots.own.keys, db.matches.own.keys, db.maps, db.notifications⟩

/-- The migration comes to an end without an error, and keeps the tables. -/
def Migrates (ord : IterOrder String) (db : DbSchema) : Prop :=
  ∃ db', migrate ord db = .ok db' ∧ db'.version = "v4" ∧
    ∀ tables, db.tables = some tables → db'.tables = some tables

end DbSchema

/-- Every player is a bot, or goes by the name of a property that all objects have; no bot
and no match goes by the name of the prototype. -/
structure Linked {ν : Type} (bots : Dict ν) (matchList : Dict V1.Match) : Prop where
  players : ∀ id m, matchList.own.lookup id = some m → ∀ player ∈ m.players,
    player ∈ bots.own ∨ player ∈ objectPrototype
  bots : "__proto__" ∉ bots.own
  «matches» : "__proto__" ∉ matchList.own

namespace DbSchema

/-- Only databases of the second and the third schema have anything to migrate. -/
def Linked : DbSchema → Prop
  | .v2 db => Desktop.Linked db.bots db.matches
  | .v3 db => Desktop.Linked db.bots db.matches
  | _ => True

end DbSchema

variable {ord : IterOrder String}

theorem botName_eq_ok_iff {newBots : Dict V4.Bot} {player : String} (h : newBots.proto = none) :
    (∃ name, botName newBots player = .ok name) ↔
      player ∈ newBots.own ∨ player ∈ objectPrototype := by
  have hundefined : newBots.get V4.Bot.fields player = .undefined ↔ _ :=
    Dict.get_eq_undefined_iff h
  rw [Finmap.lookup_eq_none] at hundefined
  rw [botName]
  cases hget : newBots.get V4.Bot.fields player with
  | value bot =>
    rw [hget] at hundefined
    simp only [reduceCtorEq, false_iff, not_and_or, not_not] at hundefined
    simpa using hundefined
  | inherited =>
    rw [hget] at hundefined
    simp only [reduceCtorEq, false_iff, not_and_or, not_not] at hundefined
    simpa using hundefined
  | undefined =>
    obtain ⟨hbot, hkey⟩ := hundefined.mp hget
    simp [hbot, hkey]

theorem mapM_eq_ok_iff {α β ε : Type} {f : α → Except ε β} {l : List α} :
    (∃ l', l.mapM f = .ok l') ↔ ∀ a ∈ l, ∃ b, f a = .ok b := by
  induction l with
  | nil => exact iff_of_true ⟨[], rfl⟩ (by simp)
  | cons a l ih =>
    rw [List.forall_mem_cons, ← ih, List.mapM_cons]
    cases f a with
    | error e => simp
    | ok b =>
      cases l.mapM f with
      | error e => simp
      | ok l' => exact iff_of_true ⟨b :: l', rfl⟩ ⟨⟨b, rfl⟩, l', rfl⟩

theorem botSlot_eq_ok_iff {newBots : Dict V4.Bot} {player : String} :
    (∃ slot, botSlot newBots player = .ok slot) ↔ ∃ name, botName newBots player = .ok name := by
  rw [botSlot]
  cases botName newBots player with
  | error e => simp
  | ok name => exact iff_of_true ⟨_, rfl⟩ ⟨name, rfl⟩

theorem upgradeMatch_eq_ok_iff {newBots : Dict V4.Bot} {oldMatch : V1.Match}
    (h : newBots.proto = none) : (∃ m, upgradeMatch newBots oldMatch = .ok m) ↔
      ∀ player ∈ oldMatch.players, player ∈ newBots.own ∨ player ∈ objectPrototype := by
  simp only [← botName_eq_ok_iff h, ← botSlot_eq_ok_iff, ← mapM_eq_ok_iff, upgradeMatch]
  cases oldMatch.players.mapM (botSlot newBots) with
  | error e => simp
  | ok slots => exact iff_of_true ⟨_, rfl⟩ ⟨slots, rfl⟩

/-! ## The third schema -/

theorem upgradeV3_eq_ok {db : V3.DbSchema} {db' : V4.DbSchema} (h : upgradeV3 ord db = .ok db') :
    upgradeBots3 ord db.bots = .ok db'.bots ∧
      db.matches.rebuild ord (upgradeMatch db'.bots) = .ok db'.matches ∧
      db'.maps = db.maps ∧ db'.notifications = db.notifications := by
  obtain ⟨newBots, hbots, h⟩ := bind_eq_ok.mp h
  obtain ⟨newMatches, hmatches, h⟩ := bind_eq_ok.mp h
  cases h
  exact ⟨hbots, hmatches, rfl, rfl⟩

theorem exists_upgradeBots3 (ord : IterOrder String) (bots : Dict V3.BotData) :
    ∃ newBots, upgradeBots3 ord bots = .ok newBots :=
  Dict.rebuild_eq_ok_iff.mpr fun _ bot _ => ⟨upgradeBot3 bot, rfl⟩

/-- Where no bot has taken the place of the prototype, it takes the bots of every match. -/
theorem exists_upgradeV3_iff (ord : IterOrder String) {db : V3.DbSchema}
    (h : "__proto__" ∉ db.bots.own) :
    (∃ db', upgradeV3 ord db = .ok db') ↔
      ∀ id m, db.matches.own.lookup id = some m → ∀ player ∈ m.players,
        player ∈ db.bots.own ∨ player ∈ objectPrototype := by
  obtain ⟨newBots, hbots⟩ := exists_upgradeBots3 ord db.bots
  have hproto := Dict.proto_rebuild hbots h
  have hplayer (player : String) : player ∈ newBots.own ∨ player ∈ objectPrototype ↔
      player ∈ db.bots.own ∨ player ∈ objectPrototype := by
    rw [Dict.mem_rebuild hbots, and_iff_right_of_imp]
    rintro hmem rfl
    exact h hmem
  simp only [← hplayer, ← upgradeMatch_eq_ok_iff hproto]
  rw [← Dict.rebuild_eq_ok_iff, upgradeV3, hbots, ok_bind]
  cases db.matches.rebuild ord (upgradeMatch newBots) with
  | error e => simp
  | ok newMatches => exact iff_of_true ⟨_, rfl⟩ ⟨newMatches, rfl⟩

/-- The tables are kept if the prototype is nobody's name. -/
theorem tables_upgradeV3_iff {db : V3.DbSchema} {db' : V4.DbSchema}
    (h : upgradeV3 ord db = .ok db') : (DbSchema.v4 db').tables = (DbSchema.v3 db).tables ↔
      "__proto__" ∉ db.bots.own ∧ "__proto__" ∉ db.matches.own := by
  obtain ⟨hbots, hmatches, hmaps, hnotifications⟩ := upgradeV3_eq_ok h
  rw [← Dict.keys_rebuild_iff hbots, ← Dict.keys_rebuild_iff hmatches]
  simp [DbSchema.tables, hmaps, hnotifications]

/-! ## The second schema -/

theorem exists_upgradeV2 (ord : IterOrder String) (db : V2.DbSchema) :
    ∃ db', upgradeV2 ord db = .ok db' := by
  obtain ⟨bots, hbots⟩ : ∃ bots, upgradeBots2 ord db.bots = .ok bots :=
    Dict.rebuild_eq_ok_iff.mpr fun _ bot _ => ⟨upgradeBot2 bot, rfl⟩
  rw [upgradeV2, hbots]
  exact ⟨_, rfl⟩

theorem upgradeV2_eq_ok {db : V2.DbSchema} {db' : V3.DbSchema} (h : upgradeV2 ord db = .ok db') :
    upgradeBots2 ord db.bots = .ok db'.bots ∧
      db'.matches = db.matches ∧ db'.maps = db.maps ∧ db'.notifications = db.notifications := by
  obtain ⟨newBots, hbots, h⟩ := bind_eq_ok.mp h
  cases h
  exact ⟨hbots, rfl, rfl, rfl⟩

theorem linked_upgradeV2 {db : V2.DbSchema} {db' : V3.DbSchema} (h : upgradeV2 ord db = .ok db')
    (hproto : "__proto__" ∉ db.bots.own) :
    Linked db'.bots db'.matches ↔ Linked db.bots db.matches := by
  obtain ⟨hbots, hmatches, -, -⟩ := upgradeV2_eq_ok h
  have hmem (key : String) : key ∈ db'.bots.own ↔ key ∈ db.bots.own := by
    rw [Dict.mem_rebuild hbots, and_iff_right_of_imp]
    rintro hkey rfl
    exact hproto hkey
  rw [hmatches]
  constructor <;> intro hlinked <;> refine ⟨?_, ?_, hlinked.matches⟩
  · simpa only [hmem] using hlinked.players
  · simpa only [hmem] using hlinked.bots
  · simpa only [hmem] using hlinked.players
  · simpa only [hmem] using hlinked.bots

/-! ## Migrations -/

theorem migrate_v3_ok {db : V3.DbSchema} {db' : V4.DbSchema} (h : upgradeV3 ord db = .ok db') :
    migrate ord (.v3 db) = .ok (.v4 db') := by
  refine (migrateLoop ord).run_eq_of_within 2 ?_
  simp [Loop.within, migrateLoop, upgraded, h]

theorem migrate_v3_error {db : V3.DbSchema} {e : TypeError} (h : upgradeV3 ord db = .error e) :
    migrate ord (.v3 db) = .error e := by
  refine (migrateLoop ord).run_eq_of_within 2 ?_
  simp [Loop.within, migrateLoop, upgraded, h]

theorem migrate_v3_eq_ok {db : V3.DbSchema} {db4 : DbSchema} (h : migrate ord (.v3 db) = .ok db4) :
    ∃ db', upgradeV3 ord db = .ok db' ∧ db4 = .v4 db' := by
  cases hup : upgradeV3 ord db with
  | error e =>
    rw [migrate_v3_error hup] at h
    cases h
  | ok db' =>
    rw [migrate_v3_ok hup] at h
    exact ⟨db', rfl, (Except.ok.inj h).symm⟩

theorem migrate_v2 {db : V2.DbSchema} {db' : V3.DbSchema} (h : upgradeV2 ord db = .ok db') :
    migrate ord (.v2 db) = migrate ord (.v3 db') :=
  (migrateLoop ord).run_of_next (by simp [migrateLoop, upgraded, h])

theorem migrate_v1 (db : V1.DbSchema) : migrate ord (.v1 db) = migrate ord (.v2 (upgradeV1 db)) :=
  (migrateLoop ord).run_of_next rfl

theorem migrates_v3_iff (ord : IterOrder String) (db : V3.DbSchema) :
    (DbSchema.v3 db).Migrates ord ↔ Linked db.bots db.matches := by
  constructor
  · rintro ⟨db4, hmigrate, -, htables⟩
    obtain ⟨db', hup, rfl⟩ := migrate_v3_eq_ok hmigrate
    obtain ⟨hbots, hmatches⟩ := (tables_upgradeV3_iff hup).mp (htables _ rfl)
    exact ⟨(exists_upgradeV3_iff ord hbots).mp ⟨db', hup⟩, hbots, hmatches⟩
  · intro h
    obtain ⟨db', hup⟩ := (exists_upgradeV3_iff ord h.bots).mpr h.players
    refine ⟨.v4 db', migrate_v3_ok hup, rfl, fun tables htables => ?_⟩
    rw [(tables_upgradeV3_iff hup).mpr ⟨h.bots, h.matches⟩, htables]

theorem migrates_v2_iff (ord : IterOrder String) (db : V2.DbSchema) :
    (DbSchema.v2 db).Migrates ord ↔ Linked db.bots db.matches := by
  obtain ⟨db', hup⟩ := exists_upgradeV2 ord db
  obtain ⟨hbots, hmatches, hmaps, hnotifications⟩ := upgradeV2_eq_ok hup
  have htables : (DbSchema.v3 db').tables = (DbSchema.v2 db).tables ↔ "__proto__" ∉ db.bots.own := by
    rw [← Dict.keys_rebuild_iff hbots]
    simp [DbSchema.tables, hmatches, hmaps, hnotifications]
  constructor
  · rintro ⟨db4, hmigrate, hversion, hkept⟩
    rw [migrate_v2 hup] at hmigrate
    obtain ⟨d, hd, rfl⟩ := migrate_v3_eq_ok hmigrate
    have hkeys : d.bots.own.keys = db.bots.own.keys :=
      congrArg Tables.botIds (Option.some.inj (hkept _ rfl))
    have hproto : "__proto__" ∉ db.bots.own := by
      rw [← Finmap.mem_keys, ← hkeys, Finmap.mem_keys, Dict.mem_rebuild (upgradeV3_eq_ok hd).1]
      exact fun hmem => hmem.1 rfl
    rw [← linked_upgradeV2 hup hproto, ← migrates_v3_iff ord]
    refine ⟨.v4 d, hmigrate, hversion, fun tables hdb => ?_⟩
    exact hkept tables ((htables.mpr hproto).symm.trans hdb)
  · intro h
    obtain ⟨db4, hmigrate, hversion, hkept⟩ :=
      (migrates_v3_iff ord db').mpr ((linked_upgradeV2 hup h.bots).mpr h)
    refine ⟨db4, (migrate_v2 hup).trans hmigrate, hversion, fun tables hdb => ?_⟩
    exact hkept tables ((htables.mpr h.bots).trans hdb)

theorem migrates_v1 (db : V1.DbSchema) : (DbSchema.v1 db).Migrates ord := by
  have hempty : Linked (upgradeV1 db).bots (upgradeV1 db).matches := by
    constructor <;> simp [upgradeV1, Dict.empty, Finmap.notMem_empty]
  obtain ⟨db', hmigrate, hversion, -⟩ := (migrates_v2_iff ord (upgradeV1 db)).mpr hempty
  exact ⟨db', (migrate_v1 db).trans hmigrate, hversion, fun _ h => by cases h⟩

/-- A database can be migrated, with all its bots and matches, if and only if each player of
its matches is still a bot of it. The exceptions are names that every object has. -/
theorem migrates_iff (ord : IterOrder String) (db : DbSchema) : db.Migrates ord ↔ db.Linked := by
  cases db with
  | v1 db => exact iff_of_true (migrates_v1 db) trivial
  | v2 db => exact migrates_v2_iff ord db
  | v3 db => exact migrates_v3_iff ord db
  | v4 db => exact iff_of_true ⟨.v4 db, rfl, rfl, fun _ => id⟩ trivial

/-- A database with one match, whose only player is no bot of it. -/
def skirmishRemoved : V3.DbSchema where
  «matches» := ⟨HashMap.collect [("match",
    { uuid := "match"
      players := ["removed"]
      map := "map"
      timestamp := "2018-03-01"
      logPath := "match.log"
      status := .playing })], none⟩
  bots := .empty
  maps := .empty
  notifications := []

/-- A removed bot is enough for the migration to fail. -/
theorem not_migrates_skirmish : ¬ ∀ ord db, DbSchema.Migrates ord db := by
  intro h
  have hlinked := (migrates_v3_iff .sorted skirmishRemoved).mp (h .sorted (.v3 skirmishRemoved))
  have hplayer := hlinked.players "match" _ (by rfl) "removed" List.mem_cons_self
  exact absurd hplayer (by decide +kernel)

end Mozaic.Desktop
