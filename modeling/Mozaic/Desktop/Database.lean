import Mozaic.Desktop.Migration
import Mozaic.JavaScript.WriteBehind

/-! The store of the desktop client and its database. Changes of the store are written to the
file of the database, and a client that starts takes over what is there. -/
namespace Mozaic.Desktop

abbrev V4.MatchList := Rust.HashMap String V4.Match

def V4.Match.props : V4.Match → V4.MatchProps
  | .hosted props .. | .joined props _ => props

abbrev V4.Match.uuid (m : V4.Match) : String := m.props.uuid

namespace Database
open Rust JavaScript WriteBehind

/-! ## Dates -/

/-- A date in the store: an object, or the text that JSON has for one. -/
inductive DateValue where
  | object (date : Date)
  | text (date : Date)
deriving DecidableEq, Repr

/-- JSON has a text for a date, and nobody makes it a date again. -/
def DateValue.parsed : DateValue → DateValue
  | object date | text date => text date

structure Bot where
  uuid : String
  lastUpdatedAt : DateValue
  createdAt : DateValue
  name : String
  command : String
deriving DecidableEq, Repr

structure MapMeta where
  uuid : String
  name : String
  slots : JsonNumber
  mapPath : String
  createdAt : DateValue
deriving DecidableEq, Repr

def Bot.parsed (bot : Bot) : Bot :=
  { bot with lastUpdatedAt := bot.lastUpdatedAt.parsed, createdAt := bot.createdAt.parsed }

def MapMeta.parsed (map : MapMeta) : MapMeta := { map with createdAt := map.createdAt.parsed }

@[simp] theorem DateValue.parsed_parsed (date : DateValue) : date.parsed.parsed = date.parsed := by
  cases date <;> rfl

@[simp] theorem Bot.parsed_comp_parsed : Bot.parsed ∘ Bot.parsed = Bot.parsed := by
  funext bot
  simp [Bot.parsed]

@[simp] theorem MapMeta.parsed_comp_parsed : MapMeta.parsed ∘ MapMeta.parsed = MapMeta.parsed := by
  funext map
  simp [MapMeta.parsed]

/-! ## Tables -/

abbrev BotList := HashMap String Bot
abbrev MapList := HashMap String MapMeta

/-- The names of the tables in the schema. -/
inductive TableName where
  | «matches»
  | bots
  | maps
  | notifications
deriving DecidableEq, Repr

/-- The time of a match is always an object in the store and a text in the file. -/
abbrev Rows : TableName → Type
  | .matches => V4.MatchList
  | .bots => BotList
  | .maps => MapList
  | .notifications => List V1.Notification

abbrev Tables := ∀ t, Rows t

/-! ## The store -/

/-- The actions that concern a table. A new bot gets its id and the time in the reducer. -/
inductive Action where
  | saveMatch (payload : V4.Match)
  | importMatchFromDB (payload : V4.Match)
  | addBot (name command uuid : String) (now : Date)
  | importBotFromDB (payload : Bot)
  | editBot (payload : Bot) (now : Date)
  | removeBot (payload : String)
  | importMap (payload : MapMeta)
  | importMapFromDB (payload : MapMeta)
  | addNotification (payload : V1.Notification)
  | importNotificationFromDB (payload : V1.Notification)
  | removeNotification (payload : Nat)
  | clearNotifications
  | other

def matchesReducer (state : V4.MatchList) : Action → Reduction V4.MatchList
  | .saveMatch payload | .importMatchFromDB payload => .fresh (state.insert payload.uuid payload)
  | _ => .same

/-- `state[key] = value`. Unless there is such a property already, `__proto__` is a setter. -/
def assign {ν : Type} (state : HashMap String ν) (key : String) (value : ν) : HashMap String ν :=
  if key = "__proto__" ∧ key ∉ state then state else state.insert key value

/-- A bot is edited in the state itself, the state is copied afterwards. -/
def botsReducer (state : BotList) : Action → Reduction BotList
  | .addBot name command uuid now =>
    let bot :=
      { uuid, name, command, createdAt := .object now, lastUpdatedAt := .object now }
    .fresh (state.insert bot.uuid bot)
  | .importBotFromDB payload => .fresh (state.insert payload.uuid payload)
  | .editBot payload now =>
    let bot := { payload with lastUpdatedAt := .object now }
    .edited (assign state bot.uuid bot)
  | .removeBot payload => .fresh (state.erase payload)
  | _ => .same

def mapsReducer (state : MapList) : Action → Reduction MapList
  | .importMapFromDB payload | .importMap payload => .fresh (state.insert payload.uuid payload)
  | _ => .same

def notificationReducer (state : List V1.Notification) : Action → Reduction (List V1.Notification)
  | .addNotification payload => .fresh (state ++ [payload])
  | .removeNotification payload => .fresh (state.eraseIdx payload)
  | .clearNotifications => .fresh []
  | _ => .same

def rootReducer (action : Action) : ∀ t, Rows t → Reduction (Rows t)
  | .matches, state => matchesReducer state action
  | .bots, state => botsReducer state action
  | .maps, state => mapsReducer state action
  | .notifications, state => notificationReducer state action

def initialState : Tables
  | .matches => (∅ : V4.MatchList)
  | .bots => (∅ : BotList)
  | .maps => (∅ : MapList)
  | .notifications => []

/-! ## Sessions -/

def listeners : List TableName := [.matches, .bots, .maps, .notifications]

/-- What is dispatched for a database, before the listeners are initialized. The text in a match
is made a date again. -/
def imports (ord : IterOrder String) (db : Tables) : List Action :=
  (HashMap.entriesIn ord (db .bots)).map (fun e => .importBotFromDB e.2.parsed) ++
  (HashMap.entriesIn ord (db .maps)).map (fun e => .importMapFromDB e.2.parsed) ++
  (HashMap.entriesIn ord (db .matches)).map (fun e => .importMatchFromDB e.2) ++
  (db .notifications).map .importNotificationFromDB

def imported (ord : IterOrder String) (db : Tables) : Tables :=
  (imports ord db).foldl (fun state action t => (rootReducer action t (state t)).value (state t))
    initialState

abbrev App := WriteBehind.Session Rows

/-- A session starts with a database of the latest version. The bots and maps for tables that are
empty then are dispatched later. -/
def bindToStore (ord : IterOrder String) (db : Tables) : App :=
  .start db (imported ord db)

inductive Event where
  | dispatch (action : Action)
  | job
  | written (k : Nat)
  /-- The client is closed, with whatever is still to be done, and started again. -/
  | restart (ord : IterOrder String)

def step (s : App) : Event → App
  | .dispatch action => s.dispatch listeners (rootReducer action)
  | .job => s.runJob
  | .written k => s.endWrite k
  | .restart ord => bindToStore ord s.file

def run (s : App) (events : List Event) : App := events.foldl step s

/-! ## Imports -/

/-- Every entry is kept under its own id. -/
def Keyed {ν : Type} (uuid : ν → String) (list : HashMap String ν) : Prop :=
  ∀ key value, list.lookup key = some value → uuid value = key

section Keyed
variable {ν : Type} {uuid : ν → String} {list : HashMap String ν}

theorem Keyed.insert (h : Keyed uuid list) (value : ν) :
    Keyed uuid (list.insert (uuid value) value) := by
  intro key value' hlookup
  rw [HashMap.lookup_insert_eq] at hlookup
  split at hlookup
  · rw [← Option.some.inj hlookup]
    exact Eq.symm ‹_›
  · exact h key value' hlookup

theorem Keyed.assign (h : Keyed uuid list) (value : ν) :
    Keyed uuid (assign list (uuid value) value) := by
  rw [Database.assign]
  split
  · exact h
  · exact h.insert value

theorem Keyed.erase (h : Keyed uuid list) (key : String) : Keyed uuid (list.erase key) := by
  intro key' value hlookup
  rw [HashMap.lookup_erase_eq] at hlookup
  split at hlookup
  · cases hlookup
  · exact h key' value hlookup

theorem Keyed.of_map (h : Keyed uuid list) {list' : HashMap String ν} {f : ν → ν}
    (hf : ∀ value, uuid (f value) = uuid value)
    (hlookup : ∀ key, list'.lookup key = (list.lookup key).map f) : Keyed uuid list' := by
  intro key value hvalue
  rw [hlookup, Option.map_eq_some_iff] at hvalue
  obtain ⟨value', hvalue', rfl⟩ := hvalue
  exact (hf value').trans (h key value' hvalue')

/-- Entries that are imported one by one are what became of them, under the same keys. -/
theorem Keyed.lookup_foldl_insert (h : Keyed uuid list) {f : ν → ν}
    (hf : ∀ value, uuid (f value) = uuid value) (ord : IterOrder String) (key : String) :
    ((HashMap.entriesIn ord list).foldl
      (fun (state : HashMap String ν) e => state.insert (uuid (f e.2)) (f e.2)) ∅).lookup key =
        (list.lookup key).map f := by
  have hcollect : (HashMap.entriesIn ord list).foldl
      (fun (state : HashMap String ν) e => state.insert (uuid (f e.2)) (f e.2)) ∅ =
        HashMap.collect ((HashMap.entriesIn ord list).map fun e => (e.1, f e.2)) := by
    rw [HashMap.collect, List.foldl_map]
    refine List.foldl_ext _ _ _ fun state e he => ?_
    rw [hf, h e.1 e.2 (HashMap.mem_entriesIn.mp he)]
  have hnd : (((HashMap.entriesIn ord list).map fun e => (e.1, f e.2)).map Prod.fst).Nodup := by
    rw [List.map_map]
    exact HashMap.nodup_fst_entriesIn ord list
  refine Option.ext fun value => ?_
  rw [hcollect, HashMap.lookup_collect_of_nodup hnd, List.mem_map, Option.map_eq_some_iff]
  constructor
  · rintro ⟨⟨key', value'⟩, he, heq⟩
    obtain ⟨rfl, rfl⟩ := Prod.mk.inj heq
    exact ⟨value', HashMap.mem_entriesIn.mp he, rfl⟩
  · rintro ⟨value', hlookup, rfl⟩
    exact ⟨(key, value'), HashMap.mem_entriesIn.mpr hlookup, rfl⟩

end Keyed

/-- What is stored in each table: matches, bots and maps under their ids. -/
def Stored : ∀ t, Rows t → Prop
  | .matches, list => Keyed V4.Match.uuid list
  | .bots, list => Keyed Bot.uuid list
  | .maps, list => Keyed MapMeta.uuid list
  | .notifications, _ => True

theorem stored_reduce (action : Action) (t : TableName) {state : Rows t} (h : Stored t state) :
    Stored t ((rootReducer action t state).value state) := by
  cases t with
  | «matches» =>
    have hkeyed : Keyed V4.Match.uuid state := h
    cases action with
    | saveMatch payload | importMatchFromDB payload => exact hkeyed.insert payload
    | _ => exact h
  | bots =>
    have hkeyed : Keyed Bot.uuid state := h
    cases action with
    | addBot name command uuid now =>
      exact hkeyed.insert ⟨uuid, .object now, .object now, name, command⟩
    | importBotFromDB payload => exact hkeyed.insert payload
    | editBot payload now => exact hkeyed.assign { payload with lastUpdatedAt := .object now }
    | removeBot payload => exact hkeyed.erase payload
    | _ => exact h
  | maps =>
    have hkeyed : Keyed MapMeta.uuid state := h
    cases action with
    | importMap payload | importMapFromDB payload => exact hkeyed.insert payload
    | _ => exact h
  | notifications => trivial

section Imported
variable {ord : IterOrder String} {db : Tables}

theorem foldl_reduce (actions : List Action) (state : Tables) (t : TableName) :
    (actions.foldl (fun state action t => (rootReducer action t (state t)).value (state t)) state) t =
      actions.foldl (fun v action => (rootReducer action t v).value v) (state t) := by
  induction actions generalizing state with
  | nil => rfl
  | cons action actions ih => exact ih _

theorem foldl_reduce_same {t : TableName} {actions : List Action} (v : Rows t)
    (h : ∀ action ∈ actions, ∀ v, rootReducer action t v = .same) :
    actions.foldl (fun v action => (rootReducer action t v).value v) v = v := by
  induction actions with
  | nil => rfl
  | cons action actions ih =>
    rw [List.foldl_cons, h action List.mem_cons_self]
    exact ih fun action' haction' => h action' (List.mem_cons_of_mem _ haction')

/-- No reducer takes the notifications of the database. -/
theorem imported_notifications : imported ord db .notifications = [] := by
  rw [imported, foldl_reduce]
  refine foldl_reduce_same _ fun action haction _ => ?_
  simp only [imports, List.mem_append, List.mem_map] at haction
  rcases haction with ((⟨_, -, rfl⟩ | ⟨_, -, rfl⟩) | ⟨_, -, rfl⟩) | ⟨_, -, rfl⟩ <;> rfl

/-- The actions that are not about a table leave it as it is. -/
theorem foldl_other {ν : Type} {t : TableName} {f : ν → Action}
    (h : ∀ a v, rootReducer (f a) t v = .same) (l : List ν) (v : Rows t) :
    (l.map f).foldl (fun v action => (rootReducer action t v).value v) v = v := by
  refine foldl_reduce_same v fun action haction => ?_
  obtain ⟨a, -, rfl⟩ := List.mem_map.mp haction
  exact h a

/-- What becomes of a table that is written to the file and imported. -/
def Reloaded : ∀ t, Rows t → Rows t → Prop
  | .matches, list, list' => list' = list
  | .bots, list, list' => ∀ uuid, list'.lookup uuid = (list.lookup uuid).map Bot.parsed
  | .maps, list, list' => ∀ uuid, list'.lookup uuid = (list.lookup uuid).map MapMeta.parsed
  | .notifications, _, list' => list' = []

theorem reloaded_imported (ord : IterOrder String) (hdb : ∀ t, Stored t (db t)) (t : TableName) :
    Reloaded t (db t) (imported ord db t) := by
  cases t with
  | notifications => exact imported_notifications
  | «matches» =>
    have hkeyed : Keyed V4.Match.uuid (db .matches) := hdb .matches
    rw [Reloaded, imported, foldl_reduce, imports, List.foldl_append, List.foldl_append,
      List.foldl_append, foldl_other (f := .importNotificationFromDB) fun _ _ => rfl,
      foldl_other (f := fun e : String × MapMeta => .importMapFromDB e.2.parsed) fun _ _ => rfl,
      foldl_other (f := fun e : String × Bot => .importBotFromDB e.2.parsed) fun _ _ => rfl,
      List.foldl_map]
    refine Finmap.ext_lookup fun key => ?_
    exact (hkeyed.lookup_foldl_insert (f := id) (fun _ => rfl) ord key).trans Option.map_id'
  | bots =>
    have hkeyed : Keyed Bot.uuid (db .bots) := hdb .bots
    rw [Reloaded, imported, foldl_reduce, imports, List.foldl_append, List.foldl_append,
      List.foldl_append, foldl_other (f := .importNotificationFromDB) fun _ _ => rfl,
      foldl_other (f := fun e : String × V4.Match => .importMatchFromDB e.2) fun _ _ => rfl,
      foldl_other (f := fun e : String × MapMeta => .importMapFromDB e.2.parsed) fun _ _ => rfl,
      List.foldl_map]
    exact hkeyed.lookup_foldl_insert (f := Bot.parsed) (fun _ => rfl) ord
  | maps =>
    have hkeyed : Keyed MapMeta.uuid (db .maps) := hdb .maps
    rw [Reloaded, imported, foldl_reduce, imports, List.foldl_append, List.foldl_append,
      List.foldl_append, foldl_other (f := .importNotificationFromDB) fun _ _ => rfl,
      foldl_other (f := fun e : String × V4.Match => .importMatchFromDB e.2) fun _ _ => rfl,
      foldl_other (f := fun e : String × Bot => .importBotFromDB e.2.parsed) fun _ _ => rfl,
      List.foldl_map]
    exact hkeyed.lookup_foldl_insert (f := MapMeta.parsed) (fun _ => rfl) ord

theorem imported_matches (hdb : ∀ t, Stored t (db t)) : imported ord db .matches = db .matches :=
  reloaded_imported ord hdb .matches

theorem Reloaded.stored {t : TableName} {rows rows' : Rows t} (h : Reloaded t rows rows')
    (hrows : Stored t rows) : Stored t rows' := by
  cases t with
  | «matches» => exact h ▸ hrows
  | bots => exact Keyed.of_map hrows (f := Bot.parsed) (fun _ => rfl) h
  | maps => exact Keyed.of_map hrows (f := MapMeta.parsed) (fun _ => rfl) h
  | notifications => trivial

/-- What was reloaded before is the same when it is reloaded again. -/
theorem Reloaded.again {t : TableName} {rows rows' rows'' : Rows t} (h : Reloaded t rows rows')
    (h' : Reloaded t rows rows'') : Reloaded t rows' rows'' := by
  cases t with
  | «matches» => exact h'.trans h.symm
  | bots =>
    intro uuid
    rw [h uuid, h' uuid, Option.map_map, Bot.parsed_comp_parsed]
  | maps =>
    intro uuid
    rw [h uuid, h' uuid, Option.map_map, MapMeta.parsed_comp_parsed]
  | notifications => exact h'

theorem stored_imported (hdb : ∀ t, Stored t (db t)) (t : TableName) :
    Stored t (imported ord db t) := (reloaded_imported ord hdb t).stored (hdb t)

end Imported

end Database
end Mozaic.Desktop
