import Mozaic.Game.Turn
import Mozaic.Json

/-! Importing a map file, and the game the server creates from what the importer wrote. -/
namespace Mozaic.Desktop
open Rust Rules Outcome

variable {F : Type}

/-- What a promise is rejected with. -/
inductive JsError where
  | typeError
  | error (message : String)
deriving DecidableEq, Repr

/-- `value[key]`, for a key that no prototype has. -/
def get (value : Json F) (key : String) : Except JsError (Option (Json F)) :=
  match value with
  | .null => .error .typeError
  | .object fields => .ok (fields.lookup key)
  | _ => .ok none

/-- `typeof value === 'object'` -/
def isObject : Json F → Bool
  | .null | .array _ | .object _ => true
  | _ => false

/-- `typeof value === 'number'` -/
def isNumber : Option (Json F) → Bool
  | some (.number _) => true
  | _ => false

/-- `typeof value === 'string'` -/
def isString : Option (Json F) → Bool
  | some (.string _) => true
  | _ => false

def isNullish : Option (Json F) → Bool
  | none | some .null => true
  | _ => false

def isJsonPlanet (obj : Json F) : Except JsError Bool := do
  if !isObject obj then return false
  if !isNumber (← get obj "ship_count") then return false
  if !isNumber (← get obj "x") then return false
  if !isNumber (← get obj "y") then return false
  let owner ← get obj "owner"
  if !(isNumber owner || isNullish owner) then return false
  return isString (← get obj "name")

def isGameMap (o : Json F) : Except JsError Bool := do
  if !isObject o then return false
  match ← get o "planets" with
  | some (.array planets) => planets.allM isJsonPlanet
  | _ => return false

/-- Whether a value counts as true. -/
def truthyValue : Option (Json F) → Bool
  | none | some .null | some (.bool false) | some (.number (.digits 0)) => false
  | some (.string s) => s ≠ ""
  | _ => true

/-- `value === 0` -/
def isZero : Option (Json F) → Bool
  | some (.number (.digits 0)) => true
  | _ => false

/-- What the importer records of a map, with the contents of the file at `mapPath`. -/
structure MapMeta where
  slots : Nat
  written : String
deriving DecidableEq, Repr

def importMap (map : Json F) : Except JsError MapMeta := do
  if !(← isGameMap map) then throw (.error "Map is not valid")
  let planets := match ← get map "planets" with
    | some (.array planets) => planets
    | _ => []
  let owned ← planets.filterM fun p => do
    let owner ← get p "owner"
    pure (truthyValue owner || isZero owner)
  return { slots := owned.length, written := map.stringify }

/-! ## What is asked of a map -/

section Server
variable [External F]

/-- The game of these settings, for this many players. -/
def Playable (c : Config) (slots : Nat) : Prop :=
  ∃ (map : Proto.Map F) (game : PlanetWars F), c.readMap = some map ∧ c.createGame slots = .ok game ∧
    (∀ i < slots, ∃ p ∈ game.planets, p.owner = some i) ∧
    ∀ num < game.planets.length, ∃ name, (Game.ofState game).planetMap.lookup name = some num

end Server

/-- A planet as the client declares it. -/
structure JsonPlanet (F : Type) where
  shipCount : Number F
  x : Number F
  y : Number F
  owner : Option (Number F)
  name : String
deriving DecidableEq, Repr

def JsonPlanet.ofJson : Json F → Option (JsonPlanet F)
  | .object fields =>
    match fields.lookup "ship_count", fields.lookup "x", fields.lookup "y", fields.lookup "name" with
    | some (.number shipCount), some (.number x), some (.number y), some (.string name) =>
      match fields.lookup "owner" with
      | none | some .null => some { shipCount, x, y, owner := none, name }
      | some (.number owner) => some { shipCount, x, y, owner := some owner, name }
      | _ => none
    | _, _, _, _ => none
  | _ => none

/-- The planets of a map, if it is one. -/
def gameMap : Json F → Option (List (JsonPlanet F))
  | .object fields =>
    match fields.lookup "planets" with
    | some (.array planets) => planets.mapM JsonPlanet.ofJson
    | _ => none
  | _ => none

/-- The numbers of the players that have a planet, one for each of these planets. -/
def playerNumbers (planets : List (JsonPlanet F)) : List (Number F) := planets.filterMap (·.owner)

/-- What a map needs beyond its type: counts and player numbers that are 64-bit integers,
coordinates that are finite, player numbers from one on that are there once each, ships on
the planets of the players, and no name twice. -/
structure Fit (planets : List (JsonPlanet F)) : Prop where
  shipCounts : ∀ p ∈ planets, ∃ n < 2 ^ 64, p.shipCount = .digits n
  coordinates : ∀ p ∈ planets, p.x ≠ .infinite ∧ p.y ≠ .infinite
  numbers : (playerNumbers planets).Perm
    ((List.range (playerNumbers planets).length).map fun i => .digits (i + 1))
  inRange : (playerNumbers planets).length < 2 ^ 64
  settled : ∀ p ∈ planets, p.owner ≠ none → p.shipCount ≠ .digits 0
  names : (planets.map (·.name)).Nodup

/-! ## The game on the server -/

/-- A planet of the map file as it enters the game. -/
structure Entered (slots : Nat) (planet : Proto.Planet F) (p : Planet F) : Prop where
  name : p.name = planet.name
  owner : ∀ i, p.owner = some i ↔ planet.owner = some (i + 1) ∧ i < slots ∧ planet.shipCount ≠ 0

theorem loadPlanet_entered (slots : Nat) (planet : Proto.Planet F) (num : Nat) :
    Safe (fun _ => planet.owner = some 0) (Entered slots planet)
      (Config.loadPlanet slots planet num) := by
  rw [Config.loadPlanet]
  cases howner : planet.owner with
  | none =>
    refine ⟨rfl, fun i => ?_⟩
    dsimp only [Planet.owner]
    split <;> simp [howner]
  | some o =>
    cases o with
    | zero => simp [checkedSub]
    | succ o =>
      simp only [checkedSub_of_le (Nat.le_add_left 1 o), ok_bind, pure_bind]
      refine ⟨rfl, fun i => ?_⟩
      by_cases hships : planet.shipCount > 0
      · by_cases hid : o < slots
        · have hsome : some o = some i ↔ some (o + 1) = some (i + 1) ∧ i < slots := by
            simp only [Option.some.injEq, Nat.succ.injEq, iff_self_and]
            rintro rfl
            exact hid
          simpa [Planet.owner, howner, hships, hid, Nat.pos_iff_ne_zero.mp hships] using hsome
        · simp [Planet.owner, howner, hships, hid]
          exact fun h hi => absurd (h ▸ hi) hid
      · simp [Planet.owner, howner, hships]
        omega

theorem map_name_entered {slots : Nat} {planets : List (Proto.Planet F)} {planets' : List (Planet F)}
    (h : List.Forall₂ (Entered slots) planets planets') :
    planets'.map (·.name) = planets.map (·.name) := by
  induction h with
  | nil => rfl
  | cons hp _ ih => rw [List.map_cons, List.map_cons, hp.name, ih]

section Server
variable [External F] {c : Config} {map : Proto.Map F}

theorem createGame_entered (hmap : c.readMap = some map) (slots : Nat) :
    Safe (fun _ => ∃ planet ∈ map.planets, planet.owner = some 0)
      (fun game : PlanetWars F => List.Forall₂ (Entered slots) map.planets game.planets)
      (c.createGame slots) := by
  rw [Config.createGame]
  refine Safe.bind (P := List.Forall₂ (Entered slots) map.planets) ?_ fun planets h => h
  rw [Config.loadMap, hmap]
  have hplanets : map.planets.zipIdx.map Prod.fst = map.planets := List.zipIdx_map_fst _ _
  refine (Safe.mapM (T := fun x => Entered slots x.1) fun x hx => ?_).weaken fun planets h => ?_
  · exact (loadPlanet_entered slots x.1 x.2).mono
      (fun _ h => ⟨x.1, hplanets ▸ List.mem_map_of_mem hx, h⟩) fun _ h => h
  · rw [← hplanets]
    exact List.forall₂_map_left_iff.mpr h

end Server

/-- A map of names leads to every position if no name was overwritten. -/
theorem addressed_iff {planets : List (Planet F)}
    (hids : planets.map (·.id) = List.range planets.length) :
    (∀ num < planets.length, ∃ name,
      (HashMap.collect (planets.map fun p => (p.name, p.id))).lookup name = some num) ↔
      (planets.map (·.name)).Nodup := by
  have hid {i : Nat} (hi : i < planets.length) : planets[i].id = i := by
    have h := List.getElem_map (h := by simpa using hi) (·.id) (l := planets) (i := i)
    simp only [hids, List.getElem_range] at h
    exact h.symm
  constructor
  · intro h
    have hnamed {i : Nat} (hi : i < planets.length) :
        (HashMap.collect (planets.map fun p => (p.name, p.id))).lookup planets[i].name = some i := by
      obtain ⟨name, hname⟩ := h i hi
      obtain ⟨p, hp, heq⟩ := List.mem_map.mp (HashMap.mem_of_lookup_collect hname)
      obtain ⟨j, hj, rfl⟩ := List.getElem_of_mem hp
      rw [hid hj, Prod.mk.injEq] at heq
      obtain ⟨rfl, rfl⟩ := heq
      exact hname
    rw [List.nodup_iff_injective_get]
    intro i j hij
    have hi : i.val < planets.length := by simpa using i.isLt
    have hj : j.val < planets.length := by simpa using j.isLt
    have heq : planets[i.val].name = planets[j.val].name := by simpa using hij
    have hlookup := hnamed hi
    rw [heq, hnamed hj] at hlookup
    exact Fin.ext (Option.some.inj hlookup).symm
  · intro hnd num hnum
    refine ⟨planets[num].name, ?_⟩
    rw [HashMap.lookup_collect_of_nodup (by simpa [Function.comp_def] using hnd)]
    exact List.mem_map.mpr ⟨planets[num], List.getElem_mem _, by rw [hid hnum]⟩

section Server
variable [External F] {c : Config} {map : Proto.Map F}

/-- A map that is playable has planets for all players, and tells all of them apart. -/
theorem Playable.entered {slots : Nat} (h : Playable (F := F) c slots) (hmap : c.readMap = some map) :
    (∀ i < slots, ∃ planet ∈ map.planets, planet.owner = some (i + 1) ∧ planet.shipCount ≠ 0) ∧
      (map.planets.map (·.name)).Nodup := by
  obtain ⟨map', game, hmap', hgame, howned, haddressed⟩ := h
  obtain rfl := Option.some.inj (hmap.symm.trans hmap')
  have hentered := (createGame_entered hmap slots).of_ok hgame
  constructor
  · intro i hi
    obtain ⟨p, hp, howner⟩ := howned i hi
    obtain ⟨planet, hplanet, h⟩ := exists_of_mem_forall₂ hentered hp
    obtain ⟨hnumber, _, hships⟩ := (h.owner i).mp howner
    exact ⟨planet, hplanet, hnumber, hships⟩
  · rw [← map_name_entered hentered]
    exact (addressed_iff ((c.createGame_safe slots).of_ok hgame).planetIds).mp haddressed

theorem playable_of_readMap {slots : Nat} (hmap : c.readMap = some map)
    (hzero : ∀ planet ∈ map.planets, planet.owner ≠ some 0)
    (howners : ∀ i < slots, ∃ planet ∈ map.planets,
      planet.owner = some (i + 1) ∧ planet.shipCount ≠ 0)
    (hnames : (map.planets.map (·.name)).Nodup) : Playable (F := F) c slots := by
  have hsafe := createGame_entered hmap slots
  cases hgame : c.createGame (F := F) slots with
  | error e =>
    obtain ⟨planet, hplanet, howner⟩ := hsafe.of_error hgame
    exact absurd howner (hzero planet hplanet)
  | ok game =>
    have hentered := hsafe.of_ok hgame
    refine ⟨map, game, hmap, hgame, fun i hi => ?_, ?_⟩
    · obtain ⟨planet, hplanet, hnumber, hships⟩ := howners i hi
      obtain ⟨p, hp, h⟩ := exists_of_mem_forall₂ (List.Forall₂.flip hentered) hplanet
      exact ⟨p, hp, (h.owner i).mpr ⟨hnumber, hi, hships⟩⟩
    · rw [← map_name_entered hentered] at hnames
      exact (addressed_iff ((c.createGame_safe slots).of_ok hgame).planetIds).mpr hnames

end Server

/-! ## What the importer accepts -/

section Import
variable {obj : Json F}

theorem isNumber_iff {v : Option (Json F)} : isNumber v = true ↔ ∃ n, v = some (.number n) := by
  rcases v with - | v
  · simp [isNumber]
  · cases v <;> simp [isNumber]

theorem isString_iff {v : Option (Json F)} : isString v = true ↔ ∃ s, v = some (.string s) := by
  rcases v with - | v
  · simp [isString]
  · cases v <;> simp [isString]

theorem isNullish_iff {v : Option (Json F)} : isNullish v = true ↔ v = none ∨ v = some .null := by
  rcases v with - | v
  · simp [isNullish]
  · cases v <;> simp [isNullish]

/-- A check that the validator does not get past. -/
theorem check_iff {b : Bool} {rest : Except JsError Bool} :
    (if (!b) = true then pure false else rest) = Except.ok true ↔ b = true ∧ rest = .ok true := by
  cases b
  · simp [pure, Except.pure]
  · simp

/-- The validator and the declared type agree. -/
theorem isJsonPlanet_iff : isJsonPlanet obj = .ok true ↔ ∃ p, JsonPlanet.ofJson obj = some p := by
  cases obj with
  | object fields =>
    simp only [isJsonPlanet, get, ok_bind, check_iff, Bool.or_eq_true, isNumber_iff,
      isNullish_iff]
    constructor
    · rintro ⟨_, ⟨ships, hships⟩, ⟨x, hx⟩, ⟨y, hy⟩, howner, hname⟩
      obtain ⟨name, hname⟩ := isString_iff.mp (Except.ok.inj hname)
      rcases howner with ⟨owner, howner⟩ | howner | howner
      all_goals exact ⟨_, by simp only [JsonPlanet.ofJson, hships, hx, hy, hname, howner]; rfl⟩
    · rintro ⟨p, h⟩
      rw [JsonPlanet.ofJson] at h
      split at h
      · rename_i ships x y name hships hx hy hname
        refine ⟨rfl, ⟨_, hships⟩, ⟨_, hx⟩, ⟨_, hy⟩, ?_, by rw [hname]; rfl⟩
        split at h
        · exact .inr (.inl ‹_›)
        · exact .inr (.inr ‹_›)
        · exact .inl ⟨_, ‹_›⟩
        · cases h
      · cases h
  | null => simp [isJsonPlanet, isObject, get, JsonPlanet.ofJson]
  | array => simp [isJsonPlanet, isObject, get, JsonPlanet.ofJson, isNumber, pure, Except.pure]
  | _ => simp [isJsonPlanet, isObject, JsonPlanet.ofJson, pure, Except.pure]

theorem allM_iff {f : Json F → Except JsError Bool} {l : List (Json F)} :
    l.allM f = .ok true ↔ ∀ a ∈ l, f a = .ok true := by
  induction l with
  | nil => simp [List.allM, pure, Except.pure]
  | cons a l ih =>
    rw [List.allM, List.forall_mem_cons, ← ih, bind_eq_ok]
    constructor
    · rintro ⟨b, hb, h⟩
      cases b
      · cases h
      · exact ⟨hb, h⟩
    · rintro ⟨ha, h⟩
      exact ⟨true, ha, h⟩

theorem mapM_eq_some_iff {α β : Type} {f : α → Option β} {l : List α} {l' : List β} :
    l.mapM f = some l' ↔ List.Forall₂ (fun a b => f a = some b) l l' := by
  induction l generalizing l' with
  | nil => simp [eq_comm]
  | cons a l ih =>
    rw [List.mapM_cons, List.forall₂_cons_left_iff]
    simp only [Option.bind_eq_bind, Option.bind_eq_some_iff, ih, Option.pure_def, Option.some.injEq]
    constructor
    · rintro ⟨b, hb, rest, hrest, rfl⟩
      exact ⟨b, rest, hb, hrest, rfl⟩
    · rintro ⟨b, rest, hb, hrest, rfl⟩
      exact ⟨b, hb, rest, hrest, rfl⟩

theorem exists_mapM {α β : Type} {f : α → Option β} {l : List α} (h : ∀ a ∈ l, ∃ b, f a = some b) :
    ∃ l', l.mapM f = some l' := by
  simp only [mapM_eq_some_iff]
  induction l with
  | nil => exact ⟨[], .nil⟩
  | cons a l ih =>
    obtain ⟨b, hb⟩ := h a List.mem_cons_self
    obtain ⟨l', hl'⟩ := ih fun a' ha' => h a' (List.mem_cons_of_mem a ha')
    exact ⟨b :: l', .cons hb hl'⟩

theorem isGameMap_iff {map : Json F} :
    isGameMap map = .ok true ↔ ∃ planets, gameMap map = some planets := by
  cases map with
  | object fields =>
    simp only [isGameMap, get, ok_bind, check_iff, gameMap]
    split
    · rename_i values _
      rw [allM_iff]
      simp only [isObject, true_and, isJsonPlanet_iff]
      constructor
      · exact exists_mapM
      · rintro ⟨planets, h⟩ value hvalue
        obtain ⟨p, _, hp⟩ :=
          exists_of_mem_forall₂ (List.Forall₂.flip (mapM_eq_some_iff.mp h)) hvalue
        exact ⟨p, hp⟩
    · simp [pure, Except.pure]
  | null => simp [isGameMap, isObject, get, gameMap]
  | array => simp [isGameMap, isObject, get, gameMap, pure, Except.pure]
  | _ => simp [isGameMap, isObject, gameMap, pure, Except.pure]

/-- What the importer counts as a slot is a planet with an owner. -/
theorem owned_eq {p : JsonPlanet F} (h : JsonPlanet.ofJson obj = some p) :
    (get obj "owner" >>= fun owner => pure (truthyValue owner || isZero owner)) =
      Except.ok p.owner.isSome := by
  cases obj with
  | object fields =>
    rw [JsonPlanet.ofJson] at h
    split at h
    · rw [get, ok_bind]
      split at h
      · rename_i howner
        obtain rfl := Option.some.inj h
        rw [howner]
        rfl
      · rename_i howner
        obtain rfl := Option.some.inj h
        rw [howner]
        rfl
      · rename_i n howner
        obtain rfl := Option.some.inj h
        rw [howner]
        rcases n with (- | n) | - | - <;> rfl
      · cases h
    · cases h
  | _ => cases h

theorem filterM_owned {values : List (Json F)} {planets : List (JsonPlanet F)}
    (h : List.Forall₂ (fun value p => JsonPlanet.ofJson value = some p) values planets) :
    ∃ owned, (values.filterM fun p =>
      get p "owner" >>= fun owner => pure (truthyValue owner || isZero owner)) = .ok owned ∧
      owned.length = (playerNumbers planets).length := by
  have haux (acc : List (Json F)) : ∃ owned, (values.filterAuxM (fun p =>
      get p "owner" >>= fun owner => pure (truthyValue owner || isZero owner)) acc) = .ok owned ∧
      owned.length = acc.length + (playerNumbers planets).length := by
    induction h generalizing acc with
    | nil => exact ⟨acc, rfl, rfl⟩
    | @cons value p values planets hp _ ih =>
      obtain ⟨owned, howned, hlength⟩ := ih (cond p.owner.isSome (value :: acc) acc)
      refine ⟨owned, ?_, ?_⟩
      · rw [List.filterAuxM, owned_eq hp, ok_bind]
        exact howned
      · rw [hlength, playerNumbers, playerNumbers, List.filterMap_cons]
        cases p.owner <;> simp
        omega
  obtain ⟨owned, howned, hlength⟩ := haux []
  refine ⟨owned.reverse, ?_, by simpa using hlength⟩
  rw [List.filterM, howned, ok_bind]
  rfl

/-- What the importer records is recorded of a map. -/
theorem importMap_spec {map : Json F} {imported : MapMeta} (h : importMap map = .ok imported) :
    ∃ planets, gameMap map = some planets ∧ imported.slots = (playerNumbers planets).length ∧
      imported.written = map.stringify := by
  rw [importMap] at h
  obtain ⟨valid, hvalid, h⟩ := bind_eq_ok.mp h
  cases valid with
  | false => cases h
  | true =>
    obtain ⟨planets, hplanets⟩ := isGameMap_iff.mp hvalid
    cases map with
    | object fields =>
      rw [gameMap] at hplanets
      split at hplanets
      · rename_i values hvalues
        obtain ⟨owned, howned, hlength⟩ := filterM_owned (mapM_eq_some_iff.mp hplanets)
        have hget : get (.object fields) "planets" = .ok (some (.array values)) :=
          congrArg Except.ok hvalues
        simp only [Bool.not_true, Bool.false_eq_true, if_false, hget, ok_bind, howned] at h
        obtain rfl := Except.ok.inj h
        exact ⟨planets, by rw [gameMap, hvalues]; exact hplanets, hlength, rfl⟩
      · cases hplanets
    | _ => cases hplanets

end Import

/-! ## What the server reads -/

section Read
variable [NatCast F]

/-- The planet that `serde_json` reads where the client declares `p`. -/
def JsonPlanet.read (p : JsonPlanet F) : Option (Proto.Planet F) := do
  let shipCount ← (Json.number p.shipCount).toU64
  let x ← (Json.number p.x).toF64
  let y ← (Json.number p.y).toF64
  let owner ← ((p.owner.map Json.number).getD .null).toOptionU64
  some { shipCount, x, y, owner, name := p.name }

theorem ofJson_eq_read {obj : Json F} {p : JsonPlanet F} (h : JsonPlanet.ofJson obj = some p) :
    Proto.Planet.ofJson obj = p.read := by
  cases obj with
  | object fields =>
    rw [JsonPlanet.ofJson] at h
    split at h
    · rename_i ships x y name hships hx hy hname
      rw [Proto.Planet.ofJson, hships, hx, hy, hname]
      split at h <;> rename_i howner <;> cases h <;> simp [JsonPlanet.read, howner, Json.toStr]
    · cases h
  | _ => cases h

theorem mapOfJson_eq {map : Json F} {planets : List (JsonPlanet F)}
    (h : gameMap map = some planets) :
    Proto.Map.ofJson map = (planets.mapM JsonPlanet.read).map Proto.Map.mk := by
  cases map with
  | object fields =>
    rw [gameMap] at h
    split at h
    · rename_i values hvalues
      have hread : values.mapM Proto.Planet.ofJson = planets.mapM JsonPlanet.read := by
        have hforall := mapM_eq_some_iff.mp h
        clear h hvalues
        induction hforall with
        | nil => rfl
        | cons hp _ ih => rw [List.mapM_cons, List.mapM_cons, ofJson_eq_read hp, ih]
      rw [Proto.Map.ofJson, hvalues, ← hread, Option.map_eq_bind]
      rfl
    · cases h
  | _ => cases h

variable {p : JsonPlanet F} {planet : Proto.Planet F}

omit [NatCast F] in
theorem toU64_iff {n : Number F} {k : Nat} :
    (Json.number n).toU64 = some k ↔ n = .digits k ∧ k < 2 ^ 64 := by
  cases n with
  | digits m =>
    simp only [Json.toU64, Option.ite_none_right_eq_some, Option.some.injEq, Number.digits.injEq]
    constructor
    · rintro ⟨hm, rfl⟩
      exact ⟨rfl, hm⟩
    · rintro ⟨rfl, hm⟩
      exact ⟨hm, rfl⟩
  | _ => simp [Json.toU64]

theorem exists_toF64_iff {n : Number F} : (∃ x, (Json.number n).toF64 = some x) ↔ n ≠ .infinite := by
  cases n <;> simp [Json.toF64]

/-- What is read of a planet, and of which planets. -/
theorem read_iff : p.read = some planet ↔
    (p.shipCount = .digits planet.shipCount ∧ planet.shipCount < 2 ^ 64) ∧
    (Json.number p.x).toF64 = some planet.x ∧ (Json.number p.y).toF64 = some planet.y ∧
    ((p.owner.map Json.number).getD .null).toOptionU64 = some planet.owner ∧
    p.name = planet.name := by
  obtain ⟨ships, x, y, owner, name⟩ := planet
  simp only [JsonPlanet.read, Option.bind_eq_bind, Option.bind_eq_some_iff, toU64_iff,
    Option.some.injEq, Proto.Planet.mk.injEq]
  constructor
  · rintro ⟨_, hships, _, hx, _, hy, _, howner, rfl, rfl, rfl, rfl, hname⟩
    exact ⟨hships, hx, hy, howner, hname⟩
  · rintro ⟨hships, hx, hy, howner, hname⟩
    exact ⟨_, hships, _, hx, _, hy, _, howner, rfl, rfl, rfl, rfl, hname⟩

omit [NatCast F] in
theorem owner_read_iff {k : Nat} :
    ((p.owner.map Json.number).getD .null).toOptionU64 = some (some k) ↔
      p.owner = some (.digits k) ∧ k < 2 ^ 64 := by
  cases howner : p.owner with
  | none => simp [Json.toOptionU64]
  | some n =>
    cases n with
    | digits m =>
      have h := toU64_iff (n := Number.digits (F := F) m) (k := k)
      simpa [Json.toOptionU64] using h
    | other text x => simp [Json.toOptionU64, Json.toU64]
    | infinite => simp [Json.toOptionU64]

omit [NatCast F] in
/-- An owner that is there once tells the planet. -/
theorem eq_of_owner {planets : List (JsonPlanet F)} (hnd : (playerNumbers planets).Nodup)
    {q : JsonPlanet F} (hp : p ∈ planets) (hq : q ∈ planets) {o : Number F}
    (hpo : p.owner = some o) (hqo : q.owner = some o) : p = q := by
  by_contra hne
  have hpairwise := List.pairwise_filterMap.mp hnd
  have hsymm : Std.Symm fun a b : JsonPlanet F =>
      ∀ o, a.owner = some o → ∀ o', b.owner = some o' → o ≠ o' :=
    ⟨fun a b h o ho o' ho' => (h o' ho' o ho).symm⟩
  exact hpairwise.forall hp hq hne o hpo o hqo rfl

section Agreement
variable [External F] {c : Config} {planets : List (JsonPlanet F)} {protos : List (Proto.Planet F)}
  {slots : Nat}

omit [External F] in
theorem map_name_read (hread : planets.mapM JsonPlanet.read = some protos) :
    protos.map (·.name) = planets.map (·.name) := by
  have hforall := mapM_eq_some_iff.mp hread
  clear hread
  induction hforall with
  | nil => rfl
  | cons hp _ ih =>
    obtain ⟨_, _, _, _, hname⟩ := read_iff.mp hp
    rw [List.map_cons, List.map_cons, hname, ih]

/-- A playable map is fit. -/
theorem Playable.fit (hslots : slots = (playerNumbers planets).length)
    (hmap : c.readMap = (planets.mapM JsonPlanet.read).map Proto.Map.mk)
    (h : Playable (F := F) c slots) : Fit planets := by
  have hplayable := h
  obtain ⟨map, _, hmapped, _⟩ := h
  rw [hmapped] at hmap
  obtain ⟨protos, hread, rfl⟩ := Option.map_eq_some_iff.mp hmap.symm
  obtain ⟨hplayers, hnames⟩ := hplayable.entered hmapped
  have hforall := mapM_eq_some_iff.mp hread
  have hplanet (p : JsonPlanet F) (hp : p ∈ planets) : ∃ planet, p.read = some planet := by
    obtain ⟨planet, _, hplanet⟩ := exists_of_mem_forall₂ (List.Forall₂.flip hforall) hp
    exact ⟨planet, hplanet⟩
  have hplayer (i : Nat) (hi : i < slots) : ∃ p ∈ planets, p.owner = some (.digits (i + 1)) ∧
      i + 1 < 2 ^ 64 ∧ p.shipCount ≠ .digits 0 := by
    obtain ⟨planet, hmem, howner, hships⟩ := hplayers i hi
    obtain ⟨p, hp, hread⟩ := exists_of_mem_forall₂ hforall hmem
    obtain ⟨⟨hcount, _⟩, _, _, hread, _⟩ := read_iff.mp hread
    rw [howner] at hread
    obtain ⟨hnumber, hlt⟩ := owner_read_iff.mp hread
    refine ⟨p, hp, hnumber, hlt, ?_⟩
    rw [hcount]
    simpa using hships
  have hnumbers : ((List.range slots).map fun i => Number.digits (F := F) (i + 1)).Nodup :=
    List.nodup_range.map fun i j hij => by simpa using hij
  have howners : (playerNumbers planets).Perm
      ((List.range slots).map fun i => .digits (i + 1)) := by
    have hsubset : ((List.range slots).map fun i => Number.digits (F := F) (i + 1)) ⊆
        playerNumbers planets := by
      intro n hn
      obtain ⟨i, hi, rfl⟩ := List.mem_map.mp hn
      obtain ⟨p, hp, howner, _⟩ := hplayer i (List.mem_range.mp hi)
      exact List.mem_filterMap.mpr ⟨p, hp, howner⟩
    refine ((List.subperm_of_subset hnumbers hsubset).perm_of_length_le ?_).symm
    rw [List.length_map, List.length_range, hslots]
  refine ⟨?_, ?_, hslots ▸ howners, ?_, ?_, ?_⟩
  · intro p hp
    obtain ⟨planet, hplanet⟩ := hplanet p hp
    obtain ⟨⟨hcount, hlt⟩, _⟩ := read_iff.mp hplanet
    exact ⟨_, hlt, hcount⟩
  · intro p hp
    obtain ⟨planet, hplanet⟩ := hplanet p hp
    obtain ⟨_, hx, hy, _⟩ := read_iff.mp hplanet
    exact ⟨exists_toF64_iff.mp ⟨_, hx⟩, exists_toF64_iff.mp ⟨_, hy⟩⟩
  · rw [← hslots]
    cases slots with
    | zero => norm_num
    | succ n =>
      obtain ⟨_, _, _, hlt, _⟩ := hplayer n (Nat.lt_succ_self n)
      exact hlt
  · intro p hp howner
    obtain ⟨o, ho⟩ := Option.ne_none_iff_exists'.mp howner
    have hmem := howners.subset (List.mem_filterMap.mpr ⟨p, hp, ho⟩)
    obtain ⟨i, hi, rfl⟩ := List.mem_map.mp hmem
    obtain ⟨q, hq, hqo, _, hships⟩ := hplayer i (List.mem_range.mp hi)
    rwa [eq_of_owner (howners.nodup_iff.mpr hnumbers) hp hq ho hqo]
  · rwa [← map_name_read hread]

omit [External F] in
/-- The server can read a fit map. -/
theorem Fit.exists_read (h : Fit planets) : ∃ protos, planets.mapM JsonPlanet.read = some protos := by
  apply exists_mapM
  intro p hp
  obtain ⟨ships, hlt, hships⟩ := h.shipCounts p hp
  obtain ⟨x, hx⟩ := exists_toF64_iff.mpr (h.coordinates p hp).1
  obtain ⟨y, hy⟩ := exists_toF64_iff.mpr (h.coordinates p hp).2
  cases howner : p.owner with
  | none =>
    exact ⟨⟨ships, x, y, none, p.name⟩, read_iff.mpr ⟨⟨hships, hlt⟩, hx, hy, by rw [howner]; rfl, rfl⟩⟩
  | some o =>
    have hmem := h.numbers.subset (List.mem_filterMap.mpr ⟨p, hp, howner⟩)
    obtain ⟨i, hi, rfl⟩ := List.mem_map.mp hmem
    have hi := List.mem_range.mp hi
    have hrange := h.inRange
    have hnumber := owner_read_iff.mpr ⟨howner, (by omega : i + 1 < 2 ^ 64)⟩
    exact ⟨⟨ships, x, y, some (i + 1), p.name⟩, read_iff.mpr ⟨⟨hships, hlt⟩, hx, hy, hnumber, rfl⟩⟩

theorem Fit.playable (h : Fit planets)
    (hmap : c.readMap = (planets.mapM JsonPlanet.read).map Proto.Map.mk) :
    Playable (F := F) c (playerNumbers planets).length := by
  obtain ⟨protos, hread⟩ := h.exists_read
  rw [hread] at hmap
  have hforall := mapM_eq_some_iff.mp hread
  refine playable_of_readMap hmap ?_ ?_ ?_
  · intro planet hplanet howner
    obtain ⟨p, hp, hpread⟩ := exists_of_mem_forall₂ hforall hplanet
    obtain ⟨_, _, _, hnumber, _⟩ := read_iff.mp hpread
    rw [howner] at hnumber
    obtain ⟨hzero, _⟩ := owner_read_iff.mp hnumber
    have hmem := h.numbers.subset (List.mem_filterMap.mpr ⟨p, hp, hzero⟩)
    simp at hmem
  · intro i hi
    have hmem : Number.digits (i + 1) ∈ playerNumbers planets :=
      h.numbers.symm.subset (List.mem_map.mpr ⟨i, List.mem_range.mpr hi, rfl⟩)
    obtain ⟨p, hp, howner⟩ := List.mem_filterMap.mp hmem
    obtain ⟨planet, hplanet, hpread⟩ := exists_of_mem_forall₂ (List.Forall₂.flip hforall) hp
    obtain ⟨⟨hships, _⟩, _, _, hnumber, _⟩ := read_iff.mp hpread
    have hrange := h.inRange
    rw [owner_read_iff.mpr ⟨howner, (by omega : i + 1 < 2 ^ 64)⟩] at hnumber
    refine ⟨planet, hplanet, (Option.some.inj hnumber).symm, fun hzero => ?_⟩
    rw [hzero] at hships
    exact h.settled p hp (by simp [howner]) hships
  · rw [map_name_read hread]
    exact h.names

end Agreement

/-- The maps that the importer accepts and the server can play, for as many players as the
importer recorded, on the file that the importer wrote. -/
theorem importMap_playable_iff [External F] {c : Config} {map : Json F} {imported : MapMeta}
    (himport : importMap map = .ok imported)
    (hfile : External.readFile F c.mapFile = some imported.written)
    (hserde : External.mapFromStr imported.written = Proto.Map.ofJson map) :
    Playable (F := F) c imported.slots ↔
      ∃ planets, gameMap map = some planets ∧ Fit planets := by
  obtain ⟨planets, hplanets, hslots, _⟩ := importMap_spec himport
  have hmap : c.readMap = (planets.mapM JsonPlanet.read).map Proto.Map.mk := by
    rw [Config.readMap, hfile, ← mapOfJson_eq hplanets]
    exact hserde
  constructor
  · intro h
    exact ⟨planets, hplanets, h.fit hslots hmap⟩
  · rintro ⟨planets', hplanets', h⟩
    obtain rfl := Option.some.inj (hplanets.symm.trans hplanets')
    rw [hslots]
    exact h.playable hmap
/-- A disk with one file on it, the one the importer wrote for `map`. -/
@[reducible] private def diskWith (map : Json Int) : External Int where
  readFile path := if path = "map.json" then some map.stringify else none
  mapFromStr text := if text = map.stringify then Proto.Map.ofJson map else none
  configFromSlice _ := none
  actionFromSlice _ := .error ""
  decodeLobbyMessage _ := none

/-- A map with these planets, one for each of the given player numbers. -/
private def mapOf (owners : List (String × Nat)) : Json Int :=
  .object [("planets", .array (owners.map fun (name, owner) => .object
    [("name", .string name), ("x", .number (.digits owner)), ("y", .number (.digits 0)),
      ("ship_count", .number (.digits 6)), ("owner", .number (.digits owner))]))]

private abbrev duel : Json Int := mapOf [("mars", 2), ("venus", 1)]

theorem playable_duel :
    letI := diskWith duel
    ∃ imported, importMap duel = .ok imported ∧
      Playable (F := Int) ⟨"map.json", 100⟩ imported.slots := by
  let _ := diskWith duel
  have himport : importMap duel = .ok ⟨2, duel.stringify⟩ := rfl
  have hfile : External.readFile Int "map.json" = some duel.stringify := if_pos rfl
  have hserde : External.mapFromStr duel.stringify = Proto.Map.ofJson duel := if_pos rfl
  have hiff := importMap_playable_iff (c := ⟨"map.json", 100⟩) himport hfile hserde
  refine ⟨_, himport, hiff.mpr ⟨[⟨.digits 6, .digits 2, .digits 0, some (.digits 2), "mars"⟩,
    ⟨.digits 6, .digits 1, .digits 0, some (.digits 1), "venus"⟩], rfl, ?_⟩⟩
  exact
    { shipCounts := by simp
      coordinates := by decide
      numbers := by decide
      inRange := by simp [playerNumbers]
      settled := by decide
      names := by decide }

private abbrev zero : Json Int := mapOf [("mars", 0)]

/-- The importer counts a player zero, and the server numbers players from one. -/
theorem not_playable_player_zero :
    letI := diskWith zero
    ∃ imported, importMap zero = .ok imported ∧ imported.slots = 1 ∧
      External.readFile Int "map.json" = some imported.written ∧
      External.mapFromStr imported.written = Proto.Map.ofJson zero ∧
      Config.createGame (F := Int) ⟨"map.json", 100⟩ 1 = .error .subOverflow ∧
      ¬ Playable (F := Int) ⟨"map.json", 100⟩ imported.slots := by
  let _ := diskWith zero
  have hfile : External.readFile Int "map.json" = some zero.stringify := if_pos rfl
  have hserde : External.mapFromStr zero.stringify = Proto.Map.ofJson zero := if_pos rfl
  have hmap : Config.readMap (F := Int) ⟨"map.json", 100⟩ = Proto.Map.ofJson zero := by
    rw [Config.readMap, hfile, Option.bind_eq_bind, Option.bind_some, hserde]
  have hgame : Config.createGame (F := Int) ⟨"map.json", 100⟩ 1 = .error .subOverflow := by
    rw [Config.createGame, Config.loadMap, hmap]
    rfl
  refine ⟨⟨1, zero.stringify⟩, rfl, rfl, hfile, hserde, hgame, ?_⟩
  rintro ⟨_, _, _, hok, _⟩
  rw [hgame] at hok
  cases hok

end Read
end Mozaic.Desktop
