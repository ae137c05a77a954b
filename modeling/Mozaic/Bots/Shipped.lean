import Mozaic.Game.Modest
import Mozaic.Game.View
import Mozaic.Controller.System
import Mozaic.MozaicClient.BotRunner

/-! The bots that come with the game, and how the server takes what they write. -/
namespace Mozaic.Bots
open Rust Rules Network Outcome

/-- Numbers as the bots compute with them: what is written without a fraction is an integer to
them. The square of a large float raises an exception. -/
class PyNumber (N : Type) where
  sub : N → N → N
  add : N → N → N
  square : N → Option N
  sqrt : N → N
  lt : N → N → Bool

/-- A move as it is written: the number of ships is any integer. -/
structure Move where
  origin : String
  destination : String
  shipCount : Int
deriving DecidableEq, Repr

/-! ## Minima -/

section Minimum
variable {α κ : Type} {lt : κ → κ → Bool} {key : α → Option κ} {l : List α} {a : α}

/-- One round of `min(l, key=key)`. -/
def lesser (lt : κ → κ → Bool) (key : α → Option κ) (least : α × κ) (b : α) : Option (α × κ) := do
  let k ← key b
  pure (if lt k least.2 then (b, k) else least)

/-- `min(l, key=key)`: the first element with the least key. It raises an exception where a key
does, and where there are no elements. -/
def minimum (lt : κ → κ → Bool) (key : α → Option κ) : List α → Option α
  | [] => none
  | a :: l => do
    let k ← key a
    let least ← l.foldlM (lesser lt key) (a, k)
    pure least.1

theorem mem_of_foldlM_lesser {x y : α × κ} (h : l.foldlM (lesser lt key) x = some y) :
    y.1 = x.1 ∨ y.1 ∈ l := by
  induction l generalizing x with
  | nil =>
    rw [List.foldlM_nil] at h
    exact .inl (congrArg Prod.fst (Option.some.inj h).symm)
  | cons b l ih =>
    rw [List.foldlM_cons, Option.bind_eq_bind, Option.bind_eq_some_iff] at h
    obtain ⟨z, hz, hrest⟩ := h
    rw [lesser, Option.bind_eq_bind, Option.bind_eq_some_iff] at hz
    obtain ⟨k, -, hz⟩ := hz
    rcases ih hrest with heq | hmem
    · obtain rfl := Option.some.inj hz
      split at heq
      · exact .inr (heq ▸ List.mem_cons_self)
      · exact .inl heq
    · exact .inr (List.mem_cons_of_mem _ hmem)

theorem mem_of_minimum (h : minimum lt key l = some a) : a ∈ l := by
  cases l with
  | nil => cases h
  | cons b l =>
    simp only [minimum, Option.bind_eq_bind, Option.bind_eq_some_iff] at h
    obtain ⟨k, -, least, hfold, hleast⟩ := h
    obtain rfl := Option.some.inj hleast
    rcases mem_of_foldlM_lesser hfold with heq | hmem
    · exact heq ▸ List.mem_cons_self
    · exact List.mem_cons_of_mem _ hmem

end Minimum

/-! ## The bots -/

section Bots
variable {N : Type} (state : Proto.State N)

/-- A bot is player number 1 to itself. -/
def myPlanets : List (Proto.Planet N) := state.planets.filter (·.owner = some 1)

def unownedPlanets : List (Proto.Planet N) := state.planets.filter (·.owner = none)

def otherPlanets : List (Proto.Planet N) := state.planets.filter (·.owner ≠ some 1)

/-- All but one of the ships on `mine` go to `target`. -/
def move (mine target : Proto.Planet N) : Move where
  origin := mine.name
  destination := target.name
  shipCount := (mine.shipCount : Int) - 1

def silent : List (Option Move) := []

/-- The strongest planet attacks the weakest one that it can. A move may be `null`. -/
def simple : Option (List (Option Move)) :=
  if (myPlanets state).isEmpty || (otherPlanets state).isEmpty then some [none]
  else do
    let planet ← minimum (fun a b => b < a) (fun p => some p.shipCount) (myPlanets state)
    let dest ← minimum (fun a b => a < b) (fun p => some p.shipCount) (otherPlanets state)
    pure [some (move planet dest)]

variable [PyNumber N]

def distance (first second : Proto.Planet N) : Option N := do
  let dx ← PyNumber.square (PyNumber.sub first.x second.x)
  let dy ← PyNumber.square (PyNumber.sub first.y second.y)
  pure (PyNumber.sqrt (PyNumber.add dx dy))

/-- The move of one planet to the closest other one. Those without an owner come first. -/
def aim (mine : Proto.Planet N) : Option (List Move) :=
  if !(unownedPlanets state).isEmpty then do
    let target ← minimum PyNumber.lt (fun p => distance p mine) (unownedPlanets state)
    pure [move mine target]
  else if !(otherPlanets state).isEmpty then do
    let target ← minimum PyNumber.lt (fun p => distance p mine) (otherPlanets state)
    pure [move mine target]
  else pure []

/-- The loop of the less simple bot over its planets. -/
def aimAll : List (Proto.Planet N) → Option (List Move)
  | [] => some []
  | mine :: rest => do
    let moves ← aim state mine
    let others ← aimAll rest
    pure (moves ++ others)

def lessSimple : Option (List (Option Move)) := do
  let moves ← aimAll state (myPlanets state)
  pure (moves.map some)

end Bots

inductive Shipped where
  | silent
  | simple
  | lessSimple
deriving DecidableEq, Repr

/-- What a bot writes about a state, unless it raises an exception. -/
def Shipped.moves {N : Type} [PyNumber N] (state : Proto.State N) :
    Shipped → Option (List (Option Move))
  | silent => some Bots.silent
  | simple => Bots.simple state
  | lessSimple => Bots.lessSimple state

/-! ## Moves of bots -/

/-- The moves leave one ship each on planets of the bot. -/
structure Thrifty {N : Type} (state : Proto.State N) (moves : List Move) : Prop where
  once : (moves.map (·.origin)).Nodup
  origins : ∀ mv ∈ moves, ∃ p ∈ state.planets, p.name = mv.origin ∧ p.owner = some 1 ∧
    mv.shipCount = (p.shipCount : Int) - 1
  destinations : ∀ mv ∈ moves, ∃ p ∈ state.planets, p.name = mv.destination

section Thrifty
variable {N : Type} {state : Proto.State N}

theorem mem_planets_of_minimum {κ : Type} {lt : κ → κ → Bool} {key : Proto.Planet N → Option κ}
    {f : Proto.Planet N → Bool} {target : Proto.Planet N}
    (h : minimum lt key (state.planets.filter f) = some target) : target ∈ state.planets :=
  List.mem_of_mem_filter (mem_of_minimum h)

theorem simple_thrifty {moves : List (Option Move)} (h : simple state = some moves) :
    (moves = [none] ∧ (myPlanets state = [] ∨ otherPlanets state = [])) ∨
      ∃ mvs, moves = mvs.map some ∧ Thrifty state mvs := by
  rw [simple] at h
  split at h
  · rename_i hnone
    rw [Bool.or_eq_true, List.isEmpty_iff, List.isEmpty_iff] at hnone
    exact .inl ⟨(Option.some.inj h).symm, hnone⟩
  · simp only [Option.bind_eq_bind, Option.bind_eq_some_iff] at h
    obtain ⟨planet, hplanet, dest, hdest, hmoves⟩ := h
    obtain rfl := Option.some.inj hmoves
    obtain ⟨hmem, howner⟩ := List.mem_filter.mp (mem_of_minimum hplanet)
    refine .inr ⟨[move planet dest], rfl, List.nodup_singleton _, ?_, ?_⟩ <;> intro mv hmv
    · rw [List.mem_singleton.mp hmv]
      exact ⟨planet, hmem, rfl, of_decide_eq_true howner, rfl⟩
    · rw [List.mem_singleton.mp hmv]
      exact ⟨dest, mem_planets_of_minimum hdest, rfl⟩

variable [PyNumber N]

theorem aim_cases {mine : Proto.Planet N} {moves : List Move} (h : aim state mine = some moves) :
    moves = [] ∨ ∃ target ∈ state.planets, moves = [move mine target] := by
  rw [aim] at h
  split_ifs at h
  · simp only [Option.bind_eq_bind, Option.bind_eq_some_iff] at h
    obtain ⟨target, htarget, hmoves⟩ := h
    exact .inr ⟨target, mem_planets_of_minimum htarget, (Option.some.inj hmoves).symm⟩
  · simp only [Option.bind_eq_bind, Option.bind_eq_some_iff] at h
    obtain ⟨target, htarget, hmoves⟩ := h
    exact .inr ⟨target, mem_planets_of_minimum htarget, (Option.some.inj hmoves).symm⟩
  · exact .inl (Option.some.inj h).symm

theorem aimAll_origins {l : List (Proto.Planet N)} {moves : List Move}
    (h : aimAll state l = some moves) :
    (moves.map (·.origin)).Sublist (l.map (·.name)) ∧
      ∀ mv ∈ moves, ∃ mine ∈ l, ∃ target ∈ state.planets, mv = move mine target := by
  induction l generalizing moves with
  | nil =>
    obtain rfl := Option.some.inj h
    exact ⟨.slnil, nofun⟩
  | cons mine l ih =>
    simp only [aimAll, Option.bind_eq_bind, Option.bind_eq_some_iff] at h
    obtain ⟨own, hown, others, hothers, hmoves⟩ := h
    obtain rfl := Option.some.inj hmoves
    obtain ⟨hsub, hall⟩ := ih hothers
    have hothers' : ∀ mv ∈ others, ∃ mine' ∈ mine :: l, ∃ target ∈ state.planets,
        mv = move mine' target := by
      intro mv hmv
      obtain ⟨mine', hmine', hmove⟩ := hall mv hmv
      exact ⟨mine', List.mem_cons_of_mem _ hmine', hmove⟩
    rcases aim_cases hown with rfl | ⟨target, htarget, rfl⟩
    · exact ⟨hsub.cons _, hothers'⟩
    · refine ⟨hsub.cons_cons _, fun mv hmv => ?_⟩
      rcases List.mem_cons.mp hmv with rfl | hmv
      · exact ⟨mine, List.mem_cons_self, target, htarget, rfl⟩
      · exact hothers' mv hmv

theorem lessSimple_thrifty (hnames : (state.planets.map (·.name)).Nodup)
    {moves : List (Option Move)} (h : lessSimple state = some moves) :
    ∃ mvs, moves = mvs.map some ∧ Thrifty state mvs := by
  simp only [lessSimple, Option.bind_eq_bind, Option.bind_eq_some_iff] at h
  obtain ⟨mvs, hmvs, hmoves⟩ := h
  obtain ⟨hsub, hall⟩ := aimAll_origins hmvs
  refine ⟨mvs, (Option.some.inj hmoves).symm, ?_, fun mv hmv => ?_, fun mv hmv => ?_⟩
  · exact hnames.sublist (hsub.trans (List.filter_sublist.map _))
  · obtain ⟨mine, hmine, target, -, rfl⟩ := hall mv hmv
    obtain ⟨hmem, howner⟩ := List.mem_filter.mp hmine
    exact ⟨mine, hmem, rfl, of_decide_eq_true howner, rfl⟩
  · obtain ⟨mine, -, target, htarget, rfl⟩ := hall mv hmv
    exact ⟨target, htarget, rfl⟩

/-- A bot is thrifty, but for the `null` of the simple one. -/
theorem Shipped.thrifty (hnames : (state.planets.map (·.name)).Nodup) {bot : Shipped}
    {moves : List (Option Move)} (h : bot.moves state = some moves) :
    (bot = .simple ∧ moves = [none] ∧ (myPlanets state = [] ∨ otherPlanets state = [])) ∨
      ∃ mvs, moves = mvs.map some ∧ Thrifty state mvs := by
  cases bot with
  | silent => exact .inr ⟨[], (Option.some.inj h).symm, List.nodup_nil, nofun, nofun⟩
  | simple => exact (simple_thrifty h).imp_left fun hnull => ⟨rfl, hnull⟩
  | lessSimple => exact .inr (lessSimple_thrifty hnames h)

end Thrifty

/-! ## What a bot is given -/

/-- What a bot reads for the numbers in a message. The client parses the message, where a number
becomes a double, and writes the state to the bot. A double holds each of the smaller integers. -/
structure Relay (F N : Type) where
  integer : Nat → Nat
  float : F → N
  integer_eq : ∀ n < 2 ^ 53, integer n = n

namespace Relay
variable {F N : Type} (relay : Relay F N)

def planet (p : Proto.Planet F) : Proto.Planet N where
  shipCount := relay.integer p.shipCount
  x := relay.float p.x
  y := relay.float p.y
  owner := p.owner.map relay.integer
  name := p.name

def expedition (e : Proto.Expedition) : Proto.Expedition where
  id := relay.integer e.id
  shipCount := relay.integer e.shipCount
  origin := e.origin
  destination := e.destination
  owner := relay.integer e.owner
  turnsRemaining := relay.integer e.turnsRemaining

def state (s : Proto.State F) : Proto.State N where
  planets := s.planets.map relay.planet
  expeditions := s.expeditions.map relay.expedition

end Relay

/-! ## What the server reads -/

/-- The command that is read from a move, if the server can read it. -/
def Move.command (mv : Move) : Option Proto.Command :=
  if 0 ≤ mv.shipCount ∧ mv.shipCount < 2 ^ 64 then
    some ⟨mv.origin, mv.destination, mv.shipCount.toNat⟩
  else none

/-- `null` is no command. -/
def commandsOf (moves : List (Option Move)) : Option (List Proto.Command) :=
  moves.mapM fun mv => mv.bind Move.command

/-- The server reads these moves from a message, or an error if they are no commands. -/
def ReadAs (F : Type) [External F] (message : List UInt8) (moves : List (Option Move)) : Prop :=
  match commandsOf moves with
  | some commands => External.actionFromSlice F message = .ok ⟨commands⟩
  | none => ∃ err, External.actionFromSlice F message = .error err

theorem commandsOf_map {read : Move → Proto.Command} {moves : List Move}
    (h : ∀ mv ∈ moves, mv.command = some (read mv)) :
    commandsOf (moves.map some) = some (moves.map read) := by
  induction moves with
  | nil => rfl
  | cons mv moves ih =>
    have hrest := ih fun mv hmv => h mv (List.mem_cons_of_mem _ hmv)
    rw [commandsOf] at hrest ⊢
    rw [List.map_cons, List.mapM_cons, hrest, Option.bind_some, h mv List.mem_cons_self]
    rfl

/-- Player number 1 in what player `i` is sent is player `i`. -/
theorem rotate_eq_one_iff {n i j : Nat} (hi : i < n) (hj : j < n) :
    rotate n (n - i) j = 1 ↔ j = i := by
  have hown : rotate n 0 j = j + 1 := by simp [rotate, Nat.mod_eq_of_lt hj]
  rw [rotate_eq_renumber hj hi, hown]
  constructor
  · intro h
    have heq : j + 1 = i + 1 := (renumber_bijOn hi).injOn ⟨by omega, by omega⟩
      ⟨by omega, by omega⟩ (h.trans (renumber_self n i).symm)
    omega
  · rintro rfl
    exact renumber_self n j

section Reading
variable {F N : Type} {relay : Relay F N} {s : PlanetWars F} {i : PlayerId}

/-- The ships on the planets of player `i` can be counted in doubles. -/
def Countable (i : PlayerId) (planets : List (Planet F)) : Prop :=
  ∀ p ∈ planets, p.owner = some i → p.shipCount < 2 ^ 53

/-- What the bot of player `i` reads of a state. -/
def shown (relay : Relay F N) (s : PlanetWars F) (i : PlayerId) : Proto.State N :=
  relay.state (s.view (s.players.length - i))

/-- What the bot of player `i` reads of a planet. -/
def shownPlanet (relay : Relay F N) (s : PlanetWars F) (i : PlayerId) (p : Planet F) :
    Proto.Planet N :=
  relay.planet (p.view s.players.length (s.players.length - i))

theorem planets_shown : (shown relay s i).planets = s.planets.map (shownPlanet relay s i) :=
  List.map_map

theorem owner_shown (hs : Valid s) (hsmall : s.players.length < 2 ^ 53)
    (hi : i < s.players.length) {p : Planet F} (hp : p ∈ s.planets) :
    (shownPlanet relay s i p).owner = some 1 ↔ p.owner = some i := by
  simp only [shownPlanet, Relay.planet, Planet.view, Option.map_map, Option.map_eq_some_iff,
    Function.comp_apply]
  have hexact (j : PlayerId) : relay.integer (rotate s.players.length (s.players.length - i) j) =
      rotate s.players.length (s.players.length - i) j := by
    have hlt := Nat.mod_lt (j + (s.players.length - i)) (Nat.zero_lt_of_lt hi)
    exact relay.integer_eq _ (by rw [rotate]; omega)
  constructor
  · rintro ⟨j, hj, hrotate⟩
    obtain ⟨f, hf, hfo⟩ := Planet.owner_mem hj
    rw [hexact] at hrotate
    rw [hj, (rotate_eq_one_iff hi (hs.owners p hp f hf j hfo)).mp hrotate]
  · intro h
    exact ⟨i, h, (hexact i).trans ((rotate_eq_one_iff hi hi).mpr rfl)⟩

theorem myPlanets_eq_nil (hs : Valid s) (hsmall : s.players.length < 2 ^ 53)
    (hi : i < s.players.length) :
    myPlanets (shown relay s i) = [] ↔ ∀ p ∈ s.planets, p.owner ≠ some i := by
  rw [myPlanets, List.filter_eq_nil_iff, planets_shown, List.forall_mem_map]
  refine forall₂_congr fun p hp => ?_
  rw [decide_eq_true_iff, owner_shown hs hsmall hi hp]

theorem otherPlanets_eq_nil (hs : Valid s) (hsmall : s.players.length < 2 ^ 53)
    (hi : i < s.players.length) :
    otherPlanets (shown relay s i) = [] ↔ ∀ p ∈ s.planets, p.owner = some i := by
  rw [otherPlanets, List.filter_eq_nil_iff, planets_shown, List.forall_mem_map]
  refine forall₂_congr fun p hp => ?_
  rw [decide_eq_true_iff, not_not, owner_shown hs hsmall hi hp]

/-- Thrifty moves are read as modest commands. -/
theorem Thrifty.modest (hs : Valid s) (hsmall : s.players.length < 2 ^ 53)
    (hi : i < s.players.length) (hmanned : Manned i s.planets)
    (hcountable : Countable i s.planets) {moves : List Move} (h : Thrifty (shown relay s i) moves) :
    ∃ commands, commandsOf (moves.map some) = some commands ∧ Modest i s.planets commands := by
  have hplanet {mv : Move} (hmv : mv ∈ moves) : ∃ p ∈ s.planets, p.name = mv.origin ∧
      p.owner = some i ∧ 0 < p.shipCount ∧ mv.shipCount = (p.shipCount : Int) - 1 := by
    obtain ⟨_, hshown, hname, howner, hships⟩ := h.origins mv hmv
    rw [planets_shown] at hshown
    obtain ⟨p, hp, rfl⟩ := List.mem_map.mp hshown
    have howner' := (owner_shown hs hsmall hi hp).mp howner
    have hcount : (shownPlanet relay s i p).shipCount = p.shipCount :=
      relay.integer_eq _ (hcountable p hp howner')
    rw [hcount] at hships
    exact ⟨p, hp, hname, howner', hmanned p hp howner', hships⟩
  let read (mv : Move) : Proto.Command := ⟨mv.origin, mv.destination, mv.shipCount.toNat⟩
  refine ⟨moves.map read, ?_, ?_, fun c hc => ?_, fun c hc => ?_⟩
  · refine commandsOf_map fun mv hmv => ?_
    obtain ⟨p, hp, -, howner, hpos, hships⟩ := hplanet hmv
    have hlt := hcountable p hp howner
    exact if_pos ⟨by omega, by omega⟩
  · rw [List.map_map]
    exact h.once
  · obtain ⟨mv, hmv, rfl⟩ := List.mem_map.mp hc
    obtain ⟨p, hp, hname, howner, hpos, hships⟩ := hplanet hmv
    refine ⟨p, hp, hname, howner, ?_⟩
    change mv.shipCount.toNat < p.shipCount
    omega
  · obtain ⟨mv, hmv, rfl⟩ := List.mem_map.mp hc
    obtain ⟨_, hshown, hname⟩ := h.destinations mv hmv
    rw [planets_shown] at hshown
    obtain ⟨q, hq, rfl⟩ := List.mem_map.mp hshown
    exact ⟨q, hq, hname⟩

end Reading

/-! ## Games with a bot -/

section Games
variable {F N : Type} [F64 F] [External F] [PyNumber N] {relay : Relay F N} {bot : Shipped}
  {c : Config} {n : Nat} {i : PlayerId} {g g' : Game F} {input : TurnInput}
  {actions : List (PlayerId × Proto.PlayerAction)}

/-- If player `i` answers in time, it is what the bot writes about the state that the client
passes on to it. -/
def Answers (relay : Relay F N) (bot : Shipped) (i : PlayerId) (g : Game F) (input : TurnInput) :
    Prop :=
  ∀ message, input.messages.lookup i = some (.ok message) → ∃ state moves,
    serializeRotated g.state (g.state.players.length - i) = .ok state ∧
      bot.moves (relay.state state) = some moves ∧ ReadAs F message moves

/-- The games of `n` players that may come about if `bot` plays for player `i`, and the ships on
its planets can be counted in doubles. The others may answer anything. -/
inductive Played (relay : Relay F N) (bot : Shipped) (c : Config) (n : Nat) (i : PlayerId) :
    Game F → Prop
  | created {s : PlanetWars F} (h : c.createGame n = .ok s) :
      Played relay bot c n i (Game.ofState s)
  | turn {g g' : Game F} {input : TurnInput} {actions : List (PlayerId × Proto.PlayerAction)}
      (h : Played relay bot c n i g) (hcountable : Countable i g.state.planets)
      (hanswer : Answers relay bot i g input) (hturn : g.turn input = .ok (g', actions)) :
      Played relay bot c n i g'

/-- A game in which player `i` has ships on all of its planets. -/
structure Steady (n : Nat) (i : PlayerId) (g : Game F) : Prop where
  consistent : g.Consistent
  named : Named g.planetMap g.state.planets
  names : (g.state.planets.map (·.name)).Nodup
  manned : Manned i g.state.planets
  players : g.state.players.length = n
  player : i < n

omit [F64 F] [External F] in
theorem Steady.valid (h : Steady n i g) : Valid g.state := h.consistent.settled.toValid

omit [F64 F] in
/-- What a bot writes is read as modest commands, or it is a `null`. -/
theorem Steady.reads (h : Steady n i g) (hn : n < 2 ^ 53) (hcountable : Countable i g.state.planets)
    (hanswer : Answers relay bot i g input) {message : List UInt8}
    (hmessage : input.messages.lookup i = some (.ok message)) :
    ∃ moves, bot.moves (shown relay g.state i) = some moves ∧
      ((bot = .simple ∧ (myPlanets (shown relay g.state i) = [] ∨
          otherPlanets (shown relay g.state i) = []) ∧
          ∃ err, External.actionFromSlice F message = .error err) ∨
        ∃ commands, commandsOf moves = some commands ∧ Modest i g.state.planets commands ∧
          External.actionFromSlice F message = .ok ⟨commands⟩) := by
  obtain ⟨state, moves, hstate, hmoves, hread⟩ := hanswer message hmessage
  rw [serializeRotated_eq h.valid] at hstate
  obtain rfl := Except.ok.inj hstate
  refine ⟨moves, hmoves, ?_⟩
  have hnames : ((shown relay g.state i).planets.map (·.name)).Nodup := by
    rw [planets_shown, List.map_map]
    exact h.names
  rcases bot.thrifty hnames hmoves with ⟨hbot, rfl, hnone⟩ | ⟨mvs, rfl, hthrifty⟩
  · exact .inl ⟨hbot, hnone, hread⟩
  · have hsmall : g.state.players.length < 2 ^ 53 := h.players ▸ hn
    obtain ⟨commands, hcommands, hmodest⟩ :=
      Thrifty.modest h.valid hsmall (h.players ▸ h.player) h.manned hcountable hthrifty
    rw [ReadAs, hcommands] at hread
    exact .inr ⟨commands, hcommands, hmodest, hread⟩

omit [F64 F] in
theorem Steady.modestAnswer (h : Steady n i g) (hn : n < 2 ^ 53)
    (hcountable : Countable i g.state.planets) (hanswer : Answers relay bot i g input)
    {response : ResponseValue}
    (hmem : (i, response) ∈ input.messages.entriesIn input.drainOrder) :
    ModestAnswer i g.state.planets response := by
  rintro message action rfl haction
  obtain ⟨moves, -, ⟨-, -, err, herr⟩ | ⟨commands, -, hmodest, hok⟩⟩ :=
    h.reads hn hcountable hanswer (HashMap.mem_entriesIn.mp hmem)
  · rw [herr] at haction
    cases haction
  · rw [hok] at haction
    exact Except.ok.inj haction ▸ hmodest

theorem Steady.turn (h : Steady n i g) (hn : n < 2 ^ 53) (hcountable : Countable i g.state.planets)
    (hanswer : Answers relay bot i g input) (hturn : g.turn input = .ok (g', actions)) :
    Steady n i g' := by
  have hnd := HashMap.nodup_fst_entriesIn input.drainOrder input.messages
  have htaken := (Game.turn_safe h.consistent input).of_ok hturn
  exact
    { consistent := h.consistent.taken hnd htaken
      named := by
        rw [htaken.planetMap]
        exact h.named.of_names htaken.map_name
      names := by
        rw [htaken.map_name]
        exact h.names
      manned := htaken.manned h.consistent hnd h.named h.manned fun response hmem =>
        h.modestAnswer hn hcountable hanswer hmem
      players := htaken.length_players.trans h.players
      player := h.player }

omit [F64 F] in
/-- A planet that the map gives to somebody has ships. -/
theorem steady_created {map : Proto.Map F} (hmap : c.readMap = some map)
    (hnames : (map.planets.map (·.name)).Nodup) (hi : i < n) {s : PlanetWars F}
    (hs : c.createGame n = .ok s) : Steady n i (Game.ofState s) := by
  have hcreated := (c.createGame_safe n).of_ok hs
  obtain ⟨-, hplanets⟩ := (Config.createGame_loaded hmap n).of_ok hs
  have hsame : s.planets.map (·.name) = map.planets.map (·.name) := by
    have hfst : map.planets.zipIdx.map (fun x => x.1.name) =
        (map.planets.zipIdx.map Prod.fst).map (·.name) := by rw [List.map_map]; rfl
    rw [hplanets, List.map_map]
    exact hfst.trans (by rw [List.zipIdx_map_fst])
  exact
    { consistent := Game.consistent_ofState hcreated
      named := named_ofState hcreated (hsame ▸ hnames)
      names := hsame ▸ hnames
      manned := by
        intro p hp howner
        change p ∈ s.planets at hp
        rw [hplanets] at hp
        obtain ⟨x, -, rfl⟩ := List.mem_map.mp hp
        exact x.1.manned_loaded howner
      players := by
        change s.players.length = n
        rw [hcreated.players, List.length_map, List.length_range]
      player := hi }

theorem Played.steady {map : Proto.Map F} (hmap : c.readMap = some map)
    (hnames : (map.planets.map (·.name)).Nodup) (hn : n < 2 ^ 53) (hi : i < n)
    (h : Played relay bot c n i g) : Steady n i g := by
  induction h with
  | created hs => exact steady_created hmap hnames hi hs
  | turn _ hcountable hanswer hturn ih => exact ih.turn hn hcountable hanswer hturn

/-- Whatever the others do, a bot is told that it was late, or the server takes all of its
commands and only says of those with no ships that they are empty. The simple bot is not
understood when it has no planet, or when there is no other. -/
theorem shipped_bot_never_refused {map : Proto.Map F} (hmap : c.readMap = some map)
    (hnames : (map.planets.map (·.name)).Nodup) (hn : n < 2 ^ 53) (hi : i < n)
    (hplayed : Played relay bot c n i g) (hcountable : Countable i g.state.planets)
    (hanswer : Answers relay bot i g input) (hturn : g.turn input = .ok (g', actions))
    {action : Proto.PlayerAction} (haction : (i, action) ∈ actions) :
    action = .timeout ∨
      (∃ moves commands, bot.moves (shown relay g.state i) = some moves ∧
        commandsOf moves = some commands ∧ action = .commands (commands.map judged)) ∨
      (bot = .simple ∧ (∃ err, action = .parseError err) ∧
        ((∀ p ∈ g.state.planets, p.owner ≠ some i) ∨ ∀ p ∈ g.state.planets, p.owner = some i)) := by
  have hsteady := hplayed.steady hmap hnames hn hi
  have htaken : TurnTaken g _ g' actions :=
    (Game.turn_safe hsteady.consistent input).of_ok hturn
  rw [htaken.actions, reports] at haction
  obtain ⟨⟨j, response⟩, hmem, hverdict⟩ := List.mem_map.mp haction
  obtain ⟨rfl, rfl⟩ := Prod.mk.inj hverdict
  rcases response with ⟨⟨⟩⟩ | message
  · exact .inl rfl
  · obtain ⟨moves, hmoves, ⟨hbot, hnone, err, herr⟩ | ⟨commands, hcommands, hmodest, hok⟩⟩ :=
      hsteady.reads hn hcountable hanswer (HashMap.mem_entriesIn.mp hmem)
    · refine .inr (.inr ⟨hbot, ⟨err, ?_⟩, ?_⟩)
      · simp only [verdict, herr]
      · have hplayers := hsteady.players
        have hsmall : g.state.players.length < 2 ^ 53 := hplayers ▸ hn
        exact hnone.imp (myPlanets_eq_nil hsteady.valid hsmall (hplayers ▸ hsteady.player)).mp
          (otherPlanets_eq_nil hsteady.valid hsmall (hplayers ▸ hsteady.player)).mp
    · refine .inr (.inl ⟨moves, commands, hmoves, hcommands, ?_⟩)
      have hreports := (judgeAll_modest (hsteady.named.of_names (map_name_grown _))
        hsteady.manned.grown hmodest.grown).1
      simp only [verdict, hok, hreports]

end Games

section Siege
open Controller

instance : PyNumber Int where
  sub x y := x - y
  add x y := x + y
  square x := some (x * x)
  sqrt x := x.toNat.sqrt
  lt a b := a < b

def siegeRelay : Relay Int Int where
  integer := MozaicClient.toDouble
  float x := x
  integer_eq _ := MozaicClient.toDouble_eq

@[reducible] def siegeServer : External Int where
  readFile path := if path = "m" then some skirmishMap else none
  mapFromStr _ := some ⟨[⟨6, 0, 0, some 1, "a"⟩, ⟨6, 3, 4, some 2, "b"⟩]⟩
  configFromSlice _ := none
  actionFromSlice data :=
    if data = [1] then .ok ⟨[⟨"a", "b", 5⟩]⟩ else .error "expected value at line 1 column 1"
  decodeLobbyMessage _ := none

/-- The less simple bot leaves one of its six ships at home. -/
def siegeTurn : TurnInput :=
  ⟨skirmishRuntime.drainOrder, HashMap.collect [(0, .ok [1]), (1, .ok [2])]⟩

theorem shipped_bot_never_refused_siege : ∃ g actions action,
    @Game.turn Int _ siegeServer (Game.ofState skirmishStart) siegeTurn = .ok (g, actions) ∧
    (0, action) ∈ actions ∧ (action = .timeout ∨
      (∃ moves commands, Shipped.moves (shown siegeRelay skirmishStart 0) .lessSimple = some moves ∧
        commandsOf moves = some commands ∧ action = .commands (commands.map judged)) ∨
      (Shipped.lessSimple = .simple ∧ (∃ err, action = .parseError err) ∧
        ((∀ p ∈ skirmishStart.planets, p.owner ≠ some 0) ∨
          ∀ p ∈ skirmishStart.planets, p.owner = some 0))) := by
  have hcreated : @Config.createGame Int siegeServer ⟨"m", 9⟩ 2 = .ok skirmishStart := rfl
  have hcountable : Countable 0 skirmishStart.planets := by
    intro p hp _
    have hsix : p.shipCount = 6 := by
      revert p
      decide
    omega
  have hanswer : @Answers Int Int siegeServer _ siegeRelay .lessSimple 0
      (Game.ofState skirmishStart) siegeTurn := by
    intro message hmessage
    have hfirst : siegeTurn.messages.lookup 0 = some (.ok [1]) := rfl
    rw [hfirst] at hmessage
    obtain rfl := Except.ok.inj (Option.some.inj hmessage)
    exact ⟨skirmishStart.view 2, [some ⟨"a", "b", 5⟩], rfl, by decide +kernel, rfl⟩
  have hok : (@Game.turn Int _ siegeServer (Game.ofState skirmishStart) siegeTurn).toOption.any
      (fun r => r.2.any fun e => e.1 = 0) = true := by
    decide +kernel
  cases hturn : @Game.turn Int _ siegeServer (Game.ofState skirmishStart) siegeTurn with
  | error e =>
    rw [hturn] at hok
    cases hok
  | ok r =>
    rw [hturn] at hok
    obtain ⟨⟨_, action⟩, haction, hfirst⟩ := List.any_eq_true.mp hok
    obtain rfl := of_decide_eq_true hfirst
    exact ⟨r.1, r.2, action, rfl, haction,
      @shipped_bot_never_refused Int Int _ siegeServer _ siegeRelay .lessSimple ⟨"m", 9⟩ 2 0 _ _
        siegeTurn _ _ rfl (by decide) (by norm_num) (by decide)
        (@Played.created Int Int _ siegeServer _ siegeRelay _ _ _ _ _ hcreated) hcountable hanswer
        hturn action haction⟩

end Siege
end Mozaic.Bots
