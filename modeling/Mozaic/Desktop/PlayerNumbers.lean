import Mozaic.Controller.Seating
import Mozaic.Desktop.Registration

/-! Player numbers. The desktop client counts slots, the server counts the clients its
hash map hands out. -/
namespace Mozaic.Desktop
open Rust Rules Network Controller Outcome

variable {F : Type}

/-! ## The numbers of the desktop client -/

/-- A player in a saved match. -/
inductive BotSlot where
  | internal (token : Token) (botId : String) (name : String) (connected : Bool)
  | external (token : Token) (name : String) (connected : Bool)
deriving DecidableEq, Repr

def BotSlot.name : BotSlot → String
  | .internal _ _ name _ => name
  | .external _ name _ => name

/-- What `launchGame` saves of a slot. -/
def Slot.saved (slot : Slot) : BotSlot :=
  match slot.bot with
  | some bot => .internal slot.token bot.uuid slot.name slot.connected
  | none => .external slot.token slot.name slot.connected

theorem Slot.name_saved (slot : Slot) : slot.saved.name = slot.name := by
  rw [saved]
  split <;> rfl

/-- The players of the match that `launchGame` saves. -/
def launched (slots : List Slot) : List BotSlot := slots.map Slot.saved

/-- A name that is empty is not shown. -/
def displayName (playerNum : Nat) (name : String) : String :=
  if name = "" then s!"Player {playerNum}" else name

/-- `MatchViewer.playerName` of a hosted match. -/
def playerName (players : List BotSlot) (playerNum : Nat) : String :=
  let playerNames : HashMap Nat String :=
    HashMap.collect (players.mapIdx fun idx player => (idx + 1, player.name))
  displayName playerNum ((playerNames.lookup playerNum).getD "")

structure Player where
  name : String
  number : Nat
deriving DecidableEq, Repr

/-- The players in `getMatchData` of a hosted match. -/
def getMatchData (players : List BotSlot) : List Player :=
  players.mapIdx fun idx player => ⟨player.name, idx + 1⟩

structure MatchStats where
  winners : List Nat
  score : HashMap Nat Nat

structure PlayerProps where
  name : String
  number : Nat
  isWinner : Bool
  score : Option Nat
deriving DecidableEq, Repr

/-- A sort by a comparison that contradicts itself: all that is known of the result is
that nothing was lost. -/
structure Sorter where
  sort : List PlayerProps → List PlayerProps
  perm : ∀ l, (sort l).Perm l

/-- A match that is not finished has no stats. -/
def calcPlayerData (sort : Sorter) (players : List Player) : Option MatchStats → List PlayerProps
  | some stats => sort.sort (players.mapIdx fun idx player =>
    { name := player.name
      number := player.number
      isWinner := stats.winners.any (· == idx + 1)
      score := stats.score.lookup (idx + 1) })
  | none => players.map fun player =>
    { name := player.name
      number := player.number
      isWinner := false
      score := none }

structure BotConfig where
  name : String
  command : Option String
  args : List String
deriving DecidableEq, Repr

structure ClientParams where
  token : Token
  number : Nat
  botConfig : BotConfig
deriving DecidableEq, Repr

/-- The client that is run for the bot in a slot. -/
def connectLocalBot (stringArgv : String → List String) (slot : Slot) (playerNum : Nat) :
    Option ClientParams := do
  let bot ← slot.bot
  let _ ← slot.clientId.filter (· ≠ 0)
  let argv := stringArgv bot.command
  pure
    { token := slot.token
      number := playerNum + 1 -- number is 1-based
      botConfig := ⟨bot.name, argv.head?, argv.tail⟩ }

/-! ## One number for each player -/

/-- The player in slot number `i` has the number `i + 1` everywhere: among the owners in
the states on the control channel, for the viewer, in the list of matches and in the log. -/
structure SameNumber (c : PwController F) (slots : List Slot) (i : Nat) (slot : Slot)
    (client : ClientId) : Prop where
  server : c.ownerNumber client = .ok (i + 1)
  named : playerName (launched slots) (i + 1) = displayName (i + 1) slot.name
  scored : ∀ sort stats, ∃ props ∈ calcPlayerData sort (getMatchData (launched slots)) (some stats),
    props.name = slot.name ∧ props.number = i + 1 ∧
      (props.isWinner ↔ i + 1 ∈ stats.winners) ∧ props.score = stats.score.lookup (i + 1)
  written : ∀ stringArgv params, connectLocalBot stringArgv slot i = some params →
    params.number = i + 1

/-- The slots of the list and the clients they are bound to. -/
structure SlotManager.Registered (m : SlotManager) (slots : List Slot) (clients : List ClientId) :
    Prop where
  listed : m.getSlots = slots.map some
  bound : slots.map Slot.clientId = clients.map fun client => some client.num

def NumbersAgree (c : PwController F) (slots : List Slot) (clients : List ClientId) : Prop :=
  ∀ (i : Nat) slot client, slots[i]? = some slot → clients[i]? = some client →
    SameNumber c slots i slot client

theorem getElem?_launched {slots : List Slot} {i : Nat} {slot : Slot} (h : slots[i]? = some slot) :
    (launched slots)[i]? = some slot.saved := by
  rw [launched, List.getElem?_map, h]
  rfl

theorem playerName_launched {slots : List Slot} {i : Nat} {slot : Slot}
    (h : slots[i]? = some slot) :
    playerName (launched slots) (i + 1) = displayName (i + 1) slot.name := by
  have hkeys : (((launched slots).mapIdx fun idx player => (idx + 1, player.name)).map
      Prod.fst).Nodup := by
    have hfst : ((launched slots).mapIdx fun idx player => (idx + 1, player.name)).map Prod.fst =
        ((launched slots).zipIdx.map Prod.snd).map (· + 1) := by
      rw [List.mapIdx_eq_zipIdx_map, List.map_map, List.map_map]
      rfl
    rw [hfst, List.zipIdx_map_snd]
    exact List.Nodup.map (fun _ _ => Nat.succ.inj) List.nodup_range'
  have hmem : (i + 1, slot.name) ∈
      (launched slots).mapIdx fun idx player => (idx + 1, player.name) := by
    apply List.mem_of_getElem? (i := i)
    rw [List.getElem?_mapIdx, getElem?_launched h, Option.map_some, slot.name_saved]
  rw [playerName, (HashMap.lookup_collect_of_nodup hkeys).mpr hmem]
  rfl

theorem exists_mem_calcPlayerData {slots : List Slot} {i : Nat} {slot : Slot}
    (h : slots[i]? = some slot) (sort : Sorter) (stats : MatchStats) :
    ∃ props ∈ calcPlayerData sort (getMatchData (launched slots)) (some stats),
      props.name = slot.name ∧ props.number = i + 1 ∧
        (props.isWinner ↔ i + 1 ∈ stats.winners) ∧ props.score = stats.score.lookup (i + 1) := by
  have hplayer : (getMatchData (launched slots))[i]? = some ⟨slot.name, i + 1⟩ := by
    rw [getMatchData, List.getElem?_mapIdx, getElem?_launched h, Option.map_some, slot.name_saved]
  refine ⟨⟨slot.name, i + 1, stats.winners.any (· == i + 1), stats.score.lookup (i + 1)⟩, ?_,
    rfl, rfl, ?_, rfl⟩
  · rw [calcPlayerData, (sort.perm _).mem_iff]
    apply List.mem_of_getElem? (i := i)
    rw [List.getElem?_mapIdx, hplayer]
    rfl
  · simp

theorem number_connectLocalBot {stringArgv : String → List String} {slot : Slot} {playerNum : Nat}
    {params : ClientParams} (h : connectLocalBot stringArgv slot playerNum = some params) :
    params.number = playerNum + 1 := by
  simp only [connectLocalBot, Option.bind_eq_bind, Option.bind_eq_some_iff, Option.pure_def,
    Option.some.injEq] at h
  obtain ⟨_, _, _, _, rfl⟩ := h
  rfl

theorem sameNumber_iff {roster : List ClientId} {c : PwController F} (hc : Enrolled roster c)
    {slots : List Slot} {i : Nat} {slot : Slot} (h : slots[i]? = some slot) (client : ClientId) :
    SameNumber c slots i slot client ↔ roster[i]? = some client := by
  rw [← hc.ownerNumber_iff]
  constructor
  · exact fun hsame => hsame.server
  · exact fun hserver => ⟨hserver, playerName_launched h, exists_mem_calcPlayerData h,
      fun _ _ => number_connectLocalBot⟩

/-- The numbers agree if the clients of the slots come first in the roster, in the order of
the slots. -/
theorem numbersAgree_iff {roster : List ClientId} {c : PwController F} (hc : Enrolled roster c)
    {m : SlotManager} {slots : List Slot} {clients : List ClientId}
    (hm : m.Registered slots clients) :
    NumbersAgree c slots clients ↔ clients <+: roster := by
  have hlen : slots.length = clients.length := by
    have hbound := congrArg List.length hm.bound
    rwa [List.length_map, List.length_map] at hbound
  rw [List.prefix_iff_getElem?]
  constructor
  · intro h i hi
    have hslot := List.getElem?_eq_getElem (hlen ▸ hi)
    exact (sameNumber_iff hc hslot _).mp (h i _ _ hslot (List.getElem?_eq_getElem hi))
  · intro h i slot client hslot hclient
    obtain ⟨hi, rfl⟩ := List.getElem?_eq_some_iff.mp hclient
    exact (sameNumber_iff hc hslot _).mpr (h i hi)

/-! ## Whole matches -/

section Run
variable [F64 F] [External F]

/-- Server and desktop client agree on the player numbers in every match, if and only if
the server's hash map hands out the clients in the order of the slots. -/
theorem run_numbersAgree_iff (draws : Draws) (ops : List LobbyOp) :
    Safe (· = .addOverflow .clientCounter)
      (fun w : World F => ∀ slots clients lobby rt c, w.manager.Registered slots clients →
        w.server = some lobby → PwController.new rt lobby = .ok c →
          ((∀ inputs, Safe (fun _ => True)
            (fun s => ∀ c', s.game.controller? = some c' → NumbersAgree c' slots clients)
            (System.run rt lobby inputs)) ↔
          clients <+: rt.lobbyOrder.order lobby.players.keys))
      (World.run draws ops) := by
  apply (World.run_safe draws ops).weaken
  intro w _ slots clients lobby rt c hm _ hc
  constructor
  · intro h
    have hstart : System.run rt lobby [] = .ok ⟨.playing c, []⟩ := by
      simp only [System.run, System.start, hc, ok_bind, pure_bind, List.foldlM_nil]
      rfl
    have hagree := (h []).of_ok hstart c rfl
    exact (numbersAgree_iff ((new_safe rt lobby).of_ok hc).enrolled hm).mp hagree
  · intro h inputs
    apply (run_enrolled rt lobby inputs).weaken
    intro s hs c' hc'
    exact (numbersAgree_iff (hs c' hc') hm).mpr h

end Run

/-! ## Two slots -/

section Skirmish

def skirmishDraws : Draws where
  name _ := "Chance"
  token n := List.replicate n 0
  fresh m n h := by simpa using congrArg List.length h

/-- Two slots are created and registered, and the game is started. -/
def skirmishOps : List LobbyOp :=
  [.update 2, .setMatchRunner [1], .serve, .serve, .deliver, .deliver, .startGame skirmishConf,
    .serve]

def skirmishSlots : List Slot :=
  [⟨"Chance", [], false, some 1, none⟩, ⟨"Chance", [0], false, some 2, none⟩]

/-- The slots, the order of the clients and whether a game starts. -/
def World.summary (rt : Runtime) (w : World Int) :
    List (Option Slot) × Option (List ClientId × Bool) :=
  (w.manager.getSlots, w.server.map fun lobby =>
    (rt.lobbyOrder.order lobby.players.keys, (PwController.new rt lobby).toOption.isSome))

/-- The two slots are bound to the clients 1 and 2, and a game starts. -/
theorem exists_skirmish (rt : Runtime) (order : List ClientId)
    (h : (World.run skirmishDraws skirmishOps).toOption.map (World.summary rt) =
      some (skirmishSlots.map some, some (order, true))) :
    ∃ (w : World Int) (lobby : Lobby Int) (c : PwController Int),
      World.run skirmishDraws skirmishOps = .ok w ∧
      w.manager.Registered skirmishSlots [⟨1⟩, ⟨2⟩] ∧ w.server = some lobby ∧
      PwController.new rt lobby = .ok c ∧ rt.lobbyOrder.order lobby.players.keys = order := by
  cases hrun : World.run (F := Int) skirmishDraws skirmishOps with
  | error e =>
    rw [hrun] at h
    cases h
  | ok w =>
    rw [hrun] at h
    obtain ⟨hslots, hserver⟩ := Prod.mk.inj (Option.some.inj h)
    obtain ⟨lobby, hlobby, hpair⟩ := Option.map_eq_some_iff.mp hserver
    obtain ⟨horder, hnew⟩ := Prod.mk.inj hpair
    cases hc : PwController.new rt lobby with
    | error e =>
      rw [hc] at hnew
      cases hnew
    | ok c => exact ⟨w, lobby, c, rfl, ⟨hslots, rfl⟩, hlobby, hc, horder⟩

theorem run_numbersAgree_iff_skirmish :
    ∃ (w : World Int) (lobby : Lobby Int),
      World.run skirmishDraws skirmishOps = .ok w ∧ w.server = some lobby ∧
      ((∀ inputs, Safe (fun _ => True)
        (fun s => ∀ c', s.game.controller? = some c' →
          NumbersAgree c' skirmishSlots [⟨1⟩, ⟨2⟩])
        (System.run skirmishRuntime lobby inputs)) ↔
      [⟨1⟩, ⟨2⟩] <+: skirmishRuntime.lobbyOrder.order lobby.players.keys) := by
  obtain ⟨w, lobby, c, hw, hm, hlobby, hc, _⟩ :=
    exists_skirmish skirmishRuntime [⟨1⟩, ⟨2⟩] (by decide +kernel)
  exact ⟨w, lobby, hw, hlobby, (run_numbersAgree_iff skirmishDraws skirmishOps).of_ok hw
    skirmishSlots [⟨1⟩, ⟨2⟩] lobby skirmishRuntime c hm hlobby hc⟩

/-- A hash map that hands out the second client first. -/
def skirmishBackwards : Runtime :=
  { skirmishRuntime with lobbyOrder := skirmishRuntime.lobbyOrder.backwards }

theorem not_numbersAgree_backwards :
    ¬ ∀ (draws : Draws) (ops : List LobbyOp) (w : World Int) slots clients lobby rt c,
        World.run draws ops = .ok w → w.manager.Registered slots clients →
        w.server = some lobby → PwController.new rt lobby = .ok c →
          NumbersAgree c slots clients := by
  intro h
  obtain ⟨w, lobby, c, hw, hm, hlobby, hc, horder⟩ :=
    exists_skirmish skirmishBackwards [⟨2⟩, ⟨1⟩] (by decide +kernel)
  have hagree := h _ _ w _ _ lobby skirmishBackwards c hw hm hlobby hc
  have henrolled := ((new_safe skirmishBackwards lobby).of_ok hc).enrolled
  rw [roster, horder] at henrolled
  exact absurd ((numbersAgree_iff henrolled hm).mp hagree) (by decide)

end Skirmish
end Mozaic.Desktop
