import Mozaic.Desktop.Migration

/-! Results of migrated matches. The migration keeps winners as positions and scores under
the ids of bots, and the list of matches looks for both under player numbers. -/
namespace Mozaic.Desktop
open Rust Outcome JavaScript

/-! ## The list of matches -/

namespace V4

structure Player where
  name : Text?
  number : Nat

structure PlayerProps where
  name : Text?
  number : Nat
  isWinner : Bool
  score : Option Score
deriving DecidableEq, Repr

/-- A sort by a comparison that contradicts itself, so that only the order is open. -/
structure Sorter where
  sort : List PlayerProps → List PlayerProps
  perm : ∀ l, (sort l).Perm l

namespace Match

/-- The players in `getMatchData`. -/
def players : Match → List Player
  | .hosted _ players _ _ => players.mapIdx fun idx slot => ⟨slot.name, idx + 1⟩
  | .joined _ bot => [⟨bot.name, 1⟩]

def status : Match → Status
  | .hosted props _ _ _ | .joined props _ => props.status

end Match

/-- `calcPlayerData`, on the stats as they are stored: a number that is used as a key is
used as its text. -/
def calcPlayerData (sort : Sorter) (m : Match) : List PlayerProps :=
  match m.status with
  | .finished stats => sort.sort (m.players.mapIdx fun idx player =>
    { name := player.name
      number := player.number
      isWinner := stats.winners.any (· == (idx + 1 : Nat))
      score := stats.score.lookup (toString (idx + 1)) })
  | _ => m.players.map fun player =>
    { name := player.name
      number := player.number
      isWinner := false
      score := none }

end V4

/-- The list of matches marks the players as the old stats have it, and shows their scores. -/
def Credited (sort : V4.Sorter) (players : List String) (stats : V1.MatchStats) (m : V4.Match) :
    Prop :=
  ∀ (i : Nat) bot, players[i]? = some bot →
    ∃ name, ⟨name, i + 1, decide (bot ∈ stats.winners), stats.score.lookup bot⟩ ∈
      V4.calcPlayerData sort m

/-! ## Positions and numbers -/

section Winners
variable {players winners : List String}

theorem indexOf_eq_iff (h : players.Nodup) {bot : String} {i : Nat} :
    indexOf players bot = i ↔ players[i]? = some bot := by
  rw [indexOf]
  split
  · rename_i hmem
    rw [Nat.cast_inj]
    constructor
    · rintro rfl
      exact List.getElem?_idxOf hmem
    · intro hi
      obtain ⟨hlt, rfl⟩ := List.getElem?_eq_some_iff.mp hi
      exact h.idxOf_getElem i hlt
  · rename_i hmem
    constructor
    · intro hneg
      exact absurd hneg (by omega)
    · exact fun hi => absurd (List.mem_of_getElem? hi) hmem

/-- The position of a winner is taken for the number of the player before. -/
theorem any_winner_iff (h : players.Nodup) (i : Nat) :
    ((winners.map fun bot => (indexOf players bot : JsonNumber)).any (· == (i + 1 : Nat))) = true ↔
      ∃ bot ∈ winners, players[i + 1]? = some bot := by
  simp only [List.any_map, List.any_eq_true, Function.comp_apply, beq_iff_eq]
  refine exists_congr fun bot => and_congr_right fun _ => ?_
  rw [← indexOf_eq_iff h]
  norm_cast

/-- Whoever is marked is followed by a winner, so the last winner is never marked. -/
theorem marked_iff :
    (∀ (i : Nat) bot, players[i]? = some bot →
      ((∃ bot' ∈ winners, players[i + 1]? = some bot') ↔ bot ∈ winners)) ↔
      ∀ bot ∈ players, bot ∉ winners := by
  constructor
  · intro hmarked
    have hlast (d i : Nat) (bot : String) (hd : players.length ≤ i + d)
        (hbot : players[i]? = some bot) : bot ∉ winners := by
      induction d generalizing i bot with
      | zero =>
        rw [List.getElem?_eq_none (Nat.add_zero i ▸ hd)] at hbot
        cases hbot
      | succ d ih =>
        intro hwins
        obtain ⟨bot', hwins', hbot'⟩ := (hmarked i bot hbot).mpr hwins
        exact ih (i + 1) bot' (by omega) hbot' hwins'
    intro bot hmem
    obtain ⟨i, hbot⟩ := List.mem_iff_getElem?.mp hmem
    exact hlast players.length i bot (by omega) hbot
  · intro hnone i bot hbot
    refine iff_of_false ?_ (hnone bot (List.mem_of_getElem? hbot))
    rintro ⟨bot', hwins, hbot'⟩
    exact hnone bot' (List.mem_of_getElem? hbot') hwins

end Winners

/-! ## Migrated matches -/

section Migrated
variable {newBots : Dict V4.Bot} {old : V1.Match} {m : V4.Match} {stats : V1.MatchStats}

theorem length_players_upgradeMatch (h : upgradeMatch newBots old = .ok m) :
    m.players.length = old.players.length := by
  obtain ⟨slots, hslots, h⟩ := bind_eq_ok.mp h
  cases h
  have hlength : Safe (fun _ => True) (List.Forall₂ (fun _ _ => True) old.players)
      (old.players.mapM (botSlot newBots)) := Safe.mapM fun _ _ => safe_true _
  have hlen := (hlength.of_ok hslots).length_eq
  rw [V4.Match.players, List.length_mapIdx, hlen]

theorem number_players (m : V4.Match) {i : Nat} {player : V4.Player}
    (h : m.players[i]? = some player) : player.number = i + 1 := by
  cases m with
  | hosted props players maxTurns map =>
    rw [V4.Match.players, List.getElem?_mapIdx] at h
    obtain ⟨slot, -, rfl⟩ := Option.map_eq_some_iff.mp h
    rfl
  | joined props bot =>
    rw [V4.Match.players, List.getElem?_singleton] at h
    split at h
    · rename_i hi
      rw [← Option.some.inj h, hi]
    · cases h

/-- The row of a player. -/
theorem mem_calcPlayerData {sort : V4.Sorter} {i : Nat} {stats : V4.MatchStats}
    (hstatus : m.status = .finished stats) (hi : i < m.players.length) {isWinner : Bool}
    {score : Option Score} :
    (∃ name, ⟨name, i + 1, isWinner, score⟩ ∈ V4.calcPlayerData sort m) ↔
      stats.winners.any (· == (i + 1 : Nat)) = isWinner ∧
        stats.score.lookup (toString (i + 1)) = score := by
  rw [V4.calcPlayerData, hstatus]
  simp only [(sort.perm _).mem_iff, List.mem_mapIdx]
  constructor
  · rintro ⟨name, j, hj, heq⟩
    rw [V4.PlayerProps.mk.injEq] at heq
    obtain ⟨-, hnumber, hwinner, hscore⟩ := heq
    rw [number_players m (List.getElem?_eq_getElem hj)] at hnumber
    obtain rfl : j = i := Nat.succ.inj hnumber
    exact ⟨hwinner, hscore⟩
  · rintro ⟨hwinner, hscore⟩
    refine ⟨m.players[i].name, i, hi, ?_⟩
    rw [number_players m (List.getElem?_eq_getElem hi), hwinner, hscore]

theorem status_upgradeMatch (h : upgradeMatch newBots old = .ok m) :
    m.status = upgradeStatus old.players old.status := by
  obtain ⟨slots, -, h⟩ := bind_eq_ok.mp h
  cases h
  rfl

theorem credited_iff (sort : V4.Sorter) (h : upgradeMatch newBots old = .ok m)
    (hstatus : old.status = .finished stats) (hnodup : old.players.Nodup) :
    Credited sort old.players stats m ↔ (∀ bot ∈ old.players, bot ∉ stats.winners) ∧
      ∀ (i : Nat) bot, old.players[i]? = some bot →
        stats.score.lookup (toString (i + 1)) = stats.score.lookup bot := by
  have hfinished : m.status = .finished
      ⟨stats.winners.map fun bot => (indexOf old.players bot : JsonNumber), stats.score⟩ := by
    rw [status_upgradeMatch h, hstatus]
    rfl
  have hrow (i : Nat) (bot : String) (hbot : old.players[i]? = some bot) :
      (∃ name, ⟨name, i + 1, decide (bot ∈ stats.winners), stats.score.lookup bot⟩ ∈
        V4.calcPlayerData sort m) ↔
      ((∃ bot' ∈ stats.winners, old.players[i + 1]? = some bot') ↔ bot ∈ stats.winners) ∧
        stats.score.lookup (toString (i + 1)) = stats.score.lookup bot := by
    have hi : i < m.players.length := by
      rw [length_players_upgradeMatch h]
      exact (List.getElem?_eq_some_iff.mp hbot).1
    rw [mem_calcPlayerData hfinished hi, ← any_winner_iff hnodup, Bool.eq_iff_iff,
      decide_eq_true_iff]
  rw [← marked_iff]
  constructor
  · intro hcredited
    exact ⟨fun i bot hbot => ((hrow i bot hbot).mp (hcredited i bot hbot)).1,
      fun i bot hbot => ((hrow i bot hbot).mp (hcredited i bot hbot)).2⟩
  · rintro ⟨hmarked, hscored⟩ i bot hbot
    exact (hrow i bot hbot).mpr ⟨hmarked i bot hbot, hscored i bot hbot⟩

end Migrated

/-- After the migration, a finished match between distinct players credits its players as it
did before, if and only if it has an id other than `__proto__`, no player won it, and what
its stats hold for a player they also hold under the number of the player. -/
theorem upgradeV3_credited_iff (ord : IterOrder String) (sort : V4.Sorter) (db : V3.DbSchema)
    (db' : V4.DbSchema) (id : String) (m : V1.Match) (stats : V1.MatchStats)
    (hdb : upgradeV3 ord db = .ok db') (hm : db.matches.own.lookup id = some m)
    (hstatus : m.status = .finished stats) (hnodup : m.players.Nodup) :
    (∃ m', db'.matches.own.lookup id = some m' ∧ Credited sort m.players stats m') ↔
      id ≠ "__proto__" ∧ (∀ bot ∈ m.players, bot ∉ stats.winners) ∧
        ∀ (i : Nat) bot, m.players[i]? = some bot →
          stats.score.lookup (toString (i + 1)) = stats.score.lookup bot := by
  obtain ⟨-, hmatches, -, -⟩ := upgradeV3_eq_ok hdb
  simp only [Dict.lookup_rebuild hmatches, hm, Option.some.injEq, exists_eq_left', and_assoc,
    exists_and_left]
  refine and_congr_right fun _ => ?_
  obtain ⟨m', hm'⟩ := Dict.rebuild_eq_ok_iff.mp ⟨_, hmatches⟩ id m hm
  rw [← credited_iff sort hm' hstatus hnodup]
  constructor
  · rintro ⟨m'', hm'', hcredited⟩
    rw [hm'] at hm''
    rwa [Except.ok.inj hm'']
  · exact fun hcredited => ⟨m', hm', hcredited⟩

/-! ## A match that was won -/

section Skirmish

def skirmishBot (uuid : String) : V3.BotData where
  uuid := uuid
  config := ⟨uuid, "bot"⟩
  lastUpdatedAt := "2018-03-01"
  createdAt := "2018-03-01"
  history := []

/-- The first player won with three ships. -/
def skirmishStats : V1.MatchStats where
  winners := ["red"]
  score := HashMap.collect [("red", some 3), ("blue", some 0)]

def skirmishMatch : V1.Match where
  uuid := "match"
  players := ["red", "blue"]
  map := "map"
  timestamp := "2018-03-01"
  logPath := "match.log"
  status := .finished skirmishStats

def skirmishWon : V3.DbSchema where
  «matches» := ⟨HashMap.collect [("match", skirmishMatch)], none⟩
  bots := ⟨HashMap.collect [("red", skirmishBot "red"), ("blue", skirmishBot "blue")], none⟩
  maps := .empty
  notifications := []

def unsorted : V4.Sorter := ⟨id, .refl⟩

theorem exists_skirmishWon : ∃ db', upgradeV3 .sorted skirmishWon = .ok db' := by
  refine (exists_upgradeV3_iff .sorted (by decide +kernel)).mpr fun id m hm player hplayer => .inl ?_
  have hmem := HashMap.mem_of_lookup_collect hm
  rw [List.mem_singleton, Prod.mk.injEq] at hmem
  obtain ⟨-, rfl⟩ := hmem
  have hplayers : ∀ player ∈ skirmishMatch.players, player ∈ skirmishWon.bots.own := by
    decide +kernel
  exact hplayers player hplayer

theorem upgradeV3_credited_iff_skirmish :
    ∃ db', upgradeV3 .sorted skirmishWon = .ok db' ∧
      ((∃ m', db'.matches.own.lookup "match" = some m' ∧
        Credited unsorted ["red", "blue"] skirmishStats m') ↔
      "match" ≠ "__proto__" ∧ (∀ bot ∈ ["red", "blue"], bot ∉ skirmishStats.winners) ∧
        ∀ (i : Nat) bot, ["red", "blue"][i]? = some bot →
          skirmishStats.score.lookup (toString (i + 1)) = skirmishStats.score.lookup bot) := by
  obtain ⟨db', hdb⟩ := exists_skirmishWon
  exact ⟨db', hdb, upgradeV3_credited_iff .sorted unsorted skirmishWon db' "match" skirmishMatch
    skirmishStats hdb (by rfl) rfl (by decide)⟩

/-- The first player won and is not marked, and its score is not shown. -/
theorem not_credited_skirmish :
    ¬ ∀ (ord : IterOrder String) (sort : V4.Sorter) (db : V3.DbSchema) (db' : V4.DbSchema)
        (id : String) (m : V1.Match) (stats : V1.MatchStats), upgradeV3 ord db = .ok db' →
        db.matches.own.lookup id = some m → m.status = .finished stats → m.players.Nodup →
        (∀ player ∈ m.players, player ∈ db.bots.own) →
          ∃ m', db'.matches.own.lookup id = some m' ∧ Credited sort m.players stats m' := by
  intro h
  obtain ⟨db', hdb⟩ := exists_skirmishWon
  obtain ⟨m', hm', hcredited⟩ := h .sorted unsorted skirmishWon db' "match" skirmishMatch
    skirmishStats hdb (by rfl) rfl (by decide) (by decide +kernel)
  obtain ⟨-, hmatches, -, -⟩ := upgradeV3_eq_ok hdb
  obtain ⟨-, old, hold, hm'⟩ := (Dict.lookup_rebuild hmatches).mp hm'
  obtain rfl : skirmishMatch = old := Option.some.inj hold
  have hnone := ((credited_iff unsorted hm' rfl (by decide)).mp hcredited).1
  exact hnone "red" (by decide) (by decide)

end Skirmish
end Mozaic.Desktop
