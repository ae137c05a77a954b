import Mozaic.Controller.Chronicle
import Mozaic.Controller.FinalState
import Mozaic.Desktop.MatchLog

/-! What the match log says about the outcome of a match: its winners, its players and
their scores. -/
namespace Mozaic
open Rust Rules Network Outcome

variable {F : Type}

/-- Number `k` occurs as an owner. -/
def Proto.State.Owned (s : Proto.State F) (k : Nat) : Prop :=
  (∃ p ∈ s.planets, p.owner = some k) ∨ ∃ e ∈ s.expeditions, e.owner = k

/-- The pairs of a state and a planet that `k` owns in it. -/
def holdings (states : List (Proto.State F)) (k : Nat) : Nat :=
  (states.map fun s => s.planets.countP fun p => p.owner = some k).sum

namespace Desktop

/-! ## Scores -/

theorem lookup_increment (scores : Scores) (player k : Nat) :
    (scores.increment player).lookup k =
      if k = player then some ((scores.lookup k).join.map (· + 1)) else scores.lookup k := by
  rw [Scores.increment, HashMap.lookup_insert_eq]
  split
  · rename_i h
    rw [h]
  · rfl

/-- A score counts on from where it stood, if it stood anywhere. -/
theorem lookup_foldl_increment (owners : List Nat) (scores : Scores) (k : Nat) :
    (owners.foldl Scores.increment scores).lookup k =
      if owners.count k = 0 then scores.lookup k
      else some ((scores.lookup k).join.map (· + owners.count k)) := by
  induction owners generalizing scores with
  | nil => simp
  | cons player owners ih =>
    rw [List.foldl_cons, ih, lookup_increment]
    by_cases heq : k = player
    · subst heq
      by_cases hzero : owners.count k = 0
      · simp [hzero]
      · cases (scores.lookup k).join with
        | none => simp [hzero]
        | some n =>
          simp [hzero]
          omega
    · have hne : ¬ player = k := fun h => heq h.symm
      simp [heq, List.count_cons_of_ne hne]

theorem lookup_initial (players : List Nat) (hnd : players.Nodup) (k : Nat) :
    (HashMap.collect (players.map fun p => (p, some 0)) : Scores).lookup k =
      if k ∈ players then some (some 0) else none := by
  have hkeys : ((players.map fun p => (p, some 0)).map Prod.fst : List Nat) = players := by
    rw [List.map_map]
    exact List.map_id players
  split
  · rename_i hk
    rw [HashMap.lookup_collect_of_nodup (hkeys.symm ▸ hnd)]
    exact List.mem_map.mpr ⟨k, hk, rfl⟩
  · rename_i hk
    cases hl : (HashMap.collect (players.map fun p => (p, some 0)) : Scores).lookup k with
    | none => rfl
    | some v =>
      have hmem := HashMap.mem_of_lookup_collect hl
      obtain ⟨p, hp, heq⟩ := List.mem_map.mp hmem
      cases heq
      exact absurd hp hk

/-! ## States read back -/

section ReadBack
variable {state : Proto.State F}

/-- The planets that an object has a key for. -/
def shownPlanets (state : Proto.State F) : List (Proto.Planet F) :=
  state.planets.filter (·.name ≠ protoKey)

theorem entriesIn_fromJson_perm (ord : IterOrder String) (hnames : (state.planets.map (·.name)).Nodup) :
    ((GameState.fromJson state).planets.entriesIn ord).Perm
      ((shownPlanets state).map fun p => (p.name, p)) := by
  apply HashMap.entriesIn_collect_perm
  rw [List.map_map]
  exact hnames.sublist (List.filter_sublist.map _)

theorem owners_fromJson_perm (ord : IterOrder String) (hnames : (state.planets.map (·.name)).Nodup) :
    ((GameState.fromJson state).owners ord).Perm
      ((shownPlanets state).filterMap fun p => truthy p.owner) := by
  have hperm := (entriesIn_fromJson_perm ord hnames).filterMap fun e => truthy e.2.owner
  rwa [List.filterMap_map] at hperm

/-- All owner numbers are numbers of players, which count from one. -/
def Numbered (state : Proto.State F) : Prop := ∀ k, state.Owned k → k ≠ 0

theorem Numbered.truthy {p : Proto.Planet F} (h : Numbered state) (hp : p ∈ state.planets) :
    truthy p.owner = p.owner := by
  cases ho : p.owner with
  | none => rfl
  | some k =>
    have hk : k ≠ 0 := h k (.inl ⟨p, hp, ho⟩)
    simp [Desktop.truthy, hk]

theorem Numbered.owners_perm (h : Numbered state) (ord : IterOrder String)
    (hnames : (state.planets.map (·.name)).Nodup) :
    ((GameState.fromJson state).owners ord).Perm ((shownPlanets state).filterMap (·.owner)) := by
  have heq : (shownPlanets state).filterMap (fun p => Desktop.truthy p.owner) =
      (shownPlanets state).filterMap (·.owner) :=
    List.filterMap_congr fun p hp => h.truthy (List.mem_of_mem_filter hp)
  exact heq ▸ owners_fromJson_perm ord hnames

theorem Numbered.mem_livingPlayers (h : Numbered state) (ord : IterOrder String)
    (hnames : (state.planets.map (·.name)).Nodup) {k : Nat} :
    k ∈ (GameState.fromJson state).livingPlayers ord ↔
      (∃ p ∈ shownPlanets state, p.owner = some k) ∨ ∃ e ∈ state.expeditions, e.owner = k := by
  rw [GameState.livingPlayers, Finset.mem_union, List.mem_toFinset, List.mem_toFinset,
    (h.owners_perm ord hnames).mem_iff, List.mem_filterMap]
  simp [GameState.fromJson]

theorem Numbered.count_owners (h : Numbered state) (ord : IterOrder String)
    (hnames : (state.planets.map (·.name)).Nodup) (k : Nat) :
    ((GameState.fromJson state).owners ord).count k =
      (shownPlanets state).countP fun p => p.owner = some k := by
  rw [(h.owners_perm ord hnames).count_eq, List.count, List.countP_filterMap]
  apply List.countP_congr
  intro p _
  cases p.owner <;> simp

end ReadBack

/-! ## Logs read back -/

section Logs
variable {states : List (Proto.State F)} {log : MatchLog F} {ord : IterOrder String}
  {setOrder : IterOrder Nat}

/-- A log of these states alone. -/
theorem parseLog_gameStates (states : List (Proto.State F)) :
    ∃ log, MatchLog.parseLog (states.map LogEntry.gameState) = some log ∧
      log.gameStates = states.map GameState.fromJson := by
  have hopened (player : Nat) : Opened (recordsOf player (states.map LogEntry.gameState)) := by
    have hnil : recordsOf player (states.map LogEntry.gameState) = [] := by
      rw [recordsOf, List.filterMap_map]
      exact List.filterMap_eq_nil_iff.mpr fun _ _ => rfl
    simp [hnil, Opened]
  obtain ⟨log, hlog, hstates, _⟩ := exists_parseLog hopened
  refine ⟨log, hlog, ?_⟩
  rw [hstates, statesOf, List.filterMap_map]
  exact congrArg (List.map _) List.filterMap_some

/-- The pairs of a state and a planet of `k` that the log shows. -/
def shownHoldings (states : List (Proto.State F)) (k : Nat) : Nat :=
  (states.map fun s => (shownPlanets s).countP fun p => p.owner = some k).sum

/-- The scores count what the log shows, from zero for the players and from nothing for
everybody else. -/
theorem lookup_calcScores (hnames : ∀ s ∈ states, (s.planets.map (·.name)).Nodup)
    (hnumbered : ∀ s ∈ states, Numbered s) (hlog : log.gameStates = states.map GameState.fromJson)
    {players : List Nat} (hplayers : log.getPlayers ord setOrder = some players) :
    ∃ scores, calcScores ord setOrder log = some scores ∧ ∀ k, scores.lookup k =
      if k ∈ players then some (some (shownHoldings states k))
      else if shownHoldings states k = 0 then none else some none := by
  have hnd : players.Nodup := by
    obtain ⟨_, _, rfl⟩ := Option.map_eq_some_iff.mp hplayers
    exact setOrder.nodup _
  refine ⟨_, by rw [calcScores, hplayers]; rfl, fun k => ?_⟩
  have hcount : (states.flatMap fun s => (GameState.fromJson s).owners ord).count k =
      shownHoldings states k := by
    rw [List.count_flatMap]
    exact congrArg List.sum (List.map_congr_left fun s hs =>
      (hnumbered s hs).count_owners ord (hnames s hs) k)
  rw [hlog, List.foldl_map, ← List.foldl_flatMap, lookup_foldl_increment, lookup_initial players hnd,
    hcount]
  by_cases hzero : shownHoldings states k = 0 <;> by_cases hk : k ∈ players <;> simp [hzero, hk]

/-- What the log does not show is owned in no state, if all holdings are shown. -/
theorem shownHoldings_eq_iff (states : List (Proto.State F)) (k : Nat) :
    shownHoldings states k = holdings states k ↔
      ∀ s ∈ states, ∀ p ∈ s.planets, p.name = protoKey → p.owner ≠ some k := by
  induction states with
  | nil => simp [shownHoldings, holdings]
  | cons s states ih =>
    have hsplit : s.planets.countP (fun p => p.owner = some k) =
        (shownPlanets s).countP (fun p => p.owner = some k) +
          (s.planets.filter (·.name = protoKey)).countP fun p => p.owner = some k := by
      rw [List.countP_eq_countP_filter_add _ _ (fun p => p.name ≠ protoKey)]
      simp [shownPlanets]
    have hnone : ((s.planets.filter (·.name = protoKey)).countP fun p => p.owner = some k) = 0 ↔
        ∀ p ∈ s.planets, p.name = protoKey → p.owner ≠ some k := by
      simp [List.countP_eq_zero]
    have hle : shownHoldings states k ≤ holdings states k := by
      apply List.sum_le_sum
      intro s _
      exact List.filter_sublist.countP_le
    simp only [shownHoldings, holdings, List.map_cons, List.sum_cons, List.forall_mem_cons] at ih hle ⊢
    rw [← ih, ← hnone, hsplit]
    omega

end Logs

/-! ## Whole matches -/

/-- No planet hides behind the prototype of an object, or nobody owns it. -/
def NoneHidden (state : Proto.State F) : Prop :=
  ∀ p ∈ state.planets, p.name = protoKey → p.owner = none

theorem Numbered.mem_livingPlayers_iff {state : Proto.State F} (h : Numbered state)
    (hnames : (state.planets.map (·.name)).Nodup) (hshown : NoneHidden state)
    (ord : IterOrder String) {k : Nat} :
    k ∈ (GameState.fromJson state).livingPlayers ord ↔ state.Owned k := by
  rw [h.mem_livingPlayers ord hnames, Proto.State.Owned]
  apply or_congr_left
  constructor
  · intro h
    obtain ⟨p, hp, ho⟩ := h
    exact ⟨p, List.mem_of_mem_filter hp, ho⟩
  · intro h
    obtain ⟨p, hp, ho⟩ := h
    have hname : p.name ≠ protoKey := fun hname => by simp [hshown p hp hname] at ho
    exact ⟨p, List.mem_filter.mpr ⟨hp, by simpa using hname⟩, ho⟩

section View
variable {s : PlanetWars F}

theorem InPlay.lt_length (hs : Valid s) {i : PlayerId} (h : InPlay s i) : i < s.players.length := by
  rcases h with ⟨p, hp, ho⟩ | ⟨e, he, ho⟩
  · obtain ⟨f, hf, hfo⟩ := Planet.owner_mem ho
    exact hs.owners p hp f hf i hfo
  · obtain ⟨j, hj, hlt⟩ := (hs.expeditions e he).owner
    exact Option.some.inj (hj.symm.trans ho) ▸ hlt

theorem rotate_zero {n i : Nat} (hi : i < n) : rotate n 0 i = i + 1 := by
  simp [rotate, Nat.mod_eq_of_lt hi]

/-- The owners in a logged state are the players in play, counted from one. -/
theorem owned_view_iff (hs : Valid s) {k : Nat} :
    (s.view 0).Owned k ↔ ∃ i, InPlay s i ∧ k = i + 1 := by
  have hnumber {i : PlayerId} (hi : InPlay s i) : rotate s.players.length 0 i = i + 1 :=
    rotate_zero (InPlay.lt_length hs hi)
  constructor
  · intro h
    rcases h with ⟨_, hmem, ho⟩ | ⟨_, hmem, ho⟩
    · obtain ⟨p, hp, rfl⟩ := List.mem_map.mp hmem
      obtain ⟨i, hi, rfl⟩ := Option.map_eq_some_iff.mp ho
      have hplay : InPlay s i := .inl ⟨p, hp, hi⟩
      exact ⟨i, hplay, hnumber hplay⟩
    · obtain ⟨e, he, rfl⟩ := List.mem_map.mp hmem
      obtain ⟨i, hi, _⟩ := (hs.expeditions e he).owner
      have hplay : InPlay s i := .inr ⟨e, he, hi⟩
      refine ⟨i, hplay, ?_⟩
      rw [← ho, Expedition.view, hi]
      exact hnumber hplay
  · intro h
    obtain ⟨i, hplay, rfl⟩ := h
    rw [← hnumber hplay]
    rcases hplay with ⟨p, hp, ho⟩ | ⟨e, he, ho⟩
    · exact .inl ⟨_, List.mem_map_of_mem hp, by rw [Planet.view, ho, Option.map_some]⟩
    · exact .inr ⟨_, List.mem_map_of_mem he, by rw [Expedition.view, ho]; rfl⟩

theorem numbered_view (hs : Valid s) : Numbered (s.view 0) := by
  intro k hk
  obtain ⟨i, _, rfl⟩ := (owned_view_iff hs).mp hk
  exact Nat.succ_ne_zero i

theorem map_name_view (s : PlanetWars F) (offset : Nat) :
    (s.view offset).planets.map (·.name) = s.planets.map (·.name) := by
  rw [PlanetWars.view, List.map_map]
  rfl

end View

open Controller

/-- The log says who won, knows everybody who ever owned something as a player, and gives
each player its holdings as a score, and nobody else one. -/
structure Reproduces (ord : IterOrder String) (setOrder : IterOrder Nat) (log : MatchLog F)
    (c : PwController F) : Prop where
  winners : log.getWinners ord = some (c.state.livingPlayers.map (· + 1)).toFinset
  scores : ∃ players scores, log.getPlayers ord setOrder = some players ∧
    calcScores ord setOrder log = some scores ∧
    (∀ state ∈ logged c.channels, ∀ k, state.Owned k → k ∈ players) ∧
    ∀ k, scores.lookup k =
      if k ∈ players then some (some (holdings (logged c.channels) k)) else none

section Chronicle
variable {start : PlanetWars F} {states : List (PlanetWars F)} {c : PwController F}
  {log : MatchLog F}

/-- Every logged state is numbered, and names its planets as the map does. -/
theorem Chronicle.legible (h : Chronicle start states c)
    (hnames : (start.planets.map (·.name)).Nodup) {state : Proto.State F}
    (hstate : state ∈ logged c.channels) :
    Numbered state ∧ (state.planets.map (·.name)).Nodup := by
  rw [h.logged] at hstate
  obtain ⟨s, hs, rfl⟩ := List.mem_map.mp hstate
  refine ⟨numbered_view (h.valid s hs), ?_⟩
  rwa [map_name_view, (h.earlier s hs).names]

theorem Chronicle.exists_players (h : Chronicle start states c)
    (hlog : log.gameStates = (logged c.channels).map GameState.fromJson) (ord : IterOrder String)
    (setOrder : IterOrder Nat) : ∃ players, log.getPlayers ord setOrder = some players ∧
      ∀ k, k ∈ players ↔ k ∈ (GameState.fromJson (start.view 0)).livingPlayers ord := by
  have hhead : log.gameStates.head? = some (GameState.fromJson (start.view 0)) := by
    rw [hlog, h.logged, List.head?_map, List.head?_map, h.opening]
    rfl
  exact ⟨_, by rw [MatchLog.getPlayers, hhead]; rfl, setOrder.mem_order _⟩

theorem Chronicle.winners (h : Chronicle start states c)
    (hnames : (start.planets.map (·.name)).Nodup) (hturn : 1 ≤ c.state.turnNum)
    (hshown : ∀ state ∈ logged c.channels, NoneHidden state)
    (hlog : log.gameStates = (logged c.channels).map GameState.fromJson) (ord : IterOrder String) :
    log.getWinners ord = some (c.state.livingPlayers.map (· + 1)).toFinset := by
  have hmem : c.state ∈ states := List.mem_of_getLast? h.current
  have hvalid := h.valid c.state hmem
  have hstate : c.state.view 0 ∈ logged c.channels := by
    rw [h.logged]
    exact List.mem_map_of_mem hmem
  obtain ⟨hnumbered, hnd⟩ := Chronicle.legible h hnames hstate
  have hlast : log.gameStates.getLast? = some (GameState.fromJson (c.state.view 0)) := by
    rw [hlog, h.logged, List.getLast?_map, List.getLast?_map, h.current]
    rfl
  rw [MatchLog.getWinners, hlast, Option.map_some]
  congr 1
  ext k
  rw [hnumbered.mem_livingPlayers_iff hnd (hshown _ hstate), owned_view_iff hvalid]
  simp only [List.mem_toFinset, List.mem_map, PlanetWars.mem_livingPlayers hvalid.playerIds]
  apply exists_congr
  intro i
  constructor
  · intro hk
    obtain ⟨hplay, rfl⟩ := hk
    have hlt : i < c.state.players.length := InPlay.lt_length hvalid hplay
    have hp := List.getElem?_eq_getElem hlt
    exact ⟨⟨_, hp, (h.flags hturn i _ hp).mpr hplay⟩, rfl⟩
  · intro hk
    obtain ⟨⟨p, hp, ha⟩, rfl⟩ := hk
    exact ⟨(h.flags hturn i p hp).mp ha, rfl⟩

/-- A log reproduces the outcome if and only if it hides no holdings. -/
theorem Chronicle.reproduces_iff (h : Chronicle start states c)
    (hnames : (start.planets.map (·.name)).Nodup) (hturn : 1 ≤ c.state.turnNum)
    (hlog : log.gameStates = (logged c.channels).map GameState.fromJson) (ord : IterOrder String)
    (setOrder : IterOrder Nat) :
    Reproduces ord setOrder log c ↔ ∀ state ∈ logged c.channels, NoneHidden state := by
  obtain ⟨players, hplayers, hmem⟩ := Chronicle.exists_players h hlog ord setOrder
  obtain ⟨scores, hscores, hlookup⟩ := lookup_calcScores
    (fun s hs => (Chronicle.legible h hnames hs).2) (fun s hs => (Chronicle.legible h hnames hs).1)
    hlog hplayers
  constructor
  · intro hrep state hstate p hp hname
    cases ho : p.owner with
    | none => rfl
    | some k =>
      obtain ⟨players', scores', hplayers', hscores', hknown, hcounted⟩ := hrep.scores
      obtain rfl := Option.some.inj (hplayers.symm.trans hplayers')
      obtain rfl := Option.some.inj (hscores.symm.trans hscores')
      have hk : k ∈ players := hknown state hstate k (.inl ⟨p, hp, ho⟩)
      have hcount := hcounted k
      rw [hlookup, if_pos hk, if_pos hk, Option.some.injEq, Option.some.injEq,
        shownHoldings_eq_iff] at hcount
      exact absurd ho (hcount state hstate p hp hname)
  · intro hshown
    have hall (k : Nat) : shownHoldings (logged c.channels) k = holdings (logged c.channels) k := by
      rw [shownHoldings_eq_iff]
      intro state hstate p hp hname ho
      simp [hshown state hstate p hp hname] at ho
    have hstart : start.view 0 ∈ logged c.channels := by
      rw [h.logged]
      exact List.mem_map_of_mem (List.mem_of_head? h.opening)
    have hvalid : Valid start := h.valid start (List.mem_of_head? h.opening)
    obtain ⟨hnumbered, hnd⟩ := Chronicle.legible h hnames hstart
    have hknown : ∀ state ∈ logged c.channels, ∀ k, state.Owned k → k ∈ players := by
      intro state hstate k hk
      rw [hmem, hnumbered.mem_livingPlayers_iff hnd (hshown _ hstart), owned_view_iff hvalid]
      rw [h.logged] at hstate
      obtain ⟨s, hs, rfl⟩ := List.mem_map.mp hstate
      obtain ⟨i, hi, rfl⟩ := (owned_view_iff (h.valid s hs)).mp hk
      exact ⟨i, (h.earlier s hs).inPlay i hi, rfl⟩
    refine ⟨Chronicle.winners h hnames hturn hshown hlog ord, players, scores, hplayers, hscores,
      hknown, fun k => ?_⟩
    rw [hlookup, hall]
    by_cases hk : k ∈ players
    · rw [if_pos hk, if_pos hk]
    · have hzero : holdings (logged c.channels) k = 0 := by
        rw [holdings, List.sum_eq_zero_iff]
        intro n hn
        obtain ⟨state, hstate, rfl⟩ := List.mem_map.mp hn
        rw [List.countP_eq_zero]
        intro p hp ho
        exact hk (hknown state hstate k (.inl ⟨p, hp, by simpa using ho⟩))
      rw [if_neg hk, if_neg hk, if_pos hzero]

end Chronicle

section Run
variable [F64 F] [External F] {start : PlanetWars F}

/-- After at least one turn the log of the control stream reproduces the outcome of the match
if and only if no state in it has an owned planet that hides behind the prototype. -/
theorem run_reproduces_iff (rt : Runtime) (lobby : Lobby F)
    (hstart : PwController.createGame lobby = .ok start)
    (hnames : (start.planets.map (·.name)).Nodup) (inputs : List (Runtime × Input))
    (ord : IterOrder String) (setOrder : IterOrder Nat) :
    Safe (fun _ => True)
      (fun s => ∀ c, s.game.controller? = some c → 1 ≤ c.state.turnNum →
        ∃ log, MatchLog.parseLog ((logged c.channels).map LogEntry.gameState) = some log ∧
          (Reproduces ord setOrder log c ↔ ∀ state ∈ logged c.channels, NoneHidden state))
      (System.run rt lobby inputs) := by
  apply (run_chronicle hstart inputs).weaken
  intro s hs c hc hturn
  obtain ⟨states, h⟩ := hs c hc
  obtain ⟨log, hparse, hlog⟩ := parseLog_gameStates (logged c.channels)
  exact ⟨log, hparse, Chronicle.reproduces_iff h hnames hturn hlog ord setOrder⟩

end Run

section Skirmish

theorem run_reproduces_iff_skirmish :
    Safe (fun _ => True)
      (fun s => ∀ c, s.game.controller? = some c → 1 ≤ c.state.turnNum →
        ∃ log, MatchLog.parseLog ((logged c.channels).map LogEntry.gameState) = some log ∧
          (Reproduces .sorted .sorted log c ↔ ∀ state ∈ logged c.channels, NoneHidden state))
      (System.run skirmishRuntime (skirmishLobby [[1], [2]])
        [(skirmishRuntime, .response ⟨⟨1⟩, 0⟩ (.error .timeout)),
          (skirmishRuntime, .response ⟨⟨2⟩, 0⟩ (.error .timeout))]) :=
  run_reproduces_iff _ _ createGame_skirmish (by decide) _ _ _

/-- A server with one map, on which a planet is called `__proto__`, and a single turn. -/
@[reducible] def hiddenServer : External Int where
  readFile path := if path = "m" then some skirmishMap else none
  mapFromStr _ := some ⟨[⟨6, 0, 0, some 1, protoKey⟩, ⟨6, 3, 4, some 2, "b"⟩]⟩
  configFromSlice _ := some ⟨"m", 1⟩
  actionFromSlice _ := .error "expected value at line 1 column 1"
  decodeLobbyMessage _ := none

/-- The first player keeps its planet to the end, and is not among the winners. -/
theorem not_reproduces_hidden :
    letI := hiddenServer
    ∃ start s c log,
      PwController.createGame (skirmishLobby [[1], [2]]) = .ok start ∧
      (start.planets.map (·.name)).Nodup ∧
      System.run skirmishRuntime (skirmishLobby [[1], [2]])
        [(skirmishRuntime, .response ⟨⟨1⟩, 0⟩ (.error .timeout)),
          (skirmishRuntime, .response ⟨⟨2⟩, 0⟩ (.error .timeout))] = .ok s ∧
      s.game = .finished c ∧ 1 ≤ c.state.turnNum ∧
      MatchLog.parseLog ((logged c.channels).map LogEntry.gameState) = some log ∧
      ¬ Reproduces .sorted .sorted log c := by
  let := hiddenServer
  let inputs : List (Runtime × Input) :=
    [(skirmishRuntime, .response ⟨⟨1⟩, 0⟩ (.error .timeout)), (skirmishRuntime, .response ⟨⟨2⟩, 0⟩ (.error .timeout))]
  have hstart : (PwController.createGame (skirmishLobby [[1], [2]])).toOption.map (fun start =>
      start.planets.map (·.name)) = some [protoKey, "b"] := by
    decide +kernel
  have hrun : ((System.run skirmishRuntime (skirmishLobby [[1], [2]]) inputs).toOption.bind
      fun s => s.game.ended?.map fun c => (c.state.turnNum, (logged c.channels).head?)) =
      some (1, some ⟨[⟨6, 0, 0, some 1, protoKey⟩, ⟨6, 3, 4, some 2, "b"⟩], []⟩) := by
    decide +kernel
  cases hcreate : PwController.createGame (skirmishLobby [[1], [2]]) with
  | error e =>
    rw [hcreate] at hstart
    cases hstart
  | ok start =>
    have hnames : (start.planets.map (·.name)).Nodup := by
      rw [hcreate] at hstart
      have heq : start.planets.map (·.name) = [protoKey, "b"] := Option.some.inj hstart
      rw [heq]
      decide
    cases hok : System.run skirmishRuntime (skirmishLobby [[1], [2]]) inputs with
    | error e =>
      rw [hok] at hrun
      cases hrun
    | ok s =>
      rw [hok] at hrun
      obtain ⟨c, hended, hc⟩ := Option.map_eq_some_iff.mp hrun
      obtain ⟨hturn, hhead⟩ := Prod.mk.inj hc
      have hgame : s.game = .finished c := PwMatchState.ended?_eq_some.mp hended
      obtain ⟨states, h⟩ := (run_chronicle hcreate inputs).of_ok hok c (by rw [hgame]; rfl)
      obtain ⟨log, hparse, hlog⟩ := parseLog_gameStates (logged c.channels)
      refine ⟨start, s, c, log, rfl, hnames, rfl, hgame, hturn.ge, hparse, fun hrep => ?_⟩
      have hshown := (Chronicle.reproduces_iff h hnames hturn.ge hlog .sorted .sorted).mp hrep
      have howner := hshown _ (List.mem_of_head? hhead) _ List.mem_cons_self rfl
      cases howner

end Skirmish

end Desktop
end Mozaic
