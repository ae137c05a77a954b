import Mozaic.Visualizer.Player

/-! The turn that is shown, and the turns of the log. -/
namespace Mozaic.Visualizer
open Rust JavaScript Desktop

variable {F : Type}

/-! ## Reading a game state -/

theorem gameState?_isSome_iff (log : MatchLog F) (turnNum : Int) :
    (gameState? log turnNum).isSome ↔ 0 ≤ turnNum ∧ turnNum ≤ (log.gameStates.length : Int) - 1 := by
  rw [gameState?]
  split
  · exact iff_of_false (by simp) fun h => by omega
  · rw [isSome_getElem?]
    omega

theorem getPlayers_isSome_iff (ord : IterOrder String) (setOrder : IterOrder Nat)
    (log : MatchLog F) : (log.getPlayers ord setOrder).isSome ↔ log.gameStates ≠ [] := by
  rw [MatchLog.getPlayers, Option.isSome_map]
  cases log.gameStates <;> simp

/-- The scoreboard can be drawn if and only if the turn is in the log. -/
theorem scoreboard_isSome_iff (ord : IterOrder String) (setOrder : IterOrder Nat)
    (log : MatchLog F) (turnNum : Int) : (scoreboard ord setOrder log turnNum).isSome ↔
      0 ≤ turnNum ∧ turnNum ≤ (log.gameStates.length : Int) - 1 := by
  rw [← gameState?_isSome_iff]
  cases hstate : gameState? log turnNum with
  | none => simp [scoreboard, hstate]
  | some state =>
    have hbounds := (gameState?_isSome_iff log turnNum).mp (by rw [hstate]; rfl)
    have hne : log.gameStates ≠ [] := by
      intro hnil
      rw [hnil] at hbounds
      simp at hbounds
      omega
    obtain ⟨players, hplayers⟩ :=
      Option.isSome_iff_exists.mp ((getPlayers_isSome_iff ord setOrder log).mpr hne)
    simp [scoreboard, hstate, hplayers]

theorem draw_isSome (ord : IterOrder String) (log : MatchLog F) (turnNum : Int) :
    (draw ord log turnNum).isSome = (gameState? log turnNum).isSome := by
  cases hstate : gameState? log turnNum <;> simp [draw, hstate]

/-! ## Calls -/

/-- The turn is one of a game with this last turn. -/
def Within (lastTurn : Int) (s : VisualizerState) : Prop := 0 ≤ s.turnNum ∧ s.turnNum ≤ lastTurn

/-- A call that stays within the game, and in the game. -/
structure Keeps (lastTurn : Int) (call : Call) : Prop where
  update : ∀ s, Within lastTurn s → Within lastTurn (call.update s)
  game : ∀ s f, (call.callback s f).game = f.game

theorem game_setTimer (s : VisualizerState) (f : Fields) : (setTimer s f).game = f.game := by
  rw [setTimer]
  split <;> rfl

theorem keeps_setPlaying (lastTurn : Int) (value : Bool) : Keeps lastTurn (setPlaying value) where
  update _ h := h
  game := game_setTimer

theorem keeps_setSpeed (lastTurn : Int) (speed : Float) : Keeps lastTurn (setSpeed speed) where
  update _ h := h
  game s f := by
    rw [setSpeed]
    dsimp only
    split
    · exact game_setTimer s f
    · rfl

theorem keeps_setTurn {lastTurn num : Int} (hlast : 0 ≤ lastTurn) (hnum : 0 ≤ num) :
    ∀ call ∈ setTurn lastTurn num, Keeps lastTurn call := by
  intro call hcall
  rw [setTurn, List.mem_append] at hcall
  rcases hcall with hcall | hcall
  · split at hcall
    · rw [List.mem_singleton.mp hcall]
      exact keeps_setPlaying lastTurn false
    · cases hcall
  · rw [List.mem_singleton.mp hcall]
    exact ⟨fun _ _ => ⟨le_min hnum hlast, min_le_right num lastTurn⟩, fun _ _ => rfl⟩

theorem turnNum_setTurn (s : VisualizerState) (lastTurn num : Int) :
    ((setTurn lastTurn num).foldl (fun s call => call.update s) s).turnNum = min num lastTurn := by
  rw [setTurn]
  split <;> rfl

/-! ## Pages -/

/-- The visualizer plays the log of its props, and shows a turn of it. -/
structure Page.Good (p : Page F) : Prop where
  game : p.visualizer.fields.game.matchLog = p.matchLog
  within : Within (Page.lastTurnOf p.logs p.matchLog) p.visualizer.state

theorem Page.Good.lastTurn_nonneg {p : Page F} (h : p.Good) :
    0 ≤ Page.lastTurnOf p.logs p.matchLog := h.within.1.trans h.within.2

theorem Page.Good.batch {p : Page F} (h : p.Good) {calls : List Call}
    (hcalls : ∀ call ∈ calls, Keeps (Page.lastTurnOf p.logs p.matchLog) call) :
    (p.batch calls).Good where
  game := Component.batch_fields (P := fun f : Fields => f.game.matchLog = p.matchLog) h.game
    fun call hcall s f hf => by rw [(hcalls call hcall).game, hf]
  within := Component.batch_state h.within fun call hcall => (hcalls call hcall).update

theorem Page.Good.tick {p : Page F} (h : p.Good) : ∀ q ∈ p.tick, q.Good := by
  intro q hq
  rw [Page.tick] at hq
  split at hq
  · obtain ⟨c, hc, rfl⟩ := List.mem_map.mp hq
    have hlast : p.lastTurn = Page.lastTurnOf p.logs p.matchLog := congrArg _ h.game
    have hkeeps := keeps_setTurn h.lastTurn_nonneg (Int.add_nonneg h.within.1 Int.one_nonneg)
    have hgood : c.fields.game.matchLog = p.matchLog ∧
        Within (Page.lastTurnOf p.logs p.matchLog) c.state := by
      rw [Page.nextTurn, hlast] at hc
      refine Component.changes_invariant (I := fun c => c.fields.game.matchLog = p.matchLog ∧
        Within (Page.lastTurnOf p.logs p.matchLog) c.state) ⟨h.game, h.within⟩ ?_ c hc
      rintro call hcall c ⟨hgame, hwithin⟩
      exact ⟨by rw [Component.change, (hkeeps call hcall).game, hgame],
        (hkeeps call hcall).update _ hwithin⟩
    exact ⟨hgood.1, hgood.2⟩
  · cases hq

/-- A log that is played has game states. -/
theorem lastTurnOf_nonneg {ord : IterOrder String} {setOrder : IterOrder Nat} {logs : Logs F}
    {matchLog : LogRef} {game : Game} (h : Game.new ord setOrder logs matchLog = some game) :
    game.matchLog = matchLog ∧ 0 ≤ Page.lastTurnOf logs matchLog := by
  rw [Game.new, Option.bind_eq_bind, Option.bind_eq_some_iff] at h
  obtain ⟨players, hplayers, hgame⟩ := h
  obtain rfl := Option.some.inj hgame
  have hne := (getPlayers_isSome_iff ord setOrder _).mp (by rw [hplayers]; rfl)
  have hpos := List.length_pos_of_ne_nil hne
  refine ⟨rfl, ?_⟩
  rw [Page.lastTurnOf]
  omega

theorem Page.good_setGame {ord : IterOrder String} {setOrder : IterOrder Nat} {p q : Page F}
    {matchLog : LogRef} (h : p.setGame ord setOrder matchLog = some q) :
    q.visualizer.fields.game.matchLog = matchLog ∧ (q.logs = p.logs ∧ q.matchLog = p.matchLog) ∧
      Within (Page.lastTurnOf p.logs matchLog) q.visualizer.state := by
  rw [setGame, Option.bind_eq_bind, Option.bind_eq_some_iff] at h
  obtain ⟨game, hgame, hq⟩ := h
  obtain rfl := Option.some.inj hq
  obtain ⟨rfl, hlast⟩ := lastTurnOf_nonneg hgame
  have hkeeps : ∀ call ∈ setTurn (lastTurnOf p.logs game.matchLog) 0 ++ [setPlaying true],
      Keeps (lastTurnOf p.logs game.matchLog) call := by
    intro call hcall
    rcases List.mem_append.mp hcall with hcall | hcall
    · exact keeps_setTurn hlast (Int.le_refl 0) call hcall
    · rw [List.mem_singleton.mp hcall]
      exact keeps_setPlaying _ true
  refine ⟨?_, ⟨rfl, rfl⟩, ?_⟩
  · exact Component.batch_fields (P := fun f : Fields => f.game.matchLog = game.matchLog) rfl
      fun call hcall s f hf => by rw [(hkeeps call hcall).game, hf]
  · have hturn : (Component.batch { p.visualizer with fields := { p.visualizer.fields with game } }
        (setTurn (lastTurnOf p.logs game.matchLog) 0 ++ [setPlaying true])).state.turnNum = 0 := by
      rw [Component.batch, List.foldl_append]
      exact (turnNum_setTurn _ _ 0).trans (min_eq_left hlast)
    exact ⟨hturn.ge, hturn.trans_le hlast⟩

/-- Entries are added behind the game states that are there. -/
theorem gameStates_addEntryOf {type : MatchType} {log log' : MatchLog F} {entry : LogEntry F}
    (h : MatchLog.addEntryOf type log entry = some log') : log.gameStates <+: log'.gameStates := by
  cases entry with
  | gameState state =>
    cases type <;> obtain rfl := Option.some.inj h
    · exact List.prefix_append _ _
    · exact List.prefix_refl _
  | playerEntry player record =>
    cases type with
    | hosted =>
      simp only [MatchLog.addEntryOf, MatchLog.addEntry, Option.bind_eq_bind,
        Option.bind_eq_some_iff, Option.pure_def, Option.some.injEq] at h
      obtain ⟨turns, -, rfl⟩ := h
      exact List.prefix_refl _
    | joined =>
      simp only [MatchLog.addEntryOf, MatchLog.addEntryJoined, Option.bind_eq_bind,
        Option.bind_eq_some_iff, Option.pure_def, Option.some.injEq] at h
      obtain ⟨turns, -, rfl⟩ := h
      split
      · exact List.prefix_append _ _
      · exact List.prefix_refl _

theorem LogObject.length_addEntry (o : LogObject F) (entry : LogEntry F) :
    o.log.gameStates.length ≤ (o.addEntry entry).log.gameStates.length := by
  rw [addEntry]
  cases hadd : MatchLog.addEntryOf o.type o.log entry with
  | none => exact Nat.le_refl _
  | some log' => exact (gameStates_addEntryOf hadd).length_le

theorem lastTurnOf_addEntry (logs : Logs F) (grown matchLog : LogRef) (entry : LogEntry F) :
    Page.lastTurnOf logs matchLog ≤
      Page.lastTurnOf (Function.update logs grown ((logs grown).addEntry entry)) matchLog := by
  rw [Page.lastTurnOf, Page.lastTurnOf]
  by_cases hgrown : matchLog = grown
  · subst hgrown
    have hle := (logs matchLog).length_addEntry entry
    rw [Function.update_self]
    omega
  · rw [Function.update_of_ne hgrown]

/-! ## Steps -/

theorem Page.Good.click {p : Page F} (h : p.Good) {click : Click}
    (hclick : click = .previous → 0 < p.turnNum) :
    (p.batch (p.controls.onClick p.lastTurn click)).Good := by
  have hlast : p.lastTurn = lastTurnOf p.logs p.matchLog := congrArg _ h.game
  have hlast0 := h.lastTurn_nonneg
  apply h.batch
  rw [hlast]
  have hturn : 0 ≤ p.turnNum := h.within.1
  cases click with
  | slider value => exact keeps_setTurn hlast0 (Int.natCast_nonneg value)
  | first => exact keeps_setTurn hlast0 (Int.le_refl 0)
  | previous => exact keeps_setTurn hlast0 (Int.sub_nonneg_of_le (hclick rfl))
  | next => exact keeps_setTurn hlast0 (Int.add_nonneg hturn Int.one_nonneg)
  | last => exact keeps_setTurn hlast0 hlast0
  | playButton =>
    intro call hcall
    rw [Controls.onClick] at hcall
    split at hcall <;> rw [List.mem_singleton.mp hcall]
    · exact keeps_setPlaying _ false
    · exact keeps_setPlaying _ true
  | decreaseSpeed | increaseSpeed =>
    intro call hcall
    rw [List.mem_singleton.mp hcall]
    exact keeps_setSpeed _ _

section Run
variable {ord : IterOrder String} {setOrder : IterOrder Nat}

theorem Page.Good.receiveProps {p q : Page F} (h : p.Good) {matchLog : LogRef}
    (hq : p.receiveProps ord setOrder matchLog = some q) : q.Good := by
  rw [Page.receiveProps] at hq
  split at hq
  · rw [Option.bind_eq_bind, Option.bind_eq_some_iff] at hq
    obtain ⟨played, hplayed, hq⟩ := hq
    obtain rfl := Option.some.inj hq
    obtain ⟨hgame, ⟨hlogs, -⟩, hwithin⟩ := good_setGame hplayed
    exact ⟨hgame, by rw [hlogs]; exact hwithin⟩
  · rename_i hsame
    obtain rfl := Option.some.inj hq
    rw [not_not] at hsame
    exact ⟨h.game.trans hsame, hsame ▸ h.within⟩

/-- Every page that an event leads to is good, if the event is not "previous" at the first turn. -/
theorem Page.Good.pages {p : Page F} (h : p.Good) {event : Event F}
    (hevent : event = .click .previous → 0 < p.turnNum) {pages : List (Page F)}
    (hpages : p.pages ord setOrder event = some pages) : ∀ q ∈ pages, q.Good := by
  intro q hq
  cases event with
  | click click =>
    obtain rfl := Option.some.inj hpages
    rw [List.mem_singleton.mp hq]
    exact h.click fun hclick => hevent (by rw [hclick])
  | tick =>
    obtain rfl := Option.some.inj hpages
    exact h.tick q hq
  | receiveProps matchLog =>
    obtain ⟨q', hq', rfl⟩ := Option.map_eq_some_iff.mp hpages
    rw [List.mem_singleton.mp hq]
    exact h.receiveProps hq'
  | addEntry matchLog entry =>
    obtain rfl := Option.some.inj hpages
    rw [List.mem_singleton.mp hq]
    have hle := lastTurnOf_addEntry p.logs matchLog p.matchLog entry
    exact ⟨h.game, h.within.1, h.within.2.trans hle⟩

theorem Page.step_mem {p q : Page F} {event : Event F} (h : p.step ord setOrder event = some q) :
    q = p ∨ ∃ pages, p.pages ord setOrder event = some pages ∧ q ∈ pages := by
  obtain ⟨pages, hpages, rfl⟩ := Option.map_eq_some_iff.mp h
  cases hlast : pages.getLast? with
  | none => exact .inl (by rw [List.getLastD_eq_getLast?, hlast]; rfl)
  | some q =>
    refine .inr ⟨pages, hpages, ?_⟩
    rw [List.getLastD_eq_getLast?, hlast]
    exact List.mem_of_getLast? hlast

theorem Page.run_concat (logs : Logs F) (matchLog : LogRef) (events : List (Event F))
    (event : Event F) : run ord setOrder logs matchLog (events ++ [event]) =
      (run ord setOrder logs matchLog events).bind (step ord setOrder · event) := by
  rw [run, run]
  cases mount ord setOrder logs matchLog with
  | none => rfl
  | some p => simp [List.foldlM_append]

variable (ord setOrder)

/-- The pages that are seen during these events. -/
def Reached (logs : Logs F) (matchLog : LogRef) (events : List (Event F)) (q : Page F) : Prop :=
  Page.mount ord setOrder logs matchLog = some q ∨
    ∃ before event after p pages, events = before ++ event :: after ∧
      Page.run ord setOrder logs matchLog before = some p ∧
        p.pages ord setOrder event = some pages ∧ q ∈ pages

/-- The turn is one of the log, and so it can be drawn. -/
structure InLog (p : Page F) : Prop where
  nonneg : 0 ≤ p.turnNum
  le_last : p.turnNum ≤ (p.log.gameStates.length : Int) - 1
  scoreboard : (scoreboard ord setOrder p.log p.turnNum).isSome
  draw : (draw ord p.log p.turnNum).isSome

variable {ord setOrder} {logs : Logs F} {matchLog : LogRef} {events : List (Event F)}

theorem Page.Good.inLog {p : Page F} (h : p.Good) : InLog ord setOrder p where
  nonneg := h.within.1
  le_last := h.within.2
  scoreboard := (scoreboard_isSome_iff ord setOrder p.log p.turnNum).mpr h.within
  draw := by
    rw [draw_isSome]
    exact (gameState?_isSome_iff p.log p.turnNum).mpr h.within

theorem good_mount {q : Page F} (h : Page.mount ord setOrder logs matchLog = some q) : q.Good := by
  obtain ⟨hgame, ⟨hlogs, hmatchLog⟩, hwithin⟩ := Page.good_setGame h
  refine ⟨hgame.trans hmatchLog.symm, ?_⟩
  rw [hlogs, hmatchLog]
  exact hwithin

/-- "Previous" only comes where there is a previous turn. -/
def Unhurried (ord : IterOrder String) (setOrder : IterOrder Nat) (logs : Logs F)
    (matchLog : LogRef) (events : List (Event F)) : Prop :=
  ∀ before after, events = before ++ .click .previous :: after →
    ∀ p, Page.run ord setOrder logs matchLog before = some p → 0 < p.turnNum

theorem Unhurried.of_append {before after : List (Event F)}
    (h : Unhurried ord setOrder logs matchLog (before ++ after)) :
    Unhurried ord setOrder logs matchLog before :=
  fun first rest hbefore => h first (rest ++ after) (by simp [hbefore])

theorem Unhurried.good_run (h : Unhurried ord setOrder logs matchLog events) {p : Page F}
    (hp : Page.run ord setOrder logs matchLog events = some p) : p.Good := by
  induction events using List.reverseRecOn generalizing p with
  | nil =>
    rw [Page.run] at hp
    exact good_mount (by simpa using hp)
  | append_singleton events event ih =>
    rw [Page.run_concat, Option.bind_eq_some_iff] at hp
    obtain ⟨before, hbefore, hstep⟩ := hp
    have hgood := ih h.of_append hbefore
    rcases Page.step_mem hstep with rfl | ⟨pages, hpages, hmem⟩
    · exact hgood
    · refine hgood.pages (fun hprevious => ?_) hpages p hmem
      subst hprevious
      exact h events [] rfl before hbefore

theorem turnNum_previous (p : Page F) :
    (p.batch (p.controls.onClick p.lastTurn .previous)).turnNum < p.turnNum := by
  have hturn : (p.batch (p.controls.onClick p.lastTurn .previous)).turnNum =
      min (p.turnNum - 1) p.lastTurn := turnNum_setTurn _ _ _
  rw [hturn]
  exact (min_le_left _ _).trans_lt (Int.sub_one_lt_of_le (Int.le_refl _))

/-- The turn stays in the log if and only if nobody goes back at the first turn. -/
theorem run_inLog_iff (ord : IterOrder String) (setOrder : IterOrder Nat) (logs : Logs F)
    (matchLog : LogRef) (events : List (Event F)) :
    (∀ q, Reached ord setOrder logs matchLog events q → InLog ord setOrder q) ↔
      Unhurried ord setOrder logs matchLog events := by
  constructor
  · intro h before after hevents p hp
    have hseen : Reached ord setOrder logs matchLog events
        (p.batch (p.controls.onClick p.lastTurn .previous)) :=
      .inr ⟨before, _, after, p, _, hevents, hp, rfl, List.mem_singleton_self _⟩
    exact (h _ hseen).nonneg.trans_lt (turnNum_previous p)
  · rintro h q (hmount | ⟨before, event, after, p, pages, rfl, hp, hpages, hmem⟩)
    · exact (good_mount hmount).inLog
    · refine ((h.of_append.good_run hp).pages (fun hprevious => ?_) hpages q hmem).inLog
      subst hprevious
      exact h before after rfl p hp

end Run

/-- A log with one state, which is shown as the first and the last turn. -/
def oneTurn : Logs Int := fun _ => ⟨.hosted, ⟨∅, [⟨∅, []⟩]⟩⟩

/-- One click is enough to leave the log. -/
theorem not_inLog_previous : ¬ ∀ q, Reached .sorted .sorted oneTurn 0 [.click .previous] q →
    InLog .sorted .sorted q := by
  intro h
  have hmount : (Page.mount .sorted .sorted oneTurn 0).isSome := rfl
  obtain ⟨p, hp⟩ := Option.isSome_iff_exists.mp hmount
  have hfirst : (Page.mount .sorted .sorted oneTurn 0).map (·.turnNum) = some 0 := rfl
  rw [hp, Option.map_some, Option.some.injEq] at hfirst
  have hrun : Page.run .sorted .sorted oneTurn 0 [] = some p := by
    rw [Page.run, hp]
    rfl
  have hseen := (h _ (.inr ⟨[], _, [], p, _, rfl, hrun, rfl, List.mem_singleton_self _⟩)).nonneg
  exact absurd (hseen.trans_lt (turnNum_previous p)) (by rw [hfirst]; decide)

end Mozaic.Visualizer
