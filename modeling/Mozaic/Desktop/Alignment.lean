import Mozaic.Controller.Streams
import Mozaic.Desktop.MatchLog

/-! The log of a hosted match: the turns of every player belong to the game states at
the same place. -/
namespace Mozaic.Desktop
open Rust Rules Network Controller Outcome

variable {F : Type}

/-- The state a message carries. -/
def payloadState? : Payload F → Option (Proto.State F)
  | .server msg => serverState? msg
  | _ => none

theorem payloadState?_closing (final : Bool) (s : Proto.State F) :
    payloadState? (closing final s) = some s := by
  cases final <;> rfl

theorem states_of_stream {final : Bool} {states : List (Proto.State F)} {msgs : List (Payload F)}
    (h : Stream final states msgs) : msgs.filterMap payloadState? = states := by
  induction h with
  | last s => simp [payloadState?_closing]
  | turn s action _ ih => simp [List.filterMap_cons, payloadState?, serverState?, ih]

theorem head_of_stream {final : Bool} {states : List (Proto.State F)} {msgs : List (Payload F)}
    (h : Stream final states msgs) : ∀ msg ∈ msgs.head?, (payloadState? msg).isSome := by
  cases h with
  | last s =>
    intro _ h
    cases h
    rw [payloadState?_closing]
    rfl
  | turn s action _ =>
    intro _ h
    cases h
    rfl

/-- Every player was sent a stream of the first few logged states. -/
def Streaming (roster : List ClientId) (channels : Channels F) : Prop :=
  ∀ i cl, roster[i]? = some cl → ∃ final seen,
    seen <+: seenBy roster i channels ∧ Stream final seen (inbox cl channels)

/-- The entries of a log file that was written during a match. Player number `q` is the
client of the player `who q`; it may be behind the server, and the file behind both. -/
structure Recorded (roster : List ClientId) (who : Nat → PlayerId) (channels : Channels F)
    (entries : List (LogEntry F)) : Prop where
  states : statesOf entries <+: logged channels
  records : ∀ q, recordsOf q entries = [] ∨ ∃ cl heard, roster[who q]? = some cl ∧
    (heard.filterMap Heard.message?).map Payload.server <+: inbox cl channels ∧
    recordsOf q entries <+: (Client.run heard).log

theorem Recorded.player {roster : List ClientId} {who : Nat → PlayerId} {channels : Channels F}
    {entries : List (LogEntry F)} (h : Recorded roster who channels entries)
    (hstreams : Streaming roster channels) (q : Nat) :
    Opened (recordsOf q entries) ∧
      (recordsOf q entries).filterMap LogRecord.state? <+: seenBy roster (who q) channels := by
  rcases h.records q with hnil | ⟨cl, heard, hcl, hheard, hlog⟩
  · rw [hnil]
    exact ⟨by simp [Opened], List.nil_prefix⟩
  · obtain ⟨final, seen, hseen, hstream⟩ := hstreams (who q) cl hcl
    have hfirst : ∀ msg ∈ (heard.filterMap Heard.message?).head?, (serverState? msg).isSome := by
      intro msg hmsg
      obtain ⟨rest, hrest⟩ := hheard
      apply head_of_stream hstream (.server msg)
      rw [← hrest, List.head?_append, List.head?_map, Option.mem_def.mp hmsg]
      rfl
    obtain ⟨hopened, hstates⟩ := run_log hfirst
    refine ⟨hopened.mono hlog, ?_⟩
    have hmsgs : ((heard.filterMap Heard.message?).map Payload.server).filterMap payloadState? =
        (heard.filterMap Heard.message?).filterMap serverState? := by
      rw [List.filterMap_map]
      rfl
    calc (recordsOf q entries).filterMap LogRecord.state?
        <+: (Client.run heard).log.filterMap LogRecord.state? := hlog.filterMap _
      _ = ((heard.filterMap Heard.message?).map Payload.server).filterMap payloadState? := by
        rw [hstates, hmsgs]
      _ <+: (inbox cl channels).filterMap payloadState? := hheard.filterMap _
      _ = seen := states_of_stream hstream
      _ <+: seenBy roster (who q) channels := hseen

/-- Turn and game state number `idx` belong together. -/
def Aligned (roster : List ClientId) (who : Nat → PlayerId) (channels : Channels F)
    (log : MatchLog F) : Prop :=
  ∀ (idx : Nat) (turns : Nat → Option (PlayerTurn F)) (q : Nat) (turn : PlayerTurn F),
    log.makePlayerLogs[idx]? = some turns → turns q = some turn →
    ∃ state, (logged channels)[idx]? = some state ∧
      log.gameStates[idx]? = some (GameState.fromJson state) ∧
      turn.state = relabel (renumber roster.length (who q)) state

/-- What is in a list is at the same place in a longer one. -/
theorem getElem?_mono {α : Type} {l l' : List α} (h : l <+: l') {i : Nat} {a : α}
    (ha : l[i]? = some a) : l'[i]? = some a := by
  obtain ⟨rest, rfl⟩ := h
  rw [List.getElem?_append_left (List.getElem?_eq_some_iff.mp ha).1, ha]

theorem Recorded.aligned {roster : List ClientId} {who : Nat → PlayerId} {channels : Channels F}
    {entries : List (LogEntry F)} (h : Recorded roster who channels entries)
    (hstreams : Streaming roster channels) :
    ∃ log, MatchLog.parseLog entries = some log ∧ Aligned roster who channels log := by
  obtain ⟨log, hlog, hstates, hplayers⟩ := exists_parseLog fun q => (h.player hstreams q).1
  refine ⟨log, hlog, ?_⟩
  intro idx turns q turn hturns hturn
  rw [MatchLog.makePlayerLogs, List.getElem?_mapIdx] at hturns
  obtain ⟨gameState, hgame, rfl⟩ := Option.map_eq_some_iff.mp hturns
  have hstate := hgame
  rw [hstates, List.getElem?_map] at hstate
  obtain ⟨state, hentry, rfl⟩ := Option.map_eq_some_iff.mp hstate
  have hlogged : (logged channels)[idx]? = some state := getElem?_mono h.states hentry
  refine ⟨state, hlogged, hgame, ?_⟩
  obtain ⟨playerLog, hplayerLog, hidx⟩ := Option.bind_eq_some_iff.mp hturn
  have hplayer : playerLog.map (·.state) = (recordsOf q entries).filterMap LogRecord.state? := by
    rw [← hplayers q, MatchLog.getPlayerLog, hplayerLog]
    rfl
  have hseen : ((recordsOf q entries).filterMap LogRecord.state?)[idx]? = some turn.state := by
    rw [← hplayer, List.getElem?_map, hidx]
    rfl
  have hrelabelled := getElem?_mono (h.player hstreams q).2 hseen
  rw [seenBy, List.getElem?_map, hlogged] at hrelabelled
  exact (Option.some.inj hrelabelled).symm

/-! ## Whole matches -/

section Run
variable [F64 F] [External F]

theorem run_streaming (rt : Runtime) (lobby : Lobby F) (inputs : List (Runtime × Input)) :
    Safe (fun _ => True) (fun s => Streaming (roster rt lobby) s.game.channels)
      (System.run rt lobby inputs) := by
  by_cases hempty : lobby.players = ∅
  · have hroster : roster rt lobby = [] := by
      rw [← List.length_eq_zero_iff, length_roster, hempty]
      rfl
    cases System.run rt lobby inputs with
    | error e => trivial
    | ok s =>
      intro i cl hcl
      rw [hroster] at hcl
      cases hcl
  · refine (run_streams hempty inputs).weaken fun s hs => ?_
    have hstreaming {c : PwController F} (hc : Streams (roster rt lobby) c) :
        Streaming (roster rt lobby) c.channels := by
      intro i cl hcl
      by_cases hi : i ∈ c.players
      · exact ⟨false, _, List.prefix_rfl, hc.live i cl hcl hi⟩
      · exact ⟨true, hc.gone i cl hcl hi⟩
    cases hgame : s.game with
    | lobby => simp [hgame, PwMatchState.Streams] at hs
    | playing c | finished c =>
      rw [hgame] at hs
      exact hstreaming hs

/-- Each player is sent the relabelled control stream, and the turns in a log of the match
are those of the game states at the same place. -/
theorem run_relabelled (rt : Runtime) (lobby : Lobby F) (inputs : List (Runtime × Input)) :
    Safe (fun _ => True)
      (fun s =>
        (∀ i cl, (roster rt lobby)[i]? = some cl →
          (∃ final seen,
            seen <+: (logged s.game.channels).map (relabel (renumber (roster rt lobby).length i)) ∧
            Controller.Stream final seen (inbox cl s.game.channels)) ∧
          renumber (roster rt lobby).length i (i + 1) = 1 ∧
          Set.BijOn (renumber (roster rt lobby).length i) (Set.Icc 1 (roster rt lobby).length)
            (Set.Icc 1 (roster rt lobby).length)) ∧
        ∀ who entries, Recorded (roster rt lobby) who s.game.channels entries →
          ∃ log, MatchLog.parseLog entries = some log ∧
            Aligned (roster rt lobby) who s.game.channels log)
      (System.run rt lobby inputs) := by
  refine (run_streaming rt lobby inputs).weaken fun s hstreams => ⟨fun i cl hcl => ?_, ?_⟩
  · exact ⟨hstreams i cl hcl, renumber_self _ i,
      renumber_bijOn (List.getElem?_eq_some_iff.mp hcl).1⟩
  · exact fun who entries hrec => hrec.aligned hstreams

end Run
end Mozaic.Desktop
