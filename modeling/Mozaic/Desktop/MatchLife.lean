import Mozaic.Desktop.Restart
import Mozaic.Desktop.LogFile

/-! The life of a match in the desktop client: it is saved when it starts, and once more when it
is over, by the subscribers of the runner that started it. -/
namespace Mozaic.Desktop

namespace V4.Match

def type : Match → MatchType
  | .hosted .. => .hosted
  | .joined .. => .joined

def withStatus (status : Status) : Match → Match
  | .hosted props players maxTurns map => .hosted { props with status } players maxTurns map
  | .joined props bot => .joined { props with status } bot

@[simp] theorem uuid_withStatus (m : Match) (status : Status) :
    (m.withStatus status).uuid = m.uuid := by
  cases m <;> rfl

@[simp] theorem status_withStatus (m : Match) (status : Status) :
    (m.withStatus status).props.status = status := by
  cases m <;> rfl

/-- Nothing but the status changes, and it changes once. Only hosted matches end with an error. -/
inductive Progress (m : Match) : Match → Prop
  | same : Progress m m
  | finished (stats : MatchStats) (h : m.props.status = .playing) :
      Progress m (m.withStatus (.finished stats))
  | errored (error : String) (h : m.props.status = .playing) (hosted : m.type = .hosted) :
      Progress m (m.withStatus (.error error))

theorem Progress.trans {m m' m'' : Match} (h : Progress m m') (h' : Progress m' m'') :
    Progress m m'' := by
  cases h with
  | same => exact h'
  | finished stats hplaying =>
    cases h' with
    | same => exact .finished stats hplaying
    | finished _ hagain | errored _ hagain =>
      rw [status_withStatus] at hagain
      cases hagain
  | errored error hplaying hhosted =>
    cases h' with
    | same => exact .errored error hplaying hhosted
    | finished _ hagain | errored _ hagain =>
      rw [status_withStatus] at hagain
      cases hagain

end V4.Match

namespace Database
open Rust JavaScript WriteBehind

variable {F : Type}

/-! ## The subscribers of a runner -/

def calcStats (ord : IterOrder String) (setOrder : IterOrder Nat) (log : MatchLog F) :
    Option V4.MatchStats := do
  let winners ← log.getWinners ord
  let scores ← calcScores ord setOrder log
  pure
    { winners := (setOrder.order winners).map fun player => (player : JsonNumber)
      score := HashMap.collect <| (HashMap.entriesIn setOrder scores).map fun e =>
        (toString e.1, e.2.map fun score => (score : JsonNumber)) }

/-- The match that `completeMatch` saves, unless it throws. -/
def completeMatch [EntryJson F] (ord : IterOrder String) (setOrder : IterOrder Nat)
    (readFile : String → Option String) (state : V4.MatchList) (matchId : String) :
    Option V4.Match := do
  let m ← state.lookup matchId
  match m.props.status with
  | .playing =>
    let logContent ← readFile m.props.logPath
    let log : MatchLog F ← parseLog logContent m.type
    let stats ← calcStats ord setOrder log
    pure (m.withStatus (.finished stats))
  | _ => none

/-- The match that `handleMatchError` saves, if it does. -/
def handleMatchError (state : V4.MatchList) (matchId : String) (error : String) :
    Option V4.Match := do
  let m ← state.lookup matchId
  match m.type, m.props.status with
  | .hosted, .playing => pure (m.withStatus (.error error))
  | _, _ => none

/-- A running client, and the matches whose runners are there. -/
structure Client where
  session : App
  runners : Finset String

def start (ord : IterOrder String) (db : Tables) : Client := ⟨bindToStore ord db, ∅⟩

namespace Client

def matchList (c : Client) : V4.MatchList := c.session.value .matches

def dispatch (c : Client) (action : Action) : Client :=
  { c with session := step c.session (.dispatch action) }

def saveResult (c : Client) : Option V4.Match → Client
  | some m => c.dispatch (.saveMatch m)
  | none => c

end Client

/-- What may happen in a client. -/
inductive LifeEvent where
  /-- A match has started, and its runner is subscribed to. -/
  | launch (m : V4.Match)
  | complete (matchId : String) (readFile : String → Option String)
  | fail (matchId : String) (error : String)
  | other (action : Action)
  | job
  | written
  | restart (ord : IterOrder String)

def Action.ofMatches : Action → Bool
  | .saveMatch _ | .importMatchFromDB _ => true
  | _ => false

section Life
variable (F) [EntryJson F] (ord : IterOrder String) (setOrder : IterOrder Nat)

def Client.step (c : Client) : LifeEvent → Client
  | .launch m => { c.dispatch (.saveMatch m) with runners := insert m.uuid c.runners }
  | .complete matchId readFile =>
    if matchId ∈ c.runners then
      c.saveResult (completeMatch (F := F) ord setOrder readFile c.matchList matchId)
    else c
  | .fail matchId error =>
    if matchId ∈ c.runners then c.saveResult (handleMatchError c.matchList matchId error) else c
  | .other action => c.dispatch action
  | .job => { c with session := c.session.runJob }
  | .written => { c with session := c.session.endWrite 0 }
  | .restart ord' => start ord' c.session.file

/-- A match that starts is new, and other actions do not concern matches. -/
def Client.Allows (c : Client) : LifeEvent → Prop
  | .launch m => m.uuid ∉ c.matchList ∧ m.props.status = .playing
  | .other action => action.ofMatches = false
  | _ => True

inductive Reaches (c : Client) : Client → Prop
  | refl : Reaches c c
  | step {c' : Client} {event : LifeEvent} (h : Reaches c c') (hevent : c'.Allows event) :
      Reaches c (c'.step F ord setOrder event)

end Life

/-! ## Matches only get further -/

/-- Every match is still there, and no further back. -/
def Later (list list' : V4.MatchList) : Prop :=
  ∀ matchId m, list.lookup matchId = some m → ∃ m', list'.lookup matchId = some m' ∧ m.Progress m'

instance : IsPreorder V4.MatchList Later where
  refl _ _ m hm := ⟨m, hm, .same⟩
  trans a b d hab hbd matchId m hm := by
    obtain ⟨m', hm', hprogress⟩ := hab matchId m hm
    obtain ⟨m'', hm'', hprogress'⟩ := hbd matchId m' hm'
    exact ⟨m'', hm'', hprogress.trans hprogress'⟩

theorem later_refl (list : V4.MatchList) : Later list list := refl (r := Later) list

section Results
variable [EntryJson F] {ord : IterOrder String} {setOrder : IterOrder Nat}
  {readFile : String → Option String} {state : V4.MatchList} {matchId error : String}
  {m' : V4.Match}

theorem completeMatch_some (h : completeMatch (F := F) ord setOrder readFile state matchId = some m') :
    ∃ m stats, state.lookup matchId = some m ∧ m.props.status = .playing ∧
      m' = m.withStatus (.finished stats) := by
  rw [completeMatch, Option.bind_eq_bind, Option.bind_eq_some_iff] at h
  obtain ⟨m, hm, h⟩ := h
  split at h
  · simp only [Option.bind_eq_bind, Option.bind_eq_some_iff] at h
    obtain ⟨_, -, _, -, stats, -, h⟩ := h
    exact ⟨m, stats, hm, ‹_›, (Option.some.inj h).symm⟩
  · cases h

theorem handleMatchError_some (h : handleMatchError state matchId error = some m') :
    ∃ m, state.lookup matchId = some m ∧ m.props.status = .playing ∧ m.type = .hosted ∧
      m' = m.withStatus (.error error) := by
  rw [handleMatchError, Option.bind_eq_bind, Option.bind_eq_some_iff] at h
  obtain ⟨m, hm, h⟩ := h
  split at h
  · exact ⟨m, hm, ‹_›, ‹_›, (Option.some.inj h).symm⟩
  · cases h

end Results

/-- What is dispatched about matches: one that is new, one that gets further, or nothing. -/
inductive Advance (c : Client) : Action → Prop
  | new {m : V4.Match} (h : m.uuid ∉ c.matchList) : Advance c (.saveMatch m)
  | further {m m' : V4.Match} (hrunner : m'.uuid ∈ c.runners)
      (hm : c.matchList.lookup m'.uuid = some m) (h : m.Progress m') : Advance c (.saveMatch m')
  | other {action : Action} (h : action.ofMatches = false) : Advance c action

theorem matchesReducer_other {action : Action} (h : action.ofMatches = false)
    (list : V4.MatchList) : matchesReducer list action = .same := by
  cases action with
  | saveMatch | importMatchFromDB => cases h
  | _ => rfl

theorem Advance.later {c : Client} {action : Action} (h : Advance c action) :
    Later c.matchList ((matchesReducer c.matchList action).value c.matchList) := by
  cases h with
  | @new m hnew =>
    intro matchId m' hm'
    have hne : matchId ≠ m.uuid := by
      rintro rfl
      exact hnew (Finmap.mem_iff.mpr ⟨m', hm'⟩)
    exact ⟨m', by rw [← hm']; exact Finmap.lookup_insert_of_ne _ hne, .same⟩
  | @further m m' hrunner hm hprogress =>
    intro matchId m₁ hm₁
    by_cases heq : matchId = m'.uuid
    · subst heq
      obtain rfl : m = m₁ := Option.some.inj (hm.symm.trans hm₁)
      exact ⟨m', Finmap.lookup_insert _, hprogress⟩
    · exact ⟨m₁, by rw [← hm₁]; exact Finmap.lookup_insert_of_ne _ heq, .same⟩
  | other hother =>
    rw [matchesReducer_other hother]
    exact later_refl _

/-- Without a runner a match stays as it is. -/
theorem Advance.lookup {c : Client} {action : Action} (h : Advance c action) {matchId : String}
    (hmem : matchId ∈ c.matchList) (hrunner : matchId ∉ c.runners) :
    ((matchesReducer c.matchList action).value c.matchList).lookup matchId =
      c.matchList.lookup matchId := by
  cases h with
  | new hnew => exact Finmap.lookup_insert_of_ne _ fun heq => hnew (heq ▸ hmem)
  | further hin => exact Finmap.lookup_insert_of_ne _ fun heq => hrunner (heq ▸ hin)
  | other hother =>
    rw [matchesReducer_other hother]
    rfl

/-- The client `c'` after an event. -/
inductive Stepped (c c' : Client) : Prop
  | acted {action : Action} (haction : Advance c action)
      (hsession : c'.session = step c.session (.dispatch action))
      (hrunners : ∀ matchId ∈ c'.runners, matchId ∈ c.runners ∨ matchId ∉ c.matchList)
  | job (h : c' = { c with session := c.session.runJob })
  | written (h : c' = { c with session := c.session.endWrite 0 })
  | restart (ord : IterOrder String) (h : c' = start ord c.session.file)
  | same (h : c' = c)

section Runs
variable [EntryJson F] {ord : IterOrder String} {setOrder : IterOrder Nat} {c c' : Client}

/-- What holds in a client between two events. -/
structure Client.Sound (c : Client) : Prop where
  stored : Session.Kept Stored c.session
  ordered : Session.Ordered .matches Later c.session

theorem sound_start (ord : IterOrder String) {db : Tables} (hdb : ∀ t, Stored t (db t)) :
    (start ord db).Sound where
  stored := Session.kept_start hdb (stored_imported hdb)
  ordered := by
    refine Session.ordered_start ?_
    rw [imported_matches hdb]
    exact later_refl _

theorem Client.Sound.stepped (hc : c.Sound) {event : LifeEvent} (hevent : c.Allows event) :
    Stepped c (c.step F ord setOrder event) := by
  have hkeyed : Keyed V4.Match.uuid c.matchList := hc.stored.value .matches
  have hresult {matchId : String} (hrunner : matchId ∈ c.runners) {result : Option V4.Match}
      (hsome : ∀ m', result = some m' → ∃ m status, c.matchList.lookup matchId = some m ∧
        m' = m.withStatus status ∧ m.Progress m') : Stepped c (c.saveResult result) := by
    cases hcase : result with
    | none => exact .same rfl
    | some m' =>
      obtain ⟨m, status, hm, rfl, hprogress⟩ := hsome m' hcase
      have huuid : (m.withStatus status).uuid = matchId :=
        (m.uuid_withStatus status).trans (hkeyed matchId m hm)
      subst huuid
      exact .acted (.further hrunner hm hprogress) rfl fun _ h => .inl h
  cases event with
  | launch m =>
    refine .acted (.new hevent.1) rfl fun matchId h => ?_
    rcases Finset.mem_insert.mp h with rfl | h
    · exact .inr hevent.1
    · exact .inl h
  | complete matchId readFile =>
    rw [step]
    split
    · refine hresult ‹_› fun m' h => ?_
      obtain ⟨m, stats, hm, hplaying, rfl⟩ := completeMatch_some h
      exact ⟨m, _, hm, rfl, .finished stats hplaying⟩
    · exact .same rfl
  | fail matchId error =>
    rw [step]
    split
    · refine hresult ‹_› fun m' h => ?_
      obtain ⟨m, hm, hplaying, hhosted, rfl⟩ := handleMatchError_some h
      exact ⟨m, _, hm, rfl, .errored error hplaying hhosted⟩
    · exact .same rfl
  | other action => exact .acted (.other hevent) rfl fun _ h => .inl h
  | job => exact .job rfl
  | written => exact .written rfl
  | restart ord' => exact .restart ord' rfl

theorem Stepped.sound (h : Stepped c c') (hc : c.Sound) : c'.Sound := by
  cases h with
  | @acted action haction hsession _ =>
    have hdispatched := dispatched c.session action
    refine ⟨?_, ?_⟩
    · rw [hsession]
      refine hc.stored.dispatched hdispatched fun t => ?_
      rw [hdispatched.value]
      exact stored_reduce action t (hc.stored.value t)
    · rw [hsession]
      refine hc.ordered.dispatched hdispatched ?_
      rw [hdispatched.value]
      exact haction.later
  | job h => exact h ▸ ⟨Session.kept_runJob hc.stored, Session.ordered_runJob hc.ordered⟩
  | written h => exact h ▸ ⟨Session.kept_endWrite hc.stored 0, Session.ordered_endWrite hc.ordered⟩
  | restart ord' h => exact h ▸ sound_start ord' hc.stored.file
  | same h => exact h ▸ hc

theorem Stepped.later (h : Stepped c c') (hc : c.Sound) :
    Later (c.session.file .matches) (c'.session.file .matches) := by
  cases h with
  | @acted action _ hsession _ =>
    rw [hsession, (dispatched c.session action).file]
    exact later_refl _
  | job h =>
    rcases c.session.runJob_cases with ⟨-, heq⟩ | ⟨_, _, -, hran⟩
    · rw [h, heq]
      exact later_refl _
    · rw [h, hran.file]
      exact later_refl _
  | written h => exact h ▸ Session.file_endWrite hc.ordered
  | restart _ h => exact h ▸ later_refl _
  | same h => exact h ▸ later_refl _

theorem Reaches.sound (h : Reaches F ord setOrder c c') (hc : c.Sound) : c'.Sound := by
  induction h with
  | refl => exact hc
  | step _ hevent ih => exact (ih.stepped hevent).sound ih

theorem Reaches.later (h : Reaches F ord setOrder c c') (hc : c.Sound) :
    Later (c.session.file .matches) (c'.session.file .matches) := by
  induction h with
  | refl => exact later_refl _
  | step h hevent ih =>
    have hsound := h.sound hc
    exact IsTrans.trans _ _ _ ih ((hsound.stepped hevent).later hsound)

/-- The match is stored like this. -/
def Shows (matchId : String) (m : V4.Match) : ∀ t, Rows t → Prop
  | .matches, list => Keyed V4.Match.uuid list ∧ list.lookup matchId = some m
  | t, rows => Stored t rows

end Runs

/-! ## A joined match -/

section Joined

end Joined
end Database
end Mozaic.Desktop
