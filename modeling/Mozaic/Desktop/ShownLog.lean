import Mozaic.Desktop.MatchView

/-! The log that a view shows, and the log of the match. -/
namespace Mozaic.Desktop.Matches
open Rust MatchView

variable {F : Type}

/-! ## Adding entries -/

section Numbered
variable (origin : Nat → Origin) (k : Nat)

@[simp] theorem numbered_nil : numbered origin k ([] : List (LogEntry F)) = [] := rfl

@[simp] theorem numbered_cons (entry : LogEntry F) (entries : List (LogEntry F)) :
    numbered origin k (entry :: entries) = (origin k, entry) :: numbered origin (k + 1) entries := rfl

@[simp] theorem length_numbered (entries : List (LogEntry F)) :
    (numbered origin k entries).length = entries.length := by
  simp [numbered]

theorem numbered_append (entries entries' : List (LogEntry F)) :
    numbered origin k (entries ++ entries') =
      numbered origin k entries ++ numbered origin (k + entries.length) entries' := by
  simp [numbered, List.zipIdx_append]

theorem fst_numbered (entries : List (LogEntry F)) :
    (numbered origin k entries).map (·.1) = (List.range' k entries.length).map origin := by
  induction entries generalizing k with
  | nil => rfl
  | cons entry entries ih =>
    rw [numbered_cons, List.map_cons, ih, List.length_cons, List.range'_succ, List.map_cons]

theorem snd_numbered (entries : List (LogEntry F)) :
    (numbered origin k entries).map (·.2) = entries := by
  induction entries generalizing k with
  | nil => rfl
  | cons entry entries ih => rw [numbered_cons, List.map_cons, ih]

theorem drop_numbered_append (entries entries' : List (LogEntry F)) :
    (numbered origin k (entries ++ entries')).drop entries.length =
      numbered origin (k + entries.length) entries' := by
  rw [numbered_append]
  exact List.drop_left' (length_numbered origin k entries)

end Numbered

/-- What a log becomes by adding entries to it. -/
theorem foldlM_addEntry (entries : List (Origin × LogEntry F)) (l : ViewedLog F) :
    entries.foldlM ViewedLog.addEntry l =
      ((entries.map (·.2)).foldlM (MatchLog.addEntryOf l.type) l.log).map fun log =>
        ⟨l.type, log, l.history ++ entries⟩ := by
  induction entries generalizing l with
  | nil => simp
  | cons e entries ih =>
    rw [List.foldlM_cons, List.map_cons, List.foldlM_cons, ViewedLog.addEntry]
    cases hadd : MatchLog.addEntryOf l.type l.log e.2 with
    | none => rfl
    | some log =>
      simp [ih]

theorem foldlM_addToLog (entries : List (Origin × LogEntry F)) (l : ViewedLog F) :
    entries.foldlM addToLog (some l) = (entries.foldlM ViewedLog.addEntry l).map some := by
  induction entries generalizing l with
  | nil => rfl
  | cons e entries ih =>
    rw [List.foldlM_cons, List.foldlM_cons, addToLog]
    cases hadd : l.addEntry e with
    | none => simp [hadd]
    | some l' => simp [hadd, ih]

/-! ## The complete log -/

section Complete
variable [EntryJson F] (readFile : String → Option String) (m : Match)

/-- What the log of a match in the store adds up to if there is one, and what its file is parsed
to otherwise. -/
def fullLog : Option (List (LogEntry F)) → Option (MatchLog F)
  | some log => log.foldlM (MatchLog.addEntryOf m.type) .empty
  | none => readFile m.logPath >>= (parseLog · m.type)

/-- The entries that make it up, and where they are. -/
def entriesOf : Option (List (LogEntry F)) → Option (List (Origin × LogEntry F))
  | some log => some (fromStore m.uuid log)
  | none => readFromDisk readFile m

/-- This is the complete log, every entry of which was added once and in its place. -/
structure Shows (log : Option (List (LogEntry F))) (l : ViewedLog F) : Prop where
  type_eq : l.type = m.type
  log_eq : fullLog readFile m log = some l.log
  history_eq : entriesOf readFile m log = some l.history

/-- The entries of the complete log, added to an empty one. -/
def viewedLog (log : Option (List (LogEntry F))) : Option (ViewedLog F) :=
  (entriesOf readFile m log).bind fun entries => entries.foldlM ViewedLog.addEntry (emptyLog m.type)

variable {readFile m} {log : Option (List (LogEntry F))}

theorem fullLog_eq : fullLog readFile m log = (viewedLog readFile m log).map (·.log) := by
  have hfold (origin : Nat → Origin) (entries : List (LogEntry F)) :
      ((numbered origin 0 entries).foldlM ViewedLog.addEntry (emptyLog m.type)).map (·.log) =
        entries.foldlM (MatchLog.addEntryOf m.type) .empty := by
    rw [foldlM_addEntry, snd_numbered, Option.map_map]
    exact Option.map_id'
  cases log with
  | some log => exact (hfold _ log).symm
  | none =>
    rw [fullLog, viewedLog, entriesOf, readFromDisk]
    cases readFile m.logPath with
    | none => rfl
    | some content =>
      simp only [Option.bind_eq_bind, Option.bind_some, parseLog]
      cases (logFileEntries content : Option (List (LogEntry F))) with
      | none => rfl
      | some entries => exact (hfold _ entries).symm

theorem shows_iff {l : ViewedLog F} :
    Shows readFile m log l ↔ viewedLog readFile m log = some l := by
  constructor
  · rintro ⟨htype, hlog, hhistory⟩
    rw [fullLog_eq] at hlog
    obtain ⟨l', hl', heq⟩ := Option.map_eq_some_iff.mp hlog
    rw [hl']
    rw [viewedLog, hhistory, Option.bind_some, foldlM_addEntry, Option.map_eq_some_iff] at hl'
    obtain ⟨log', -, rfl⟩ := hl'
    obtain ⟨type, log, history⟩ := l
    subst htype
    have hsame : log' = log := heq
    rw [hsame]
    rfl
  · intro hl
    refine ⟨?_, by rw [fullLog_eq, hl, Option.map_some], ?_⟩
    all_goals
      rw [viewedLog, Option.bind_eq_some_iff] at hl
      obtain ⟨entries, hentries, hl⟩ := hl
      rw [foldlM_addEntry, Option.map_eq_some_iff] at hl
      obtain ⟨log', -, rfl⟩ := hl
    · rfl
    · exact hentries

/-- The positions of the entries, one after the other. -/
theorem entriesOf_numbered {entries : List (Origin × LogEntry F)}
    (h : entriesOf readFile m log = some entries) : ∃ origin all, entries = numbered origin 0 all ∧
      ∀ i, (origin i).preceding = (List.range i).map origin := by
  cases log with
  | some log =>
    obtain rfl := Option.some.inj h
    exact ⟨_, log, rfl, fun _ => rfl⟩
  | none =>
    rw [entriesOf, readFromDisk, Option.bind_eq_bind, Option.bind_eq_some_iff] at h
    obtain ⟨content, -, h⟩ := h
    obtain ⟨all, -, hentries⟩ := Option.bind_eq_some_iff.mp h
    obtain rfl := Option.some.inj hentries
    exact ⟨_, all, rfl, fun _ => rfl⟩

end Complete

/-! ## Calls that fit -/

/-- The entry is added to a log, and this log holds the entries before it and nothing else. -/
def AddEntryCall.Fits (call : AddEntryCall F) : Prop :=
  ∃ l, call.matchLog = some l ∧ l.history.map (·.1) = call.entry.1.preceding

theorem preceding_of_append {origin : Nat → Origin} {all : List (LogEntry F)}
    (hpreceding : ∀ i, (origin i).preceding = (List.range i).map origin)
    {history rest : List (Origin × LogEntry F)} {e : Origin × LogEntry F}
    (h : history ++ e :: rest = numbered origin 0 all) :
    history.map (·.1) = e.1.preceding := by
  have hlength := congrArg List.length h
  rw [length_numbered, List.length_append, List.length_cons] at hlength
  have hmap := congrArg (List.map (·.1)) h
  rw [fst_numbered, ← List.range_eq_range', ← hlength, List.range_add, List.range_succ_eq_map,
    List.map_append, List.map_append, List.map_cons] at hmap
  obtain ⟨hhistory, hrest⟩ := List.append_inj hmap (by simp)
  have horigin : e.1 = origin history.length := List.head_eq_of_cons_eq hrest
  rw [horigin, hpreceding, hhistory]

theorem fits_addEntryCalls {origin : Nat → Origin} {all : List (LogEntry F)}
    (hpreceding : ∀ i, (origin i).preceding = (List.range i).map origin)
    {rest : List (Origin × LogEntry F)} {l : ViewedLog F}
    (h : l.history ++ rest = numbered origin 0 all) :
    ∀ call ∈ addEntryCalls (some l) rest, call.Fits := by
  induction rest generalizing l with
  | nil =>
    intro call hcall
    cases hcall
  | cons e rest ih =>
    intro call hcall
    rw [addEntryCalls] at hcall
    rcases List.mem_cons.mp hcall with rfl | hcall
    · exact ⟨l, rfl, preceding_of_append hpreceding h⟩
    · cases hadd : MatchLog.addEntryOf l.type l.log e.2 with
      | none => simp [addToLog, ViewedLog.addEntry, hadd] at hcall
      | some log =>
        simp only [addToLog, ViewedLog.addEntry, hadd, Option.bind_eq_bind, Option.bind_some,
          Option.pure_def] at hcall
        refine ih ?_ call hcall
        rw [← h, List.append_assoc]
        rfl

/-! ## Props from the store -/

/-- The props show the same match again, whose log only got more entries. -/
def Grows (props nextProps : MatchViewProps F) : Prop :=
  ∀ m m', props.match? = some m → nextProps.match? = some m' → m.uuid = m'.uuid →
    m.type = m'.type ∧
      ∀ log log', props.log = some log → nextProps.log = some log' → log <+: log'

/-- In the store a log grows, unless it is created a second time. -/
theorem logsReducer_grows {state : LogsState F} {action : LogAction F}
    (hnew : ∀ matchId, action = .createLog matchId → state.lookup matchId = none)
    {matchId : String} {log : List (LogEntry F)} (h : state.lookup matchId = some log) :
    ∃ log', (logsReducer state action).lookup matchId = some log' ∧ log <+: log' := by
  cases action with
  | createLog created =>
    have hne : matchId ≠ created := by
      rintro rfl
      rw [hnew matchId rfl] at h
      cases h
    rw [logsReducer, HashMap.lookup_insert_eq, if_neg hne]
    exact ⟨log, h, List.prefix_refl log⟩
  | addLogEntry added entry =>
    rw [logsReducer, HashMap.lookup_insert_eq]
    split
    · rename_i heq
      rw [← heq, h]
      exact ⟨log ++ [entry], rfl, List.prefix_append _ _⟩
    · exact ⟨log, h, List.prefix_refl log⟩

/-- So do the props, from one state of the store to the next. -/
theorem grows_matchViewSelector {matchList : HashMap String Match} {state : LogsState F}
    {action : LogAction F}
    (huuid : ∀ matchId m, matchList.lookup matchId = some m → m.uuid = matchId)
    (hnew : ∀ matchId, action = .createLog matchId → state.lookup matchId = none)
    (matchId nextId : Option String) :
    Grows (matchViewSelector matchList state matchId)
      (matchViewSelector matchList (logsReducer state action) nextId) := by
  intro m m' hm hm' hsame
  obtain ⟨shown, rfl, hm⟩ := Option.bind_eq_some_iff.mp hm
  obtain ⟨shown', rfl, hm'⟩ := Option.bind_eq_some_iff.mp hm'
  obtain rfl : shown = shown' := (huuid _ _ hm).symm.trans (hsame.trans (huuid _ _ hm'))
  refine ⟨by rw [Option.some.inj (hm.symm.trans hm')], fun log log' hlog hlog' => ?_⟩
  obtain ⟨grown, hgrown, hprefix⟩ := logsReducer_grows hnew hlog
  rwa [← Option.some.inj (hgrown.symm.trans hlog')]

/-! ## Updates -/

section Updates
variable [EntryJson F]

/-- The props show the same match again, whose log was not in the store before. -/
def Late (props nextProps : MatchViewProps F) : Prop :=
  ∃ m m', props.match? = some m ∧ nextProps.match? = some m' ∧ m.uuid = m'.uuid ∧
    props.log = none ∧ nextProps.log.isSome

/-- A view that shows the complete log of its match, and knows how much of it was in the store. -/
def Mounted.Good (s : Mounted F) : Prop :=
  ∀ m, s.last.props.match? = some m → ∃ l, s.view.matchLog = some l ∧
    Shows s.last.readFile m s.last.props.log l ∧
      ∀ log, s.last.props.log = some log → s.view.logPos = log.length

/-- An update goes on from a part of the complete log of the match: it adds the rest. -/
structure Resumes (s : Mounted F) (u : Update F) (m : Match) (l : ViewedLog F)
    (rest : List (Origin × LogEntry F)) (pos : Nat) : Prop where
  part : l.history.foldlM ViewedLog.addEntry (emptyLog m.type) = some l
  entries : entriesOf u.readFile m u.props.log = some (l.history ++ rest)
  step : s.step u = (rest.foldlM ViewedLog.addEntry l).map fun l => ⟨u, some l, pos⟩
  calls : s.view.calls u.readFile s.last.props.match? u.props = addEntryCalls (some l) rest
  pos : ∀ log, u.props.log = some log → pos = log.length

variable {s : Mounted F} {u : Update F} {m : Match}

theorem step_fromDisk (hm : u.props.match? = some m) (hlog : u.props.log = none) :
    (entriesOf u.readFile m u.props.log = none ∧ s.step u = none ∧
      s.view.calls u.readFile s.last.props.match? u.props = []) ∨
    ∃ entries, Resumes s u m (emptyLog m.type) entries s.view.logPos := by
  cases hentries : (readFromDisk u.readFile m : Option (List (Origin × LogEntry F))) with
  | none =>
    refine .inl ⟨?_, ?_, ?_⟩
    · rw [hlog]
      exact hentries
    · simp [Mounted.step, componentWillReceiveProps, hm, hlog, hentries]
    · simp [MatchView.calls, hm, hlog, hentries]
  | some entries =>
    refine .inr ⟨entries, rfl, ?_, ?_, ?_, ?_⟩
    · rw [hlog]
      exact hentries
    · simp only [Mounted.step, componentWillReceiveProps, hm, hlog, hentries, Option.bind_eq_bind,
        Option.bind_some, Option.pure_def]
      cases entries.foldlM ViewedLog.addEntry (emptyLog m.type) <;> rfl
    · simp [MatchView.calls, hm, hlog, hentries]
    · intro log h
      rw [hlog] at h
      cases h

/-- An update with a log in the store goes on from what the view has once it was reset. -/
theorem resumes_fromStore {log : List (LogEntry F)} (hm : u.props.match? = some m)
    (hlog : u.props.log = some log) {view : MatchView F}
    (hview : s.view.resetFor s.last.props.match? m = view) {l : ViewedLog F}
    (hl : view.matchLog = some l)
    (hpart : l.history.foldlM ViewedLog.addEntry (emptyLog m.type) = some l)
    (hentries : l.history ++ view.newEntries m log = fromStore m.uuid log) :
    Resumes s u m l (view.newEntries m log) log.length where
  part := hpart
  entries := by
    rw [hlog, hentries]
    rfl
  step := by
    simp only [Mounted.step, componentWillReceiveProps, hm, hlog, hview, hl, foldlM_addToLog]
    cases (view.newEntries m log).foldlM ViewedLog.addEntry l <;> rfl
  calls := by simp only [MatchView.calls, hm, hlog, hview, hl]
  pos log' h := by
    rw [hlog] at h
    rw [Option.some.inj h]

omit [EntryJson F] in
theorem resetFor_same (view : MatchView F) {currentMatch nextMatch : Match}
    (h : currentMatch.uuid = nextMatch.uuid) :
    view.resetFor (some currentMatch) nextMatch = view := by
  simp [resetFor, h]

omit [EntryJson F] in
theorem resetFor_other (view : MatchView F) {currentMatch : Option Match} {nextMatch : Match}
    (h : ∀ m, currentMatch = some m → m.uuid ≠ nextMatch.uuid) :
    view.resetFor currentMatch nextMatch = ⟨some (emptyLog nextMatch.type), 0⟩ := by
  cases currentMatch with
  | none => rfl
  | some m => simp [resetFor, h m rfl]

theorem Mounted.Good.resumes (hs : s.Good) (hgrows : Grows s.last.props u.props)
    (hlate : ¬ Late s.last.props u.props) (hm : u.props.match? = some m) {log : List (LogEntry F)}
    (hlog : u.props.log = some log) : ∃ l rest, Resumes s u m l rest log.length := by
  by_cases hsame : ∃ m', s.last.props.match? = some m' ∧ m'.uuid = m.uuid
  · obtain ⟨m', hm', huuid⟩ := hsame
    obtain ⟨htype, hprefix⟩ := hgrows m' m hm' hm huuid
    cases hlast : s.last.props.log with
    | none => exact absurd ⟨m', m, hm', hm, huuid, hlast, by rw [hlog]; rfl⟩ hlate
    | some before =>
      obtain ⟨l, hl, hshows, hpos⟩ := hs m' hm'
      obtain ⟨more, rfl⟩ := hprefix before log hlast hlog
      rw [hlast] at hshows
      have hhistory : fromStore m.uuid before = l.history := by
        rw [← huuid]
        exact Option.some.inj hshows.history_eq
      have hpart := shows_iff.mp hshows
      rw [viewedLog, hshows.history_eq, Option.bind_some, htype] at hpart
      refine ⟨l, _, resumes_fromStore hm hlog (by rw [hm', resetFor_same _ huuid]) hl hpart ?_⟩
      rw [newEntries, hpos before hlast, ← hhistory, fromStore, fromStore, drop_numbered_append,
        numbered_append]
  · have hreset : s.view.resetFor s.last.props.match? m = ⟨some (emptyLog m.type), 0⟩ :=
      resetFor_other s.view fun m' hm' huuid => hsame ⟨m', hm', huuid⟩
    exact ⟨_, _, resumes_fromStore hm hlog hreset rfl rfl rfl⟩

/-- What is there after an update that goes on from a part of the log. -/
theorem Resumes.viewed {l : ViewedLog F} {rest : List (Origin × LogEntry F)} {pos : Nat}
    (h : Resumes s u m l rest pos) :
    s.step u = (viewedLog u.readFile m u.props.log).map fun l => ⟨u, some l, pos⟩ := by
  rw [h.step, viewedLog, h.entries, Option.bind_some, List.foldlM_append, h.part]
  rfl

theorem Resumes.fits {l : ViewedLog F} {rest : List (Origin × LogEntry F)} {pos : Nat}
    (h : Resumes s u m l rest pos) :
    ∀ call ∈ s.view.calls u.readFile s.last.props.match? u.props, call.Fits := by
  obtain ⟨origin, all, hall, hpreceding⟩ := entriesOf_numbered h.entries
  rw [h.calls]
  exact fits_addEntryCalls hpreceding hall

/-- An update goes right: the calls fit, and the view shows the complete log if there is one. -/
structure Right (s : Mounted F) (u : Update F) : Prop where
  fits : ∀ call ∈ s.view.calls u.readFile s.last.props.match? u.props, call.Fits
  breaks : s.step u = none → ∃ m, u.props.match? = some m ∧ fullLog u.readFile m u.props.log = none
  good : ∀ s', s.step u = some s' → s'.Good

theorem Resumes.right {l : ViewedLog F} {rest : List (Origin × LogEntry F)} {pos : Nat}
    (h : Resumes s u m l rest pos) (hm : u.props.match? = some m) : Right s u where
  fits := h.fits
  breaks hstep := by
    rw [h.viewed, Option.map_eq_none_iff] at hstep
    exact ⟨m, hm, by rw [fullLog_eq, hstep, Option.map_none]⟩
  good s' hstep := by
    rw [h.viewed] at hstep
    obtain ⟨l', hl', rfl⟩ := Option.map_eq_some_iff.mp hstep
    intro m' hm'
    obtain rfl := Option.some.inj (hm.symm.trans hm')
    exact ⟨l', rfl, shows_iff.mpr hl', h.pos⟩

theorem Mounted.Good.right (hs : s.Good) (hgrows : Grows s.last.props u.props)
    (hlate : ¬ Late s.last.props u.props) : Right s u := by
  cases hm : u.props.match? with
  | none =>
    have hstep : s.step u = some ⟨u, none, s.view.logPos⟩ := by
      simp [Mounted.step, componentWillReceiveProps, hm]
    refine ⟨by simp [MatchView.calls, hm], by simp [hstep], fun s' hs' m' hm' => ?_⟩
    rw [hstep] at hs'
    obtain rfl := Option.some.inj hs'
    rw [hm] at hm'
    cases hm'
  | some m =>
    cases hlog : u.props.log with
    | some log =>
      obtain ⟨l, rest, h⟩ := hs.resumes hgrows hlate hm hlog
      exact h.right hm
    | none =>
      rcases step_fromDisk (s := s) hm hlog with ⟨hentries, hstep, hcalls⟩ | ⟨rest, h⟩
      · refine ⟨by simp [hcalls], fun _ => ⟨m, hm, ?_⟩, by simp [hstep]⟩
        rw [fullLog_eq, viewedLog, hentries]
        rfl
      · exact h.right hm

/-- A file that can be read has a first entry. -/
theorem history_fromFile {l : ViewedLog F} {readFile : String → Option String}
    (h : Shows readFile m none l) : ∃ entry rest, l.history = (.file m.logPath 0, entry) :: rest := by
  have hhistory := h.history_eq
  rw [entriesOf, readFromDisk, Option.bind_eq_bind, Option.bind_eq_some_iff] at hhistory
  obtain ⟨content, -, hhistory⟩ := hhistory
  obtain ⟨entries, hentries, hnumbered⟩ := Option.bind_eq_some_iff.mp hhistory
  rw [← Option.some.inj hnumbered]
  rw [logFileEntries, Text.split] at hentries
  cases hlines : (Text.trim content).toList.splitOn '\n' with
  | nil => exact absurd hlines (List.splitOn_ne_nil _ _)
  | cons line lines =>
    rw [hlines, List.map_cons, List.mapM_cons, Option.bind_eq_bind, Option.bind_eq_some_iff] at hentries
    obtain ⟨entry, -, hentries⟩ := hentries
    obtain ⟨rest, -, hrest⟩ := Option.bind_eq_some_iff.mp hentries
    rw [← Option.some.inj hrest]
    exact ⟨entry, _, rfl⟩

omit [EntryJson F] in
theorem mem_fromStore {matchId : String} {log : List (LogEntry F)} {e : Origin × LogEntry F}
    (h : e ∈ fromStore matchId log) : ∃ i, e.1 = .store matchId i := by
  obtain ⟨x, -, rfl⟩ := List.mem_map.mp h
  exact ⟨x.2, rfl⟩

/-- A log that comes late is added to the log of the file. -/
theorem not_right_of_late {l : ViewedLog F} (hl : s.view.matchLog = some l)
    (hlate : Late s.last.props u.props) (hshows : ∀ m, s.last.props.match? = some m →
      Shows s.last.readFile m s.last.props.log l) :
    (∃ call ∈ s.view.calls u.readFile s.last.props.match? u.props, ¬ call.Fits) ∨
      ∃ s', s.step u = some s' ∧ ∃ m, s'.last.props.match? = some m ∧
        ∀ l, s'.view.matchLog = some l → ¬ Shows s'.last.readFile m s'.last.props.log l := by
  obtain ⟨m, m', hm, hm', huuid, hnone, hsome⟩ := hlate
  obtain ⟨log, hlog⟩ := Option.isSome_iff_exists.mp hsome
  have hfile := hshows m hm
  rw [hnone] at hfile
  obtain ⟨entry, others, hhistory⟩ := history_fromFile hfile
  have hview : s.view.resetFor s.last.props.match? m' = s.view := by
    rw [hm]
    exact resetFor_same s.view huuid
  cases hnew : s.view.newEntries m' log with
  | cons e rest =>
    apply Or.inl
    refine ⟨⟨some l, e⟩, ?_, ?_⟩
    · simp [MatchView.calls, hm', hlog, hview, hnew, hl, addEntryCalls]
    · rintro ⟨l', hl', hfits⟩
      obtain rfl := Option.some.inj hl'
      have hmem : e ∈ s.view.newEntries m' log := hnew ▸ List.mem_cons_self
      obtain ⟨i, hi⟩ := mem_fromStore (List.mem_of_mem_drop hmem)
      rw [hhistory, hi, List.map_cons, Origin.preceding] at hfits
      have hstored : Origin.file m.logPath 0 ∈ (List.range i).map (.store m'.uuid) :=
        hfits ▸ List.mem_cons_self
      obtain ⟨_, -, hstore⟩ := List.mem_map.mp hstored
      cases hstore
  | nil =>
    apply Or.inr
    refine ⟨⟨u, some l, log.length⟩, ?_, m', hm', ?_⟩
    · simp [Mounted.step, componentWillReceiveProps, hm', hlog, hview, hnew, hl]
    · rintro l' hl' hshows'
      obtain rfl := Option.some.inj hl'
      have hstored := hshows'.history_eq
      rw [hlog, hhistory] at hstored
      obtain ⟨_, hstore⟩ := mem_fromStore (Option.some.inj hstored ▸ List.mem_cons_self)
      cases hstore

end Updates

/-! ## Lifetimes -/

section Lifetimes
variable [EntryJson F]

/-- Whenever a match is shown, the log of the view is the complete one. Every entry is added to a
log that holds the entries before it, and if an update throws, there is no complete log. -/
structure Exact (mount : Update F) (updates : List (Update F)) : Prop where
  shows : ∀ before after, updates = before ++ after → ∀ s, run mount before = some s →
    ∀ m, s.last.props.match? = some m →
      ∃ l, s.view.matchLog = some l ∧ Shows s.last.readFile m s.last.props.log l
  fits : ∀ before u after, updates = before ++ u :: after → ∀ s, run mount before = some s →
    ∀ call ∈ s.view.calls u.readFile s.last.props.match? u.props, call.Fits
  breaks : ∀ before u after, updates = before ++ u :: after → ∀ s, run mount before = some s →
    s.step u = none →
      ∃ m, u.props.match? = some m ∧ fullLog u.readFile m u.props.log = none

/-- The view is mounted without a match, and no log of the match it shows comes late. -/
structure Settled (mount : Update F) (updates : List (Update F)) : Prop where
  start : mount.props.match? = none
  early : ∀ before u after, updates = before ++ u :: after → ∀ s, run mount before = some s →
    ¬ Late s.last.props u.props

theorem run_concat (mount : Update F) (updates : List (Update F)) (u : Update F) :
    run mount (updates ++ [u]) = (run mount updates).bind (·.step u) := by
  simp [run, List.foldlM_append]

theorem last_run {mount : Update F} {updates : List (Update F)} {s : Mounted F}
    (h : run mount updates = some s) : (mount :: updates).getLast? = some s.last := by
  induction updates using List.reverseRecOn generalizing s with
  | nil =>
    obtain rfl := Option.some.inj h
    rfl
  | append_singleton updates u ih =>
    rw [run_concat, Option.bind_eq_some_iff] at h
    obtain ⟨before, -, hstep⟩ := h
    obtain ⟨view, -, rfl⟩ := Option.map_eq_some_iff.mp hstep
    rw [← List.cons_append, List.getLast?_concat]

/-- The log of a match grows from one update to the next. -/
def GrowsAlong (mount : Update F) (updates : List (Update F)) : Prop :=
  (mount :: updates).IsChain fun u u' => Grows u.props u'.props

omit [EntryJson F] in
theorem GrowsAlong.of_append {mount : Update F} {before after : List (Update F)}
    (h : GrowsAlong mount (before ++ after)) : GrowsAlong mount before := by
  rw [GrowsAlong, ← List.cons_append, List.isChain_append] at h
  exact h.1

theorem Settled.of_append {mount : Update F} {before after : List (Update F)}
    (h : Settled mount (before ++ after)) : Settled mount before := by
  refine ⟨h.start, fun first u rest hbefore => ?_⟩
  exact h.early first u (rest ++ after) (by simp [hbefore])

theorem GrowsAlong.grows {mount u : Update F} {before after : List (Update F)}
    (h : GrowsAlong mount (before ++ u :: after)) {s : Mounted F}
    (hs : run mount before = some s) : Grows s.last.props u.props := by
  rw [GrowsAlong, ← List.cons_append, List.isChain_append] at h
  exact h.2.2 s.last (last_run hs) u rfl

theorem Settled.good_run {mount : Update F} {updates : List (Update F)}
    (h : Settled mount updates) (hgrows : GrowsAlong mount updates) {s : Mounted F}
    (hs : run mount updates = some s) : s.Good := by
  induction updates using List.reverseRecOn generalizing s with
  | nil =>
    obtain rfl := Option.some.inj hs
    intro m hm
    rw [h.start] at hm
    cases hm
  | append_singleton updates u ih =>
    rw [run_concat, Option.bind_eq_some_iff] at hs
    obtain ⟨before, hbefore, hstep⟩ := hs
    have hgood := ih h.of_append hgrows.of_append hbefore
    exact (hgood.right (hgrows.grows hbefore) (h.early updates u [] rfl before hbefore)).good s hstep

/-- The view is exact if and only if it is mounted without a match and no log comes late. -/
theorem run_exact_iff {mount : Update F} {updates : List (Update F)}
    (hgrows : GrowsAlong mount updates) : Exact mount updates ↔ Settled mount updates := by
  constructor
  · intro h
    have hmount : mount.props.match? = none := by
      by_contra hne
      obtain ⟨m, hm⟩ := Option.ne_none_iff_exists'.mp hne
      obtain ⟨l, hl, -⟩ := h.shows [] updates rfl ⟨mount, .new⟩ rfl m hm
      cases hl
    refine ⟨hmount, fun before u after hupdates s hs hlate => ?_⟩
    obtain ⟨m, _, hm, -⟩ := id hlate
    obtain ⟨l, hl, hshows⟩ := h.shows before (u :: after) hupdates s hs m hm
    have hshown (m' : Match) (hm' : s.last.props.match? = some m') :
        Shows s.last.readFile m' s.last.props.log l :=
      Option.some.inj (hm.symm.trans hm') ▸ hshows
    rcases not_right_of_late hl hlate hshown with ⟨call, hcall, hfits⟩ | ⟨s', hs', m', hm', hnot⟩
    · exact hfits (h.fits before u after hupdates s hs call hcall)
    · have hrun : run mount (before ++ [u]) = some s' := by
        rw [run_concat, hs]
        exact hs'
      obtain ⟨l', hl', hshows'⟩ := h.shows (before ++ [u]) after (by simp [hupdates]) s' hrun m' hm'
      exact hnot l' hl' hshows'
  · intro h
    have hgood (before after : List (Update F)) (hupdates : updates = before ++ after)
        (s : Mounted F) (hs : run mount before = some s) : s.Good := by
      subst hupdates
      exact h.of_append.good_run hgrows.of_append hs
    have hright (before : List (Update F)) (u : Update F) (after : List (Update F))
        (hupdates : updates = before ++ u :: after) (s : Mounted F)
        (hs : run mount before = some s) : Right s u := by
      have hlate := h.early before u after hupdates s hs
      have hbefore := hgood before (u :: after) hupdates s hs
      subst hupdates
      exact hbefore.right (hgrows.grows hs) hlate
    refine ⟨fun before after hupdates s hs m hm => ?_, fun before u after hupdates s hs => ?_,
      fun before u after hupdates s hs => ?_⟩
    · obtain ⟨l, hl, hshows, -⟩ := hgood before after hupdates s hs m hm
      exact ⟨l, hl, hshows⟩
    · exact (hright before u after hupdates s hs).fits
    · exact (hright before u after hupdates s hs).breaks

end Lifetimes

/-! ## A match that is played -/

def playedMatch : Match := ⟨"match", .hosted, "match.log"⟩

/-- The match with this log in the store, and nothing on disk. -/
def played (log : List (LogEntry Int)) : Update Int := ⟨⟨some playedMatch, some log⟩, fun _ => none⟩

/-- No match is selected. -/
def unselected : Update Int := ⟨⟨none, none⟩, fun _ => none⟩

/-- A match is selected before it has an entry, and gets one. -/
theorem run_exact_iff_played :
    letI := stepJson
    Exact unselected [played [], played [stepEntry]] := by
  let := stepJson
  have hgrows : GrowsAlong unselected [played [], played [stepEntry]] := by
    refine .cons_cons (fun m m' hm => by cases hm) (.cons_cons ?_ (.singleton _))
    rintro m m' hm hm' -
    refine ⟨by rw [Option.some.inj (hm.symm.trans hm')], fun log log' hlog _ => ?_⟩
    rw [← Option.some.inj hlog]
    exact List.nil_prefix
  apply (run_exact_iff hgrows).mpr
  refine ⟨rfl, ?_⟩
  rintro before u after hupdates s hs ⟨m, m', hm, -, -, hnone, -⟩
  have hlast := List.mem_of_getLast? (last_run hs)
  have hmem : s.last ∈ unselected :: [played [], played [stepEntry]] := by
    rw [hupdates, ← List.cons_append]
    exact List.mem_append_left _ hlast
  simp only [List.mem_cons, List.not_mem_nil, or_false] at hmem
  rcases hmem with hlast | hlast | hlast
  · rw [hlast] at hm
    cases hm
  · rw [hlast] at hnone
    cases hnone
  · rw [hlast] at hnone
    cases hnone

/-- The view is mounted while the match is played. -/
theorem not_exact_mounted :
    letI := stepJson
    GrowsAlong (played [stepEntry]) [] ∧ ¬ Exact (played [stepEntry]) [] := by
  let := stepJson
  refine ⟨.singleton _, fun h => ?_⟩
  obtain ⟨l, hl, -⟩ := h.shows [] [] rfl ⟨played [stepEntry], .new⟩ rfl playedMatch rfl
  cases hl

end Mozaic.Desktop.Matches
