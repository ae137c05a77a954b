import Mozaic.Desktop.Database

/-! What is left of the store when the client was closed and is started again. -/
namespace Mozaic.Desktop.Database
open Rust JavaScript WriteBehind

variable {db : Tables} {events : List Event}

/-- Table `t` of the store had this value, in some session. -/
def Had (s : App) (events : List Event) (t : TableName) (value : Rows t) : Prop :=
  ∃ before, before <+: events ∧ (run s before).value t = value

/-- The writes to the file end in the order in which they began. -/
def InOrder (events : List Event) : Prop := ∀ k, .written k ∈ events → k = 0

theorem run_concat (s : App) (events : List Event) (event : Event) :
    run s (events ++ [event]) = step (run s events) event :=
  List.foldl_concat ..

theorem dispatched (s : App) (action : Action) :
    Session.Dispatched (rootReducer action) s (step s (.dispatch action)) :=
  Session.dispatch_dispatched (fun t => by cases t <;> decide) s

/-! ## At any time -/

theorem Had.concat {s : App} {t : TableName} {value : Rows t} (h : Had s events t value)
    (event : Event) : Had s (events ++ [event]) t value := by
  obtain ⟨before, hbefore, hvalue⟩ := h
  exact ⟨before, hbefore.trans (List.prefix_append _ _), hvalue⟩

theorem had_now (s : App) (events : List Event) (t : TableName) :
    Had s events t ((run s events).value t) := ⟨events, List.prefix_rfl, rfl⟩

/-- What may be on the way to the file, or in it: what it is reloaded as was once in the store, or
what was there is reloaded as the same. -/
def Known (s : App) (events : List Event) (t : TableName) (value : Rows t) : Prop :=
  Stored t value ∧ ∃ value', Had s events t value' ∧
    ∀ rows, Reloaded t value rows → Reloaded t value' rows

theorem Known.of_had {s : App} {t : TableName} {value : Rows t} (hstored : Stored t value)
    (h : Had s events t value) : Known s events t value :=
  ⟨hstored, value, h, fun _ hrows => hrows⟩

theorem Known.concat {s : App} (t : TableName) (value : Rows t)
    (h : Known s events t value) (event : Event) : Known s (events ++ [event]) t value := by
  obtain ⟨hstored, value', hhad, hreloaded⟩ := h
  exact ⟨hstored, value', hhad.concat event, hreloaded⟩

theorem reloaded_restart {s : App} (hs : ∀ t, Stored t (s.file t)) (ord : IterOrder String)
    (t : TableName) : Reloaded t (s.file t) ((step s (.restart ord)).value t) :=
  reloaded_imported ord hs t

theorem kept_known (ord : IterOrder String) (hdb : ∀ t, Stored t (db t)) (events : List Event) :
    Session.Kept (Known (bindToStore ord db) events) (run (bindToStore ord db) events) := by
  induction events using List.reverseRecOn with
  | nil =>
    have hnow (t : TableName) := had_now (bindToStore ord db) [] t
    refine Session.kept_start (fun t => ⟨hdb t, _, hnow t, fun rows hrows => ?_⟩)
      fun t => .of_had (stored_imported hdb t) (hnow t)
    exact (reloaded_imported ord hdb t).again hrows
  | append_singleton events event ih =>
    have hmore := ih.mono fun t value h => h.concat t value event
    have hnow (t : TableName) := had_now (bindToStore ord db) (events ++ [event]) t
    cases event with
    | dispatch action =>
      rw [run_concat] at hnow ⊢
      have hdispatched := dispatched (run (bindToStore ord db) events) action
      refine hmore.dispatched hdispatched fun t => .of_had ?_ (hnow t)
      rw [hdispatched.value]
      exact stored_reduce action t (ih.value t).1
    | job =>
      rw [run_concat]
      exact Session.kept_runJob hmore
    | written k =>
      rw [run_concat]
      exact Session.kept_endWrite hmore k
    | restart ord' =>
      rw [run_concat] at hnow ⊢
      have hfile (t : TableName) := (hmore.file t).1
      exact Session.kept_start hmore.file fun t => .of_had (stored_imported hfile t) (hnow t)

/-! ## When everything was written -/

theorem bound_run (ord : IterOrder String) (hdb : ∀ t, Stored t (db t))
    (horder : InOrder events) :
    ∃ file imported, (∀ t, Reloaded t (file t) (imported t)) ∧
      Session.Bound file imported (run (bindToStore ord db) events) := by
  induction events using List.reverseRecOn with
  | nil => exact ⟨db, _, reloaded_imported ord hdb, Session.bound_start⟩
  | append_singleton events event ih =>
    obtain ⟨file, imported, hreloaded, hbound⟩ :=
      ih fun k hk => horder k (List.mem_append_left _ hk)
    rw [run_concat]
    cases event with
    | dispatch action =>
      exact ⟨file, imported, hreloaded, hbound.dispatched (dispatched _ action)⟩
    | job => exact ⟨file, imported, hreloaded, Session.bound_runJob hbound⟩
    | written k =>
      rw [horder k (by simp)]
      exact ⟨file, imported, hreloaded, Session.bound_endWrite hbound⟩
    | restart ord' =>
      have hfile (t : TableName) := ((kept_known ord hdb events).file t).1
      exact ⟨_, _, reloaded_imported ord' hfile, Session.bound_start⟩

/-- Once everything is written, a restart brings back the matches, the bots and the maps, but that
the dates of bots and maps are texts then. At any other time each of these is brought back as it
was at some earlier time. There are never notifications after a restart, and those in the file are
gone with the first new one. -/
theorem restart_restores (ord : IterOrder String) (hdb : ∀ t, Stored t (db t))
    (events : List Event) (ord' : IterOrder String) :
    (InOrder events → (run (bindToStore ord db) events).settle.tables =
        (run (bindToStore ord db) events).tables ∧
      (∀ t, Reloaded t ((run (bindToStore ord db) events).value t)
        ((step (run (bindToStore ord db) events).settle (.restart ord')).value t)) ∧
      ((run (bindToStore ord db) events).value .notifications ≠ [] →
        (run (bindToStore ord db) events).settle.file .notifications =
          (run (bindToStore ord db) events).value .notifications)) ∧
    ∀ t, ∃ value, Had (bindToStore ord db) events t value ∧
      Reloaded t value ((step (run (bindToStore ord db) events) (.restart ord')).value t) := by
  have hkept := kept_known ord hdb events
  refine ⟨fun horder => ?_, fun t => ?_⟩
  · obtain ⟨file, imported, hreloaded, hbound⟩ := bound_run ord hdb horder
    obtain ⟨htables, -, -, hfile⟩ := Session.bound_settle hbound
    -- a table that was not written since the start is the one that was imported
    have hwritten (t : TableName) {rows : Rows t}
        (h : Reloaded t ((run (bindToStore ord db) events).settle.file t) rows) :
        Reloaded t ((run (bindToStore ord db) events).value t) rows := by
      rcases hfile t with heq | ⟨heq, hvalue⟩
      · exact heq ▸ h
      · rw [heq] at h
        rw [hvalue]
        exact (hreloaded t).again h
    have hstored (t : TableName) := ((Session.kept_settle hkept).file t).1
    refine ⟨htables, fun t => hwritten t (reloaded_restart hstored ord' t), fun hsome => ?_⟩
    rcases hfile .notifications with heq | ⟨-, hvalue⟩
    · exact heq
    · exact absurd (hvalue.trans (hreloaded .notifications)) hsome
  · obtain ⟨-, value, hhad, hreloaded⟩ := hkept.file t
    exact ⟨value, hhad, hreloaded _ (reloaded_restart (fun t => (hkept.file t).1) ord' t)⟩

def addSimple : Action := .addBot "Simple" "python3 simple.py" "b7" "2018-11-05"

/-- A bot is added, and the client closed when it is written. -/
theorem restart_restores_bot :
    ((step (run (bindToStore .sorted initialState) [.dispatch addSimple]).settle
      (.restart .sorted)).value .bots).lookup "b7" = some
        ⟨"b7", .text "2018-11-05", .text "2018-11-05", "Simple", "python3 simple.py"⟩ := by
  have hdb : ∀ t, Stored t (initialState t) := by
    intro t
    cases t <;> simp [Stored, initialState, Keyed]
  have horder : InOrder [.dispatch addSimple] := by
    intro k hk
    cases List.mem_singleton.mp hk
  have hbots : ((run (bindToStore .sorted initialState) [.dispatch addSimple]).value .bots).lookup
      "b7" = some
        ⟨"b7", .object "2018-11-05", .object "2018-11-05", "Simple", "python3 simple.py"⟩ := by
    rw [run, List.foldl_cons, List.foldl_nil, (dispatched _ addSimple).value]
    exact Finmap.lookup_insert _
  refine (((restart_restores .sorted hdb _ .sorted).1 horder).2.1 .bots "b7").trans ?_
  rw [hbots]
  rfl

end Mozaic.Desktop.Database
