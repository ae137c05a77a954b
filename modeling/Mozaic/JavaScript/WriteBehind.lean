import Mathlib

/-! Tables that are written behind. A listener compares the object that is a table with the one
it saw last; if it is another one, a job writes it to the database, and the whole database is
written to its file. Objects are told apart by when they were made. -/
namespace Mozaic.JavaScript.WriteBehind

/-- What becomes of a table: the same object, a new one, or the object itself is changed and a
copy of it takes its place. -/
inductive Reduction (α : Type) where
  | same
  | fresh (value : α)
  | edited (value : α)

/-- The objects that a table was, and the one it is. -/
structure Table (α : Type) where
  past : List α
  current : α

/-- A table of the database: as it was loaded, or an object of the store. -/
inductive Cell (α : Type) where
  | loaded (value : α)
  | object (reference : Nat)

section Table
variable {α : Type}

def Table.objects (t : Table α) : List α := t.past ++ [t.current]

/-- Which object the table is. -/
def Table.reference (t : Table α) : Nat := t.past.length

def Table.reduce (t : Table α) : Reduction α → Table α
  | .same => t
  | .fresh value => ⟨t.past ++ [t.current], value⟩
  | .edited value => ⟨t.past ++ [value], value⟩

def Cell.read (t : Table α) : Cell α → α
  | .loaded value => value
  | .object reference => t.objects.getD reference t.current

def Reduction.value (v : α) : Reduction α → α
  | .same => v
  | .fresh value | .edited value => value

@[simp] theorem Table.current_reduce (t : Table α) (r : Reduction α) :
    (t.reduce r).current = r.value t.current := by
  cases r <;> rfl

@[simp] theorem Table.length_objects (t : Table α) : t.objects.length = t.reference + 1 := by
  simp [Table.objects, Table.reference]

theorem Table.reference_reduce (t : Table α) (r : Reduction α) :
    (t.reduce r).reference = t.reference ∧ t.reduce r = t ∨
      (t.reduce r).reference = t.reference + 1 := by
  cases r
  · exact .inl ⟨rfl, rfl⟩
  · exact .inr (by simp [Table.reduce, Table.reference])
  · exact .inr (by simp [Table.reduce, Table.reference])

theorem Table.getElem?_reference (t : Table α) : t.objects[t.reference]? = some t.current := by
  simp [Table.objects, Table.reference]

@[simp] theorem Cell.read_reference (t : Table α) : (Cell.object t.reference).read t = t.current := by
  rw [Cell.read, List.getD_eq_getElem?_getD, t.getElem?_reference, Option.getD_some]

theorem Cell.read_object_mem (t : Table α) (reference : Nat) :
    (Cell.object reference).read t ∈ t.objects := by
  rw [Cell.read, List.getD_eq_getElem?_getD]
  cases h : t.objects[reference]? with
  | some value => exact List.mem_of_getElem? h
  | none => simp [Table.objects]

end Table

/-- The store, what is on its way from it to the file, and the file. -/
structure Session {ι : Type} (ρ : ι → Type) where
  tables : ∀ i, Table (ρ i)
  oldValue : ι → Nat
  jobs : List (ι × Nat)
  db : ∀ i, Cell (ρ i)
  writing : List (∀ i, ρ i)
  file : ∀ i, ρ i

namespace Session
variable {ι : Type} [DecidableEq ι] {ρ : ι → Type}

/-- The listeners are initialized with the tables `imported` from a file. -/
def start (file imported : ∀ i, ρ i) : Session ρ where
  tables i := ⟨[], imported i⟩
  oldValue _ := 0
  jobs := []
  db i := .loaded (file i)
  writing := []
  file

def value (s : Session ρ) (i : ι) : ρ i := (s.tables i).current

/-- What is written to the file now. -/
def contents (s : Session ρ) : ∀ i, ρ i := fun i => (s.db i).read (s.tables i)

/-- One listener. -/
def notify (s : Session ρ) (i : ι) : Session ρ :=
  let newValue := (s.tables i).reference
  if s.oldValue i ≠ newValue then
    { s with
      oldValue := Function.update s.oldValue i newValue
      jobs := s.jobs ++ [(i, newValue)] }
  else s

def dispatch (listeners : List ι) (reduce : ∀ i, ρ i → Reduction (ρ i)) (s : Session ρ) :
    Session ρ :=
  listeners.foldl notify
    { s with tables := fun i => (s.tables i).reduce (reduce i (s.tables i).current) }

/-- The next job: the database is updated, and its file begins to be written. -/
def runJob (s : Session ρ) : Session ρ :=
  match s.jobs with
  | [] => s
  | (i, reference) :: jobs =>
    let s := { s with jobs, db := Function.update s.db i (.object reference) }
    { s with writing := s.writing ++ [s.contents] }

/-- Of the writes that have begun, one ends. -/
def endWrite (k : Nat) (s : Session ρ) : Session ρ :=
  match s.writing[k]? with
  | none => s
  | some file => { s with file, writing := s.writing.eraseIdx k }

/-- The objects of table `i` that wait to be written. -/
def waiting (s : Session ρ) (i : ι) : List Nat := (s.jobs.filter (·.1 = i)).map Prod.snd

/-- What the database will have as table `i` when there are no more jobs. -/
def destined (s : Session ρ) (i : ι) : Cell (ρ i) :=
  match (s.waiting i).getLast? with
  | some reference => .object reference
  | none => s.db i

/-- What will be in the file if the writes end in the order in which they began. -/
def lastWrite (s : Session ρ) : ∀ i, ρ i := s.writing.getLastD s.file

variable {s s' : Session ρ} {listeners : List ι} {reduce : ∀ i, ρ i → Reduction (ρ i)}

/-! ## What the steps do -/

theorem jobs_eq_nil_iff : s.jobs = [] ↔ ∀ i, s.waiting i = [] := by
  constructor
  · intro h i
    rw [waiting, h]
    rfl
  · intro h
    rw [List.eq_nil_iff_forall_not_mem]
    intro job hjob
    have hmem : job.2 ∈ s.waiting job.1 :=
      List.mem_map_of_mem (List.mem_filter.mpr ⟨hjob, by simp⟩)
    rw [h] at hmem
    cases hmem

/-- The session `s'` after these listeners were notified. -/
structure Notified (listeners : List ι) (s s' : Session ρ) : Prop where
  tables : s'.tables = s.tables
  db : s'.db = s.db
  writing : s'.writing = s.writing
  file : s'.file = s.file
  oldValue : ∀ i, s'.oldValue i = if i ∈ listeners then (s.tables i).reference else s.oldValue i
  waiting : ∀ i, s'.waiting i = s.waiting i ++
    if i ∈ listeners ∧ s.oldValue i ≠ (s.tables i).reference then [(s.tables i).reference] else []

theorem notify_notified (s : Session ρ) (i : ι) : Notified [i] s (s.notify i) := by
  rw [notify]
  split_ifs with h
  · refine ⟨rfl, rfl, rfl, rfl, fun j => ?_, fun j => ?_⟩
    · by_cases hj : j = i
      · subst hj
        simp
      · simp [hj]
    · by_cases hj : j = i
      · subst hj
        simp [waiting, h]
      · have hne : ¬ i = j := fun heq => hj heq.symm
        simp [waiting, hj, hne]
  · refine ⟨rfl, rfl, rfl, rfl, fun j => ?_, fun j => ?_⟩
    · split_ifs with hj
      · rw [List.mem_singleton.mp hj]
        exact of_not_not h
      · rfl
    · rw [if_neg, List.append_nil]
      rintro ⟨hj, hne⟩
      exact h (List.mem_singleton.mp hj ▸ hne)

theorem foldl_notify (listeners : List ι) (s : Session ρ) :
    Notified listeners s (listeners.foldl notify s) := by
  induction listeners generalizing s with
  | nil => exact ⟨rfl, rfl, rfl, rfl, by simp, by simp⟩
  | cons i l ih =>
    have hi := s.notify_notified i
    have hl := ih (s.notify i)
    refine ⟨hl.tables.trans hi.tables, hl.db.trans hi.db, hl.writing.trans hi.writing,
      hl.file.trans hi.file, fun j => ?_, fun j => ?_⟩
    · rw [List.foldl_cons, hl.oldValue, hi.tables, hi.oldValue]
      by_cases hj : j = i <;> by_cases hmem : j ∈ l <;> simp [hj, hmem]
    · rw [List.foldl_cons, hl.waiting, hi.tables, hi.oldValue, hi.waiting]
      by_cases hj : j = i
      · subst hj
        simp
      · simp [hj]

/-- The session `s'` after an action, if there is a listener for each table. -/
structure Dispatched (reduce : ∀ i, ρ i → Reduction (ρ i)) (s s' : Session ρ) : Prop where
  tables : ∀ i, s'.tables i = (s.tables i).reduce (reduce i (s.value i))
  db : s'.db = s.db
  writing : s'.writing = s.writing
  file : s'.file = s.file
  oldValue : ∀ i, s'.oldValue i = (s'.tables i).reference
  waiting : ∀ i, s'.waiting i = s.waiting i ++
    if s.oldValue i ≠ (s'.tables i).reference then [(s'.tables i).reference] else []

theorem dispatch_dispatched (hl : ∀ i, i ∈ listeners) (s : Session ρ) :
    Dispatched reduce s (s.dispatch listeners reduce) := by
  have h := foldl_notify listeners
    { s with tables := fun i => (s.tables i).reduce (reduce i (s.tables i).current) }
  rw [dispatch]
  refine ⟨fun i => by rw [h.tables]; rfl, h.db, h.writing, h.file, fun i => ?_, fun i => ?_⟩
  · rw [h.oldValue, if_pos (hl i), h.tables]
  · rw [h.waiting, h.tables]
    simp only [hl i, true_and]
    rfl

theorem Dispatched.value (hd : Dispatched reduce s s') (i : ι) :
    s'.value i = (reduce i (s.value i)).value (s.value i) := by
  rw [Session.value, hd.tables, Table.current_reduce]
  rfl

/-- The session `s'` after the first job, which wrote table `i`. -/
structure RanJob (i : ι) (reference : Nat) (s s' : Session ρ) : Prop where
  tables : s'.tables = s.tables
  oldValue : s'.oldValue = s.oldValue
  file : s'.file = s.file
  waiting : ∀ j, s.waiting j = (if j = i then [reference] else []) ++ s'.waiting j
  db : ∀ j, s'.db j = if j = i then .object reference else s.db j
  writing : s'.writing = s.writing ++ [s'.contents]

theorem runJob_cases (s : Session ρ) :
    (s.jobs = [] ∧ s.runJob = s) ∨
      ∃ i reference, s.jobs = (i, reference) :: s.runJob.jobs ∧ RanJob i reference s s.runJob := by
  rw [runJob]
  split
  · exact .inl ⟨‹_›, rfl⟩
  · rename_i i reference jobs hjobs
    refine .inr ⟨i, reference, hjobs, rfl, rfl, rfl, fun j => ?_, fun j => ?_, rfl⟩
    · by_cases hj : j = i
      · subst hj
        simp [waiting, hjobs]
      · have hne : ¬ i = j := fun heq => hj heq.symm
        simp [waiting, hjobs, hj, hne]
    · by_cases hj : j = i
      · subst hj
        simp
      · simp [hj]

omit [DecidableEq ι] in
/-- The session after the first of the writes ended. -/
theorem endWrite_cases (s : Session ρ) :
    (s.writing = [] ∧ s.endWrite 0 = s) ∨ ∃ data writing, s.writing = data :: writing ∧
      s.endWrite 0 = { s with file := data, writing } := by
  rw [endWrite]
  cases h : s.writing with
  | nil => exact .inl ⟨rfl, rfl⟩
  | cons data writing => exact .inr ⟨data, writing, rfl, rfl⟩

/-! ## Nothing stays behind -/

/-- Every table gets to the database, but for those that are as they were imported. -/
structure Bound (file imported : ∀ i, ρ i) (s : Session ρ) : Prop where
  listening : ∀ i, s.oldValue i = (s.tables i).reference
  destination : ∀ i, s.destined i = .object (s.tables i).reference ∨
    (s.tables i).reference = 0 ∧ s.value i = imported i ∧ s.destined i = .loaded (file i)
  latest : s.jobs = [] → s.lastWrite = s.contents

variable {file imported : ∀ i, ρ i}

theorem bound_start : Bound file imported (start file imported) where
  listening _ := rfl
  destination _ := .inr ⟨rfl, rfl, rfl⟩
  latest _ := rfl

theorem Dispatched.unchanged (hd : Dispatched reduce s s') (hs : Bound file imported s) {i : ι}
    (hsame : s'.waiting i = s.waiting i) : s'.tables i = s.tables i := by
  rcases (s.tables i).reference_reduce (reduce i (s.value i)) with ⟨-, htable⟩ | hnext
  · rw [hd.tables, htable]
  · rw [← hd.tables] at hnext
    have hne : s.oldValue i ≠ (s'.tables i).reference := by
      rw [hs.listening, hnext]
      exact Nat.ne_of_lt (Nat.lt_succ_self _)
    rw [hd.waiting, if_pos hne] at hsame
    simp at hsame

theorem Bound.dispatched (hs : Bound file imported s) (hd : Dispatched reduce s s') :
    Bound file imported s' := by
  refine ⟨hd.oldValue, fun i => ?_, fun hjobs => ?_⟩
  · by_cases hsame : s.oldValue i ≠ (s'.tables i).reference
    · left
      rw [destined, hd.waiting, if_pos hsame, List.getLast?_concat]
    · have hwaiting : s'.waiting i = s.waiting i := by
        rw [hd.waiting, if_neg hsame, List.append_nil]
      have htable := hd.unchanged hs hwaiting
      rw [destined, value, hwaiting, htable, hd.db]
      exact hs.destination i
  · have hwaiting (i : ι) : s'.waiting i = [] ∧ s.waiting i = [] := by
      have hi := jobs_eq_nil_iff.mp hjobs i
      have hboth := hi
      rw [hd.waiting] at hboth
      exact ⟨hi, (List.append_eq_nil_iff.mp hboth).1⟩
    have hlast := hs.latest (jobs_eq_nil_iff.mpr fun i => (hwaiting i).2)
    have hcontents : s'.contents = s.contents := by
      funext i
      have htable := hd.unchanged hs ((hwaiting i).1.trans (hwaiting i).2.symm)
      rw [contents, contents, htable, hd.db]
    rw [hcontents, ← hlast, lastWrite, lastWrite, hd.writing, hd.file]

theorem bound_runJob (hs : Bound file imported s) : Bound file imported s.runJob := by
  rcases s.runJob_cases with ⟨-, heq⟩ | ⟨i, reference, -, hran⟩
  · rwa [heq]
  · refine ⟨fun j => by rw [hran.oldValue, hran.tables]; exact hs.listening j, fun j => ?_, ?_⟩
    · have hdestined : s.runJob.destined j = s.destined j := by
        rw [destined, destined, hran.waiting]
        by_cases hj : j = i
        · subst hj
          cases hlast : s.runJob.waiting j using List.reverseRecOn with
          | nil => simp [hran.db]
          | append_singleton l r =>
            rw [if_pos rfl, ← List.append_assoc, List.getLast?_concat, List.getLast?_concat]
        · simp [hj, hran.db]
      rw [hdestined, value, hran.tables]
      exact hs.destination j
    · intro _
      have hlast := congrArg (·.getLastD s.runJob.file) hran.writing
      exact hlast.trans List.getLastD_concat

omit [DecidableEq ι] in
theorem lastWrite_endWrite (s : Session ρ) : (s.endWrite 0).lastWrite = s.lastWrite := by
  rcases s.endWrite_cases with ⟨-, heq⟩ | ⟨data, writing, hwriting, heq⟩
  · rw [heq]
  · rw [heq, lastWrite, lastWrite, hwriting]
    cases writing <;> rfl

theorem bound_endWrite (hs : Bound file imported s) : Bound file imported (s.endWrite 0) := by
  have hlast := s.lastWrite_endWrite
  rcases s.endWrite_cases with ⟨-, heq⟩ | ⟨data, writing, hwriting, heq⟩
  · rwa [heq]
  · rw [heq] at hlast ⊢
    exact ⟨hs.listening, hs.destination, fun hjobs => hlast.trans (hs.latest hjobs)⟩

/-- All the jobs are run, and then all the writes end. -/
def settle (s : Session ρ) : Session ρ :=
  let s := runJob^[s.jobs.length] s
  (endWrite 0)^[s.writing.length] s

theorem iterate_runJob (n : Nat) (hs : Bound file imported s) (hn : s.jobs.length = n) :
    Bound file imported (runJob^[n] s) ∧ (runJob^[n] s).jobs = [] ∧
      (runJob^[n] s).tables = s.tables := by
  induction n generalizing s with
  | zero => exact ⟨hs, List.length_eq_zero_iff.mp hn, rfl⟩
  | succ n ih =>
    rcases s.runJob_cases with ⟨hnil, -⟩ | ⟨i, reference, hjobs, hran⟩
    · rw [hnil] at hn
      cases hn
    · rw [hjobs, List.length_cons, Nat.succ.injEq] at hn
      obtain ⟨hbound, hdone, htables⟩ := ih (bound_runJob hs) hn
      exact ⟨hbound, hdone, htables.trans hran.tables⟩

omit [DecidableEq ι] in
theorem iterate_endWrite (n : Nat) (hn : s.writing.length = n) :
    ((endWrite 0)^[n] s).tables = s.tables ∧ ((endWrite 0)^[n] s).jobs = s.jobs ∧
      ((endWrite 0)^[n] s).writing = [] ∧ ((endWrite 0)^[n] s).file = s.lastWrite := by
  induction n generalizing s with
  | zero =>
    have hnil := List.length_eq_zero_iff.mp hn
    exact ⟨rfl, rfl, hnil, by rw [lastWrite, hnil]; rfl⟩
  | succ n ih =>
    have hlast := s.lastWrite_endWrite
    rcases s.endWrite_cases with ⟨hnil, -⟩ | ⟨data, writing, hwriting, heq⟩
    · rw [hnil] at hn
      cases hn
    · rw [hwriting, List.length_cons, Nat.succ.injEq] at hn
      rw [Function.iterate_succ_apply, ← hlast]
      rw [heq] at hlast ⊢
      exact ih hn

/-- What is in the file in the end. -/
theorem bound_settle (hs : Bound file imported s) :
    s.settle.tables = s.tables ∧ s.settle.jobs = [] ∧ s.settle.writing = [] ∧
      ∀ i, s.settle.file i = s.value i ∨
        s.settle.file i = file i ∧ s.value i = imported i := by
  obtain ⟨hbound, hjobs, htables⟩ := iterate_runJob s.jobs.length hs rfl
  obtain ⟨htables', hjobs', hwriting, hfile⟩ :=
    iterate_endWrite (s := runJob^[s.jobs.length] s) _ rfl
  refine ⟨htables'.trans htables, hjobs'.trans hjobs, hwriting, fun i => ?_⟩
  have hcell : (runJob^[s.jobs.length] s).destined i = (runJob^[s.jobs.length] s).db i := by
    rw [destined, jobs_eq_nil_iff.mp hjobs i]
    rfl
  rw [settle, hfile, hbound.latest hjobs, contents, ← hcell]
  rcases hbound.destination i with hobject | ⟨-, hvalue, hloaded⟩
  · left
    rw [hobject, Cell.read_reference, htables, value]
  · right
    rw [value, htables] at hvalue
    rw [hloaded]
    exact ⟨rfl, hvalue⟩

/-! ## Nothing comes from elsewhere -/

/-- All that there is of the tables has a property. -/
structure Kept (P : ∀ i, ρ i → Prop) (s : Session ρ) : Prop where
  objects : ∀ i, ∀ value ∈ (s.tables i).objects, P i value
  loaded : ∀ i value, s.db i = .loaded value → P i value
  writing : ∀ data ∈ s.writing, ∀ i, P i (data i)
  file : ∀ i, P i (s.file i)

variable {P Q : ∀ i, ρ i → Prop}

omit [DecidableEq ι] in
theorem kept_start (hfile : ∀ i, P i (file i)) (himported : ∀ i, P i (imported i)) :
    Kept P (start file imported) where
  objects i value hvalue := by
    obtain rfl := List.mem_singleton.mp hvalue
    exact himported i
  loaded i value hvalue := by
    obtain rfl := Cell.loaded.inj hvalue
    exact hfile i
  writing := nofun
  file := hfile

omit [DecidableEq ι] in
theorem Kept.mono (hs : Kept P s) (h : ∀ i value, P i value → Q i value) : Kept Q s where
  objects i value hvalue := h i value (hs.objects i value hvalue)
  loaded i value hvalue := h i value (hs.loaded i value hvalue)
  writing data hdata i := h i _ (hs.writing data hdata i)
  file i := h i _ (hs.file i)

omit [DecidableEq ι] in
theorem Kept.value (hs : Kept P s) (i : ι) : P i (s.value i) :=
  hs.objects i _ (by simp [Table.objects, Session.value])

omit [DecidableEq ι] in
theorem Kept.contents (hs : Kept P s) (i : ι) : P i (s.contents i) := by
  rw [Session.contents]
  cases hcell : s.db i with
  | loaded value => exact hs.loaded i value hcell
  | object reference => exact hs.objects i _ (Cell.read_object_mem _ _)

theorem mem_objects_reduce {α : Type} {t : Table α} {r : Reduction α} {value : α}
    (h : value ∈ (t.reduce r).objects) : value ∈ t.objects ∨ value = (t.reduce r).current := by
  cases r with
  | same => exact .inl h
  | fresh v =>
    rw [Table.objects, Table.reduce, List.mem_append, List.mem_singleton] at h
    exact h
  | edited v =>
    simp only [Table.objects, Table.reduce, List.mem_append, List.mem_singleton] at h ⊢
    tauto

theorem Kept.dispatched (hs : Kept P s) (hd : Dispatched reduce s s')
    (hnew : ∀ i, P i (s'.value i)) : Kept P s' where
  objects i value hvalue := by
    rw [hd.tables] at hvalue
    rcases mem_objects_reduce hvalue with hold | rfl
    · exact hs.objects i value hold
    · exact hd.tables i ▸ hnew i
  loaded i value hvalue := hs.loaded i value (hd.db ▸ hvalue)
  writing data hdata := hs.writing data (hd.writing ▸ hdata)
  file i := hd.file ▸ hs.file i

theorem kept_runJob (hs : Kept P s) : Kept P s.runJob := by
  rcases s.runJob_cases with ⟨-, heq⟩ | ⟨i, reference, -, hran⟩
  · rwa [heq]
  · have hloaded (j : ι) (value : ρ j) (h : s.runJob.db j = .loaded value) : P j value := by
      rw [hran.db] at h
      split at h
      · cases h
      · exact hs.loaded j value h
    have hbefore : Kept P { s.runJob with writing := s.writing } :=
      ⟨hran.tables ▸ hs.objects, hloaded, hs.writing, hran.file ▸ hs.file⟩
    refine { hbefore with writing := fun data hdata => ?_ }
    rw [hran.writing] at hdata
    rcases List.mem_append.mp hdata with hdata | hdata
    · exact hs.writing data hdata
    · rw [List.mem_singleton.mp hdata]
      exact hbefore.contents

omit [DecidableEq ι] in
theorem kept_endWrite (hs : Kept P s) (k : Nat) : Kept P (s.endWrite k) := by
  rw [endWrite]
  split
  · exact hs
  · rename_i data hdata
    exact ⟨hs.objects, hs.loaded, fun data' h => hs.writing data' (List.mem_of_mem_eraseIdx h),
      hs.writing data (List.mem_of_getElem? hdata)⟩

theorem kept_settle (hs : Kept P s) : Kept P s.settle := by
  have hjobs : Kept P (runJob^[s.jobs.length] s) :=
    Function.Iterate.rec (Kept P) hs (fun _ => kept_runJob) _
  exact Function.Iterate.rec (Kept P) hjobs (fun _ h => kept_endWrite h 0) _

/-! ## Nothing goes back -/

section Order
variable {i : ι} {R : ρ i → ρ i → Prop}

/-- What is written of table `i` is in order, as far as it has got. -/
structure Ordered (i : ι) (R : ρ i → ρ i → Prop) (s : Session ρ) : Prop where
  objects : (s.tables i).objects.Pairwise R
  waiting : (s.waiting i).Pairwise (· ≤ ·)
  reached : ∀ reference ∈ s.waiting i, reference ≤ (s.tables i).reference
  loaded : ∀ value, s.db i = .loaded value → ∀ object ∈ (s.tables i).objects, R value object
  cell : ∀ reference, s.db i = .object reference → reference ≤ (s.tables i).reference ∧
    ∀ next ∈ s.waiting i, reference ≤ next
  writes : ((s.file :: s.writing).map (· i)).Pairwise R
  contents : ∀ data ∈ s.file :: s.writing, R (data i) (s.contents i)

omit [DecidableEq ι] in
theorem read_mono [IsPreorder (ρ i) R] {t : Table (ρ i)} (ht : t.objects.Pairwise R) {r r' : Nat}
    (hle : r ≤ r') : R ((Cell.object r).read t) ((Cell.object r').read t) := by
  have hcurrent : ∀ object ∈ t.objects, R object t.current := by
    intro object hobject
    rw [Table.objects, List.mem_append, List.mem_singleton] at hobject
    rw [Table.objects, List.pairwise_append] at ht
    rcases hobject with hpast | rfl
    · exact ht.2.2 object hpast t.current (List.mem_singleton_self _)
    · exact refl _
  by_cases hlt : r' < t.objects.length
  · have hlt' := hle.trans_lt hlt
    simp only [Cell.read, List.getD_eq_getElem _ _ hlt, List.getD_eq_getElem _ _ hlt']
    rcases hle.eq_or_lt with rfl | hne
    · exact refl _
    · exact List.pairwise_iff_getElem.mp ht r r' hlt' hlt hne
  · have hlast : (Cell.object r').read t = t.current := by
      rw [Cell.read, List.getD_eq_default _ _ (Nat.le_of_not_lt hlt)]
    rw [hlast]
    exact hcurrent _ (Cell.read_object_mem _ _)

omit [DecidableEq ι] in
theorem read_object_current [IsPreorder (ρ i) R] {t : Table (ρ i)} (ht : t.objects.Pairwise R)
    {object : ρ i} (h : object ∈ t.objects) : R object t.current := by
  obtain ⟨r, hr, rfl⟩ := List.mem_iff_getElem.mp h
  have hle : r ≤ t.reference := by
    rw [t.length_objects] at hr
    omega
  have hread := read_mono ht hle
  rwa [Cell.read_reference, Cell.read, List.getD_eq_getElem _ _ hr] at hread

theorem ordered_start [IsPreorder (ρ i) R] (h : R (file i) (imported i)) :
    Ordered i R (start file imported) where
  objects := List.pairwise_singleton _ _
  waiting := .nil
  reached := nofun
  loaded value hvalue object hobject := by
    obtain rfl := Cell.loaded.inj hvalue
    rwa [List.mem_singleton.mp hobject]
  cell := nofun
  writes := List.pairwise_singleton _ _
  contents data hdata := by
    rw [List.mem_singleton.mp hdata]
    exact refl (r := R) (file i)

section Reduce
omit [DecidableEq ι]
variable [IsPreorder (ρ i) R] {t : Table (ρ i)} {r : Reduction (ρ i)}

theorem pairwise_reduce (ht : t.objects.Pairwise R) (hr : R t.current (r.value t.current)) :
    (t.reduce r).objects.Pairwise R := by
  have hpast : t.past.Pairwise R ∧ ∀ object ∈ t.past, R object t.current := by
    rw [Table.objects, List.pairwise_append] at ht
    exact ⟨ht.1, fun object h => ht.2.2 object h _ (List.mem_singleton_self _)⟩
  cases r with
  | same => exact ht
  | fresh v =>
    refine List.pairwise_append.mpr ⟨ht, List.pairwise_singleton _ _, fun object h v' hv' => ?_⟩
    rw [List.mem_singleton.mp hv']
    exact IsTrans.trans _ _ _ (read_object_current ht h) hr
  | edited v =>
    have hnew : ∀ object ∈ t.past, R object v :=
      fun object h => IsTrans.trans _ _ _ (hpast.2 object h) hr
    refine List.pairwise_append.mpr ⟨?_, List.pairwise_singleton _ _, fun object h v' hv' => ?_⟩
    · refine List.pairwise_append.mpr ⟨hpast.1, List.pairwise_singleton _ _, ?_⟩
      intro object h v' hv'
      rw [List.mem_singleton.mp hv']
      exact hnew object h
    · rw [List.mem_singleton.mp hv']
      rcases List.mem_append.mp h with h | h
      · exact hnew object h
      · rw [List.mem_singleton.mp h]
        exact refl v

/-- What an object of the store is read as only gets further. -/
theorem read_reduce (hr : R t.current (r.value t.current))
    {reference : Nat} (hle : reference ≤ t.reference) :
    R ((Cell.object reference).read t) ((Cell.object reference).read (t.reduce r)) := by
  cases r with
  | same => exact refl (r := R) _
  | fresh v =>
    have hlt : reference < t.objects.length := by
      rw [t.length_objects]
      omega
    have hsame : (Cell.object reference).read (t.reduce (.fresh v)) =
        (Cell.object reference).read t := by
      have hobjects : (t.reduce (.fresh v)).objects = t.objects ++ [v] := rfl
      rw [Cell.read, Cell.read, hobjects, List.getD_append _ _ _ _ hlt,
        List.getD_eq_getElem _ _ hlt, List.getD_eq_getElem _ _ hlt]
    rw [hsame]
    exact refl (r := R) _
  | edited v =>
    rcases hle.lt_or_eq with hlt | rfl
    · have hsame : (Cell.object reference).read (t.reduce (.edited v)) =
          (Cell.object reference).read t := by
        simp only [Cell.read, Table.objects, Table.reduce, List.append_assoc,
          List.getD_append _ _ _ _ hlt, List.getD_eq_getElem _ _ hlt]
      rw [hsame]
      exact refl (r := R) _
    · have hnew : (Cell.object t.reference).read (t.reduce (.edited v)) = v := by
        simp [Cell.read, Table.objects, Table.reduce, Table.reference]
      rw [Cell.read_reference, hnew]
      exact hr

theorem read_cell_reduce (hr : R t.current (r.value t.current)) {cell : Cell (ρ i)}
    (hcell : ∀ reference, cell = .object reference → reference ≤ t.reference) :
    R (cell.read t) (cell.read (t.reduce r)) := by
  cases cell with
  | loaded value => exact refl (r := R) value
  | object reference => exact read_reduce hr (hcell reference rfl)

end Reduce

variable [IsPreorder (ρ i) R]

theorem Ordered.dispatched (hs : Ordered i R s) (hd : Dispatched reduce s s')
    (hnew : R (s.value i) (s'.value i)) : Ordered i R s' := by
  have hr : R (s.tables i).current ((reduce i (s.value i)).value (s.tables i).current) := by
    rw [value, value, hd.tables, Table.current_reduce] at hnew
    exact hnew
  have hreference : (s.tables i).reference ≤ (s'.tables i).reference := by
    rw [hd.tables]
    rcases (s.tables i).reference_reduce (reduce i (s.value i)) with ⟨heq, -⟩ | heq <;> omega
  have hwaiting {next : Nat} (h : next ∈ s'.waiting i) :
      next ∈ s.waiting i ∨ next = (s'.tables i).reference := by
    rw [hd.waiting] at h
    rcases List.mem_append.mp h with h | h
    · exact .inl h
    · split at h
      · exact .inr (List.mem_singleton.mp h)
      · cases h
  have hcontents : R (s.contents i) (s'.contents i) := by
    rw [Session.contents, Session.contents, hd.db, hd.tables]
    exact read_cell_reduce hr fun reference h => (hs.cell reference h).1
  refine ⟨?_, ?_, ?_, ?_, ?_, ?_, ?_⟩
  · rw [hd.tables]
    exact pairwise_reduce hs.objects hr
  · rw [hd.waiting]
    refine List.pairwise_append.mpr ⟨hs.waiting, ?_, fun reference h next hnext => ?_⟩
    · split
      · exact List.pairwise_singleton _ _
      · exact .nil
    · split at hnext
      · rw [List.mem_singleton.mp hnext]
        exact (hs.reached reference h).trans hreference
      · cases hnext
  · intro next hnext
    rcases hwaiting hnext with h | rfl
    · exact (hs.reached next h).trans hreference
    · exact Nat.le_refl _
  · intro value hvalue object hobject
    rw [hd.db] at hvalue
    rw [hd.tables] at hobject
    rcases mem_objects_reduce hobject with hold | rfl
    · exact hs.loaded value hvalue object hold
    · rw [Table.current_reduce]
      refine IsTrans.trans _ _ _ (hs.loaded value hvalue (s.tables i).current ?_) hr
      simp [Table.objects]
  · intro reference hcell
    rw [hd.db] at hcell
    obtain ⟨hle, hnext⟩ := hs.cell reference hcell
    refine ⟨hle.trans hreference, fun next h => ?_⟩
    rcases hwaiting h with h | rfl
    · exact hnext next h
    · exact hle.trans hreference
  · rw [hd.file, hd.writing]
    exact hs.writes
  · intro data hdata
    rw [hd.file, hd.writing] at hdata
    exact IsTrans.trans _ _ _ (hs.contents data hdata) hcontents

theorem ordered_runJob (hs : Ordered i R s) : Ordered i R s.runJob := by
  rcases s.runJob_cases with ⟨-, heq⟩ | ⟨j, reference, -, hran⟩
  · rwa [heq]
  · have hsub : (s.runJob.waiting i).Sublist (s.waiting i) := by
      rw [hran.waiting]
      exact List.sublist_append_right _ _
    have hcontents : R (s.contents i) (s.runJob.contents i) := by
      rw [Session.contents, Session.contents, hran.db, hran.tables]
      split
      · rename_i hij
        have hmem : reference ∈ s.waiting i := by
          rw [hran.waiting, if_pos hij]
          exact List.mem_cons_self
        cases hcell : s.db i with
        | loaded value => exact hs.loaded value hcell _ (Cell.read_object_mem _ _)
        | object reference' =>
          exact read_mono hs.objects ((hs.cell reference' hcell).2 reference hmem)
      · exact refl (r := R) _
    have hwrites : ∀ data ∈ s.runJob.file :: s.runJob.writing,
        data ∈ s.file :: s.writing ∨ data = s.runJob.contents := by
      intro data hdata
      rw [hran.file, hran.writing, ← List.cons_append, List.mem_append, List.mem_singleton] at hdata
      exact hdata
    refine ⟨?_, ?_, ?_, ?_, ?_, ?_, ?_⟩
    · rw [hran.tables]
      exact hs.objects
    · exact hs.waiting.sublist hsub
    · intro next hnext
      rw [hran.tables]
      exact hs.reached next (hsub.subset hnext)
    · intro value hvalue
      rw [hran.db] at hvalue
      rw [hran.tables]
      split at hvalue
      · cases hvalue
      · exact hs.loaded value hvalue
    · intro reference' hcell
      rw [hran.db] at hcell
      rw [hran.tables]
      split at hcell
      · rename_i hij
        obtain rfl := Cell.object.inj hcell
        have hwaiting := hs.waiting
        have hreached := hs.reached
        rw [hran.waiting, if_pos hij] at hwaiting hreached
        exact ⟨hreached reference List.mem_cons_self, (List.pairwise_cons.mp hwaiting).1⟩
      · obtain ⟨hle, hnext⟩ := hs.cell reference' hcell
        exact ⟨hle, fun next h => hnext next (hsub.subset h)⟩
    · rw [hran.file, hran.writing, ← List.cons_append, List.map_append]
      refine List.pairwise_append.mpr ⟨hs.writes, List.pairwise_singleton _ _, ?_⟩
      intro v hv v' hv'
      obtain ⟨data, hdata, rfl⟩ := List.mem_map.mp hv
      rw [List.map_singleton, List.mem_singleton] at hv'
      rw [hv']
      exact IsTrans.trans _ _ _ (hs.contents data hdata) hcontents
    · intro data hdata
      rcases hwrites data hdata with h | rfl
      · exact IsTrans.trans _ _ _ (hs.contents data h) hcontents
      · exact refl (r := R) _

omit [IsPreorder (ρ i) R] in
theorem ordered_endWrite (hs : Ordered i R s) : Ordered i R (s.endWrite 0) := by
  rcases s.endWrite_cases with ⟨-, heq⟩ | ⟨data, writing, hwriting, heq⟩
  · rwa [heq]
  · have hwrites := hs.writes
    have hcontents := hs.contents
    rw [hwriting] at hwrites hcontents
    rw [heq]
    exact { hs with
      writes := (List.pairwise_cons.mp hwrites).2
      contents := fun data' h => hcontents data' (List.mem_cons_of_mem _ h) }

/-- The file only gets further when a write ends. -/
theorem file_endWrite (hs : Ordered i R s) : R (s.file i) ((s.endWrite 0).file i) := by
  rcases s.endWrite_cases with ⟨-, heq⟩ | ⟨data, writing, hwriting, heq⟩
  · rw [heq]
    exact refl (r := R) _
  · have hwrites := hs.writes
    rw [hwriting] at hwrites
    rw [heq]
    exact (List.pairwise_cons.mp hwrites).1 _ List.mem_cons_self

end Order

end Session
end Mozaic.JavaScript.WriteBehind
