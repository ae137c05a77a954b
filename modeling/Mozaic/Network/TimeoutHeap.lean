import Mozaic.Network.Handle
import Mozaic.Rust.BinaryHeap

/-! Timeouts: a heap of deadlines and one timer for all of them. -/
namespace Mozaic.Network
open Rust

/-- The outcome of a poll. -/
inductive Poll (α : Type) where
  | ready (a : α)
  | notReady
deriving DecidableEq, Repr

/-- A timer. The task that polls it is woken at the deadline, but only if it was told
that the timer is not ready. -/
structure Delay where
  deadline : Instant
deriving DecidableEq, Repr

namespace Delay

def reset (_ : Delay) (instant : Instant) : Delay := ⟨instant⟩

def poll (d : Delay) (now : Instant) : Poll Unit :=
  if d.deadline ≤ now then .ready () else .notReady

end Delay

/-- Marks when a timeout should be yielded for a key. -/
structure Deadline (κ : Type) where
  key : κ
  instant : Instant
deriving DecidableEq, Repr

structure TimeoutHeap (κ : Type) where
  deadlines : List (Deadline κ)
  keySet : Finset κ
  delay : Delay

/-- The earliest deadline expires first. -/
abbrev DeadlineOrder (κ : Type) := Peek (Deadline κ) Deadline.instant

namespace TimeoutHeap
variable {κ : Type} [DecidableEq κ]

/-- A heap that is created at this time. -/
def new (now : Instant) : TimeoutHeap κ where
  deadlines := []
  keySet := ∅
  delay := ⟨now⟩

def setTimeout (h : TimeoutHeap κ) (key : κ) (instant : Instant) : TimeoutHeap κ :=
  let delay := if instant < h.delay.deadline ∨ h.deadlines = [] then h.delay.reset instant
    else h.delay
  { deadlines := ⟨key, instant⟩ :: h.deadlines
    keySet := insert key h.keySet
    delay }

def cancelTimeout (h : TimeoutHeap κ) (key : κ) : TimeoutHeap κ :=
  { h with keySet := h.keySet.erase key }

/-- Poll for an elapsed deadline. -/
def poll (ord : DeadlineOrder κ) (now : Instant) (h : TimeoutHeap κ) : Poll κ × TimeoutHeap κ :=
  match h.delay.poll now with
  | .notReady => (.notReady, h)
  | .ready () =>
    match ord.pop h.deadlines with
    | none => (.notReady, h)
    | some (deadline, deadlines) =>
      if now ≤ deadline.instant then (.notReady, h)
      else (.ready deadline.key,
        { h with deadlines, keySet := h.keySet.erase deadline.key })

/-! ## What a poll does -/

/-- The poll finds a deadline that has passed. -/
structure Popped (h : TimeoutHeap κ) (now : Instant) (key : κ) (h' : TimeoutHeap κ) : Prop where
  due : h.delay.deadline ≤ now
  expired : ∃ d ∈ h.deadlines, d.key = key ∧ d.instant < now ∧
    (∀ d' ∈ h.deadlines, d.instant ≤ d'.instant) ∧ h'.deadlines = h.deadlines.erase d
  delay : h'.delay = h.delay

theorem Popped.length_lt {h h' : TimeoutHeap κ} {now : Instant} {key : κ}
    (hpop : Popped h now key h') : h'.deadlines.length < h.deadlines.length := by
  obtain ⟨d, hd, _, _, _, hdeadlines⟩ := hpop.expired
  rw [hdeadlines, List.length_erase_of_mem hd]
  exact Nat.sub_one_lt_of_lt (List.length_pos_of_mem hd)

/-- The deadlines of other keys stay. -/
theorem Popped.mem_of_ne {h h' : TimeoutHeap κ} {now : Instant} {key : κ}
    (hpop : Popped h now key h') {d : Deadline κ} (hd : d ∈ h.deadlines) (hne : d.key ≠ key) :
    d ∈ h'.deadlines := by
  obtain ⟨d', _, hkey, _, _, hdeadlines⟩ := hpop.expired
  rw [hdeadlines]
  apply (List.mem_erase_of_ne _).mpr hd
  intro heq
  subst heq
  exact hne hkey

/-- The poll finds nothing. -/
structure Idle (h : TimeoutHeap κ) (now : Instant) (h' : TimeoutHeap κ) : Prop where
  same : h' = h
  early : now < h.delay.deadline ∨ ∀ d ∈ h.deadlines, now ≤ d.instant

theorem poll_cases (ord : DeadlineOrder κ) (now : Instant) (h : TimeoutHeap κ) :
    (∃ key h', h.poll ord now = (.ready key, h') ∧ Popped h now key h') ∨
      ∃ h', h.poll ord now = (.notReady, h') ∧ Idle h now h' := by
  unfold poll Delay.poll
  by_cases hdue : h.delay.deadline ≤ now
  · rw [if_pos hdue]
    cases hpeek : ord.peek h.deadlines with
    | none =>
      have hpop : ord.pop h.deadlines = none := by simp [Peek.pop, hpeek]
      rw [hpop]
      refine .inr ⟨h, rfl, rfl, .inr fun d hd => ?_⟩
      rw [ord.empty _ hpeek] at hd
      cases hd
    | some d =>
      simp only [ord.pop_of_peek hpeek]
      split
      · rename_i hearly
        exact .inr ⟨h, rfl, rfl, .inr fun d' hd' => hearly.trans (ord.least _ _ hpeek d' hd')⟩
      · rename_i hlate
        exact .inl ⟨d.key, _, rfl, hdue, ⟨d, ord.mem _ _ hpeek, rfl, Nat.lt_of_not_le hlate,
          ord.least _ _ hpeek, rfl⟩, rfl⟩
  · rw [if_neg hdue]
    exact .inr ⟨h, rfl, rfl, .inl (Nat.lt_of_not_le hdue)⟩

/-- The timer is never set later than a deadline that is waited for. -/
def Timely (h : TimeoutHeap κ) : Prop := ∀ d ∈ h.deadlines, h.delay.deadline ≤ d.instant

omit [DecidableEq κ] in
theorem timely_new (now : Instant) : Timely (new now : TimeoutHeap κ) := by
  intro d hd
  cases hd

theorem Timely.setTimeout {h : TimeoutHeap κ} (hh : Timely h) (key : κ) (instant : Instant) :
    Timely (h.setTimeout key instant) := by
  intro d hd
  simp only [TimeoutHeap.setTimeout]
  rcases List.mem_cons.mp hd with rfl | hd
  · split
    · exact Nat.le_refl _
    · rename_i hlate
      exact Nat.le_of_not_lt fun hlt => hlate (.inl hlt)
  · have hle := hh d hd
    split
    · rename_i hreset
      rcases hreset with hlt | hempty
      · exact Nat.le_of_lt (Nat.lt_of_lt_of_le hlt hle)
      · rw [hempty] at hd
        cases hd
    · exact hle

omit [DecidableEq κ] in
/-- When a poll finds nothing, nothing is due. -/
theorem Timely.idle {h h' : TimeoutHeap κ} {now : Instant} (hh : Timely h) (hidle : Idle h now h') :
    ∀ d ∈ h'.deadlines, now ≤ d.instant := by
  intro d hd
  rw [hidle.same] at hd
  rcases hidle.early with hlt | hearly
  · exact Nat.le_of_lt (Nat.lt_of_lt_of_le hlt (hh d hd))
  · exact hearly d hd

theorem Timely.popped {h h' : TimeoutHeap κ} {now : Instant} {key : κ} (hh : Timely h)
    (hpop : Popped h now key h') : Timely h' := by
  obtain ⟨d, _, _, _, _, hdeadlines⟩ := hpop.expired
  intro d' hd'
  rw [hdeadlines] at hd'
  rw [hpop.delay]
  exact hh d' (List.mem_of_mem_erase hd')

theorem Timely.poll {h : TimeoutHeap κ} (hh : Timely h) (ord : DeadlineOrder κ) (now : Instant) :
    Timely (h.poll ord now).2 := by
  rcases h.poll_cases ord now with ⟨key, h', heq, hpop⟩ | ⟨h', heq, hidle⟩
  · rw [heq]
    exact hh.popped hpop
  · rw [heq, hidle.same]
    exact hh

end TimeoutHeap

/-! ## Wake-ups -/

/-- What is done to a heap. -/
inductive HeapOp (κ : Type) where
  | setTimeout (key : κ) (instant : Instant)
  | cancelTimeout (key : κ)
  | poll (now : Instant)

namespace TimeoutHeap
variable {κ : Type} [DecidableEq κ]

def apply (ord : DeadlineOrder κ) (h : TimeoutHeap κ) : HeapOp κ → TimeoutHeap κ
  | .setTimeout key instant => h.setTimeout key instant
  | .cancelTimeout key => h.cancelTimeout key
  | .poll now => (h.poll ord now).2

/-- A heap that was created at the time `created`, after these operations. -/
def run (ord : DeadlineOrder κ) (created : Instant) (ops : List (HeapOp κ)) : TimeoutHeap κ :=
  ops.foldl (apply ord) (new created)

theorem run_concat (ord : DeadlineOrder κ) (created : Instant) (ops : List (HeapOp κ))
    (op : HeapOp κ) : run ord created (ops ++ [op]) = apply ord (run ord created ops) op := by
  rw [run, List.foldl_append]
  rfl

theorem timely_run (ord : DeadlineOrder κ) (created : Instant) (ops : List (HeapOp κ)) :
    Timely (run ord created ops) := by
  induction ops using List.reverseRecOn with
  | nil => exact timely_new created
  | append_singleton ops op ih =>
    rw [run_concat]
    cases op with
    | setTimeout key instant => exact ih.setTimeout key instant
    | cancelTimeout key => exact ih
    | poll now => exact ih.poll ord now

/-! ## The queue of the calls -/

/-- What a poll of a queue takes: the earliest deadline, once it is over. -/
def due (ord : DeadlineOrder κ) (now : Instant) (queue : List (Deadline κ)) :
    Option (Deadline κ) :=
  (ord.peek queue).filter (·.instant < now)

/-- A queue without a timer, which no cancellation touches. -/
def enqueue (ord : DeadlineOrder κ) (queue : List (Deadline κ)) : HeapOp κ → List (Deadline κ)
  | .setTimeout key instant => ⟨key, instant⟩ :: queue
  | .cancelTimeout _ => queue
  | .poll now =>
    match due ord now queue with
    | some d => queue.erase d
    | none => queue

/-- The deadlines that were set by these calls and that no poll among them has reached. -/
def queued (ord : DeadlineOrder κ) (ops : List (HeapOp κ)) : List (Deadline κ) :=
  ops.foldl (enqueue ord) []

theorem queued_concat (ord : DeadlineOrder κ) (ops : List (HeapOp κ)) (op : HeapOp κ) :
    queued ord (ops ++ [op]) = enqueue ord (queued ord ops) op := by
  simp [queued]

omit [DecidableEq κ] in
theorem due_eq_some {ord : DeadlineOrder κ} {now : Instant} {queue : List (Deadline κ)}
    {d : Deadline κ} :
    due ord now queue = some d ↔ ord.peek queue = some d ∧ d.instant < now := by
  simp [due, Option.filter_eq_some_iff]

omit [DecidableEq κ] in
theorem due_eq_none {ord : DeadlineOrder κ} {now : Instant} {queue : List (Deadline κ)} :
    due ord now queue = none ↔ ∀ d ∈ queue, now ≤ d.instant := by
  constructor
  · intro hnone d hd
    cases hpeek : ord.peek queue with
    | none =>
      rw [ord.empty _ hpeek] at hd
      cases hd
    | some first =>
      have hearly : now ≤ first.instant := by
        by_contra hlate
        rw [due_eq_some.mpr ⟨hpeek, Nat.lt_of_not_le hlate⟩] at hnone
        cases hnone
      exact hearly.trans (ord.least _ _ hpeek d hd)
  · intro hearly
    cases hdue : due ord now queue with
    | none => rfl
    | some d =>
      obtain ⟨hpeek, hlt⟩ := due_eq_some.mp hdue
      exact absurd (hearly d (ord.mem _ _ hpeek)) (Nat.not_le_of_lt hlt)

/-- The timer does not change what a poll takes. -/
theorem Timely.poll_eq {h : TimeoutHeap κ} (hh : Timely h) (ord : DeadlineOrder κ)
    (now : Instant) :
    (h.poll ord now).1 = ((due ord now h.deadlines).elim .notReady fun d => .ready d.key) ∧
      (h.poll ord now).2.deadlines = enqueue ord h.deadlines (.poll now) := by
  cases hdue : due ord now h.deadlines with
  | none =>
    rcases h.poll_cases ord now with ⟨key, h', heq, hpop⟩ | ⟨h', heq, hidle⟩
    · obtain ⟨d, hd, -, hlt, -, -⟩ := hpop.expired
      exact absurd (due_eq_none.mp hdue d hd) (Nat.not_le_of_lt hlt)
    · rw [heq, hidle.same, enqueue, hdue]
      exact ⟨rfl, rfl⟩
  | some d =>
    obtain ⟨hpeek, hlt⟩ := due_eq_some.mp hdue
    have hdelay : h.delay.deadline ≤ now := (hh d (ord.mem _ _ hpeek)).trans (Nat.le_of_lt hlt)
    rw [enqueue, hdue, TimeoutHeap.poll, Delay.poll, if_pos hdelay, ord.pop_of_peek hpeek]
    simp [Nat.not_le_of_lt hlt]

/-- The heap holds what the calls have queued. -/
theorem deadlines_run (ord : DeadlineOrder κ) (created : Instant) (ops : List (HeapOp κ)) :
    (run ord created ops).deadlines = queued ord ops := by
  induction ops using List.reverseRecOn with
  | nil => rfl
  | append_singleton ops op ih =>
    rw [run_concat, queued_concat, ← ih]
    cases op with
    | setTimeout key instant => rfl
    | cancelTimeout key => rfl
    | poll now => exact ((timely_run ord created ops).poll_eq ord now).2

/-! ## When the timer is set -/

/-- Something is queued after these calls, and ever since. -/
def Busy (ord : DeadlineOrder κ) (before between : List (HeapOp κ)) : Prop :=
  ∀ done, done <+: between → queued ord (before ++ done) ≠ []

theorem Busy.concat {ord : DeadlineOrder κ} {before between : List (HeapOp κ)}
    (h : Busy ord before between) {op : HeapOp κ}
    (hop : queued ord (before ++ between ++ [op]) ≠ []) :
    Busy ord before (between ++ [op]) := by
  intro done hdone
  rcases List.prefix_concat_iff.mp hdone with rfl | hdone
  · rwa [← List.append_assoc]
  · exact h done hdone

theorem Busy.of_concat {ord : DeadlineOrder κ} {before between : List (HeapOp κ)} {op : HeapOp κ}
    (h : Busy ord before (between ++ [op])) : Busy ord before between :=
  fun done hdone => h done (hdone.trans (List.prefix_append _ _))

theorem delay_poll (ord : DeadlineOrder κ) (now : Instant) (h : TimeoutHeap κ) :
    (h.poll ord now).2.delay = h.delay := by
  rcases h.poll_cases ord now with ⟨key, h', heq, hpop⟩ | ⟨h', heq, hidle⟩
  · rw [heq]
    exact hpop.delay
  · rw [heq, hidle.same]

/-- As long as the queue does not run empty, the timer is never later than a deadline that was
set. -/
theorem Busy.delay_le {ord : DeadlineOrder κ} {created : Instant} {before between : List (HeapOp κ)}
    {key : κ} {instant : Instant} (h : Busy ord (before ++ [.setTimeout key instant]) between) :
    (run ord created (before ++ [.setTimeout key instant] ++ between)).delay.deadline ≤ instant := by
  induction between using List.reverseRecOn with
  | nil =>
    rw [List.append_nil, run_concat, apply, setTimeout]
    dsimp only
    split
    · exact le_rfl
    · rename_i hkept
      exact Nat.le_of_not_lt fun hlt => hkept (.inl hlt)
  | append_singleton between op ih =>
    have hle := ih h.of_concat
    rw [← List.append_assoc, run_concat]
    cases op with
    | cancelTimeout _ => exact hle
    | poll now =>
      rw [apply, delay_poll]
      exact hle
    | setTimeout key' instant' =>
      have hne := h between (List.prefix_append _ _)
      rw [← deadlines_run ord created] at hne
      rw [apply, setTimeout]
      dsimp only
      split
      · rename_i hreset
        exact (Nat.le_of_lt (hreset.resolve_right hne)).trans hle
      · exact hle

/-- The timer was set by one of the calls since the queue was last empty. -/
theorem exists_busy (ord : DeadlineOrder κ) (created : Instant) {ops : List (HeapOp κ)}
    (hne : queued ord ops ≠ []) :
    ∃ before key between, ops = before ++
        [.setTimeout key (run ord created ops).delay.deadline] ++ between ∧
      Busy ord (before ++ [.setTimeout key (run ord created ops).delay.deadline]) between := by
  induction ops using List.reverseRecOn with
  | nil => exact absurd rfl hne
  | append_singleton ops op ih =>
    have hlonger (hbefore : queued ord ops ≠ [])
        (hdelay : (run ord created (ops ++ [op])).delay = (run ord created ops).delay) :
        ∃ before key between, ops ++ [op] = before ++
            [.setTimeout key (run ord created (ops ++ [op])).delay.deadline] ++ between ∧
          Busy ord (before ++ [.setTimeout key (run ord created (ops ++ [op])).delay.deadline])
            between := by
      obtain ⟨before, key, between, hops, hbusy⟩ := ih hbefore
      rw [hdelay]
      refine ⟨before, key, between ++ [op], ?_, hbusy.concat ?_⟩
      · rw [← List.append_assoc, ← hops]
      · rwa [← hops]
    cases op with
    | cancelTimeout key =>
      rw [queued_concat] at hne
      exact hlonger hne (by rw [run_concat]; rfl)
    | poll now =>
      apply hlonger
      · intro hnil
        rw [queued_concat, hnil] at hne
        exact hne (by simp [enqueue, due])
      · rw [run_concat]
        exact delay_poll ord now _
    | setTimeout key instant =>
      by_cases hreset : instant < (run ord created ops).delay.deadline ∨ queued ord ops = []
      · have hdelay : (run ord created (ops ++ [.setTimeout key instant])).delay.deadline =
            instant := by
          rw [run_concat, apply, setTimeout, deadlines_run]
          exact congrArg Delay.deadline (if_pos hreset)
        rw [hdelay]
        refine ⟨ops, key, [], (List.append_nil _).symm, fun done hdone => ?_⟩
        rw [List.prefix_nil.mp hdone, List.append_nil]
        exact hne
      · apply hlonger fun hnil => hreset (.inr hnil)
        rw [run_concat, apply, setTimeout, deadlines_run]
        exact if_neg hreset

/-- If a poll at the time `now` leaves deadlines waiting, the task is woken in time for the
earliest of them. -/
def WakesUp (ord : DeadlineOrder κ) (now : Instant) (h : TimeoutHeap κ) : Prop :=
  (h.poll ord now).1 = .notReady → h.deadlines ≠ [] →
    h.delay.poll now = .notReady ∧ ∀ d ∈ h.deadlines, h.delay.deadline ≤ d.instant

/-- The timer is still running, or some deadline has passed. -/
def Decided (now : Instant) (h : TimeoutHeap κ) : Prop :=
  h.deadlines ≠ [] → now < h.delay.deadline ∨ ∃ d ∈ h.deadlines, d.instant < now

theorem Timely.wakesUp_iff {h : TimeoutHeap κ} (hh : Timely h) (ord : DeadlineOrder κ)
    (now : Instant) : WakesUp ord now h ↔ Decided now h := by
  rcases h.poll_cases ord now with ⟨key, h', heq, hpop⟩ | ⟨h', heq, hidle⟩
  · obtain ⟨d, hd, _, hlt, _⟩ := hpop.expired
    apply iff_of_true
    · intro hnot
      rw [heq] at hnot
      cases hnot
    · exact fun _ => .inr ⟨d, hd, hlt⟩
  · constructor
    · intro hw hne
      obtain ⟨hdelay, _⟩ := hw (by rw [heq]) hne
      apply Or.inl
      by_contra hdue
      rw [Delay.poll, if_pos (Nat.le_of_not_lt hdue)] at hdelay
      cases hdelay
    · intro hdec _ hne
      refine ⟨?_, hh⟩
      rw [Delay.poll, if_neg]
      rcases hdec hne with hlt | ⟨d, hd, hlt⟩
      · exact Nat.not_le_of_lt hlt
      · rcases hidle.early with hlt' | hearly
        · exact Nat.not_le_of_lt hlt'
        · exact absurd (hearly d hd) (Nat.not_le_of_lt hlt)

/-- Once one of the deadlines that were set has been reached, every poll takes something until
the queue has run empty. -/
def Prompt (ord : DeadlineOrder κ) (ops : List (HeapOp κ)) : Prop :=
  ∀ before key instant between now after,
    ops = before ++ [.setTimeout key instant] ++ between ++ .poll now :: after →
      Busy ord (before ++ [.setTimeout key instant]) between → instant ≤ now →
        ∃ d ∈ queued ord (before ++ [.setTimeout key instant] ++ between), d.instant < now

/-- No poll of a run loses the wake-up if and only if each one takes something, from the time
at which a deadline is reached until the queue runs empty. -/
theorem run_wakesUp_iff (ord : DeadlineOrder κ) (created : Instant) (ops : List (HeapOp κ)) :
    (∀ before now after, ops = before ++ .poll now :: after →
        WakesUp ord now (run ord created before)) ↔ Prompt ord ops := by
  constructor
  · intro h before key instant between now after hops hbusy hreached
    have hdecided := ((timely_run ord created _).wakesUp_iff ord now).mp (h _ now after hops)
    rw [Decided, deadlines_run] at hdecided
    have hne := hbusy between List.prefix_rfl
    refine (hdecided hne).resolve_left fun hrunning => ?_
    exact Nat.not_le_of_lt hrunning (hbusy.delay_le.trans hreached)
  · intro h before now after hops
    refine ((timely_run ord created before).wakesUp_iff ord now).mpr fun hne => ?_
    rw [deadlines_run] at hne ⊢
    rw [or_iff_not_imp_left]
    intro hreached
    obtain ⟨earlier, key, between, hbefore, hbusy⟩ := exists_busy ord created hne
    rw [hbefore] at hops
    have hpassed := h _ _ _ _ _ _ hops hbusy (Nat.le_of_not_lt hreached)
    rwa [← hbefore] at hpassed

/-- Two requests, of which the first times out: the timer is not set for the second. -/
theorem not_wakesUp_second :
    ¬ ∀ before now after,
        [.setTimeout 0 10, .setTimeout 1 20, .poll 11, .poll 11] = before ++ .poll now :: after →
          WakesUp (.oldest Deadline.instant) now
            (run (.oldest Deadline.instant) 0 (before : List (HeapOp Nat))) := by
  intro h
  have hlast := h [.setTimeout 0 10, .setTimeout 1 20, .poll 11] 11 [] rfl
  obtain ⟨hdelay, _⟩ := hlast (by decide) (by decide)
  revert hdelay
  decide

end TimeoutHeap
end Mozaic.Network
