import Mozaic.Network.Agenda

/-! Cancelled timeouts. `keySet` keeps the keys that are waited for, but no poll looks at it. -/
namespace Mozaic.Network.TimeoutHeap
open Rust

variable {κ : Type} [DecidableEq κ]

/-! ## Pending keys -/

/-- A timeout of this key was set, and since then it was not cancelled and no poll yielded
the key. -/
def Pending (ord : DeadlineOrder κ) (created : Instant) (ops : List (HeapOp κ)) (key : κ) : Prop :=
  ∃ before instant after, ops = before ++ .setTimeout key instant :: after ∧
    .cancelTimeout key ∉ after ∧
      key ∉ (answers ord (run ord created (before ++ [.setTimeout key instant])) after).filterMap
        Poll.key?

/-- The operation cancels the key or yields it. -/
def Ends (ord : DeadlineOrder κ) (h : TimeoutHeap κ) (op : HeapOp κ) (key : κ) : Prop :=
  op = .cancelTimeout key ∨ key ∈ (answers ord h [op]).filterMap Poll.key?

section Run
variable {ord : DeadlineOrder κ} {created : Instant} {ops : List (HeapOp κ)}

theorem not_pending_nil {key : κ} : ¬ Pending ord created [] key := by
  rintro ⟨before, instant, after, hops, -, -⟩
  exact List.append_ne_nil_of_right_ne_nil before (List.cons_ne_nil _ after) hops.symm

theorem foldl_run (before after : List (HeapOp κ)) :
    after.foldl (apply ord) (run ord created before) = run ord created (before ++ after) := by
  rw [run, run, List.foldl_append]

theorem pending_concat {op : HeapOp κ} {key : κ} : Pending ord created (ops ++ [op]) key ↔
    (∃ instant, op = .setTimeout key instant) ∨
      Pending ord created ops key ∧ ¬ Ends ord (run ord created ops) op key := by
  constructor
  · rintro ⟨before, instant, after, hops, hcancel, hyielded⟩
    rcases List.eq_nil_or_concat after with rfl | ⟨after, last, rfl⟩
    · have hlast := List.append_inj_right' hops rfl
      exact .inl ⟨instant, List.head_eq_of_cons_eq hlast⟩
    · rw [List.concat_eq_append, ← List.cons_append, ← List.append_assoc] at hops
      obtain ⟨rfl, hlast⟩ := List.append_inj' hops rfl
      obtain rfl := List.head_eq_of_cons_eq hlast
      rw [List.concat_eq_append] at hcancel hyielded
      rw [answers_append, List.filterMap_append, foldl_run, List.append_assoc,
        List.singleton_append] at hyielded
      refine .inr ⟨⟨before, instant, after, rfl, ?_, ?_⟩, ?_⟩
      · exact fun hmem => hcancel (List.mem_append_left _ hmem)
      · exact fun hmem => hyielded (List.mem_append_left _ hmem)
      · rintro (rfl | hmem)
        · exact hcancel (List.mem_append_right _ List.mem_cons_self)
        · exact hyielded (List.mem_append_right _ hmem)
  · rintro (⟨instant, rfl⟩ | ⟨⟨before, instant, after, rfl, hcancel, hyielded⟩, hends⟩)
    · exact ⟨ops, instant, [], rfl, List.not_mem_nil, List.not_mem_nil⟩
    · refine ⟨before, instant, after ++ [op], ?_, ?_, ?_⟩
      · rw [List.append_assoc, List.cons_append]
      · rw [List.mem_append, List.mem_singleton]
        rintro (hmem | rfl)
        · exact hcancel hmem
        · exact hends (.inl rfl)
      · rw [answers_append, List.filterMap_append, foldl_run, List.append_assoc,
          List.singleton_append, List.mem_append]
        rintro (hmem | hmem)
        · exact hyielded hmem
        · exact hends (.inr hmem)

theorem keySet_poll (h : TimeoutHeap κ) (now : Instant) {key : κ} :
    key ∈ (h.poll ord now).2.keySet ↔ key ∈ h.keySet ∧ (h.poll ord now).1 ≠ .ready key := by
  unfold poll
  split
  · simp
  · split
    · simp
    · split
      · simp
      · simp [and_comm, eq_comm]

/-- What an operation does to `keySet`. -/
theorem mem_keySet_apply {h : TimeoutHeap κ} {op : HeapOp κ} {key : κ} :
    key ∈ (apply ord h op).keySet ↔
      (∃ instant, op = .setTimeout key instant) ∨ key ∈ h.keySet ∧ ¬ Ends ord h op key := by
  cases op with
  | setTimeout key' instant =>
    simp [apply, setTimeout, Ends, answers, eq_comm]
  | cancelTimeout key' =>
    simp [apply, cancelTimeout, Ends, answers, and_comm, eq_comm]
  | poll now =>
    have hanswer : key ∈ (answers ord h [.poll now]).filterMap Poll.key? ↔
        (h.poll ord now).1 = .ready key := by
      cases hp : (h.poll ord now).1 <;> simp [answers, hp, Poll.key?, eq_comm]
    rw [apply, keySet_poll, Ends, hanswer]
    simp

/-- The two representations of what is waited for agree. -/
theorem mem_keySet_run {key : κ} :
    key ∈ (run ord created ops).keySet ↔ Pending ord created ops key := by
  induction ops using List.reverseRecOn with
  | nil => exact iff_of_false (Finset.notMem_empty key) not_pending_nil
  | append_singleton ops op ih => rw [run_concat, mem_keySet_apply, ih, pending_concat]

end Run

/-! ## What polls take from the queue -/

/-- The key that a call takes from a queue. -/
def takes (ord : DeadlineOrder κ) (queue : List (Deadline κ)) : HeapOp κ → Option κ
  | .setTimeout _ _ => none
  | .cancelTimeout _ => none
  | .poll now => (due ord now queue).map Deadline.key

/-- The keys that these calls take from a queue, one after the other. -/
def taken (ord : DeadlineOrder κ) : List (Deadline κ) → List (HeapOp κ) → List κ
  | _, [] => []
  | queue, op :: ops => (takes ord queue op).toList ++ taken ord (enqueue ord queue op) ops

section Queue
variable {ord : DeadlineOrder κ} {queue : List (Deadline κ)} {ops : List (HeapOp κ)} {key : κ}

omit [DecidableEq κ] in
theorem takes_eq_some {op : HeapOp κ} : takes ord queue op = some key ↔
    ∃ now, op = .poll now ∧ ∃ d, due ord now queue = some d ∧ d.key = key := by
  cases op <;> simp [takes]

theorem taken_concat (op : HeapOp κ) : taken ord queue (ops ++ [op]) =
    taken ord queue ops ++ (takes ord (ops.foldl (enqueue ord) queue) op).toList := by
  induction ops generalizing queue with
  | nil => simp [taken]
  | cons first ops ih => simp [taken, ih]

theorem foldl_queued (before after : List (HeapOp κ)) :
    after.foldl (enqueue ord) (queued ord before) = queued ord (before ++ after) := by
  rw [queued, queued, List.foldl_append]

theorem Timely.apply {h : TimeoutHeap κ} (hh : Timely h) (ord : DeadlineOrder κ) (op : HeapOp κ) :
    Timely (h.apply ord op) := by
  cases op with
  | setTimeout key instant => exact hh.setTimeout key instant
  | cancelTimeout key => exact hh
  | poll now => exact hh.poll ord now

/-- Polls answer with what is taken from the queue of the calls. -/
theorem Timely.keys_answers {h : TimeoutHeap κ} (hh : Timely h) (ord : DeadlineOrder κ)
    (ops : List (HeapOp κ)) :
    (answers ord h ops).filterMap Poll.key? = taken ord h.deadlines ops := by
  induction ops generalizing h with
  | nil => rfl
  | cons op ops ih =>
    have hrest := ih (hh.apply ord op)
    cases op with
    | setTimeout key instant => exact hrest
    | cancelTimeout key => exact hrest
    | poll now =>
      obtain ⟨hanswer, hdeadlines⟩ := hh.poll_eq ord now
      rw [TimeoutHeap.apply, hdeadlines] at hrest
      rw [answers, taken, takes, List.filterMap_cons, hanswer]
      cases due ord now h.deadlines with
      | none => exact hrest
      | some d => exact congrArg (d.key :: ·) hrest

theorem mem_enqueue {op : HeapOp κ} {d : Deadline κ} (hd : d ∈ enqueue ord queue op) :
    op = .setTimeout d.key d.instant ∨ d ∈ queue := by
  cases op with
  | setTimeout key instant =>
    rcases List.mem_cons.mp hd with rfl | hd
    · exact .inl rfl
    · exact .inr hd
  | cancelTimeout key => exact .inr hd
  | poll now =>
    rw [enqueue] at hd
    split at hd
    · exact .inr (List.mem_of_mem_erase hd)
    · exact .inr hd

/-- What was queued by the last of the calls on a key. -/
theorem exists_last_set {d : Deadline κ} (hd : d ∈ queued ord ops) :
    ∃ before instant between, ops = before ++ [.setTimeout d.key instant] ++ between ∧
      ∀ instant', .setTimeout d.key instant' ∉ between := by
  induction ops using List.reverseRecOn with
  | nil => cases hd
  | append_singleton ops op ih =>
    by_cases hop : ∃ instant, op = .setTimeout d.key instant
    · obtain ⟨instant, rfl⟩ := hop
      exact ⟨ops, instant, [], (List.append_nil _).symm, fun _ => List.not_mem_nil⟩
    · rw [queued_concat] at hd
      have hqueued := (mem_enqueue hd).resolve_left fun hset => hop ⟨_, hset⟩
      obtain ⟨before, instant, between, rfl, hlast⟩ := ih hqueued
      refine ⟨before, instant, between ++ [op], List.append_assoc _ _ _, fun instant' hmem => ?_⟩
      rcases List.mem_append.mp hmem with hmem | hmem
      · exact hlast instant' hmem
      · exact hop ⟨instant', (List.mem_singleton.mp hmem).symm⟩

theorem mem_of_mem_foldl {d : Deadline κ} (hd : d ∈ ops.foldl (enqueue ord) queue)
    (hset : ∀ instant, .setTimeout d.key instant ∉ ops) : d ∈ queue := by
  induction ops generalizing queue with
  | nil => exact hd
  | cons op ops ih =>
    have henqueued := ih hd fun instant hmem => hset instant (List.mem_cons_of_mem _ hmem)
    refine (mem_enqueue henqueued).resolve_left fun hop => ?_
    exact hset d.instant (hop ▸ List.mem_cons_self)

/-- A call takes an entry off the queue, or leaves those of the key alone. -/
theorem count_takes_add (op : HeapOp κ) (hop : ∀ instant, op ≠ .setTimeout key instant) :
    (takes ord queue op).toList.count key + (enqueue ord queue op).countP (·.key = key) =
      queue.countP (·.key = key) := by
  cases op with
  | setTimeout key' instant =>
    have hne : key' ≠ key := fun heq => hop instant (heq ▸ rfl)
    simp [takes, enqueue, hne]
  | cancelTimeout key' => simp [takes, enqueue]
  | poll now =>
    rw [takes, enqueue]
    cases hdue : due ord now queue with
    | none => simp
    | some d =>
      have hmem := ord.mem _ _ (due_eq_some.mp hdue).1
      rw [(List.perm_cons_erase hmem).countP_eq, List.countP_cons]
      by_cases hkey : d.key = key <;> simp [hkey, Nat.add_comm]

theorem count_taken_le (hset : ∀ instant, .setTimeout key instant ∉ ops) :
    (taken ord queue ops).count key ≤ queue.countP (·.key = key) := by
  induction ops generalizing queue with
  | nil => simp [taken]
  | cons op ops ih =>
    have hop (instant : Instant) : op ≠ .setTimeout key instant :=
      fun heq => hset instant (heq ▸ List.mem_cons_self)
    have hrest : _ ≤ (enqueue ord queue op).countP _ := ih fun instant hmem =>
      hset instant (List.mem_cons_of_mem _ hmem)
    have hfirst : (takes ord queue op).toList.count key + _ = _ := count_takes_add op hop
    rw [taken, List.count_append]
    omega

/-- The last poll that takes an entry of a key. -/
theorem exists_poll_of_count {n : Nat} (hn : n + 1 ≤ (taken ord queue ops).count key) :
    ∃ before now after d, ops = before ++ .poll now :: after ∧
      due ord now (before.foldl (enqueue ord) queue) = some d ∧ d.key = key ∧
        n ≤ (taken ord queue before).count key := by
  induction ops using List.reverseRecOn with
  | nil => simp [taken] at hn
  | append_singleton ops op ih =>
    rw [taken_concat, List.count_append] at hn
    cases htakes : takes ord (ops.foldl (enqueue ord) queue) op with
    | none =>
      rw [htakes] at hn
      obtain ⟨before, now, after, d, rfl, hdue⟩ := ih (by simpa using hn)
      exact ⟨before, now, after ++ [op], d, by simp, hdue⟩
    | some key' =>
      rw [htakes] at hn
      obtain ⟨now, rfl, d, hdue, rfl⟩ := takes_eq_some.mp htakes
      by_cases hkey : d.key = key
      · refine ⟨ops, now, [], d, rfl, hdue, hkey, ?_⟩
        have hone : [d.key].count key ≤ 1 := List.count_le_length
        rw [Option.toList_some] at hn
        omega
      · obtain ⟨before, now', after, d', rfl, hdue'⟩ := ih (by simpa [hkey] using hn)
        exact ⟨before, now', after ++ [.poll now], d', by simp, hdue'⟩

end Queue

/-! ## What polls yield -/

/-- Polls yield pending keys only, and `keySet` is what is pending at every time. -/
structure Honours (ord : DeadlineOrder κ) (created : Instant) (ops : List (HeapOp κ)) : Prop where
  yields : ∀ before now after key, ops = before ++ .poll now :: after →
    ((run ord created before).poll ord now).1 = .ready key → Pending ord created before key
  keySet : ∀ before after, ops = before ++ after →
    ∀ key, key ∈ (run ord created before).keySet ↔ Pending ord created before key

/-- Calls on a key that is still queued, and what polls take before the key is set again: no
entry of a key that was cancelled, and one at most of a key that was set once more. -/
structure Separate (ord : DeadlineOrder κ) (ops : List (HeapOp κ)) : Prop where
  cancelled : ∀ before key between after,
    ops = before ++ [.cancelTimeout key] ++ between ++ after →
      (∃ d ∈ queued ord before, d.key = key) → (∀ instant, .setTimeout key instant ∉ between) →
        (taken ord (queued ord (before ++ [.cancelTimeout key])) between).count key = 0
  again : ∀ before key instant between after,
    ops = before ++ [.setTimeout key instant] ++ between ++ after →
      (∃ d ∈ queued ord before, d.key = key) → (∀ instant', .setTimeout key instant' ∉ between) →
        (taken ord (queued ord (before ++ [.setTimeout key instant])) between).count key ≤ 1

section Run
variable {ord : DeadlineOrder κ} {created : Instant} {ops : List (HeapOp κ)} {key : κ}

theorem ready_iff (now : Instant) : ((run ord created ops).poll ord now).1 = .ready key ↔
    ∃ d, due ord now (queued ord ops) = some d ∧ d.key = key := by
  rw [((timely_run ord created ops).poll_eq ord now).1, deadlines_run]
  cases due ord now (queued ord ops) <;> simp

theorem keys_answers (before between : List (HeapOp κ)) :
    (answers ord (run ord created before) between).filterMap Poll.key? =
      taken ord (queued ord before) between := by
  rw [(timely_run ord created before).keys_answers, deadlines_run]

/-- A key that is not set any more stays pending only if it is neither cancelled nor taken. -/
theorem Pending.of_append {rest : List (HeapOp κ)} (h : Pending ord created (ops ++ rest) key)
    (hset : ∀ instant, .setTimeout key instant ∉ rest) :
    .cancelTimeout key ∉ rest ∧ key ∉ taken ord (queued ord ops) rest := by
  induction rest using List.reverseRecOn with
  | nil => exact ⟨List.not_mem_nil, List.not_mem_nil⟩
  | append_singleton rest op ih =>
    rw [← List.append_assoc, pending_concat] at h
    obtain ⟨hpending, hends⟩ := h.resolve_left fun ⟨instant, hop⟩ =>
      hset instant (List.mem_append_right _ (hop ▸ List.mem_cons_self))
    obtain ⟨hcancel, htaken⟩ := ih hpending fun instant hmem =>
      hset instant (List.mem_append_left _ hmem)
    constructor
    · rw [List.mem_append, List.mem_singleton]
      rintro (hmem | hop)
      · exact hcancel hmem
      · exact hends (.inl hop.symm)
    · rw [taken_concat, List.mem_append]
      rintro (hmem | hmem)
      · exact htaken hmem
      · refine hends (.inr ?_)
        rw [keys_answers, taken, ← foldl_queued]
        exact List.mem_append_left _ hmem

theorem Honours.separate (h : Honours ord created ops) : Separate ord ops where
  cancelled := by
    intro before key between after hops _ hset
    by_contra hcount
    obtain ⟨done, now, rest, d, rfl, hdue, hkey, -⟩ :=
      exists_poll_of_count (n := 0) (Nat.one_le_iff_ne_zero.mpr hcount)
    rw [foldl_queued, List.append_assoc] at hdue
    have hpending := h.yields (before ++ ([.cancelTimeout key] ++ done)) now (rest ++ after) key
      (by simp [hops]) ((ready_iff now).mpr ⟨d, hdue, hkey⟩)
    refine (hpending.of_append fun instant hmem => ?_).1 (List.mem_append_left _ List.mem_cons_self)
    rcases List.mem_append.mp hmem with hmem | hmem
    · simp at hmem
    · exact hset instant (List.mem_append_left _ hmem)
  again := by
    intro before key instant between after hops _ hset
    by_contra hcount
    obtain ⟨done, now, rest, d, rfl, hdue, hkey, hbefore⟩ :=
      exists_poll_of_count (n := 1) (Nat.lt_of_not_le hcount)
    rw [foldl_queued] at hdue
    have hpending := h.yields (before ++ [.setTimeout key instant] ++ done) now (rest ++ after) key
      (by simp [hops]) ((ready_iff now).mpr ⟨d, hdue, hkey⟩)
    refine (hpending.of_append fun instant' hmem => ?_).2 (List.count_pos_iff.mp hbefore)
    exact hset instant' (List.mem_append_left _ hmem)

theorem Separate.yields (h : Separate ord ops) {before after : List (HeapOp κ)} {now : Instant}
    (hops : ops = before ++ .poll now :: after)
    (hready : ((run ord created before).poll ord now).1 = .ready key) :
    Pending ord created before key := by
  obtain ⟨d, hdue, rfl⟩ := (ready_iff now).mp hready
  have hqueued := ord.mem _ _ (due_eq_some.mp hdue).1
  -- the last of the calls that set the key
  obtain ⟨earlier, instant, between, rfl, hlast⟩ := exists_last_set hqueued
  have hpolled (rest : List (HeapOp κ)) (hrest : ∀ instant', .setTimeout d.key instant' ∉ rest)
      (instant' : Instant) : .setTimeout d.key instant' ∉ rest ++ [.poll now] := by
    simpa using hrest instant'
  refine ⟨earlier, instant, between, by simp, fun hcancel => ?_, fun hyielded => ?_⟩
  · obtain ⟨done, rest, rfl⟩ := List.append_of_mem hcancel
    have hsplit : earlier ++ [.setTimeout d.key instant] ++ (done ++ .cancelTimeout d.key :: rest) =
        earlier ++ [.setTimeout d.key instant] ++ done ++ [.cancelTimeout d.key] ++ rest := by
      simp
    have hrest (instant' : Instant) : .setTimeout d.key instant' ∉ rest := fun hmem =>
      hlast instant' (List.mem_append_right _ (List.mem_cons_of_mem _ hmem))
    rw [hsplit] at hqueued hdue hops
    rw [List.append_assoc _ [HeapOp.cancelTimeout d.key], ← foldl_queued] at hqueued
    have hstill := mem_of_mem_foldl hqueued (by simpa using hrest)
    have hnone := h.cancelled _ d.key (rest ++ [.poll now]) after (by simp [hops]) ⟨d, hstill, rfl⟩
      (hpolled rest hrest)
    rw [taken_concat, foldl_queued, takes, hdue] at hnone
    simp at hnone
  · rw [keys_answers] at hyielded
    have htwo : 2 ≤ (taken ord (queued ord (earlier ++ [.setTimeout d.key instant]))
        (between ++ [.poll now])).count d.key := by
      rw [taken_concat, foldl_queued, takes, hdue, List.count_append]
      simpa using List.count_pos_iff.mpr hyielded
    -- one of the two entries was queued before the last call
    have hle := htwo.trans (count_taken_le (hpolled between hlast))
    rw [queued_concat, enqueue, List.countP_cons_of_pos (by simp)] at hle
    obtain ⟨d', hd', hkey'⟩ := List.countP_pos_iff.mp (Nat.le_of_succ_le_succ hle)
    have hone := h.again earlier d.key instant (between ++ [.poll now]) after (by simp [hops])
      ⟨d', hd', of_decide_eq_true hkey'⟩ (hpolled between hlast)
    exact absurd (htwo.trans hone) (by decide)

theorem Separate.honours (h : Separate ord ops) : Honours ord created ops :=
  ⟨fun _ _ _ _ hops hready => h.yields hops hready, fun _ _ _ _ => mem_keySet_run⟩

/-- A cancelled timeout fires if and only if an entry of a key that is still queued when the
key is cancelled or set once more is taken as well. -/
theorem run_honours_iff (ord : DeadlineOrder κ) (created : Instant) (ops : List (HeapOp κ)) :
    Honours ord created ops ↔ Separate ord ops :=
  ⟨Honours.separate, Separate.honours⟩

/-- Where no call is on a key that is still queued, timeouts are honoured. -/
theorem honours_of_not_queued
    (hcancel : ∀ before key after, ops = before ++ [.cancelTimeout key] ++ after →
      ∀ d ∈ queued ord before, d.key ≠ key)
    (hset : ∀ before key instant after, ops = before ++ [.setTimeout key instant] ++ after →
      ∀ d ∈ queued ord before, d.key ≠ key) : Honours ord created ops := by
  apply Separate.honours
  constructor
  · rintro before key between after hops ⟨d, hd, hkey⟩
    exact absurd hkey (hcancel before key (between ++ after) (by simp [hops]) d hd)
  · rintro before key instant between after hops ⟨d, hd, hkey⟩
    exact absurd hkey (hset before key instant (between ++ after) (by simp [hops]) d hd)

end Run

/-- A timeout that is cancelled before its deadline, and a poll after it. -/
theorem not_honours_cancelled : ¬ Honours (.oldest Deadline.instant) 0
    [.setTimeout 0 10, .cancelTimeout 0, .poll 11] := by
  intro h
  have hpending := h.yields [.setTimeout 0 10, .cancelTimeout 0] 11 [] 0 rfl (by decide)
  rw [← mem_keySet_run] at hpending
  revert hpending
  decide

end Mozaic.Network.TimeoutHeap
