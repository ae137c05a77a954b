import Mozaic.Network.TimeoutHeap

/-! What polls yield, compared with the agenda: the deadlines that were set and whose keys
were not yielded yet. -/
namespace Mozaic.Network
open Rust

variable {κ : Type} [DecidableEq κ]

/-- An agenda, asked at the time `now`, names one of its earliest deadlines if that is over,
and strikes it off. -/
inductive Served (now : Instant) : List (Deadline κ) → Poll κ → List (Deadline κ) → Prop
  | due {agenda : List (Deadline κ)} {d : Deadline κ} (hd : d ∈ agenda) (hlt : d.instant < now)
      (hleast : ∀ d' ∈ agenda, d.instant ≤ d'.instant) :
      Served now agenda (.ready d.key) (agenda.erase d)
  | idle {agenda : List (Deadline κ)} (h : ∀ d ∈ agenda, now ≤ d.instant) :
      Served now agenda .notReady agenda

/-- The order in which an agenda is written down does not matter. -/
theorem Served.perm {now : Instant} {agenda agenda' rest : List (Deadline κ)} {answer : Poll κ}
    (h : Served now agenda answer rest) (hperm : agenda.Perm agenda') :
    ∃ rest', Served now agenda' answer rest' ∧ rest.Perm rest' := by
  cases h with
  | due hd hlt hleast =>
    refine ⟨_, .due (hperm.mem_iff.mp hd) hlt fun d' hd' => ?_, hperm.erase _⟩
    exact hleast d' (hperm.mem_iff.mpr hd')
  | idle h => exact ⟨_, .idle fun d hd => h d (hperm.mem_iff.mpr hd), hperm⟩

theorem Served.ready_iff {now : Instant} {agenda rest : List (Deadline κ)} {answer : Poll κ}
    (h : Served now agenda answer rest) :
    (∃ key, answer = .ready key) ↔ ∃ d ∈ agenda, d.instant < now := by
  cases h with
  | due hd hlt _ => exact iff_of_true ⟨_, rfl⟩ ⟨_, hd, hlt⟩
  | idle h =>
    apply iff_of_false
    · rintro ⟨key, hkey⟩
      cases hkey
    · rintro ⟨d, hd, hlt⟩
      exact Nat.not_le_of_lt hlt (h d hd)

theorem Served.least {now : Instant} {agenda rest : List (Deadline κ)} {answer : Poll κ}
    (h : Served now agenda answer rest) {key : κ} (hkey : answer = .ready key) :
    ∃ d ∈ agenda, d.key = key ∧ d.instant < now ∧ (∀ d' ∈ agenda, d.instant ≤ d'.instant) ∧
      rest = agenda.erase d := by
  cases h with
  | due hd hlt hleast =>
    cases hkey
    exact ⟨_, hd, rfl, hlt, hleast, rfl⟩
  | idle _ => cases hkey

/-- The key that a poll yields. -/
def Poll.key? : Poll κ → Option κ
  | .ready key => some key
  | .notReady => none

namespace TimeoutHeap

/-- A heap whose timer is in time does what its deadlines ask for. -/
theorem Timely.served {h : TimeoutHeap κ} (hh : Timely h) (ord : DeadlineOrder κ) (now : Instant) :
    Served now h.deadlines (h.poll ord now).1 (h.poll ord now).2.deadlines := by
  rcases h.poll_cases ord now with ⟨key, h', heq, hpop⟩ | ⟨h', heq, hidle⟩
  · obtain ⟨d, hd, rfl, hlt, hleast, hdeadlines⟩ := hpop.expired
    rw [heq, hdeadlines]
    exact .due hd hlt hleast
  · have hnone := hh.idle hidle
    rw [heq, hidle.same]
    rw [hidle.same] at hnone
    exact .idle hnone

/-! ## Histories -/

/-- What the polls among these operations answer. -/
def answers (ord : DeadlineOrder κ) : TimeoutHeap κ → List (HeapOp κ) → List (Poll κ)
  | _, [] => []
  | h, .poll now :: ops => (h.poll ord now).1 :: answers ord (h.poll ord now).2 ops
  | h, op :: ops => answers ord (apply ord h op) ops

/-- The keys that a new heap yields. -/
def yielded (ord : DeadlineOrder κ) (created : Instant) (ops : List (HeapOp κ)) : List κ :=
  (answers ord (new created) ops).filterMap Poll.key?

def deadline? : HeapOp κ → Option (Deadline κ)
  | .setTimeout key instant => some ⟨key, instant⟩
  | .cancelTimeout _ => none
  | .poll _ => none

/-- The deadlines that these operations set. -/
def deadlinesSet (ops : List (HeapOp κ)) : List (Deadline κ) := ops.filterMap deadline?

def agenda (ord : DeadlineOrder κ) (created : Instant) (ops : List (HeapOp κ)) :
    List (Deadline κ) :=
  (deadlinesSet ops).filter (·.key ∉ yielded ord created ops)

/-- Polls at the time `now` follow the agenda. -/
structure Follows (ord : DeadlineOrder κ) (now : Instant) (h : TimeoutHeap κ)
    (agenda : List (Deadline κ)) : Prop where
  ready_iff : (∃ key, (h.poll ord now).1 = .ready key) ↔ ∃ d ∈ agenda, d.instant < now
  least : ∀ key, (h.poll ord now).1 = .ready key → ∃ d ∈ agenda, d.key = key ∧ d.instant < now ∧
    ∀ d' ∈ agenda, d.instant ≤ d'.instant
  drained : ∃ ds : List (Deadline κ), ds.Perm (agenda.filter (·.instant < now)) ∧
    ds.Pairwise (·.instant ≤ ·.instant) ∧
      answers ord h (List.replicate (ds.length + 1) (.poll now)) =
        ds.map (fun d => .ready d.key) ++ [.notReady]

theorem answers_append (ord : DeadlineOrder κ) (h : TimeoutHeap κ) (ops ops' : List (HeapOp κ)) :
    answers ord h (ops ++ ops') = answers ord h ops ++ answers ord (ops.foldl (apply ord) h) ops' := by
  induction ops generalizing h with
  | nil => rfl
  | cons op ops ih =>
    cases op with
    | poll now =>
      simp only [List.cons_append, answers, List.foldl_cons, apply]
      rw [ih]
    | setTimeout key instant => exact ih _
    | cancelTimeout key => exact ih _

/-- Polling until nothing is ready. -/
theorem Timely.drained {h : TimeoutHeap κ} (hh : Timely h) (ord : DeadlineOrder κ) (now : Instant) :
    ∃ ds : List (Deadline κ), ds.Perm (h.deadlines.filter (·.instant < now)) ∧
      ds.Pairwise (·.instant ≤ ·.instant) ∧
        answers ord h (List.replicate (ds.length + 1) (.poll now)) =
          ds.map (fun d => .ready d.key) ++ [.notReady] := by
  induction hn : h.deadlines.length using Nat.strong_induction_on generalizing h with
  | _ n ih =>
    rcases h.poll_cases ord now with ⟨key, h', heq, hpop⟩ | ⟨h', heq, hidle⟩
    · obtain ⟨ds, hperm, hsorted, hanswers⟩ := ih _ (hn ▸ hpop.length_lt) (hh.popped hpop) rfl
      obtain ⟨d, hd, rfl, hlt, hleast, hdeadlines⟩ := hpop.expired
      rw [hdeadlines] at hperm
      refine ⟨d :: ds, ?_, ?_, ?_⟩
      · have hcons := (List.perm_cons_erase hd).filter (·.instant < now)
        rw [List.filter_cons_of_pos (by simpa using hlt)] at hcons
        exact (hperm.cons d).trans hcons.symm
      · refine List.pairwise_cons.mpr ⟨fun d' hd' => hleast d' ?_, hsorted⟩
        exact List.mem_of_mem_erase (List.mem_of_mem_filter (hperm.mem_iff.mp hd'))
      · rw [List.length_cons, List.replicate_succ, answers, heq, hanswers]
        rfl
    · have hnone := hh.idle hidle
      rw [hidle.same] at hnone
      refine ⟨[], ?_, .nil, ?_⟩
      · rw [List.filter_eq_nil_iff.mpr]
        intro d hd
        simpa using hnone d hd
      · simp [answers, heq]

theorem Timely.follows {h : TimeoutHeap κ} (hh : Timely h) (ord : DeadlineOrder κ) (now : Instant)
    {agenda : List (Deadline κ)} (hperm : h.deadlines.Perm agenda) : Follows ord now h agenda := by
  obtain ⟨rest, hserved, -⟩ := (hh.served ord now).perm hperm
  refine ⟨hserved.ready_iff, fun key hkey => ?_, ?_⟩
  · obtain ⟨d, hd, heq, hlt, hleast, -⟩ := hserved.least hkey
    exact ⟨d, hd, heq, hlt, hleast⟩
  · obtain ⟨ds, hds, hsorted, hanswers⟩ := hh.drained ord now
    exact ⟨ds, hds.trans (hperm.filter _), hsorted, hanswers⟩

/-! ## Runs -/

section Run
variable (ord : DeadlineOrder κ) (created : Instant) (ops : List (HeapOp κ))

theorem yielded_concat (op : HeapOp κ) : yielded ord created (ops ++ [op]) =
    yielded ord created ops ++
      (answers ord (run ord created ops) [op]).filterMap Poll.key? := by
  rw [yielded, answers_append, List.filterMap_append]
  rfl

omit [DecidableEq κ] in
theorem deadlinesSet_concat (op : HeapOp κ) :
    deadlinesSet (ops ++ [op]) = deadlinesSet ops ++ (deadline? op).toList := by
  rw [deadlinesSet, List.filterMap_append]
  cases hd : deadline? op <;> simp [deadlinesSet, hd]

/-- What is known of a heap after these operations. -/
structure Kept : Prop where
  deadlines : (run ord created ops).deadlines.Perm (agenda ord created ops)
  yieldedOnce : (yielded ord created ops).Nodup
  yieldedSet : ∀ key ∈ yielded ord created ops, key ∈ (deadlinesSet ops).map (·.key)

variable {ord created ops}

theorem erase_eq_filter_key {l : List (Deadline κ)} (hl : (l.map (·.key)).Nodup)
    {d : Deadline κ} (hd : d ∈ l) : l.erase d = l.filter (·.key ≠ d.key) := by
  rw [(List.Nodup.of_map _ hl).erase_eq_filter]
  apply List.filter_congr
  intro d' hd'
  have hiff : d'.key = d.key ↔ d' = d :=
    ⟨List.inj_on_of_nodup_map hl hd' hd, congrArg Deadline.key⟩
  rw [Bool.eq_iff_iff]
  simp [hiff]

theorem Kept.setTimeout (h : Kept ord created ops) {key : κ} {instant : Instant}
    (hfresh : key ∉ (deadlinesSet ops).map (·.key)) :
    Kept ord created (ops ++ [.setTimeout key instant]) := by
  have hyielded : yielded ord created (ops ++ [.setTimeout key instant]) =
      yielded ord created ops := by
    rw [yielded_concat]
    exact List.append_nil _
  have hset : deadlinesSet (ops ++ [.setTimeout key instant]) =
      deadlinesSet ops ++ [⟨key, instant⟩] := deadlinesSet_concat ops _
  have hpending : key ∉ yielded ord created ops := fun hmem => hfresh (h.yieldedSet key hmem)
  refine ⟨?_, hyielded ▸ h.yieldedOnce, fun key' hkey' => ?_⟩
  · rw [agenda, hyielded, hset, List.filter_append, List.filter_cons_of_pos (by simpa using hpending),
      run_concat]
    exact (h.deadlines.cons _).trans (List.perm_append_singleton _ _).symm
  · rw [hset, List.map_append]
    exact List.mem_append_left _ (h.yieldedSet key' (hyielded ▸ hkey'))

/-- Where nothing is set and nothing is yielded, the deadlines stay as well. -/
theorem Kept.unchanged (h : Kept ord created ops) {op : HeapOp κ} (hop : deadline? op = none)
    (hanswers : (answers ord (run ord created ops) [op]).filterMap Poll.key? = [])
    (hdeadlines : (apply ord (run ord created ops) op).deadlines = (run ord created ops).deadlines) :
    Kept ord created (ops ++ [op]) := by
  have hyielded : yielded ord created (ops ++ [op]) = yielded ord created ops := by
    rw [yielded_concat, hanswers, List.append_nil]
  have hset : deadlinesSet (ops ++ [op]) = deadlinesSet ops := by
    rw [deadlinesSet_concat, hop]
    exact List.append_nil _
  refine ⟨?_, hyielded ▸ h.yieldedOnce, ?_⟩
  · rw [agenda, hyielded, hset, run_concat, hdeadlines]
    exact h.deadlines
  · rw [hyielded, hset]
    exact h.yieldedSet

/-- What is yielded is struck off the agenda. -/
theorem Kept.struck (h : Kept ord created ops) (hkeys : ((deadlinesSet ops).map (·.key)).Nodup)
    {op : HeapOp κ} (hop : deadline? op = none) {d : Deadline κ}
    (hd : d ∈ (run ord created ops).deadlines)
    (hanswers : (answers ord (run ord created ops) [op]).filterMap Poll.key? = [d.key])
    (hdeadlines : (apply ord (run ord created ops) op).deadlines =
      (run ord created ops).deadlines.erase d) : Kept ord created (ops ++ [op]) := by
  have hyielded : yielded ord created (ops ++ [op]) = yielded ord created ops ++ [d.key] := by
    rw [yielded_concat, hanswers]
  have hset : deadlinesSet (ops ++ [op]) = deadlinesSet ops := by
    rw [deadlinesSet_concat, hop]
    exact List.append_nil _
  have hagenda := h.deadlines.mem_iff.mp hd
  obtain ⟨hmem, hpending⟩ := List.mem_filter.mp hagenda
  rw [decide_eq_true_eq] at hpending
  refine ⟨?_, ?_, ?_⟩
  · have hnodup : ((agenda ord created ops).map (·.key)).Nodup :=
      hkeys.sublist (List.filter_sublist.map _)
    have hrest : agenda ord created (ops ++ [op]) = (agenda ord created ops).erase d := by
      rw [erase_eq_filter_key hnodup hagenda, agenda, agenda, hyielded, hset, List.filter_filter]
      apply List.filter_congr
      intro d' _
      simp [and_comm]
    rw [run_concat, hdeadlines, hrest]
    exact h.deadlines.erase d
  · rw [hyielded]
    apply List.nodup_append.mpr
    refine ⟨h.yieldedOnce, List.nodup_singleton _, ?_⟩
    rintro key hkey _ hlast rfl
    exact hpending (List.mem_singleton.mp hlast ▸ hkey)
  · rw [hyielded, hset]
    intro key hkey
    rcases List.mem_append.mp hkey with hkey | hkey
    · exact h.yieldedSet key hkey
    · exact List.mem_singleton.mp hkey ▸ List.mem_map_of_mem hmem

theorem Kept.poll (h : Kept ord created ops) (hkeys : ((deadlinesSet ops).map (·.key)).Nodup)
    (now : Instant) : Kept ord created (ops ++ [.poll now]) := by
  have hanswers : answers ord (run ord created ops) [.poll now] =
      [((run ord created ops).poll ord now).1] := rfl
  have hserved := (timely_run ord created ops).served ord now
  generalize hanswer : ((run ord created ops).poll ord now).1 = answer at hserved
  generalize hrest : ((run ord created ops).poll ord now).2.deadlines = rest at hserved
  cases hserved with
  | idle _ => exact h.unchanged rfl (by rw [hanswers, hanswer]; rfl) hrest
  | due hd _ _ => exact h.struck hkeys rfl hd (by rw [hanswers, hanswer]; rfl) hrest

theorem kept_run (hkeys : ((deadlinesSet ops).map (·.key)).Nodup) : Kept ord created ops := by
  induction ops using List.reverseRecOn with
  | nil => exact ⟨.nil, .nil, by simp [yielded, answers]⟩
  | append_singleton ops op ih =>
    rw [deadlinesSet_concat, List.map_append, List.nodup_append] at hkeys
    obtain ⟨hbefore, -, hfresh⟩ := hkeys
    have hkept := ih hbefore
    cases op with
    | setTimeout key instant =>
      exact hkept.setTimeout fun hmem => hfresh key hmem key (by simp [deadline?]) rfl
    | cancelTimeout key => exact hkept.unchanged rfl rfl rfl
    | poll now => exact hkept.poll hbefore now

/-- Whatever is set, a heap yields each key at most once, and at every time what its agenda
says. -/
theorem run_follows (hkeys : ((deadlinesSet ops).map (·.key)).Nodup) :
    (yielded ord created ops).Nodup ∧ ∀ before after, ops = before ++ after → ∀ now,
      Follows ord now (run ord created before) (agenda ord created before) := by
  refine ⟨(kept_run hkeys).yieldedOnce, ?_⟩
  rintro before after rfl now
  rw [deadlinesSet, List.filterMap_append, List.map_append, List.nodup_append] at hkeys
  exact (timely_run ord created before).follows ord now (kept_run hkeys.1).deadlines

end Run

/-- Deadlines that are not set in their order, one of them already in the past. -/
def threeTimeouts : List (HeapOp Nat) :=
  [.setTimeout 0 10, .setTimeout 1 5, .poll 7, .setTimeout 2 3, .poll 11]

theorem run_follows_three :
    (yielded (.oldest Deadline.instant) 0 threeTimeouts).Nodup ∧
      Follows (.oldest Deadline.instant) 11
        (run (.oldest Deadline.instant) 0 [.setTimeout 0 10, .setTimeout 1 5, .poll 7])
        (agenda (.oldest Deadline.instant) 0 [.setTimeout 0 10, .setTimeout 1 5, .poll 7]) := by
  have hkeys : ((deadlinesSet threeTimeouts).map (·.key)).Nodup := by decide
  obtain ⟨honce, hfollows⟩ := run_follows hkeys
  exact ⟨honce, hfollows _ [.setTimeout 2 3, .poll 11] rfl 11⟩

end TimeoutHeap
end Mozaic.Network
