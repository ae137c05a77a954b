import Mathlib

/-! Hash maps. A map is its set of entries; the order in which it hands them out
is a parameter of every operation that iterates. -/
namespace Mozaic.Rust

variable {κ ν : Type} [DecidableEq κ]

abbrev HashMap (κ ν : Type) := Finmap fun _ : κ => ν

/-- One way of running through the keys of hash maps: any order, each key once. -/
structure IterOrder (κ : Type) where
  order : Finset κ → List κ
  nodup : ∀ s, (order s).Nodup
  mem_order : ∀ s a, a ∈ order s ↔ a ∈ s

/-- Keys that are numbered, from the smallest on. -/
def IterOrder.ascending {κ : Type} [DecidableEq κ] (num : κ → Nat) (key : Nat → κ)
    (hnum : ∀ a, key (num a) = a) (hkey : Function.Injective key) : IterOrder κ where
  order s := ((List.range (s.sup num + 1)).map key).filter (· ∈ s)
  nodup s := (List.nodup_range.map hkey).filter _
  mem_order s a := by
    simp only [List.mem_filter, List.mem_map, List.mem_range, decide_eq_true_eq,
      and_iff_right_iff_imp]
    exact fun ha => ⟨num a, Nat.lt_succ_of_le (Finset.le_sup ha), hnum a⟩

/-- Keys in their order. -/
def IterOrder.sorted {κ : Type} [LinearOrder κ] : IterOrder κ where
  order s := s.sort (· ≤ ·)
  nodup s := s.sort_nodup (· ≤ ·)
  mem_order s _ := s.mem_sort (· ≤ ·)

/-- The same keys the other way round. -/
def IterOrder.backwards {κ : Type} (ord : IterOrder κ) : IterOrder κ where
  order s := (ord.order s).reverse
  nodup s := List.nodup_reverse.mpr (ord.nodup s)
  mem_order s a := List.mem_reverse.trans (ord.mem_order s a)

namespace HashMap

/-- The entries of `m` in the order `ord` visits them. -/
def entriesIn (ord : IterOrder κ) (m : HashMap κ ν) : List (κ × ν) :=
  (ord.order m.keys).filterMap fun k => (m.lookup k).map (k, ·)

/-- `collect`: of two entries with one key the later one stays. -/
def collect (l : List (κ × ν)) : HashMap κ ν :=
  l.foldl (fun m e => m.insert e.1 e.2) ∅

theorem mem_keys_iff {m : HashMap κ ν} {k : κ} : k ∈ m.keys ↔ ∃ v, m.lookup k = some v := by
  rw [Finmap.mem_keys, Finmap.mem_iff]

theorem mem_entriesIn {ord : IterOrder κ} {m : HashMap κ ν} {e : κ × ν} :
    e ∈ entriesIn ord m ↔ m.lookup e.1 = some e.2 := by
  obtain ⟨k, v⟩ := e
  simp only [entriesIn, List.mem_filterMap, Option.map_eq_some_iff, Prod.mk.injEq]
  constructor
  · intro h
    obtain ⟨k', _, v', hv, rfl, rfl⟩ := h
    exact hv
  · intro hv
    exact ⟨k, (ord.mem_order _ k).mpr (mem_keys_iff.mpr ⟨v, hv⟩), v, hv, rfl, rfl⟩

@[simp] theorem entriesIn_empty (ord : IterOrder κ) : entriesIn ord (∅ : HashMap κ ν) = [] := by
  rw [List.eq_nil_iff_forall_not_mem]
  intro e he
  simp [mem_entriesIn] at he

theorem map_fst_entriesIn (ord : IterOrder κ) (m : HashMap κ ν) :
    (entriesIn ord m).map Prod.fst = ord.order m.keys := by
  have go (l : List κ) (hl : ∀ k ∈ l, k ∈ m.keys) :
      (l.filterMap fun k => (m.lookup k).map (k, ·)).map Prod.fst = l := by
    induction l with
    | nil => rfl
    | cons k l ih =>
      obtain ⟨v, hv⟩ := mem_keys_iff.mp (hl k List.mem_cons_self)
      simp [hv, ih fun k' hk' => hl k' (List.mem_cons_of_mem k hk')]
  exact go _ fun k hk => (ord.mem_order _ k).mp hk

theorem nodup_fst_entriesIn (ord : IterOrder κ) (m : HashMap κ ν) :
    ((entriesIn ord m).map Prod.fst).Nodup := by
  rw [map_fst_entriesIn]
  exact ord.nodup _

theorem nodup_entriesIn (ord : IterOrder κ) (m : HashMap κ ν) : (entriesIn ord m).Nodup :=
  (nodup_fst_entriesIn ord m).of_map

omit [DecidableEq κ] in
theorem mem_order_keys {ord : IterOrder κ} {m : HashMap κ ν} {k : κ} :
    k ∈ ord.order m.keys ↔ k ∈ m := by
  rw [ord.mem_order, Finmap.mem_keys]

/-- Two passes over one map visit the same entries. -/
theorem entriesIn_perm (ord ord' : IterOrder κ) (m : HashMap κ ν) :
    (entriesIn ord m).Perm (entriesIn ord' m) := by
  rw [List.perm_ext_iff_of_nodup (nodup_entriesIn ord m) (nodup_entriesIn ord' m)]
  intro e
  rw [mem_entriesIn, mem_entriesIn]

theorem length_entriesIn (ord : IterOrder κ) (m : HashMap κ ν) :
    (entriesIn ord m).length = m.keys.card := by
  rw [← List.length_map (f := Prod.fst), map_fst_entriesIn,
    ← List.toFinset_card_of_nodup (ord.nodup _)]
  congr 1
  ext k
  rw [List.mem_toFinset, ord.mem_order]

@[simp] theorem collect_nil : collect ([] : List (κ × ν)) = ∅ := rfl

@[simp] theorem collect_concat (l : List (κ × ν)) (e : κ × ν) :
    collect (l ++ [e]) = (collect l).insert e.1 e.2 := by
  simp [collect]

theorem lookup_insert_eq (m : HashMap κ ν) (k k' : κ) (v : ν) :
    (m.insert k v).lookup k' = if k' = k then some v else m.lookup k' := by
  split
  · subst k'
    exact Finmap.lookup_insert m
  · exact Finmap.lookup_insert_of_ne m ‹_›

theorem lookup_erase_eq (m : HashMap κ ν) (k k' : κ) :
    (m.erase k).lookup k' = if k' = k then none else m.lookup k' := by
  split
  · subst k'
    exact Finmap.lookup_erase _ m
  · exact Finmap.lookup_erase_ne ‹_›

/-- What a collected map holds was among the entries it was collected from. -/
theorem mem_of_lookup_collect {l : List (κ × ν)} {k : κ} {v : ν}
    (h : (collect l).lookup k = some v) : (k, v) ∈ l := by
  induction l using List.reverseRecOn with
  | nil => simp at h
  | append_singleton l e ih =>
    rw [collect_concat, lookup_insert_eq] at h
    split at h
    · obtain ⟨k', v'⟩ := e
      simp_all
    · exact List.mem_append_left _ (ih h)

/-- With distinct keys a collected map holds exactly the given entries. -/
theorem lookup_collect_of_nodup {l : List (κ × ν)} (hl : (l.map Prod.fst).Nodup) {k : κ} {v : ν} :
    (collect l).lookup k = some v ↔ (k, v) ∈ l := by
  refine ⟨mem_of_lookup_collect, fun h => ?_⟩
  induction l using List.reverseRecOn with
  | nil => simp at h
  | append_singleton l e ih =>
    obtain ⟨k', v'⟩ := e
    simp only [List.map_append, List.map_cons, List.map_nil, List.nodup_append] at hl
    rw [collect_concat, lookup_insert_eq]
    rcases List.mem_append.mp h with h | h
    · have hne : k ≠ k' := hl.2.2 k (List.mem_map_of_mem h) k' (by simp)
      rw [if_neg hne]
      exact ih hl.1 h
    · simp_all

/-- Nothing else comes out of it, and everything once. -/
theorem entriesIn_collect_perm (ord : IterOrder κ) {l : List (κ × ν)}
    (hl : (l.map Prod.fst).Nodup) : (entriesIn ord (collect l)).Perm l := by
  rw [List.perm_ext_iff_of_nodup (nodup_entriesIn ord _) hl.of_map]
  intro e
  rw [mem_entriesIn, lookup_collect_of_nodup hl]

end HashMap
end Mozaic.Rust
