import Mozaic.Rust.Panic

/-! `Vec::swap_remove`, and the order in which a loop that swap-removes some
elements and steps past the others comes across all of them. -/
namespace Mozaic.Rust

variable {κ α : Type}

/-- Take out element `i`; the last element moves into its place. -/
def swapRemove (xs : List α) (i : Nat) : Except (Panic κ) (α × List α) :=
  match xs[i]?, xs.getLast? with
  | some x, some y => .ok (x, (xs.set i y).dropLast)
  | _, _ => .error .indexOutOfBounds

/-- The elements after a removed one, with the last of them moved to the front. -/
def refill (rest : List α) : List α :=
  match rest.getLast? with
  | some y => y :: rest.dropLast
  | none => []

@[simp] theorem refill_nil : refill ([] : List α) = [] := rfl

@[simp] theorem refill_concat (rest : List α) (y : α) : refill (rest ++ [y]) = y :: rest := by
  simp [refill]

theorem refill_perm (rest : List α) : (refill rest).Perm rest := by
  induction rest using List.reverseRecOn with
  | nil => exact .nil
  | append_singleton rest y _ =>
    rw [refill_concat]
    exact (List.perm_append_singleton y rest).symm

@[simp] theorem length_refill (rest : List α) : (refill rest).length = rest.length :=
  (refill_perm rest).length_eq

theorem swapRemove_append (done : List α) (x : α) (rest : List α) :
    swapRemove (κ := κ) (done ++ x :: rest) done.length = .ok (x, done ++ refill rest) := by
  induction rest using List.reverseRecOn with
  | nil => simp [swapRemove]
  | append_singleton rest y _ =>
    have hcons : done ++ x :: (rest ++ [y]) = (done ++ x :: rest) ++ [y] := by simp
    have hget : (done ++ x :: (rest ++ [y]))[done.length]? = some x := by simp
    have hlast : (done ++ x :: (rest ++ [y])).getLast? = some y := by
      rw [hcons, List.getLast?_concat]
    have hset : (done ++ x :: (rest ++ [y])).set done.length y = (done ++ y :: rest) ++ [y] := by
      simp
    simp only [swapRemove, hget, hlast, hset, refill_concat, List.dropLast_concat]

/-- The elements in the order the loop looks at them. -/
def sweepOrder (removes : α → Bool) : List α → List α
  | [] => []
  | x :: rest => x :: sweepOrder removes (if removes x then refill rest else rest)
termination_by xs => xs.length
decreasing_by split <;> simp

@[simp] theorem sweepOrder_nil (removes : α → Bool) : sweepOrder removes [] = [] := by
  rw [sweepOrder]

theorem sweepOrder_cons (removes : α → Bool) (x : α) (rest : List α) :
    sweepOrder removes (x :: rest) =
      x :: sweepOrder removes (if removes x then refill rest else rest) := by
  rw [sweepOrder]

/-- The loop looks at every element, and at each only once. -/
theorem sweepOrder_perm (removes : α → Bool) (xs : List α) : (sweepOrder removes xs).Perm xs := by
  induction xs using sweepOrder.induct removes with
  | case1 => simp
  | case2 x rest ih =>
    rw [sweepOrder_cons]
    refine .cons x (ih.trans ?_)
    split
    · exact refill_perm rest
    · exact .refl rest

theorem refill_map {β : Type} (f : α → β) (rest : List α) :
    refill (rest.map f) = (refill rest).map f := by
  induction rest using List.reverseRecOn with
  | nil => rfl
  | append_singleton rest y _ => simp

/-- What the elements look like does not matter to the loop. -/
theorem sweepOrder_map {β : Type} (f : α → β) (removes : β → Bool) (xs : List α) :
    sweepOrder removes (xs.map f) = (sweepOrder (fun x => removes (f x)) xs).map f := by
  induction xs using sweepOrder.induct (fun x => removes (f x)) with
  | case1 => simp
  | case2 x rest ih =>
    have hnext : (if removes (f x) then refill (rest.map f) else rest.map f) =
        (if removes (f x) then refill rest else rest).map f := by
      split
      · exact refill_map f rest
      · rfl
    rw [List.map_cons, sweepOrder_cons, sweepOrder_cons, List.map_cons, hnext]
    exact congrArg (f x :: ·) ih

end Mozaic.Rust
