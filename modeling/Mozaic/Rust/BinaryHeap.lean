import Mathlib

/-! Binary heaps. A heap is the list of its elements; which of several greatest elements
it hands out first is left open. -/
namespace Mozaic.Rust

variable {α : Type}

/-- One way of choosing the next element of a heap in which low ranks are great. -/
structure Peek (α : Type) (rank : α → Nat) where
  peek : List α → Option α
  mem : ∀ l a, peek l = some a → a ∈ l
  least : ∀ l a, peek l = some a → ∀ b ∈ l, rank a ≤ rank b
  empty : ∀ l, peek l = none → l = []

namespace Peek

/-- Of several greatest elements, choose the one that was pushed first. -/
def oldest (rank : α → Nat) : Peek α rank where
  peek l := l.argmin rank
  mem _ _ h := List.argmin_mem h
  least _ _ h _ hb := List.le_of_mem_argmin hb h
  empty _ h := List.argmin_eq_none.mp h

variable {rank : α → Nat} (p : Peek α rank) [DecidableEq α]

/-- Take the next element out of the heap. -/
def pop (l : List α) : Option (α × List α) := (p.peek l).map fun a => (a, l.erase a)

omit [DecidableEq α] in
@[simp] theorem peek_nil : p.peek [] = none := by
  cases h : p.peek [] with
  | none => rfl
  | some a => cases p.mem [] a h

theorem pop_of_peek {l : List α} {a : α} (h : p.peek l = some a) : p.pop l = some (a, l.erase a) := by
  simp [pop, h]

end Peek
end Mozaic.Rust
