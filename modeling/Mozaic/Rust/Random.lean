import Mozaic.Rust.Panic

/-! Random draws. What is drawn comes from outside; here is what can be drawn. -/
namespace Mozaic.Rust
open Outcome

variable {κ α T : Type}

/-- `gen_range` of a generator that draws `drawn`: there has to be something to draw. -/
def genRange [LT T] [DecidableLT T] (low high drawn : T) : Except (Panic κ) T :=
  if low < high then .ok drawn else .error (.expect "Rng.gen_range called with low >= high")

/-- What `gen_range` can draw. -/
def InRange [LT T] [LE T] (low high drawn : T) : Prop := low < high → low ≤ drawn ∧ drawn < high

theorem genRange_safe [LT T] [DecidableLT T] (low high drawn : T) :
    Safe (fun _ : Panic κ => ¬ low < high) (fun t => low < high ∧ t = drawn)
      (genRange low high drawn) := by
  rw [genRange]
  split
  · exact ⟨‹_›, rfl⟩
  · exact ‹_›

/-- What `sample` can return: elements of the space, none of them twice, and as many as were
asked for if there are so many. -/
structure IsSample (space : List α) (amount : Nat) (l : List α) : Prop where
  nodup : l.Nodup
  subset : l ⊆ space
  length_eq : l.length = min amount space.length

theorem IsSample.length_of_le {space l : List α} {amount : Nat} (h : IsSample space amount l)
    (hle : amount ≤ space.length) : l.length = amount := by
  rw [h.length_eq, Nat.min_eq_left hle]

/-- A sample that is as long as a list it is taken from is all of it. -/
theorem IsSample.perm_of_subset {space l all : List α} {amount : Nat} (h : IsSample space amount l)
    (hsub : l ⊆ all) (hle : all.length ≤ l.length) : l.Perm all :=
  (h.nodup.subperm hsub).perm_of_length_le hle

end Mozaic.Rust
