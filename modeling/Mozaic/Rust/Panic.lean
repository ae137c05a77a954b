import Mozaic.Rust.Outcome

/-! Operations of the language that panic: arithmetic with overflow checks on a
64-bit target, indexing and unwrapping. -/
namespace Mozaic.Rust
open Outcome

/-- Why a thread panicked. An overflowing addition names the counter it was for. -/
inductive Panic (κ : Type) where
  | addOverflow (counter : κ)
  | subOverflow
  | indexOutOfBounds
  | unwrapNone
  | divideByZero
  | expect (msg : String)
deriving DecidableEq, Repr

variable {κ α : Type} {A : Panic κ → Prop} {P : Nat → Prop}

def checkedAdd (counter : κ) (a b : Nat) : Except (Panic κ) Nat :=
  if a + b < 2 ^ 64 then .ok (a + b) else .error (.addOverflow counter)

def checkedSub (a b : Nat) : Except (Panic κ) Nat :=
  if b ≤ a then .ok (a - b) else .error .subOverflow

def checkedRem (a b : Nat) : Except (Panic κ) Nat :=
  if b = 0 then .error .divideByZero else .ok (a % b)

def index (l : List α) (i : Nat) : Except (Panic κ) α :=
  match l[i]? with
  | some a => .ok a
  | none => .error .indexOutOfBounds

def unwrap : Option α → Except (Panic κ) α
  | some a => .ok a
  | none => .error .unwrapNone

def expect (msg : String) : Option α → Except (Panic κ) α
  | some a => .ok a
  | none => .error (.expect msg)

/-- Replace element `i` by what `f` makes of it. -/
def modifyAt (l : List α) (i : Nat) (f : α → Except (Panic κ) α) : Except (Panic κ) (List α) := do
  let a ← index l i
  let b ← f a
  pure (l.set i b)

theorem checkedAdd_safe {counter : κ} {a b : Nat} (hA : 2 ^ 64 ≤ a + b → A (.addOverflow counter))
    (hP : a + b < 2 ^ 64 → P (a + b)) : Safe A P (checkedAdd counter a b) := by
  rw [checkedAdd]
  split
  · exact hP ‹_›
  · exact hA (by omega)

@[simp] theorem checkedAdd_eq_ok {counter : κ} {a b c : Nat} :
    checkedAdd counter a b = .ok c ↔ a + b < 2 ^ 64 ∧ c = a + b := by
  rw [checkedAdd]
  split
  · rename_i h
    constructor
    · intro h
      cases h
      exact ⟨h, rfl⟩
    · intro h
      obtain ⟨_, rfl⟩ := h
      rfl
  · rename_i h
    constructor
    · intro h
      cases h
    · exact fun h' => absurd h'.1 h

theorem checkedSub_of_le {a b : Nat} (h : b ≤ a) : checkedSub (κ := κ) a b = .ok (a - b) :=
  if_pos h

theorem checkedRem_of_pos {a b : Nat} (h : 0 < b) : checkedRem (κ := κ) a b = .ok (a % b) :=
  if_neg (by omega)

theorem index_of_getElem? {l : List α} {i : Nat} {a : α} (h : l[i]? = some a) :
    index (κ := κ) l i = .ok a := by
  simp [index, h]

@[simp] theorem index_eq_ok {l : List α} {i : Nat} {a : α} :
    index (κ := κ) l i = .ok a ↔ l[i]? = some a := by
  rw [index]
  cases l[i]? <;> simp

theorem modifyAt_of_getElem? {l : List α} {i : Nat} {a : α} (h : l[i]? = some a)
    (f : α → Except (Panic κ) α) : modifyAt l i f = (l.set i ·) <$> f a := by
  rw [modifyAt, index_of_getElem? h, ok_bind]
  cases f a <;> rfl

theorem modifyAt_of_none {l : List α} {i : Nat} (h : l[i]? = none) (f : α → Except (Panic κ) α) :
    modifyAt l i f = .error .indexOutOfBounds := by
  simp [modifyAt, index, h]

/-- Two updates may be made in either order if this is so where they meet. -/
theorem modifyAt_comm (l : List α) {i j : Nat} {f g : α → Except (Panic κ) α}
    (h : i = j → ∀ a, Agree Eq (f a >>= g) (g a >>= f)) :
    Agree Eq (modifyAt l i f >>= (modifyAt · j g)) (modifyAt l j g >>= (modifyAt · i f)) := by
  by_cases hij : i = j
  · subst j
    cases ha : l[i]? with
    | none => simp [modifyAt_of_none ha]
    | some a =>
      have hi := (List.getElem?_eq_some_iff.mp ha).1
      have hboth (f g : α → Except (Panic κ) α) :
          (modifyAt l i f >>= (modifyAt · i g)) = (l.set i ·) <$> (f a >>= g) := by
        rw [modifyAt_of_getElem? ha]
        cases f a with
        | error e => rfl
        | ok b =>
          have hb : (l.set i b)[i]? = some b := by simp [hi]
          simp [modifyAt_of_getElem? hb]
      rw [hboth, hboth]
      exact (h rfl a).map fun _ _ hab => hab ▸ rfl
  · have hset (a : α) : (l.set i a)[j]? = l[j]? := List.getElem?_set_ne hij
    have hset' (b : α) : (l.set j b)[i]? = l[i]? := List.getElem?_set_ne (Ne.symm hij)
    cases hi : l[i]? with
    | none =>
      rw [modifyAt_of_none hi, error_bind]
      cases hj : l[j]? with
      | none => simp [modifyAt_of_none hj]
      | some b =>
        rw [modifyAt_of_getElem? hj]
        cases g b with
        | error e => trivial
        | ok b' => simp [modifyAt_of_none ((hset' b').trans hi)]
    | some a =>
      rw [modifyAt_of_getElem? hi]
      cases hj : l[j]? with
      | none =>
        rw [modifyAt_of_none hj, error_bind]
        cases f a with
        | error e => trivial
        | ok a' => simp [modifyAt_of_none ((hset a').trans hj)]
      | some b =>
        rw [modifyAt_of_getElem? hj]
        cases hf : f a <;> cases hg : g b <;>
          simp [modifyAt_of_getElem? ((hset _).trans hj), modifyAt_of_getElem? ((hset' _).trans hi),
            hf, hg, List.set_comm _ _ hij]

@[simp] theorem unwrap_some (a : α) : unwrap (κ := κ) (some a) = .ok a := rfl
@[simp] theorem unwrap_none : unwrap (κ := κ) (none : Option α) = .error .unwrapNone := rfl

@[simp] theorem unwrap_eq_ok {o : Option α} {a : α} : unwrap (κ := κ) o = .ok a ↔ o = some a := by
  cases o <;> simp

end Mozaic.Rust
