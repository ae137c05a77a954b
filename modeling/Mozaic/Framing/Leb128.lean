import Mathlib

/-! Variable-length numbers: groups of seven bits from the lowest on, one to a byte. The
high bit of a byte says that another one follows. -/
namespace Mozaic.Framing

/-- The high bit is set, so the number goes on. -/
def Continues (b : UInt8) : Prop := 128 ≤ b.toNat

instance : DecidablePred Continues := fun b => inferInstanceAs (Decidable (128 ≤ b.toNat))

/-- `n` in at most `k + 1` bytes. -/
def leb128 : Nat → Nat → List UInt8
  | 0, n => [UInt8.ofNat n]
  | k + 1, n => if n < 128 then [UInt8.ofNat n] else UInt8.ofNat (n % 128 + 128) :: leb128 k (n / 128)

/-- Reads a number of at most `k` bytes, and says how many it had. -/
def readLeb128 : Nat → List UInt8 → Option (Nat × Nat)
  | 0, _ => none
  | _, [] => none
  | k + 1, b :: bytes =>
    if b.toNat < 128 then some (b.toNat, 1)
    else (readLeb128 k bytes).map fun r => (b.toNat % 128 + 128 * r.1, r.2 + 1)

/-- The number in the seven low bits of each byte. -/
def lowBits : List UInt8 → Nat
  | [] => 0
  | b :: bytes => b.toNat % 128 + 128 * lowBits bytes

variable {k n m : Nat} {bytes rest : List UInt8}

theorem toNat_ofNat_byte (h : n < 256) : (UInt8.ofNat n).toNat = n := by
  rw [UInt8.toNat_ofNat']
  exact Nat.mod_eq_of_lt h

theorem div_lt_pow (h : n < 128 ^ (k + 1 + 1)) : n / 128 < 128 ^ (k + 1) := by
  rw [pow_succ] at h
  exact Nat.div_lt_of_lt_mul (by omega)

/-- Only the last byte has its high bit clear. -/
theorem exists_leb128_eq (k n : Nat) (h : n < 128 ^ (k + 1)) :
    ∃ init last, leb128 k n = init ++ [last] ∧ (∀ b ∈ init, Continues b) ∧ ¬ Continues last := by
  induction k generalizing n with
  | zero =>
    refine ⟨[], UInt8.ofNat n, rfl, by simp, ?_⟩
    rw [Continues, toNat_ofNat_byte (by omega)]
    omega
  | succ k ih =>
    rw [leb128]
    by_cases hn : n < 128
    · rw [if_pos hn]
      refine ⟨[], UInt8.ofNat n, rfl, by simp, ?_⟩
      rw [Continues, toNat_ofNat_byte (by omega)]
      omega
    · rw [if_neg hn]
      obtain ⟨init, last, heq, hinit, hlast⟩ := ih (n / 128) (div_lt_pow h)
      refine ⟨UInt8.ofNat (n % 128 + 128) :: init, last, by rw [heq]; rfl, ?_, hlast⟩
      intro b hb
      rcases List.mem_cons.mp hb with rfl | hb
      · rw [Continues, toNat_ofNat_byte (by omega)]
        omega
      · exact hinit b hb

theorem leb128_ne_nil (k n : Nat) : leb128 k n ≠ [] := by
  cases k with
  | zero => simp [leb128]
  | succ k =>
    rw [leb128]
    split <;> simp

theorem length_leb128_pos (k n : Nat) : 0 < (leb128 k n).length :=
  List.length_pos_iff.mpr (leb128_ne_nil k n)

theorem length_leb128_le (k n : Nat) : (leb128 k n).length ≤ k + 1 := by
  induction k generalizing n with
  | zero => simp [leb128]
  | succ k ih =>
    rw [leb128]
    split
    · simp
    · have hle := ih (n / 128)
      simp only [List.length_cons]
      omega

/-- A smaller number takes fewer bytes, however many it is given. -/
theorem length_leb128_le_of_lt {j : Nat} (h : n < 128 ^ (j + 1)) : (leb128 k n).length ≤ j + 1 := by
  induction k generalizing n j with
  | zero => simp [leb128]
  | succ k ih =>
    rw [leb128]
    by_cases hn : n < 128
    · simp [hn]
    · rw [if_neg hn]
      cases j with
      | zero => simp at h; omega
      | succ j =>
        have hle := ih (div_lt_pow h)
        simp only [List.length_cons]
        omega

/-- What was written is read back, whatever follows it. -/
theorem readLeb128_leb128 {j : Nat} (rest : List UInt8) (hn : n < 128 ^ (k + 1))
    (hj : (leb128 k n).length ≤ j) :
    readLeb128 j (leb128 k n ++ rest) = some (n, (leb128 k n).length) := by
  induction k generalizing n j with
  | zero =>
    obtain ⟨j, rfl⟩ := Nat.exists_eq_add_of_le' (Nat.le_trans (length_leb128_pos 0 n) hj)
    have hlt : n < 128 := by omega
    simp [leb128, readLeb128, toNat_ofNat_byte (show n < 256 by omega), hlt]
  | succ k ih =>
    obtain ⟨j, rfl⟩ := Nat.exists_eq_add_of_le' (Nat.le_trans (length_leb128_pos (k + 1) n) hj)
    rw [leb128] at hj ⊢
    by_cases hlt : n < 128
    · simp [hlt, readLeb128, toNat_ofNat_byte (show n < 256 by omega)]
    · rw [if_neg hlt] at hj ⊢
      have hread := ih (j := j) (div_lt_pow hn) (by simpa using hj)
      have hbyte : (UInt8.ofNat (n % 128 + 128)).toNat = n % 128 + 128 :=
        toNat_ofNat_byte (by omega)
      rw [List.cons_append, readLeb128, hread, hbyte, if_neg (by omega)]
      simp only [Option.map_some, List.length_cons, Option.some.injEq, Prod.mk.injEq, and_true]
      omega

/-- No number is the beginning of another one. -/
theorem leb128_append_inj {k' : Nat} {rest' : List UInt8} (hn : n < 128 ^ (k + 1))
    (hm : m < 128 ^ (k' + 1)) (h : leb128 k n ++ rest = leb128 k' m ++ rest') :
    n = m ∧ rest = rest' := by
  have hread := readLeb128_leb128 rest hn (j := max (k + 1) (k' + 1))
    ((length_leb128_le k n).trans (le_max_left _ _))
  have hread' := readLeb128_leb128 rest' hm (j := max (k + 1) (k' + 1))
    ((length_leb128_le k' m).trans (le_max_right _ _))
  rw [h, hread'] at hread
  simp only [Option.some.injEq, Prod.mk.injEq] at hread
  exact ⟨hread.1.symm, (List.append_inj h hread.2.symm).2⟩

/-- What ends before the number does has only bytes that go on. -/
theorem continues_of_cut (hn : n < 128 ^ (k + 1)) (hpre : bytes <+: leb128 k n)
    (hne : bytes ≠ leb128 k n) : ∀ b ∈ bytes, Continues b := by
  obtain ⟨init, last, heq, hinit, -⟩ := exists_leb128_eq k n hn
  rw [heq] at hpre hne
  rcases List.prefix_concat_iff.mp hpre with h | h
  · exact absurd h hne
  · intro b hb
    exact hinit b (h.subset hb)

theorem readLeb128_of_continues (h : ∀ b ∈ bytes.take k, Continues b) :
    readLeb128 k bytes = none := by
  induction k generalizing bytes with
  | zero => rfl
  | succ k ih =>
    cases bytes with
    | nil => rfl
    | cons b bytes =>
      have hb : Continues b := h b (by simp)
      rw [Continues] at hb
      rw [readLeb128, if_neg (by omega), ih fun c hc => h c (by simp [hc])]
      rfl

/-- A number has a byte of its own, and no more than there are. -/
theorem readLeb128_advances {v pos : Nat} (h : readLeb128 k bytes = some (v, pos)) :
    0 < pos ∧ pos ≤ bytes.length := by
  induction k generalizing bytes v pos with
  | zero => simp [readLeb128] at h
  | succ k ih =>
    cases bytes with
    | nil => simp [readLeb128] at h
    | cons b bytes =>
      rw [readLeb128] at h
      by_cases hb : b.toNat < 128
      · simp only [hb, if_true, Option.some.injEq, Prod.mk.injEq] at h
        simp [← h.2]
      · rw [if_neg hb] at h
        obtain ⟨⟨w, p⟩, hread, heq⟩ := Option.map_eq_some_iff.mp h
        simp only [Prod.mk.injEq] at heq
        obtain ⟨-, hle⟩ := ih hread
        rw [← heq.2]
        simp only [List.length_cons]
        omega

end Mozaic.Framing
