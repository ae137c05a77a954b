import Mozaic.Framing.Leb128

/-! Records of a number and some bytes, as protocol buffers write them: every field follows a
tag, and bytes follow their length. A field that has its default may be left out. -/
namespace Mozaic.Framing

def numberTag : UInt8 := 8
def bytesTag : UInt8 := 18

def numberField (n : Nat) : List UInt8 := numberTag :: leb128 n n

def bytesField (tag : UInt8) (data : List UInt8) : List UInt8 :=
  tag :: (leb128 data.length data.length ++ data)

def readNumber (bytes : List UInt8) : Option (Nat × List UInt8) :=
  (readLeb128 bytes.length bytes).map fun r => (r.1, bytes.drop r.2)

def readBytes (bytes : List UInt8) : Option (List UInt8 × List UInt8) := do
  let (n, rest) ← readNumber bytes
  if n ≤ rest.length then some (rest.take n, rest.drop n) else none

/-- Leaves out what is default, unless it is told not to. -/
def encodeRecord (explicit : Bool) (n : Nat) (data : List UInt8) : List UInt8 :=
  (if n = 0 ∧ explicit = false then [] else numberField n) ++
    (if data = [] ∧ explicit = false then [] else bytesField bytesTag data)

def decodeData (n : Nat) : List UInt8 → Option (Nat × List UInt8)
  | [] => some (n, [])
  | tag :: rest =>
    if tag = bytesTag then do
      let (data, rest) ← readBytes rest
      if rest = [] then some (n, data) else none
    else none

def decodeRecord : List UInt8 → Option (Nat × List UInt8)
  | [] => some (0, [])
  | tag :: rest =>
    if tag = numberTag then do
      let (n, rest) ← readNumber rest
      decodeData n rest
    else decodeData 0 (tag :: rest)

theorem lt_pow_self (n : Nat) : n < 128 ^ (n + 1) :=
  (Nat.lt_pow_self (by decide)).trans_le (Nat.pow_le_pow_right (by decide) (Nat.le_succ n))

theorem readNumber_leb128 (n : Nat) (rest : List UInt8) :
    readNumber (leb128 n n ++ rest) = some (n, rest) := by
  have hread := readLeb128_leb128 rest (lt_pow_self n)
    (j := (leb128 n n ++ rest).length) (by simp)
  rw [readNumber, hread]
  simp

theorem readBytes_append (data rest : List UInt8) :
    readBytes (leb128 data.length data.length ++ data ++ rest) = some (data, rest) := by
  simp [readBytes, readNumber_leb128, List.append_assoc]

theorem decodeData_bytesField (n : Nat) (data : List UInt8) :
    decodeData n (bytesField bytesTag data) = some (n, data) := by
  have hread := readBytes_append data []
  rw [List.append_nil] at hread
  simp [decodeData, bytesField, hread]

/-- A record is read back, whatever was left out. -/
theorem decodeRecord_encodeRecord (explicit : Bool) (n : Nat) (data : List UInt8) :
    decodeRecord (encodeRecord explicit n data) = some (n, data) := by
  have hdata (n : Nat) :
      decodeData n (if data = [] ∧ explicit = false then [] else bytesField bytesTag data) =
        some (n, data) := by
    by_cases hnil : data = [] ∧ explicit = false
    · rw [if_pos hnil, decodeData, hnil.1]
    · rw [if_neg hnil, decodeData_bytesField]
  by_cases hzero : n = 0 ∧ explicit = false
  · have hskip (bytes : List UInt8) (hbytes : decodeData 0 bytes = some (0, data))
        (htag : ∀ tag ∈ bytes.head?, tag = bytesTag) : decodeRecord bytes = some (0, data) := by
      cases bytes with
      | nil => exact hbytes
      | cons tag rest =>
        obtain rfl := htag tag rfl
        rw [decodeRecord, if_neg (by decide)]
        exact hbytes
    rw [encodeRecord, if_pos hzero, List.nil_append, hzero.1]
    apply hskip _ (hdata 0)
    intro tag htag
    split at htag
    · cases htag
    · simp only [bytesField, List.head?_cons, Option.mem_def, Option.some.injEq] at htag
      exact htag.symm
  · rw [encodeRecord, if_neg hzero, numberField, List.cons_append, decodeRecord, if_pos rfl,
      readNumber_leb128]
    exact hdata n

end Mozaic.Framing
