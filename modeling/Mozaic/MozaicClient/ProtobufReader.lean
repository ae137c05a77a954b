import Mozaic.Network.LengthDelimited

/-! The client's reader of length-delimited messages. It scans what it kept of the stream
again whenever there is more of it. -/
namespace Mozaic.MozaicClient
open Rust Outcome Framing Network

inductive ReadError where
  | rangeError
  | other
deriving DecidableEq, Repr

/-- Reads numbers from a buffer, which a library provides. The answer is the number and the
position behind it. -/
class BufferReader where
  uint32 : Bytes → Nat → Except ReadError (Nat × Nat)
  advances : ∀ buf pos len pos', uint32 buf pos = .ok (len, pos') → pos < pos'

structure ProtobufReader where
  buffer : Bytes
  pushed : List Bytes
deriving DecidableEq, Repr

/-- The variables of `readMessages`. -/
structure Scan where
  buffer : Bytes
  pos : Nat
  pushed : List Bytes
deriving DecidableEq, Repr

namespace Scan
variable [BufferReader]

def slice (buf : Bytes) (start stop : Nat) : Bytes := (buf.take stop).drop start

def readPass (s : Scan) : Flow Scan (Except ReadError Scan) :=
  if s.pos < s.buffer.length then
    match BufferReader.uint32 s.buffer s.pos with
    -- range errors are due to incomplete data
    | .error .rangeError => .done (.ok s)
    -- other errors are not supposed to happen
    | .error .other => .done (.error .other)
    | .ok (len, pos) =>
      -- not enough data
      if s.buffer.length < pos + len then .done (.ok s)
      else .next
        { s with pos := pos + len, pushed := s.pushed ++ [slice s.buffer pos (pos + len)] }
  else .done (.ok s)

def readLoop : Loop Scan (Except ReadError Scan) where
  body := readPass
  rest s := s.buffer.length - s.pos
  closer s t hbody := by
    rw [readPass] at hbody
    split at hbody
    · rename_i hpos
      split at hbody
      · cases hbody
      · cases hbody
      · rename_i len pos hread
        split at hbody
        · cases hbody
        · have hlt := BufferReader.advances s.buffer s.pos len pos hread
          rw [← Flow.next.inj hbody]
          simp only
          omega
    · cases hbody

end Scan

namespace ProtobufReader
variable [BufferReader]

def new : ProtobufReader := ⟨[], []⟩

/-- Parse complete messages from internal buffer and output them. -/
def readMessages (r : ProtobufReader) : Except ReadError ProtobufReader := do
  let s ← Scan.readLoop.run ⟨r.buffer, 0, r.pushed⟩
  pure ⟨s.buffer.drop s.pos, s.pushed⟩

def transform (r : ProtobufReader) (chunk : Bytes) : Except ReadError ProtobufReader :=
  readMessages { r with buffer := r.buffer ++ chunk }

def run (chunks : List Bytes) : Except ReadError ProtobufReader := chunks.foldlM transform new

end ProtobufReader

/-- The bytes of the longest number that `uint32` reads. -/
def maxUint32Len : Nat := 5

/-- The numbers are LEB128, and where the buffer ends inside one there is a range error. -/
class Uint32 [BufferReader] : Prop where
  uint32_eq : ∀ n < 2 ^ 32, ∀ read rest : Bytes,
    BufferReader.uint32 (read ++ (leb128 9 n ++ rest)) read.length =
      .ok (n, read.length + (leb128 9 n).length)
  uint32_cut : ∀ read buf : Bytes, (∀ b ∈ buf, Continues b) → buf.length < maxUint32Len →
    BufferReader.uint32 (read ++ buf) read.length = .error .rangeError

/-- The library at work: it reads five bytes, and skips five more if the number goes on. -/
def uint32Unrolled (buf : Bytes) (pos : Nat) : Except ReadError (Nat × Nat) :=
  match readLeb128 maxUint32Len (buf.drop pos) with
  | some (num, len) => .ok (num % 2 ^ 32, pos + len)
  | none =>
    if buf.length < pos + 2 * maxUint32Len then .error .rangeError
    else .ok (lowBits ((buf.drop pos).take maxUint32Len) % 2 ^ 32, pos + 2 * maxUint32Len)

@[reducible] def readerUnrolled : BufferReader where
  uint32 := uint32Unrolled
  advances buf pos len pos' h := by
    rw [uint32Unrolled] at h
    split at h
    · rename_i hread
      obtain ⟨hpos, -⟩ := readLeb128_advances hread
      simp only [Except.ok.injEq, Prod.mk.injEq] at h
      omega
    · split at h
      · cases h
      · simp only [Except.ok.injEq, Prod.mk.injEq, maxUint32Len] at h
        omega

theorem uint32_readerUnrolled : @Uint32 readerUnrolled := by
  refine @Uint32.mk readerUnrolled ?_ ?_
  · intro n hn read rest
    change uint32Unrolled _ _ = _
    have hread := readLeb128_leb128 rest (k := 9) (n := n) (by omega)
      (length_leb128_le_of_lt (j := 4) (by omega))
    rw [uint32Unrolled, List.drop_left, maxUint32Len, hread]
    simp only [Nat.mod_eq_of_lt hn]
  · intro read buf hmore hlen
    change uint32Unrolled _ _ = _
    have hread : readLeb128 maxUint32Len buf = none :=
      readLeb128_of_continues fun b hb => hmore b (List.mem_of_mem_take hb)
    have hcut : (read ++ buf).length < read.length + 2 * maxUint32Len := by
      rw [List.length_append]
      omega
    rw [uint32Unrolled, List.drop_left, hread]
    simp only
    rw [if_pos hcut]

/-- The length of a frame is one that `uint32` reads. -/
def Short (bytes : Bytes) : Prop := bytes.length < 2 ^ 32

/-- Bytes that the reader keeps until there are more. -/
abbrev Keeps : Bytes → Prop := Unfinished (2 ^ 32) maxUint32Len

theorem Short.fits {bytes : Bytes} (h : Short bytes) : Fits bytes := by
  rw [Short] at h
  rw [Fits]
  omega

theorem length_leb128_uint32 (n : Nat) (h : n < 2 ^ 32) : (leb128 9 n).length ≤ maxUint32Len :=
  length_leb128_le_of_lt (by omega)

theorem keeps_of_ahead [Varint] [Leb128] {frames : List Bytes} {t : Bytes}
    (hshort : ∀ bytes ∈ frames, Short bytes)
    (h : Ahead LengthDelimited.encoded frames [] t) : Keeps t := by
  have hnil : Keeps [] := .head [] (by simp) (by decide)
  rcases h with rfl | ⟨-, hpre⟩ | ⟨bytes, hhead, hpre, hpart⟩
  · exact hnil
  · rwa [List.prefix_nil.mp hpre]
  · have hlen := hshort bytes (List.mem_of_mem_head? hhead)
    rw [Framed.encoded_eq hlen.fits] at hpre hpart
    exact unfinished_of_cut (by decide) length_leb128_uint32 hlen hpre hpart

section Reader
variable [BufferReader] [Uint32]

namespace Scan

/-- The scan pushed `out`, and has `t` before it. -/
structure Holds (s : Scan) (out : List Bytes) (t : Bytes) : Prop where
  pushed : s.pushed = out
  scanned : ∃ read, s.buffer = read ++ t ∧ s.pos = read.length

def Leaves (r : Except ReadError Scan) (out : List Bytes) (t : Bytes) : Prop :=
  ∃ s, r = .ok s ∧ s.Holds out t

theorem readPass_whole [Varint] [Leb128] {s : Scan} {out : List Bytes} {bytes t : Bytes} (hshort : Short bytes)
    (h : s.Holds out (LengthDelimited.encoded bytes ++ t)) :
    ∃ s', s.readPass = .next s' ∧ s'.Holds (out ++ [bytes]) t := by
  obtain ⟨hpushed, read, hbuffer, hpos⟩ := h
  rw [Framed.encoded_eq hshort.fits, frame, List.append_assoc] at hbuffer
  have hread := Uint32.uint32_eq bytes.length hshort read (bytes ++ t)
  have hlt : s.pos < s.buffer.length := by
    have hhead := length_leb128_pos 9 bytes.length
    simp only [hbuffer, hpos, List.length_append]
    omega
  have hle : ¬ s.buffer.length < read.length + (leb128 9 bytes.length).length + bytes.length := by
    simp only [hbuffer, List.length_append]
    omega
  have hslice : slice s.buffer (read.length + (leb128 9 bytes.length).length)
      (read.length + (leb128 9 bytes.length).length + bytes.length) = bytes := by
    have hsplit : s.buffer = (read ++ leb128 9 bytes.length) ++ bytes ++ t := by
      simp [hbuffer]
    rw [slice, hsplit, ← List.length_append, ← List.length_append, List.take_left, List.drop_left]
  refine ⟨⟨s.buffer, read.length + (leb128 9 bytes.length).length + bytes.length,
    s.pushed ++ [bytes]⟩, ?_, by rw [hpushed], read ++ leb128 9 bytes.length ++ bytes, ?_, ?_⟩
  · rw [readPass, if_pos hlt, hpos, hbuffer, hread, ← hbuffer]
    simp only
    rw [if_neg hle, hslice]
  · simp [hbuffer]
  · simp [Nat.add_assoc]

theorem readPass_keeps {s : Scan} {out : List Bytes} {t : Bytes} (ht : Keeps t)
    (h : s.Holds out t) : s.readPass = .done (.ok s) := by
  obtain ⟨hpushed, read, hbuffer, hpos⟩ := h
  rw [readPass]
  by_cases hlt : s.pos < s.buffer.length
  · rw [if_pos hlt, hpos, hbuffer]
    cases ht with
    | head _ hmore hlen => rw [Uint32.uint32_cut read t hmore hlen]
    | data n data hn hlen =>
      rw [Uint32.uint32_eq n hn read data]
      have hcut : (read ++ (leb128 9 n ++ data)).length < read.length + (leb128 9 n).length + n := by
        simp only [List.length_append]
        omega
      simp only
      rw [if_pos hcut]
  · rw [if_neg hlt]

theorem reads_readPass [Varint] [Leb128] :
    Reads Short LengthDelimited.encoded Keeps readPass Holds Leaves := by
  constructor
  · intro s out bytes t hshort h
    exact readPass_whole hshort h
  · intro s out t ht h
    exact ⟨.ok s, readPass_keeps ht h, s, rfl, h⟩

end Scan

namespace ProtobufReader
variable [Varint] [Leb128]

/-- A chunk is read up to the last frame that is whole. -/
theorem transform_eq {r : ProtobufReader} {new : List Bytes} {c t' : Bytes}
    (hnew : ∀ bytes ∈ new, Short bytes) (heq : r.buffer ++ c = wire new ++ t') (ht' : Keeps t') :
    r.transform c = .ok ⟨t', r.pushed ++ new⟩ := by
  have hstart : Scan.Holds ⟨r.buffer ++ c, 0, r.pushed⟩ r.pushed (wire new ++ t') :=
    ⟨rfl, [], by simp [heq], rfl⟩
  obtain ⟨s, hrun, hpushed, read, hbuffer, hpos⟩ :=
    Scan.reads_readPass.run (l := Scan.readLoop) hnew ht' hstart
  rw [transform, readMessages, hrun, ok_bind, hbuffer, hpos, List.drop_left, hpushed]
  rfl

/-- However the frames are cut into chunks, the reader pushes those that are whole and keeps
what comes after them. -/
theorem run_arrived {frames chunks : List Bytes} (hshort : ∀ bytes ∈ frames, Short bytes)
    (hpre : chunks.flatten <+: wire frames) :
    ∃ r, run chunks = .ok r ∧
      Arrived LengthDelimited.encoded frames [] chunks.flatten r.pushed r.buffer := by
  have hpre' : chunks.flatten <+: wire frames ++ [] := by simpa using hpre
  have hrule := foldlM_arrived transform
    (I := fun (r : ProtobufReader) out t => r.pushed = out ∧ r.buffer = t) (s := new) ⟨rfl, rfl⟩ hpre'
  obtain ⟨r, out, t, hrun, ⟨rfl, rfl⟩, harr⟩ := hrule <| by
    intro r out t c new t' rest hI heq hnew hrest hahead
    obtain ⟨rfl, rfl⟩ := hI
    have hkeeps := keeps_of_ahead (fun bytes hb => hshort bytes (hrest hb)) hahead
    rw [transform_eq (fun bytes hb => hshort bytes (hnew hb)) heq hkeeps]
    exact ⟨rfl, rfl⟩
  exact ⟨r, hrun, harr⟩

/-- The client reads what the server wrote: after any part of it, in any chunks, the reader
pushed the frames that are whole in it, and its buffer is the rest. -/
theorem run_wire_uint32 (frames : List Bytes) (hshort : ∀ bytes ∈ frames, Short bytes)
    (chunks : List Bytes) (hpre : chunks.flatten <+: wire frames) :
    ∃ r, run chunks = .ok r ∧
      r.pushed = whole LengthDelimited.encoded frames chunks.flatten.length ∧
      chunks.flatten = wire r.pushed ++ r.buffer ∧
      (chunks.flatten = wire frames → r = ⟨[], frames⟩) := by
  obtain ⟨r, hrun, harr⟩ := run_arrived hshort hpre
  refine ⟨r, hrun, (harr.whole_eq Framed.encoded_ne_nil).symm, harr.symbols, fun hall => ?_⟩
  have hpushed := harr.all Framed.encoded_ne_nil (by rw [hall]; exact le_rfl)
  have hsym := harr.symbols
  rw [hall, hpushed, wire] at hsym
  have hbuffer : r.buffer = [] := by simpa using hsym
  rw [← hpushed, ← hbuffer]

end ProtobufReader
end Reader

/-- A frame that is cut after its length. -/
theorem run_wire_uint32_cut :
    ∃ r, @ProtobufReader.run readerUnrolled [[0, 2], [7, 8, 1]] = .ok r ∧
      [0, 2, 7, 8, 1] = @wire varintSlices r.pushed ++ r.buffer := by
  obtain ⟨r, hrun, -, hsym, -⟩ := @ProtobufReader.run_wire_uint32 readerUnrolled
    uint32_readerUnrolled varintSlices leb128_varintSlices [[], [7, 8], [9]] (by simp [Short])
    [[0, 2], [7, 8, 1]] (by decide)
  exact ⟨r, hrun, hsym⟩

end Mozaic.MozaicClient
