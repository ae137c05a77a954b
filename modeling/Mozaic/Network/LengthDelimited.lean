import Mozaic.Framing.Frames
import Mozaic.Framing.Incremental
import Mozaic.Network.Handle
import Mozaic.Rust.Outcome

/-! The codec of the connections: every frame follows its length. -/
namespace Mozaic.Network
open Rust Outcome Framing

inductive ErrorKind where
  | other
deriving DecidableEq, Repr

structure IoError where
  kind : ErrorKind
  description : String
deriving DecidableEq, Repr

def invalidLeb128 : IoError := ⟨.other, "invalid LEB128 number"⟩

/-- The numbers on the wire, which a library provides. `decodeVarint` answers with the
number, if there is one, and with the position at which it left the cursor. -/
class Varint where
  encodeVarint : Nat → Bytes
  decodeVarint : Bytes → Option Nat × Nat
  /-- The bytes of a number are there. -/
  advances : ∀ buf num pos, decodeVarint buf = (some num, pos) → 0 < pos ∧ pos ≤ buf.length

/-- The number of bytes of the longest `u64`. -/
def maxVarintLen : Nat := 10

inductive DecoderState where
  | head
  | data (n : Nat)
deriving DecidableEq, Repr

structure LengthDelimited where
  decoderState : DecoderState
deriving DecidableEq, Repr

namespace LengthDelimited

def new : LengthDelimited := ⟨.head⟩

def decodeHead [Varint] (buf : Bytes) : Except IoError (Option Nat) × Bytes :=
  match Varint.decodeVarint buf with
  -- num correctly parsed, advance buffer
  | (some num, pos) => (.ok (some num), buf.drop pos)
  | (none, pos) =>
    if pos < maxVarintLen then (.ok none, buf)
    else (.error invalidLeb128, buf)

def decodeData (n : Nat) (buf : Bytes) : Except IoError (Option Bytes) × Bytes :=
  if buf.length < n then (.ok none, buf) else (.ok (some (buf.take n)), buf.drop n)

/-- The second half of `decode`, once the length of the frame is known. -/
def decodeFrame (n : Nat) (buf : Bytes) :
    Except IoError (Option Bytes) × LengthDelimited × Bytes :=
  match decodeData n buf with
  | (.ok (some data), buf) => (.ok (some data), ⟨.head⟩, buf)
  | (res, buf) => (res, ⟨.data n⟩, buf)

def decode [Varint] (d : LengthDelimited) (buf : Bytes) :
    Except IoError (Option Bytes) × LengthDelimited × Bytes :=
  match d.decoderState with
  | .head =>
    match decodeHead buf with
    | (.ok (some n), buf) => decodeFrame n buf
    | (.ok none, buf) => (.ok none, d, buf)
    | (.error err, buf) => (.error err, d, buf)
  | .data n => decodeFrame n buf

def encode [Varint] (bytes buf : Bytes) : Bytes :=
  buf ++ Varint.encodeVarint bytes.length ++ bytes

/-- What is sent for one frame. -/
def encoded [Varint] (bytes : Bytes) : Bytes := encode bytes []

theorem decodeFrame_of_le {n : Nat} {buf : Bytes} (h : n ≤ buf.length) :
    decodeFrame n buf = (.ok (some (buf.take n)), ⟨.head⟩, buf.drop n) := by
  simp [decodeFrame, decodeData, Nat.not_lt.mpr h]

theorem decodeFrame_of_lt {n : Nat} {buf : Bytes} (h : buf.length < n) :
    decodeFrame n buf = (.ok none, ⟨.data n⟩, buf) := by
  simp [decodeFrame, decodeData, h]

/-- A frame that is taken off the buffer takes bytes, or else the length before it did. -/
def work (d : LengthDelimited) (buf : Bytes) : Nat :=
  2 * buf.length + match d.decoderState with
    | .head => 0
    | .data _ => 1

end LengthDelimited

/-- A transport with its read buffer, and the frames it yielded so far. -/
structure Framed where
  codec : LengthDelimited
  buffer : Bytes
  frames : List Bytes
deriving DecidableEq, Repr

namespace Framed
variable [Varint]

def new : Framed := ⟨.new, [], []⟩

def decodePass (f : Framed) : Flow Framed (Except IoError Framed) :=
  match f.codec.decode f.buffer with
  | (.ok (some data), codec, buffer) => .next ⟨codec, buffer, f.frames ++ [data]⟩
  | (.ok none, codec, buffer) => .done (.ok { f with codec, buffer })
  | (.error err, _, _) => .done (.error err)

theorem work_decode {d d' : LengthDelimited} {buf buf' data : Bytes}
    (h : d.decode buf = (.ok (some data), d', buf')) : d'.work buf' < d.work buf := by
  obtain ⟨state⟩ := d
  cases state with
  | head =>
    simp only [LengthDelimited.decode, LengthDelimited.decodeHead] at h
    rcases hread : Varint.decodeVarint buf with ⟨_ | n, pos⟩
    · by_cases hpos : pos < maxVarintLen <;> simp [hread, hpos] at h
    · obtain ⟨hpos, hle⟩ := Varint.advances buf n pos hread
      rw [hread] at h
      by_cases hn : (buf.drop pos).length < n
      · simp [LengthDelimited.decodeFrame_of_lt hn] at h
      · simp only [LengthDelimited.decodeFrame_of_le (Nat.not_lt.mp hn), Prod.mk.injEq] at h
        simp only [← h.2.1, ← h.2.2, LengthDelimited.work, List.length_drop]
        omega
  | data n =>
    simp only [LengthDelimited.decode] at h
    by_cases hn : buf.length < n
    · simp [LengthDelimited.decodeFrame_of_lt hn] at h
    · simp only [LengthDelimited.decodeFrame_of_le (Nat.not_lt.mp hn), Prod.mk.injEq] at h
      simp only [← h.2.1, ← h.2.2, LengthDelimited.work, List.length_drop]
      omega

/-- The frames that are in the buffer are taken off one after another. -/
def decodeLoop : Loop Framed (Except IoError Framed) where
  body := decodePass
  rest f := f.codec.work f.buffer
  closer f g hbody := by
    rw [decodePass] at hbody
    split at hbody
    · rename_i hdecode
      rw [← Flow.next.inj hbody]
      exact work_decode hdecode
    · cases hbody
    · cases hbody

/-- Newly read bytes go to the end of the buffer. -/
def read (f : Framed) (chunk : Bytes) : Except IoError Framed :=
  decodeLoop.run { f with buffer := f.buffer ++ chunk }

def run (chunks : List Bytes) : Except IoError Framed := chunks.foldlM read new

end Framed

/-- What connections send: the frames, each after its length. -/
def wire [Varint] (frames : List Bytes) : Bytes :=
  frames.flatMap LengthDelimited.encoded

/-- The numbers are LEB128, and a number that is cut short is no number. -/
class Leb128 [Varint] : Prop where
  encode_eq : ∀ n < 2 ^ 64, Varint.encodeVarint n = leb128 9 n
  decode_eq : ∀ n < 2 ^ 64, ∀ rest,
    Varint.decodeVarint (leb128 9 n ++ rest) = (some n, (leb128 9 n).length)
  decode_truncated : ∀ buf : Bytes, (∀ b ∈ buf, Continues b) → buf.length < maxVarintLen →
    ∃ pos ≤ buf.length, Varint.decodeVarint buf = (none, pos)

/-- The library at work. It looks through a slice when there are more than ten bytes, and moves
the cursor only when it found a number there. Otherwise it reads one byte after another. -/
def decodeVarintSlices (buf : Bytes) : Option Nat × Nat :=
  match readLeb128 maxVarintLen buf with
  | some (num, pos) => (some (num % 2 ^ 64), pos)
  | none => (none, if maxVarintLen < buf.length then 0 else buf.length)

@[reducible] def varintSlices : Varint where
  encodeVarint := leb128 9
  decodeVarint := decodeVarintSlices
  advances buf num pos h := by
    rw [decodeVarintSlices] at h
    split at h
    · rename_i hread
      simp only [Prod.mk.injEq, Option.some.injEq] at h
      rw [← h.2]
      exact readLeb128_advances hread
    · simp at h

theorem leb128_varintSlices : @Leb128 varintSlices := by
  refine @Leb128.mk varintSlices (fun _ _ => rfl) ?_ ?_
  · intro n hn rest
    have hread := readLeb128_leb128 rest (k := 9) (n := n) (by omega)
      (length_leb128_le 9 n)
    change decodeVarintSlices _ = _
    simp only [decodeVarintSlices, maxVarintLen, hread, Nat.mod_eq_of_lt hn]
  · intro buf hmore hlen
    have hread : readLeb128 maxVarintLen buf = none :=
      readLeb128_of_continues fun b hb => hmore b (List.mem_of_mem_take hb)
    refine ⟨buf.length, le_rfl, ?_⟩
    change decodeVarintSlices _ = _
    simp [decodeVarintSlices, hread, Nat.lt_asymm hlen]

/-- A frame fits in memory. -/
def Fits (bytes : Bytes) : Prop := bytes.length < 2 ^ 64

/-- The decoder has read up to `buf` and would have to read `t` again to get there. -/
inductive Reading : LengthDelimited → Bytes → Bytes → Prop where
  | head (buf) : Reading ⟨.head⟩ buf buf
  | data (n buf) (h : n < 2 ^ 64) : Reading ⟨.data n⟩ buf (leb128 9 n ++ buf)

theorem Reading.append {d : LengthDelimited} {buf t : Bytes} (h : Reading d buf t) (c : Bytes) :
    Reading d (buf ++ c) (t ++ c) := by
  cases h with
  | head => exact .head (buf ++ c)
  | data n buf hn =>
    rw [List.append_assoc]
    exact .data n (buf ++ c) hn

theorem Reading.eq_nil {d : LengthDelimited} {buf t : Bytes} (h : Reading d buf t) (ht : t = []) :
    d = .new ∧ buf = [] := by
  cases h with
  | head => exact ⟨rfl, ht⟩
  | data n buf => exact absurd (List.append_eq_nil_iff.mp ht).1 (leb128_ne_nil 9 n)

/-- Bytes that the decoder keeps until there are more. -/
abbrev Waits : Bytes → Prop := Unfinished (2 ^ 64) maxVarintLen

theorem lt_pow_of_fits {n : Nat} (h : n < 2 ^ 64) : n < 128 ^ (9 + 1) := by omega

namespace Framed
section RoundTrip
variable [Varint] [Leb128]

theorem encoded_eq {bytes : Bytes} (h : Fits bytes) :
    LengthDelimited.encoded bytes = frame bytes := by
  simp [LengthDelimited.encoded, LengthDelimited.encode, frame, Leb128.encode_eq bytes.length h]

theorem encoded_ne_nil (bytes : Bytes) : LengthDelimited.encoded bytes ≠ [] := by
  by_cases h : Fits bytes
  · rw [encoded_eq h]
    exact frame_ne_nil bytes
  · rw [Fits] at h
    have hne : bytes ≠ [] := by
      rintro rfl
      simp at h
    simp [LengthDelimited.encoded, LengthDelimited.encode, hne]

/-- A frame whose bytes are there is taken off. -/
theorem decode_whole {d : LengthDelimited} {buf bytes t : Bytes} (hfits : Fits bytes)
    (h : Reading d buf (LengthDelimited.encoded bytes ++ t)) :
    d.decode buf = (.ok (some bytes), ⟨.head⟩, t) := by
  rw [encoded_eq hfits, frame, List.append_assoc] at h
  generalize hsym : leb128 9 bytes.length ++ (bytes ++ t) = sym at h
  cases h with
  | head =>
    rw [← hsym]
    have hread := Leb128.decode_eq bytes.length hfits (bytes ++ t)
    have hle : bytes.length ≤ (bytes ++ t).length := by simp
    simp [LengthDelimited.decode, LengthDelimited.decodeHead, hread,
      LengthDelimited.decodeFrame_of_le hle]
  | data n buf hn =>
    obtain ⟨rfl, rfl⟩ := leb128_append_inj (lt_pow_of_fits hfits) (lt_pow_of_fits hn) hsym
    have hle : bytes.length ≤ (bytes ++ t).length := by simp
    simp [LengthDelimited.decode, LengthDelimited.decodeFrame_of_le hle]

/-- A frame that is not there yet keeps its bytes. -/
theorem decode_waits {d : LengthDelimited} {buf t : Bytes} (ht : Waits t)
    (h : Reading d buf t) :
    ∃ d' buf', d.decode buf = (.ok none, d', buf') ∧ Reading d' buf' t := by
  cases h with
  | head =>
    cases ht with
    | head _ hmore hlen =>
      obtain ⟨pos, hle, hread⟩ := Leb128.decode_truncated buf hmore hlen
      refine ⟨⟨.head⟩, buf, ?_, .head buf⟩
      have hpos : pos < maxVarintLen := Nat.lt_of_le_of_lt hle hlen
      simp [LengthDelimited.decode, LengthDelimited.decodeHead, hread, hpos]
    | data n buf hn hlen =>
      have hread := Leb128.decode_eq n hn buf
      refine ⟨⟨.data n⟩, buf, ?_, .data n buf hn⟩
      simp [LengthDelimited.decode, LengthDelimited.decodeHead, hread,
        LengthDelimited.decodeFrame_of_lt hlen]
  | data n buf hn =>
    have hlen : buf.length < n := by
      generalize hsym : leb128 9 n ++ buf = sym at ht
      cases ht with
      | head _ hmore hlt =>
        obtain ⟨init, last, heq, -, hlast⟩ := exists_leb128_eq 9 n (lt_pow_of_fits hn)
        refine absurd (hmore last ?_) hlast
        simp [← hsym, heq]
      | data m buf' hm hlt =>
        obtain ⟨rfl, rfl⟩ := leb128_append_inj (lt_pow_of_fits hn) (lt_pow_of_fits hm) hsym
        exact hlt
    exact ⟨⟨.data n⟩, buf, by simp [LengthDelimited.decode, LengthDelimited.decodeFrame_of_lt hlen],
      .data n buf hn⟩

/-- A cut frame, or what there is of a length behind the frames. -/
theorem waits_of_ahead {frames : List Bytes} {tail t : Bytes}
    (hfits : ∀ bytes ∈ frames, Fits bytes) (hmore : ∀ b ∈ tail, Continues b)
    (hlen : tail.length < maxVarintLen) (h : Ahead LengthDelimited.encoded frames tail t) :
    Waits t := by
  rcases h with rfl | ⟨-, hpre⟩ | ⟨bytes, hhead, hpre, hpart⟩
  · exact .head [] (by simp) (by decide)
  · exact .head t (fun b hb => hmore b (hpre.subset hb)) (hpre.length_le.trans_lt hlen)
  · have hlen := hfits bytes (List.mem_of_mem_head? hhead)
    rw [encoded_eq hlen] at hpre hpart
    exact unfinished_of_cut (by decide) (fun n _ => length_leb128_le 9 n) hlen hpre hpart

/-- The transport yielded `out`, and its decoder has `t` before it. -/
def Holds (f : Framed) (out : List Bytes) (t : Bytes) : Prop :=
  f.frames = out ∧ Reading f.codec f.buffer t

/-- The transport is where `Holds` says, and not at an error. -/
def Leaves (r : Except IoError Framed) (out : List Bytes) (t : Bytes) : Prop :=
  ∃ f, r = .ok f ∧ f.Holds out t

theorem reads_decodePass :
    Reads Fits LengthDelimited.encoded Waits decodePass Holds Leaves := by
  constructor
  · intro f out bytes t hfits hf
    obtain ⟨rfl, hreading⟩ := hf
    refine ⟨⟨.new, t, f.frames ++ [bytes]⟩, ?_, rfl, .head t⟩
    rw [decodePass, decode_whole hfits hreading]
    rfl
  · intro f out t ht hf
    obtain ⟨rfl, hreading⟩ := hf
    obtain ⟨d', buf', hdecode, hreading'⟩ := decode_waits ht hreading
    refine ⟨.ok ⟨d', buf', f.frames⟩, ?_, _, rfl, rfl, hreading'⟩
    rw [decodePass, hdecode]

/-- A chunk that ends within the frames is read without an error. -/
theorem read_leaves {f : Framed} {out new : List Bytes} {c t t' : Bytes} (hf : f.Holds out t)
    (hnew : ∀ bytes ∈ new, Fits bytes) (heq : t ++ c = wire new ++ t') (ht' : Waits t') :
    Leaves (f.read c) (out ++ new) t' := by
  apply reads_decodePass.run (l := decodeLoop) hnew ht'
  refine ⟨hf.1, ?_⟩
  have happend := hf.2.append c
  rwa [heq] at happend

/-- The transport has read `p`, of which it yielded the frames that are whole. -/
def Upto (frames : List Bytes) (tail p : Bytes) (f : Framed) : Prop :=
  ∃ out t, f.Holds out t ∧ Arrived LengthDelimited.encoded frames tail p out t

/-- However the frames are cut into chunks, the transport yields those that are whole. -/
theorem run_upto {frames chunks : List Bytes} {tail : Bytes}
    (hfits : ∀ bytes ∈ frames, Fits bytes) (hmore : ∀ b ∈ tail, Continues b)
    (hlen : tail.length < maxVarintLen) (hpre : chunks.flatten <+: wire frames ++ tail) :
    ∃ f, run chunks = .ok f ∧ Upto frames tail chunks.flatten f := by
  have hrule := foldlM_arrived read (I := Holds) (s := new) ⟨rfl, .head []⟩ hpre
  obtain ⟨f, out, t, hrun, hf, harr⟩ := hrule <| by
    intro f out t c new t' rest hf heq hnew hrest hahead
    have ht' := waits_of_ahead (fun bytes hb => hfits bytes (hrest hb)) hmore hlen hahead
    obtain ⟨g, hg, hleaves⟩ := read_leaves hf (fun bytes hb => hfits bytes (hnew hb)) heq ht'
    rw [hg]
    exact hleaves
  exact ⟨f, hrun, out, t, hf, harr⟩

/-- The codec round-trips: after any part of what was sent, in any chunks, the transport
yielded the frames that are whole in it, and after all of it nothing is left over. -/
theorem run_wire (frames : List Bytes) (hfits : ∀ bytes ∈ frames, Fits bytes)
    (chunks : List Bytes) (hpre : chunks.flatten <+: wire frames) :
    ∃ f, run chunks = .ok f ∧
      f.frames = whole LengthDelimited.encoded frames chunks.flatten.length ∧
      (chunks.flatten = wire frames → f = ⟨.new, [], frames⟩) := by
  have hpre' : chunks.flatten <+: wire frames ++ [] := by simpa using hpre
  obtain ⟨f, hrun, out, t, ⟨hframes, hreading⟩, harr⟩ :=
    run_upto hfits (by simp) (by decide) hpre'
  refine ⟨f, hrun, hframes.trans (harr.whole_eq encoded_ne_nil).symm, fun hall => ?_⟩
  obtain rfl := harr.all encoded_ne_nil (by rw [hall]; exact le_rfl)
  have hsym := harr.symbols
  rw [hall, wire] at hsym
  obtain ⟨hcodec, hbuffer⟩ := hreading.eq_nil (by simpa using hsym)
  rw [← hframes, ← hcodec, ← hbuffer]

end RoundTrip

/-- An empty frame, and one that is cut after its first byte. -/
theorem run_wire_two_frames :
    ∃ f, @run varintSlices [[0, 2, 7], [8]] = .ok f ∧ f = ⟨.new, [], [[], [7, 8]]⟩ := by
  obtain ⟨f, hrun, -, hall⟩ := @run_wire varintSlices leb128_varintSlices [[], [7, 8]]
    (by simp [Fits]) [[0, 2, 7], [8]] (by decide)
  exact ⟨f, hrun, hall (by decide)⟩

end Framed
end Mozaic.Network
