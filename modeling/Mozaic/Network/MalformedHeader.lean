import Mozaic.Network.LengthDelimited

/-! Lengths that no further byte can complete. The codec takes them for incomplete ones
when the library gives up without moving the cursor. -/
namespace Mozaic.Network
open Rust Outcome Framing

/-- Ten bytes that all go on: more than any number has. -/
def Malformed (buf : Bytes) : Prop :=
  maxVarintLen ≤ buf.length ∧ ∀ b ∈ buf.take maxVarintLen, Continues b

instance (buf : Bytes) : Decidable (Malformed buf) :=
  inferInstanceAs (Decidable (_ ∧ _))

theorem Malformed.of_cut {t bad : Bytes} (h : Malformed bad) (hpre : t <+: bad)
    (hlen : maxVarintLen ≤ t.length) : Malformed t :=
  ⟨hlen, fun b hb => h.2 b ((hpre.take maxVarintLen).subset hb)⟩

theorem malformed_replicate {n : Nat} (h : maxVarintLen ≤ n) :
    Malformed (List.replicate n 128) := by
  refine ⟨by simpa using h, fun b hb => ?_⟩
  rw [List.eq_of_mem_replicate (List.mem_of_mem_take hb)]
  decide

/-- The library refuses such bytes. With nothing behind them it reads all of them first. -/
class RefusesMalformed [Varint] : Prop where
  refuses : ∀ buf, Malformed buf → (Varint.decodeVarint buf).1 = none
  reads_all : ∀ buf, Malformed buf → buf.length = maxVarintLen →
    (Varint.decodeVarint buf).2 = maxVarintLen

/-- The library's cursor passes the ten bytes, although it finds no number in them. -/
def PassesMalformed [Varint] (buf : Bytes) : Prop := maxVarintLen ≤ (Varint.decodeVarint buf).2

/-- The read of `c`, after those of `seen`, brings the tenth byte of the length behind
the frames. -/
structure Completes [Varint] (frames chunks seen : List Bytes) (c : Bytes) : Prop where
  read : seen ++ [c] <+: chunks
  before : seen.flatten.length < (wire frames).length + maxVarintLen
  after : (wire frames).length + maxVarintLen ≤ (seen ++ [c]).flatten.length

/-- What is in the buffer behind the frames after that read. -/
def header [Varint] (frames seen : List Bytes) (c : Bytes) : Bytes :=
  (seen ++ [c]).flatten.drop (wire frames).length

namespace Framed

/-- As soon as ten bytes of the length behind the frames were read, there is an error. -/
def Rejects [Varint] (frames chunks : List Bytes) : Prop :=
  ∀ seen, seen <+: chunks → (wire frames).length + maxVarintLen ≤ seen.flatten.length →
    ∃ err, run seen = .error err

section Runs
variable [Varint] {frames chunks seen : List Bytes}

theorem run_append_error {more : List Bytes} {err : IoError} (h : run seen = .error err) :
    run (seen ++ more) = .error err := by
  rw [run] at h ⊢
  rw [List.foldlM_append, h]
  rfl

/-- One of the reads brings the tenth byte. -/
theorem exists_completes (hpre : seen <+: chunks)
    (hlen : (wire frames).length + maxVarintLen ≤ seen.flatten.length) :
    ∃ done c, done ++ [c] <+: seen ∧ Completes frames chunks done c := by
  induction seen using List.reverseRecOn with
  | nil => simp [maxVarintLen] at hlen
  | append_singleton seen c ih =>
    by_cases hbefore : seen.flatten.length < (wire frames).length + maxVarintLen
    · exact ⟨seen, c, List.prefix_refl _, hpre, hbefore, hlen⟩
    · have hseen : seen <+: chunks := (List.prefix_append seen [c]).trans hpre
      obtain ⟨done, c', hdone, hcompletes⟩ := ih hseen (Nat.not_lt.mp hbefore)
      exact ⟨done, c', hdone.trans (List.prefix_append seen [c]), hcompletes⟩

end Runs

section Malformed
variable [Varint] [RefusesMalformed]

theorem decode_passes {buf : Bytes} (h : Malformed buf) (hpass : PassesMalformed buf) :
    LengthDelimited.new.decode buf = (.error invalidLeb128, .new, buf) := by
  have hnone := RefusesMalformed.refuses buf h
  rw [PassesMalformed] at hpass
  rcases hread : Varint.decodeVarint buf with ⟨_ | num, pos⟩
  · rw [hread] at hpass
    simp [LengthDelimited.decode, LengthDelimited.new, LengthDelimited.decodeHead, hread,
      Nat.not_lt.mpr hpass]
  · rw [hread] at hnone
    cases hnone

/-- The bug: the codec waits for the rest of a number that has no rest. -/
theorem decode_stalls {buf : Bytes} (h : Malformed buf) (hpass : ¬ PassesMalformed buf) :
    LengthDelimited.new.decode buf = (.ok none, .new, buf) := by
  have hnone := RefusesMalformed.refuses buf h
  rw [PassesMalformed] at hpass
  rcases hread : Varint.decodeVarint buf with ⟨_ | num, pos⟩
  · rw [hread] at hpass
    simp [LengthDelimited.decode, LengthDelimited.new, LengthDelimited.decodeHead, hread,
      Nat.not_le.mp hpass]
  · rw [hread] at hnone
    cases hnone

omit [Varint] [RefusesMalformed] in
theorem reading_malformed {d : LengthDelimited} {buf t : Bytes} (h : Reading d buf t)
    (ht : Malformed t) : d = .new ∧ buf = t := by
  cases h with
  | head => exact ⟨rfl, rfl⟩
  | data n buf hn =>
    obtain ⟨init, last, heq, -, hlast⟩ := exists_leb128_eq 9 n (lt_pow_of_fits hn)
    have hpre : leb128 9 n <+: (leb128 9 n ++ buf).take maxVarintLen :=
      List.prefix_take_iff.mpr ⟨List.prefix_append _ _, length_leb128_le 9 n⟩
    exact absurd (ht.2 last (hpre.subset (by simp [heq]))) hlast

/-- What the codec says about a length of more than ten bytes. -/
def Judged (r : Except IoError Framed) (_ : List Bytes) (t : Bytes) : Prop :=
  (∃ err, r = .error err) ↔ PassesMalformed t

theorem reads_malformed [Leb128] :
    Reads Fits LengthDelimited.encoded Malformed decodePass Holds Judged := by
  refine ⟨reads_decodePass.more, ?_⟩
  intro f out t ht hf
  obtain ⟨hframes, hreading⟩ := hf
  obtain ⟨hcodec, hbuffer⟩ := reading_malformed hreading ht
  by_cases hpass : PassesMalformed t
  · refine ⟨.error invalidLeb128, ?_, ⟨fun _ => hpass, fun _ => ⟨invalidLeb128, rfl⟩⟩⟩
    rw [decodePass, hcodec, hbuffer, decode_passes ht hpass]
  · refine ⟨.ok ⟨.new, t, f.frames⟩, ?_, ⟨fun h => ?_, fun h => absurd h hpass⟩⟩
    · rw [decodePass, hcodec, hbuffer, decode_stalls ht hpass]
    · obtain ⟨err, herr⟩ := h
      cases herr

omit [RefusesMalformed] in
/-- Before the tenth byte there is nothing to refuse. -/
theorem run_before [Leb128] {frames seen : List Bytes} {bad : Bytes}
    (hfits : ∀ bytes ∈ frames, Fits bytes) (hbad : Malformed bad)
    (hpre : seen.flatten <+: wire frames ++ bad)
    (hbefore : seen.flatten.length < (wire frames).length + maxVarintLen) :
    ∃ f, run seen = .ok f ∧ Upto frames bad seen.flatten f := by
  have hshort : seen.flatten <+: wire frames ++ bad.take 9 := by
    rw [← List.take_length_add_append, List.prefix_take_iff]
    exact ⟨hpre, Nat.le_of_lt_succ hbefore⟩
  have hmore : ∀ b ∈ bad.take 9, Continues b := by
    intro b hb
    refine hbad.2 b (List.IsPrefix.subset ?_ hb)
    exact List.take_prefix_take_left (by decide)
  have hlen : (bad.take 9).length < maxVarintLen := by
    simp [maxVarintLen]
  obtain ⟨f, hrun, out, t, hf, harr⟩ := run_upto hfits hmore hlen hshort
  exact ⟨f, hrun, out, t, hf, harr.mono (List.take_prefix 9 bad)⟩

/-- The read that brings the tenth byte decides. -/
theorem judged_of_completes [Leb128] {frames chunks seen : List Bytes} {bad c : Bytes}
    (hfits : ∀ bytes ∈ frames, Fits bytes) (hbad : Malformed bad)
    (hpre : chunks.flatten <+: wire frames ++ bad) (h : Completes frames chunks seen c) :
    Malformed (header frames seen c) ∧
      ((∃ err, run (seen ++ [c]) = .error err) ↔ PassesMalformed (header frames seen c)) := by
  have hall : seen.flatten ++ c <+: wire frames ++ bad := by
    refine List.IsPrefix.trans ?_ hpre
    obtain ⟨rest, hrest⟩ := h.read
    simp [← hrest]
  have hafter : (wire frames).length + maxVarintLen ≤ (seen.flatten ++ c).length := by
    simpa using h.after
  obtain ⟨f, hrun, out, t, hf, harr⟩ :=
    run_before hfits hbad ((List.prefix_append _ c).trans hall) h.before
  obtain ⟨new, t', heq, harr'⟩ := harr.append hall
  have hout : out ++ new = frames := by
    refine harr'.all encoded_ne_nil ?_
    exact Nat.le_trans (Nat.le_add_right _ _) hafter
  have hsym : seen.flatten ++ c = wire frames ++ t' := by
    rw [harr'.symbols, hout, wire]
  have hheader : header frames seen c = t' := by
    simp [header, hsym]
  have hmal : Malformed t' := by
    rw [hsym] at hall hafter
    refine hbad.of_cut ((List.prefix_append_right_inj _).mp hall) ?_
    rw [List.length_append] at hafter
    exact Nat.le_of_add_le_add_left hafter
  have hread : run (seen ++ [c]) = f.read c := by
    rw [run] at hrun ⊢
    rw [List.foldlM_append, hrun]
    simp
  rw [hheader, hread]
  refine ⟨hmal, ?_⟩
  have hnew : ∀ bytes ∈ new, Fits bytes := fun bytes hb => hfits bytes (by simp [← hout, hb])
  apply reads_malformed.run (l := decodeLoop) hnew hmal
  refine ⟨hf.1, ?_⟩
  have happend := hf.2.append c
  rwa [heq] at happend

/-- The codec refuses a length of more than ten bytes in time if and only if the read that
brings the tenth byte brings none behind it, or the library moves its cursor. -/
theorem rejects_iff [Leb128] (frames : List Bytes) (hfits : ∀ bytes ∈ frames, Fits bytes)
    (bad : Bytes) (hbad : Malformed bad) (chunks : List Bytes)
    (hpre : chunks.flatten <+: wire frames ++ bad) :
    Rejects frames chunks ↔ ∀ seen c, Completes frames chunks seen c →
      (header frames seen c).length = maxVarintLen ∨ PassesMalformed (header frames seen c) := by
  constructor
  · intro hrejects seen c h
    obtain ⟨-, hjudged⟩ := judged_of_completes hfits hbad hpre h
    exact .inr (hjudged.mp (hrejects (seen ++ [c]) h.read h.after))
  · intro hcond seen hseen hlen
    obtain ⟨done, c, ⟨more, hdone⟩, h⟩ := exists_completes hseen hlen
    obtain ⟨hmal, hjudged⟩ := judged_of_completes hfits hbad hpre h
    have hpass : PassesMalformed (header frames done c) := by
      rcases hcond done c h with hten | hpass
      · exact (RefusesMalformed.reads_all _ hmal hten).ge
      · exact hpass
    obtain ⟨err, herr⟩ := hjudged.mpr hpass
    rw [← hdone]
    exact ⟨err, run_append_error herr⟩

end Malformed

theorem refusesMalformed_varintSlices : @RefusesMalformed varintSlices := by
  have hnone {buf : Bytes} (h : Malformed buf) : readLeb128 maxVarintLen buf = none :=
    readLeb128_of_continues h.2
  refine @RefusesMalformed.mk varintSlices ?_ ?_
  · intro buf h
    change (decodeVarintSlices buf).1 = none
    simp [decodeVarintSlices, hnone h]
  · intro buf h hlen
    change (decodeVarintSlices buf).2 = maxVarintLen
    simp [decodeVarintSlices, hnone h, hlen]

/-- Ten bytes and not one more: the error is there. -/
theorem rejects_iff_ten :
    @Rejects varintSlices [] [List.replicate 4 128, List.replicate 6 128] ↔
      ∀ seen c, @Completes varintSlices [] [List.replicate 4 128, List.replicate 6 128] seen c →
        (@header varintSlices [] seen c).length = maxVarintLen ∨
          @PassesMalformed varintSlices (@header varintSlices [] seen c) :=
  @rejects_iff varintSlices refusesMalformed_varintSlices leb128_varintSlices [] (by simp)
    (List.replicate 10 128) (malformed_replicate (by decide)) _ (by decide)

/-- Eleven bytes at once: the connection waits for more. -/
theorem not_rejects_eleven : ¬ @Rejects varintSlices [] [List.replicate 11 128] := by
  intro h
  have hcompletes : @Completes varintSlices [] [List.replicate 11 128] [] (List.replicate 11 128) :=
    @Completes.mk varintSlices _ _ _ _ (List.prefix_refl _) (by decide) (by decide)
  obtain ⟨-, hjudged⟩ := @judged_of_completes varintSlices refusesMalformed_varintSlices
    leb128_varintSlices [] _ _ (List.replicate 11 128) _ (by simp)
    (malformed_replicate (by decide)) (by decide) hcompletes
  have hpass := hjudged.mp (h [List.replicate 11 128] (List.prefix_refl _) (by decide))
  change maxVarintLen ≤ (decodeVarintSlices (List.replicate 11 128)).2 at hpass
  exact absurd hpass (by decide)

end Framed
end Mozaic.Network
