import Mozaic.Framing.Leb128

/-! Frames that follow their length. -/
namespace Mozaic.Framing

/-- What is sent for one frame. -/
def frame (bytes : List UInt8) : List UInt8 := leb128 9 bytes.length ++ bytes

/-- There is no frame in these bytes, but more bytes may complete one, of a length below
`limit` that takes `width` bytes at most. -/
inductive Unfinished (limit width : Nat) : List UInt8 → Prop where
  | head (t) (hmore : ∀ b ∈ t, Continues b) (hlen : t.length < width) : Unfinished limit width t
  | data (n t) (hn : n < limit) (hlen : t.length < n) : Unfinished limit width (leb128 9 n ++ t)

theorem frame_ne_nil (bytes : List UInt8) : frame bytes ≠ [] := by
  simp [frame, leb128_ne_nil]

/-- A frame that is cut. -/
theorem unfinished_of_cut {limit width : Nat} {bytes t : List UInt8}
    (hlimit : limit ≤ 128 ^ 10) (hwidth : ∀ n < limit, (leb128 9 n).length ≤ width)
    (hlen : bytes.length < limit) (hpre : t <+: frame bytes) (hcut : t ≠ frame bytes) :
    Unfinished limit width t := by
  have hlength : leb128 9 bytes.length <+: frame bytes := List.prefix_append _ bytes
  rcases List.prefix_or_prefix_of_prefix hpre hlength with hshort | ⟨data, rfl⟩
  · by_cases heq : t = leb128 9 bytes.length
    · subst heq
      have hpos : 0 < bytes.length :=
        List.length_pos_iff.mpr fun hnil => hcut (by simp [frame, hnil])
      have hdata : Unfinished limit width (leb128 9 bytes.length ++ []) := .data _ [] hlen hpos
      rwa [List.append_nil] at hdata
    · refine .head t (continues_of_cut (hlen.trans_le hlimit) hshort heq) ?_
      have hlt : t.length < (leb128 9 bytes.length).length :=
        lt_of_le_of_ne hshort.length_le fun h => heq (hshort.eq_of_length h)
      exact hlt.trans_le (hwidth bytes.length hlen)
  · have hdata := (List.prefix_append_right_inj _).mp hpre
    refine .data bytes.length data hlen (lt_of_le_of_ne hdata.length_le fun h => hcut ?_)
    rw [hdata.eq_of_length h, frame]

end Mozaic.Framing
