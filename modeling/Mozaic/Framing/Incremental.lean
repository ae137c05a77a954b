import Mozaic.Rust.Loop
import Mozaic.Rust.Outcome

/-! Reading a sequence of codewords that arrives in pieces. -/
namespace Mozaic.Framing
open Rust Outcome

variable {α β σ ρ ε : Type}

/-- The codewords that are whole in the first `n` symbols of the sequence. -/
def whole (enc : α → List β) : List α → Nat → List α
  | [], _ => []
  | a :: as, n =>
    if (enc a).length ≤ n then a :: whole enc as (n - (enc a).length) else []

/-- `t` ends inside the next of the codewords `as`, or in what comes after them. -/
def Ahead (enc : α → List β) (as : List α) (tail t : List β) : Prop :=
  t = [] ∨ (as = [] ∧ t <+: tail) ∨ ∃ a ∈ as.head?, t <+: enc a ∧ t ≠ enc a

/-- Of the codewords `as` and the `tail` after them the symbols `p` arrived, which are
`out` and then `t`. -/
structure Arrived (enc : α → List β) (as : List α) (tail p : List β) (out : List α)
    (t : List β) : Prop where
  symbols : p = out.flatMap enc ++ t
  rest : ∃ rest, as = out ++ rest ∧ Ahead enc rest tail t

section Sequences
variable {enc : α → List β} {as out : List α} {tail p t : List β}

theorem arrived_nil : Arrived enc as tail [] [] [] :=
  ⟨rfl, as, rfl, .inl rfl⟩

/-- However a sequence is cut, the cut falls between two codewords or inside one. -/
theorem exists_cut (h : p <+: as.flatMap enc ++ tail) :
    ∃ out t, Arrived enc as tail p out t := by
  induction as generalizing p with
  | nil => exact ⟨[], p, rfl, [], rfl, .inr (.inl ⟨rfl, h⟩)⟩
  | cons a as ih =>
    rw [List.flatMap_cons, List.append_assoc] at h
    rcases List.prefix_or_prefix_of_prefix h (List.prefix_append (enc a) _) with hpre | ⟨q, rfl⟩
    · by_cases hwhole : p = enc a
      · exact ⟨[a], [], by simp [hwhole], as, rfl, .inl rfl⟩
      · exact ⟨[], p, rfl, a :: as, rfl, .inr (.inr ⟨a, rfl, hpre, hwhole⟩)⟩
    · obtain ⟨out, t, hsym, rest, hrest, hahead⟩ := ih ((List.prefix_append_right_inj _).mp h)
      refine ⟨a :: out, t, ?_, rest, by simp [hrest], hahead⟩
      simp [hsym]

/-- The next piece completes some more codewords. -/
theorem Arrived.append {c : List β} (h : Arrived enc as tail p out t)
    (hpre : p ++ c <+: as.flatMap enc ++ tail) :
    ∃ new t', t ++ c = new.flatMap enc ++ t' ∧ Arrived enc as tail (p ++ c) (out ++ new) t' := by
  obtain ⟨rest, hrest, -⟩ := h.rest
  have htail : t ++ c <+: rest.flatMap enc ++ tail := by
    rw [hrest, h.symbols, List.flatMap_append, List.append_assoc, List.append_assoc] at hpre
    exact (List.prefix_append_right_inj _).mp hpre
  obtain ⟨new, t', hsym, rest', hrest', hahead⟩ := exists_cut htail
  refine ⟨new, t', hsym, ?_, rest', by simp [hrest, hrest'], hahead⟩
  simp [h.symbols, hsym]

theorem Ahead.mono {tail' : List β} (h : Ahead enc as tail t) (hle : tail <+: tail') :
    Ahead enc as tail' t := by
  rcases h with hnil | ⟨hnil, hpre⟩ | hcut
  · exact .inl hnil
  · exact .inr (.inl ⟨hnil, hpre.trans hle⟩)
  · exact .inr (.inr hcut)

/-- More may come than was expected. -/
theorem Arrived.mono {tail' : List β} (h : Arrived enc as tail p out t) (hle : tail <+: tail') :
    Arrived enc as tail' p out t := by
  obtain ⟨rest, hrest, hahead⟩ := h.rest
  exact ⟨h.symbols, rest, hrest, hahead.mono hle⟩

/-- There may be more codewords than were expected. -/
theorem Arrived.more (h : Arrived enc as [] p out t) (new : List α) :
    Arrived enc (as ++ new) [] p out t := by
  obtain ⟨rest, hrest, hahead⟩ := h.rest
  refine ⟨h.symbols, rest ++ new, by rw [hrest, List.append_assoc], ?_⟩
  rcases hahead with hnil | ⟨-, hpre⟩ | ⟨a, ha, hcut⟩
  · exact .inl hnil
  · exact .inl (List.prefix_nil.mp hpre)
  · exact .inr (.inr ⟨a, List.mem_head?_append_of_mem_head? ha, hcut⟩)

/-- Whatever is left over comes before the end of the next codeword. -/
theorem Ahead.length_lt {a : α} (hne : enc a ≠ []) (h : Ahead enc (a :: as) tail t) :
    t.length < (enc a).length := by
  rcases h with rfl | ⟨hnil, -⟩ | ⟨b, hb, hpre, hpart⟩
  · exact List.length_pos_iff.mpr hne
  · cases hnil
  · obtain rfl : a = b := by simpa using hb
    exact lt_of_le_of_ne hpre.length_le fun heq => hpart (hpre.eq_of_length heq)

theorem Arrived.whole_eq (hne : ∀ a, enc a ≠ []) (h : Arrived enc as tail p out t) :
    whole enc as p.length = out := by
  obtain ⟨hsym, rest, hrest, hahead⟩ := h
  subst hsym hrest
  induction out with
  | nil =>
    cases rest with
    | nil => rfl
    | cons a rest =>
      have hlt := hahead.length_lt (hne a)
      simp [whole, hlt]
  | cons a out ih =>
    simp only [List.flatMap_cons, List.cons_append, whole, List.append_assoc, List.length_append]
    rw [if_pos (by omega), Nat.add_sub_cancel_left]
    simpa using ih

/-- Where all codewords arrived, what is left over is from the tail. -/
theorem Arrived.all (hne : ∀ a, enc a ≠ []) (hle : (as.flatMap enc).length ≤ p.length)
    (h : Arrived enc as tail p out t) : out = as := by
  obtain ⟨rest, hrest, hahead⟩ := h.rest
  cases rest with
  | nil => simp [hrest]
  | cons a rest =>
    have hlt := hahead.length_lt (hne a)
    rw [hrest, h.symbols] at hle
    simp only [List.flatMap_append, List.flatMap_cons, List.length_append] at hle
    omega

end Sequences

/-- The rule for what is fed in chunks: a state that put out `out` and has `t` to read goes on
to one that put out the codewords that became whole. Then no chunk stops with an error. -/
theorem foldlM_arrived {enc : α → List β} {as : List α} {tail : List β}
    (feed : σ → List β → Except ε σ) {I : σ → List α → List β → Prop} {s : σ}
    {chunks : List (List β)} (hs : I s [] []) (hpre : chunks.flatten <+: as.flatMap enc ++ tail)
    (hstep : ∀ s out t c new t' rest, I s out t → t ++ c = new.flatMap enc ++ t' → new ⊆ as →
      rest ⊆ as → Ahead enc rest tail t' →
      Safe (fun _ => False) (I · (out ++ new) t') (feed s c)) :
    ∃ s' out t, chunks.foldlM feed s = .ok s' ∧ I s' out t ∧
      Arrived enc as tail chunks.flatten out t := by
  have hsafe : Safe (fun _ => False)
      (fun s => ∃ out t, I s out t ∧ Arrived enc as tail chunks.flatten out t)
      (chunks.foldlM feed s) := by
    apply Safe.foldlM_prefix
      (I := fun seen s => ∃ out t, I s out t ∧ Arrived enc as tail seen.flatten out t)
    · exact ⟨[], [], hs, arrived_nil⟩
    · intro seen c rest hchunks s hI
      obtain ⟨out, t, hs, harr⟩ := hI
      have hseen : seen.flatten ++ c <+: as.flatMap enc ++ tail := by
        refine List.IsPrefix.trans ?_ hpre
        simp [hchunks]
      obtain ⟨new, t', heq, harr'⟩ := harr.append hseen
      obtain ⟨rest', hrest', hahead⟩ := harr'.rest
      have hnew : new ⊆ as := fun a ha => by simp [hrest', ha]
      have hrest : rest' ⊆ as := fun a ha => by simp [hrest', ha]
      refine (hstep s out t c new t' rest' hs heq hnew hrest hahead).weaken fun s' hs' => ?_
      exact ⟨out ++ new, t', hs', by simpa using harr'⟩
  cases hrun : chunks.foldlM feed s with
  | error err => exact (hsafe.of_error hrun).elim
  | ok s' =>
    obtain ⟨out, t, hs', harr⟩ := hsafe.of_ok hrun
    exact ⟨s', out, t, rfl, hs', harr⟩

/-- The body of a loop that takes codewords off what arrived, one in each pass, until it has
to wait. `Holds s out t` says that the state `s` put out `out` and has `t` to read. -/
structure Reads (ok : α → Prop) (enc : α → List β) (Waits : List β → Prop) (body : σ → Flow σ ρ)
    (Holds : σ → List α → List β → Prop) (Leaves : ρ → List α → List β → Prop) : Prop where
  more : ∀ s out a t, ok a → Holds s out (enc a ++ t) →
    ∃ s', body s = .next s' ∧ Holds s' (out ++ [a]) t
  stop : ∀ s out t, Waits t → Holds s out t → ∃ r, body s = .done r ∧ Leaves r out t

/-- The rule for such a loop: it puts out every whole codeword, and leaves the rest. -/
theorem Reads.run {ok : α → Prop} {enc : α → List β} {Waits : List β → Prop} {l : Loop σ ρ}
    {Holds : σ → List α → List β → Prop} {Leaves : ρ → List α → List β → Prop}
    (h : Reads ok enc Waits l.body Holds Leaves) {s : σ} {out new : List α} {t : List β}
    (hnew : ∀ a ∈ new, ok a) (hwaits : Waits t) (hs : Holds s out (new.flatMap enc ++ t)) :
    Leaves (l.run s) (out ++ new) t := by
  have hrun := l.run_rule (P := fun s r => ∀ out new, (∀ a ∈ new, ok a) →
    Holds s out (new.flatMap enc ++ t) → Leaves r (out ++ new) t) ?_ ?_ s
  · exact hrun out new hnew hs
  · intro s r hbody out new hnew hs
    cases new with
    | nil =>
      obtain ⟨r', hdone, hleaves⟩ := h.stop s out t hwaits hs
      rw [hbody, Flow.done.injEq] at hdone
      simpa [hdone] using hleaves
    | cons a new =>
      rw [List.flatMap_cons, List.append_assoc] at hs
      obtain ⟨s', hnext, -⟩ := h.more s out a _ (hnew a List.mem_cons_self) hs
      rw [hbody] at hnext
      cases hnext
  · intro s s' r hbody ih out new hnew hs
    cases new with
    | nil =>
      obtain ⟨r', hdone, -⟩ := h.stop s out t hwaits hs
      rw [hbody] at hdone
      cases hdone
    | cons a new =>
      rw [List.flatMap_cons, List.append_assoc] at hs
      obtain ⟨s'', hnext, hs'⟩ := h.more s out a _ (hnew a List.mem_cons_self) hs
      rw [hbody, Flow.next.injEq] at hnext
      rw [← hnext] at hs'
      have hleaves := ih (out ++ [a]) new (fun b hb => hnew b (List.mem_cons_of_mem a hb)) hs'
      simpa using hleaves

end Mozaic.Framing
