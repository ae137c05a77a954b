import Mozaic.Text.Lines

/-! Command lines. A line is taken apart at its blanks, except for those between quotes:
a quote opens a group that runs up to the next quote of its kind. -/
namespace Mozaic.Text

/-- The two kinds of quotes, double and single. -/
def isQuote (c : Char) : Bool := c.toNat == 0x22 || c.toNat == 0x27

/-- The quote that is open after `c`, where `q` was open before. -/
def quoteAfter (q : Option Char) (c : Char) : Option Char :=
  match q with
  | none => if isQuote c then some c else none
  | some q => if c = q then none else some q

/-- The quote that is left open at the end. -/
def openAfter (q : Option Char) (l : List Char) : Option Char := l.foldl quoteAfter q

/-- No blank is outside of quotes. -/
def unbroken : Option Char → List Char → Bool
  | _, [] => true
  | q, c :: l => !(q.isNone && isSpace c) && unbroken (quoteAfter q c) l

/-- What is between the blanks outside of quotes. -/
def pieces : Option Char → List Char → List (List Char)
  | _, [] => [[]]
  | q, c :: l =>
    if q.isNone && isSpace c then [] :: pieces none l
    else (pieces (quoteAfter q c) l).modifyHead (c :: ·)

/-- The pieces that are not empty. -/
def words (line : String) : List String :=
  ((pieces none line.toList).filter (· ≠ [])).map String.ofList

theorem pieces_ne_nil (q : Option Char) (l : List Char) : pieces q l ≠ [] := by
  induction l generalizing q with
  | nil => exact List.cons_ne_nil _ _
  | cons c l ih =>
    rw [pieces]
    split
    · exact List.cons_ne_nil _ _
    · rw [Ne, List.modifyHead_eq_nil_iff]
      exact ih _

/-- A blank is lost between any two pieces, and nothing else. -/
theorem length_pieces (q : Option Char) (l : List Char) :
    (pieces q l).flatten.length + (pieces q l).length = l.length + 1 := by
  induction l generalizing q with
  | nil => rfl
  | cons c l ih =>
    rw [pieces]
    split
    · have h := ih none
      rw [List.flatten_cons, List.nil_append, List.length_cons, List.length_cons]
      omega
    · have h := ih (quoteAfter q c)
      obtain ⟨w, ws, hws⟩ := List.exists_cons_of_ne_nil (pieces_ne_nil (quoteAfter q c) l)
      rw [hws] at h ⊢
      simp only [List.modifyHead_cons, List.flatten_cons, List.length_append, List.length_cons] at h ⊢
      omega

/-! ## Texts without quotes -/

theorem unbroken_plain {l : List Char} (h : l.any isQuote = false) :
    unbroken none l ↔ l.any isSpace = false := by
  induction l with
  | nil => simp [unbroken]
  | cons c l ih =>
    rw [List.any_cons, Bool.or_eq_false_iff] at h
    rw [unbroken, quoteAfter, if_neg (by simp [h.1]), List.any_cons]
    cases hc : isSpace c with
    | true => simp
    | false => simpa using ih h.2

theorem openAfter_plain {l : List Char} (h : l.any isQuote = false) : openAfter none l = none := by
  induction l with
  | nil => rfl
  | cons c l ih =>
    rw [List.any_cons, Bool.or_eq_false_iff] at h
    rw [openAfter, List.foldl_cons, quoteAfter, if_neg (by simp [h.1])]
    exact ih h.2

/-! ## Pieces that were put together -/

theorem pieces_append {q : Option Char} {a : List Char} (h : unbroken q a) (b : List Char) :
    pieces q (a ++ b) = (pieces (openAfter q a) b).modifyHead (a ++ ·) := by
  induction a generalizing q with
  | nil =>
    obtain ⟨w, ws, hws⟩ := List.exists_cons_of_ne_nil (pieces_ne_nil q b)
    change pieces q b = (pieces q b).modifyHead _
    rw [hws]
    rfl
  | cons c a ih =>
    rw [unbroken, Bool.and_eq_true, Bool.not_eq_true'] at h
    rw [List.cons_append, pieces, if_neg (by simp [h.1]), ih h.2, List.modifyHead_modifyHead]
    rfl

/-- Where a part is broken, a piece ends within it. -/
theorem pieces_append_of_broken {q : Option Char} {a : List Char} (h : unbroken q a = false)
    (b : List Char) : ∃ w ws, pieces q (a ++ b) = w :: ws ∧ w.length < a.length := by
  induction a generalizing q with
  | nil => cases h
  | cons c a ih =>
    rw [List.cons_append, pieces]
    split
    · exact ⟨[], _, rfl, Nat.succ_pos _⟩
    · rename_i hblank
      rw [Bool.not_eq_true] at hblank
      rw [unbroken, hblank, Bool.not_false, Bool.true_and] at h
      obtain ⟨w, ws, hws, hlt⟩ := ih h
      rw [hws]
      exact ⟨c :: w, ws, rfl, Nat.succ_lt_succ hlt⟩

theorem pieces_eq_singleton_iff {part : List Char} :
    pieces none part = [part] ↔ unbroken none part := by
  constructor
  · intro heq
    by_contra hbroken
    obtain ⟨w, ws, hws, hlt⟩ := pieces_append_of_broken (Bool.not_eq_true _ ▸ hbroken) []
    rw [List.append_nil, heq] at hws
    obtain ⟨rfl, -⟩ := List.cons.inj hws
    exact Nat.lt_irrefl _ hlt
  · intro h
    have happend := pieces_append h []
    rwa [List.append_nil, pieces, List.modifyHead_cons, List.append_nil] at happend

/-- A line that starts with a part and a blank has the part for its first piece if and only if
the part is not broken and leaves no quote open. -/
theorem pieces_cons_iff {part rest : List Char} {parts : List (List Char)} :
    pieces none (part ++ ' ' :: rest) = part :: parts ↔
      unbroken none part ∧ openAfter none part = none ∧ pieces none rest = parts := by
  by_cases hbroken : unbroken none part = false
  · obtain ⟨w, ws, hws, hlt⟩ := pieces_append_of_broken hbroken (' ' :: rest)
    rw [hws]
    apply iff_of_false
    · intro heq
      obtain ⟨rfl, -⟩ := List.cons.inj heq
      exact Nat.lt_irrefl _ hlt
    · simp [hbroken]
  · rw [Bool.not_eq_false] at hbroken
    rw [pieces_append hbroken]
    cases hopen : openAfter none part with
    | none =>
      have hblank : pieces none (' ' :: rest) = [] :: pieces none rest := rfl
      simp [hblank, hbroken]
    | some q =>
      obtain ⟨w, ws, hws⟩ :=
        List.exists_cons_of_ne_nil (pieces_ne_nil (quoteAfter (some q) ' ') rest)
      have hgroup : pieces (some q) (' ' :: rest) = (' ' :: w) :: ws := by
        rw [pieces, if_neg (by simp), hws, List.modifyHead_cons]
      rw [hgroup]
      simp

/-- A line of parts with one blank between them has these parts for its pieces if and only if
none is broken, and none but the last leaves a quote open. -/
theorem pieces_intercalate_iff {parts : List (List Char)} (hne : parts ≠ []) :
    pieces none ([' '].intercalate parts) = parts ↔
      (∀ part ∈ parts, unbroken none part) ∧
        ∀ part ∈ parts.dropLast, openAfter none part = none := by
  induction parts with
  | nil => exact absurd rfl hne
  | cons part parts ih =>
    cases parts with
    | nil =>
      rw [List.intercalate_singleton, pieces_eq_singleton_iff]
      simp
    | cons next parts =>
      have hline : [' '].intercalate (part :: next :: parts) =
          part ++ ' ' :: [' '].intercalate (next :: parts) := by
        rw [List.intercalate_cons_cons, List.append_assoc, List.singleton_append]
      rw [hline, pieces_cons_iff, ih (List.cons_ne_nil _ _), List.dropLast_cons_cons]
      simp only [List.mem_cons, forall_eq_or_imp]
      tauto

/-! ## Words of a line -/

theorem length_intercalate {parts : List (List Char)} (hne : parts ≠ []) :
    ([' '].intercalate parts).length + 1 = parts.flatten.length + parts.length := by
  induction parts with
  | nil => exact absurd rfl hne
  | cons part parts ih =>
    cases parts with
    | nil => simp
    | cons next parts =>
      have h := ih (List.cons_ne_nil _ _)
      rw [List.intercalate_cons_cons, List.length_append, List.length_append, List.flatten_cons,
        List.length_append, List.length_cons (a := part), List.length_singleton]
      omega

/-- What only drops characters drops none, if none is missing in the end. -/
theorem eq_self_of_sublist {f : List Char → List Char} (hf : ∀ w, (f w).Sublist w)
    {ws : List (List Char)} (hlen : ws.flatten.length ≤ (ws.map f).flatten.length) :
    ∀ w ∈ ws, f w = w := by
  induction ws with
  | nil => simp
  | cons w ws ih =>
    have hrest : (ws.map f).flatten.length ≤ ws.flatten.length := by
      clear ih hlen
      induction ws with
      | nil => exact Nat.le_refl _
      | cons w ws ih =>
        rw [List.map_cons, List.flatten_cons, List.flatten_cons, List.length_append,
          List.length_append]
        exact Nat.add_le_add (hf w).length_le ih
    have hw := (hf w).length_le
    rw [List.map_cons, List.flatten_cons, List.flatten_cons, List.length_append,
      List.length_append] at hlen
    refine List.forall_mem_cons.mpr ⟨(hf w).eq_of_length (by omega), ih (by omega)⟩

/-- If characters of words are all that gets lost, and the parts of a line are found in spite
of that, then they are its pieces, and nothing gets lost. -/
theorem pieces_of_found {f : List Char → List Char} (hf : ∀ w, (f w).Sublist w)
    {parts : List (List Char)} (hne : parts ≠ [])
    (hfound : ((pieces none ([' '].intercalate parts)).filter (· ≠ [])).map f = parts) :
    pieces none ([' '].intercalate parts) = parts ∧ ∀ part ∈ parts, part ≠ [] ∧ f part = part := by
  have hjoined := length_intercalate hne
  have hlost := length_pieces none ([' '].intercalate parts)
  set found := pieces none ([' '].intercalate parts)
  have hcount := congrArg List.length hfound
  rw [List.length_map] at hcount
  have hfew := List.length_filter_le (· ≠ []) found
  have hflat : (found.filter (· ≠ [])).flatten = found.flatten := List.flatten_filter_ne_nil
  have hsame : ∀ w ∈ found.filter (· ≠ []), f w = w := by
    apply eq_self_of_sublist hf
    rw [hfound, hflat]
    omega
  have hwords : found.filter (· ≠ []) = parts := by
    rw [← hfound]
    exact (List.map_id'' (fun w => rfl) _).symm.trans
      (List.map_congr_left fun w hw => (hsame w hw).symm)
  refine ⟨?_, fun part hpart => ?_⟩
  · rw [← hwords]
    refine (List.filter_sublist.eq_of_length ?_).symm
    rw [← hflat, hwords] at hlost
    omega
  · rw [← hwords] at hpart
    exact ⟨by simpa using (List.mem_filter.mp hpart).2, hsame part hpart⟩

theorem words_intercalate_iff {unquote : String → String}
    (hsub : ∀ word, (unquote word).toList.Sublist word.toList) {parts : List String}
    (hne : parts ≠ []) :
    (words (" ".intercalate parts)).map unquote = parts ↔
      (∀ part ∈ parts, part ≠ "" ∧ unbroken none part.toList ∧ unquote part = part) ∧
        ∀ part ∈ parts.dropLast, openAfter none part.toList = none := by
  have hne' : parts.map String.toList ≠ [] := by simpa using hne
  have hpieces := pieces_intercalate_iff hne'
  have hline : (" ".intercalate parts).toList = [' '].intercalate (parts.map String.toList) := by
    rw [String.toList_intercalate]
    rfl
  rw [words, hline]
  constructor
  · intro heq
    have hsub' (w : List Char) : (unquote (String.ofList w)).toList.Sublist w := by
      have h := hsub (String.ofList w)
      rwa [String.toList_ofList] at h
    have hfound : ((pieces none ([' '].intercalate (parts.map String.toList))).filter (· ≠ [])).map
        (fun w => (unquote (String.ofList w)).toList) = parts.map String.toList := by
      conv_rhs => rw [← heq, List.map_map, List.map_map]
      rfl
    obtain ⟨hall, hsame⟩ := pieces_of_found hsub' hne' hfound
    obtain ⟨hunbroken, hclosed⟩ := hpieces.mp hall
    rw [← List.map_dropLast, List.forall_mem_map] at hclosed
    refine ⟨fun part hpart => ?_, hclosed⟩
    obtain ⟨hsolid, hkept⟩ := hsame part.toList (List.mem_map_of_mem hpart)
    rw [String.ofList_toList, String.toList_inj] at hkept
    exact ⟨by simpa using hsolid, hunbroken _ (List.mem_map_of_mem hpart), hkept⟩
  · rintro ⟨hparts, hclosed⟩
    have hfound : pieces none ([' '].intercalate (parts.map String.toList)) =
        parts.map String.toList := by
      refine hpieces.mpr ⟨?_, ?_⟩
      · exact List.forall_mem_map.mpr fun part hpart => (hparts part hpart).2.1
      · rw [← List.map_dropLast]
        exact List.forall_mem_map.mpr hclosed
    have hsolid : (parts.map String.toList).filter (· ≠ []) = parts.map String.toList := by
      apply List.filter_eq_self.mpr
      refine List.forall_mem_map.mpr fun part hpart => ?_
      simpa using (hparts part hpart).1
    rw [hfound, hsolid, List.map_map, List.map_map]
    conv_rhs => rw [← List.map_id parts]
    apply List.map_congr_left
    intro part hpart
    rw [Function.comp_apply, Function.comp_apply, String.ofList_toList, (hparts part hpart).2.2,
      id_eq]

end Mozaic.Text
