import Mathlib.Data.List.DropRight

/-! Texts taken apart: trimming blanks at both ends, and splitting at a separator. -/
namespace Mozaic.Text

/-- The characters of `\s`: blanks and line terminators. -/
def isSpace (c : Char) : Bool :=
  let code := c.toNat
  (9 ≤ code && code ≤ 13) || code == 0x20 || code == 0xa0 || code == 0x1680 ||
    (0x2000 ≤ code && code ≤ 0x200a) || code == 0x2028 || code == 0x2029 || code == 0x202f ||
    code == 0x205f || code == 0x3000 || code == 0xfeff

def trim (s : String) : String :=
  .ofList ((s.toList.dropWhile isSpace).rdropWhile isSpace)

def split (sep : Char) (s : String) : List String := (s.toList.splitOn sep).map String.ofList

def join (sep : Char) (parts : List String) : String :=
  .ofList ([sep].intercalate (parts.map String.toList))

/-! ## Splitting what was joined -/

/-- Splitting undoes joining, if no part contains the separator. -/
theorem split_join {sep : Char} {parts : List String} (hne : parts ≠ [])
    (hsep : ∀ part ∈ parts, sep ∉ part.toList) : split sep (join sep parts) = parts := by
  have hparts : parts.map String.toList ≠ [] := by simpa using hne
  rw [split, join, String.toList_ofList, List.splitOn_intercalate sep]
  · rw [List.map_map]
    exact List.map_id'' (fun s => String.ofList_toList) parts
  · simpa using hsep
  · exact hparts

/-- Parts that each end with the separator are joined by it, but for the last one. -/
theorem flatMap_terminated (sep : Char) {parts : List (List Char)} (hne : parts ≠ []) :
    (parts.flatMap fun part => part ++ [sep]) = [sep].intercalate parts ++ [sep] := by
  induction parts with
  | nil => exact absurd rfl hne
  | cons part parts ih =>
    cases parts with
    | nil => simp
    | cons next parts =>
      rw [List.flatMap_cons, ih (List.cons_ne_nil _ _), List.intercalate_cons_cons]
      simp

/-! ## Trimming -/

/-- There is something, with no blanks before or after it. -/
structure Solid (l : List Char) : Prop where
  head : ∃ first ∈ l.head?, isSpace first = false
  last : ∃ last ∈ l.getLast?, isSpace last = false

/-- Only the blanks around it are trimmed. -/
theorem Solid.trim_append {l blanks : List Char} (h : Solid l)
    (hblanks : ∀ c ∈ blanks, isSpace c = true) : trim (.ofList (l ++ blanks)) = .ofList l := by
  obtain ⟨first, hfirst, hf⟩ := h.head
  obtain ⟨last, hlast, hl⟩ := h.last
  obtain ⟨rest, rfl⟩ := List.head?_eq_some_iff.mp hfirst
  rw [trim, String.toList_ofList, List.cons_append, List.dropWhile_cons_of_neg (by simp [hf]),
    ← List.cons_append]
  congr 1
  induction blanks using List.reverseRecOn with
  | nil =>
    obtain ⟨before, hbefore⟩ := List.getLast?_eq_some_iff.mp hlast
    rw [List.append_nil, hbefore, List.rdropWhile_concat_neg _ _ _ (by simp [hl])]
  | append_singleton blanks blank ih =>
    rw [← List.append_assoc, List.rdropWhile_concat_pos _ _ _ (hblanks blank (by simp))]
    exact ih fun c hc => hblanks c (by simp [hc])

theorem Solid.append {l l' : List Char} (h : Solid l) (h' : Solid l') (between : List Char) :
    Solid (l ++ between ++ l') := by
  obtain ⟨first, hfirst, hf⟩ := h.head
  obtain ⟨last, hlast, hl⟩ := h'.last
  constructor
  · refine ⟨first, ?_, hf⟩
    rw [List.append_assoc, List.head?_append, Option.mem_def.mp hfirst]
    rfl
  · refine ⟨last, ?_, hl⟩
    rw [List.getLast?_append, Option.mem_def.mp hlast]
    rfl

theorem Solid.intercalate {sep : List Char} {parts : List (List Char)} (hne : parts ≠ [])
    (h : ∀ part ∈ parts, Solid part) : Solid (sep.intercalate parts) := by
  induction parts with
  | nil => exact absurd rfl hne
  | cons part parts ih =>
    have hpart := h part List.mem_cons_self
    cases parts with
    | nil => simpa using hpart
    | cons next parts =>
      rw [List.intercalate_cons_cons]
      exact hpart.append (ih (List.cons_ne_nil _ _) fun part hp => h part (List.mem_cons_of_mem _ hp)) sep

/-- Lines that are each terminated are found again. -/
theorem split_trim_lines {lines : List String} (hne : lines ≠ [])
    (hsolid : ∀ line ∈ lines, Solid line.toList) (hline : ∀ line ∈ lines, '\n' ∉ line.toList) :
    split '\n' (trim (.ofList (lines.flatMap fun line => line.toList ++ ['\n']))) = lines := by
  have hparts : lines.map String.toList ≠ [] := by simpa using hne
  have hjoined : Solid (['\n'].intercalate (lines.map String.toList)) :=
    Solid.intercalate hparts (by simpa using hsolid)
  have hflat : (lines.flatMap fun line => line.toList ++ ['\n']) =
      ['\n'].intercalate (lines.map String.toList) ++ ['\n'] := by
    rw [← flatMap_terminated '\n' hparts, List.flatMap_map]
  rw [hflat, hjoined.trim_append (by simp; decide)]
  exact split_join hne hline

end Mozaic.Text
