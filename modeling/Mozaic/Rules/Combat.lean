import Mozaic.Rules.Basic

/-! Combat in closed form: the largest fleet survives with what it has over the
second largest, and nobody survives a draw. -/
namespace Mozaic.Rules
open Rust Outcome

variable {F : Type}

/-- Descending by ship count, the order a combat starts from. -/
abbrev Ranked (fleets : List Fleet) : Prop :=
  fleets.Pairwise fun a b => b.shipCount ≤ a.shipCount

def ranking (fleets : List Fleet) : List Fleet :=
  fleets.insertionSort fun a b => b.shipCount ≤ a.shipCount

def Fleet.lose (n : Nat) (f : Fleet) : Fleet := { f with shipCount := f.shipCount - n }

@[simp] theorem Fleet.lose_shipCount (n : Nat) (f : Fleet) :
    (f.lose n).shipCount = f.shipCount - n := rfl
@[simp] theorem Fleet.lose_owner (n : Nat) (f : Fleet) : (f.lose n).owner = f.owner := rfl
@[simp] theorem Fleet.lose_lose (m n : Nat) (f : Fleet) : (f.lose m).lose n = f.lose (m + n) := by
  simp [Fleet.lose, Nat.sub_sub]

/-- What a combat leaves of fleets listed from the largest down. -/
def survivors : List Fleet → List Fleet
  | a :: b :: _ => if b.shipCount < a.shipCount then [a.lose b.shipCount] else []
  | fleets => fleets

/-- As `survivors`, with a lone fleet meeting an opponent of no ships. -/
private def duel : List Fleet → List Fleet
  | [] => []
  | [a] => if 0 < a.shipCount then [a] else []
  | a :: b :: _ => if b.shipCount < a.shipCount then [a.lose b.shipCount] else []

private theorem lose_zero (f : Fleet) : f.lose 0 = f := rfl

private theorem duel_rdropWhile (l : List Fleet) :
    duel (l.rdropWhile fun f => f.shipCount = 0) = duel l := by
  induction l using List.reverseRecOn with
  | nil => rfl
  | append_singleton l z ih =>
    by_cases hz : z.shipCount = 0
    · rw [List.rdropWhile_concat_pos _ _ _ (by simpa using hz), ih]
      rcases l with - | ⟨a, - | ⟨b, l⟩⟩ <;> simp [duel, hz, lose_zero]
    · rw [List.rdropWhile_concat_neg _ _ _ (by simpa using hz)]

private theorem survivors_rdropWhile (l : List Fleet) :
    survivors (l.rdropWhile fun f => f.shipCount = 0) =
      duel (l.rdropWhile fun f => f.shipCount = 0) := by
  have hself := List.rdropWhile_idempotent (fun f : Fleet => f.shipCount = 0) l
  generalize l.rdropWhile (fun f => f.shipCount = 0) = rest at hself ⊢
  rcases rest with - | ⟨a, - | ⟨b, rest⟩⟩
  · rfl
  · have ha : 0 < a.shipCount := by
      by_contra h
      simp [List.rdropWhile_singleton, Nat.eq_zero_of_not_pos h] at hself
    simp [survivors, duel, ha]
  · rfl

/-- The smallest fleet going down changes nothing for the others among themselves. -/
private theorem duel_map_lose {init : List Fleet} {f : Fleet} (hinit : init ≠ [])
    (hf : ∀ a ∈ init, f.shipCount ≤ a.shipCount) :
    duel (init.map (Fleet.lose f.shipCount)) = survivors (init ++ [f]) := by
  rcases init with - | ⟨a, - | ⟨b, l⟩⟩
  · exact absurd rfl hinit
  · simp [duel, survivors]
  · have ha := hf a (by simp)
    have hb := hf b (by simp)
    simp only [List.map_cons, duel, List.cons_append, survivors, Fleet.lose_shipCount,
      Fleet.lose_lose]
    rw [show f.shipCount + (b.shipCount - f.shipCount) = b.shipCount by omega]
    have : b.shipCount - f.shipCount < a.shipCount - f.shipCount ↔ b.shipCount < a.shipCount := by
      omega
    simp only [this]

/-- A round of the combat, in which fleets without ships are dropped from the end. -/
theorem survivors_round {init : List Fleet} {f : Fleet} (hinit : init ≠ [])
    (hf : ∀ a ∈ init, f.shipCount ≤ a.shipCount) :
    survivors ((init.map (Fleet.lose f.shipCount)).rdropWhile fun g => g.shipCount = 0) =
      survivors (init ++ [f]) := by
  rw [survivors_rdropWhile, duel_rdropWhile, duel_map_lose hinit hf]

private theorem mapM_lose {l : List Fleet} {n : Nat} (h : ∀ a ∈ l, n ≤ a.shipCount) :
    l.mapM (fun other => do
      let shipCount ← checkedSub (κ := Counter) other.shipCount n
      pure { other with shipCount }) = .ok (l.map (Fleet.lose n)) := by
  induction l with
  | nil => rfl
  | cons a l ih =>
    rw [List.mapM_cons, ih fun b hb => h b (List.mem_cons_of_mem a hb),
      checkedSub_of_le (h a List.mem_cons_self)]
    rfl

/-- No subtraction underflows, the fuel suffices and the rounds have this result. -/
theorem combatRounds_eq {fuel : Nat} {fleets : List Fleet} (hr : Ranked fleets)
    (hf : fleets.length ≤ fuel) : Planet.combatRounds fuel fleets = .ok (survivors fleets) := by
  induction fuel generalizing fleets with
  | zero => simp [List.length_eq_zero_iff.mp (Nat.le_zero.mp hf), Planet.combatRounds, survivors]
  | succ fuel ih =>
    rw [Planet.combatRounds]
    split
    · rename_i hlen
      obtain ⟨init, f, rfl⟩ := List.eq_nil_or_concat' fleets |>.resolve_left (by
        intro heq
        subst heq
        simp at hlen)
      have hinit : init ≠ [] := by
        intro heq
        subst heq
        simp at hlen
      have hsmall : ∀ a ∈ init, f.shipCount ≤ a.shipCount := by
        intro a ha
        exact (List.pairwise_append.mp hr).2.2 a ha f (by simp)
      have hrest : Ranked (init.map (Fleet.lose f.shipCount)) := by
        refine List.pairwise_map.mpr ((List.pairwise_append.mp hr).1.imp fun h => ?_)
        exact Nat.sub_le_sub_right h _
      simp only [List.getLast?_concat, unwrap_some, ok_bind, List.dropLast_concat,
        mapM_lose hsmall]
      have hpre := List.rdropWhile_prefix (fun g : Fleet => g.shipCount = 0)
        (l := init.map (Fleet.lose f.shipCount))
      rw [ih (hrest.sublist hpre.sublist), survivors_round hinit hsmall]
      have := hpre.length_le
      simp only [List.length_map, List.length_append, List.length_cons, List.length_nil] at this hf
      omega
    · rename_i hlen
      rcases fleets with - | ⟨a, - | ⟨b, l⟩⟩
      · rfl
      · rfl
      · simp at hlen

theorem ranked_ranking (fleets : List Fleet) : Ranked (ranking fleets) := by
  have : Std.Total fun a b : Fleet => b.shipCount ≤ a.shipCount := ⟨fun a b => Nat.le_total _ _⟩
  have : IsTrans Fleet fun a b : Fleet => b.shipCount ≤ a.shipCount := ⟨fun _ _ _ h h' => h'.trans h⟩
  exact List.pairwise_insertionSort _ fleets

theorem ranking_perm (fleets : List Fleet) : (ranking fleets).Perm fleets :=
  List.perm_insertionSort _ fleets

/-- The fleets a combat leaves on a planet with these fleets. -/
def combat (fleets : List Fleet) : List Fleet := survivors (ranking fleets)

theorem Planet.resolveCombat_eq (p : Planet F) :
    p.resolveCombat = .ok { p with fleets := combat p.fleets } := by
  have h := combatRounds_eq (ranked_ranking p.fleets) (Nat.le_refl _)
  unfold ranking at h
  simp only [Planet.resolveCombat, h, ok_bind]
  rfl

private theorem survivors_cases (l : List Fleet) :
    survivors l = [] ∨ ∃ f ∈ l, ∃ n, survivors l = [f.lose n] := by
  rcases l with - | ⟨a, - | ⟨b, l⟩⟩
  · exact .inl rfl
  · exact .inr ⟨a, by simp, 0, rfl⟩
  · simp only [survivors]
    split
    · exact .inr ⟨a, by simp, b.shipCount, rfl⟩
    · exact .inl rfl

/-- A combat leaves nothing, or one of the fleets with fewer ships. -/
theorem combat_cases (fleets : List Fleet) :
    combat fleets = [] ∨ ∃ f ∈ fleets, ∃ n, combat fleets = [f.lose n] := by
  rcases survivors_cases (ranking fleets) with h | ⟨f, hf, n, h⟩
  · exact .inl h
  · exact .inr ⟨f, (ranking_perm fleets).mem_iff.mp hf, n, h⟩

theorem length_combat_le (fleets : List Fleet) : (combat fleets).length ≤ 1 := by
  rcases combat_cases fleets with h | ⟨f, _, n, h⟩ <;> simp [h]

private theorem survivors_congr {l l' : List Fleet} (hl : Ranked l) (hl' : Ranked l')
    (h : l.Perm l') : survivors l = survivors l' := by
  have hships : l.map (·.shipCount) = l'.map (·.shipCount) := by
    refine @List.Perm.eq_of_pairwise _ (fun a b => b ≤ a) _ _ ?_ ?_ ?_ (h.map _)
    · exact fun a b _ _ hab hba => Nat.le_antisymm hba hab
    · exact List.pairwise_map.mpr hl
    · exact List.pairwise_map.mpr hl'
  rcases l with - | ⟨a, - | ⟨b, l⟩⟩
  · rw [List.nil_perm.mp h]
  · rw [List.singleton_perm.mp h]
  · rcases l' with - | ⟨a', - | ⟨b', l'⟩⟩
    · exact absurd h.length_eq (by simp)
    · exact absurd h.length_eq (by simp)
    · simp only [List.map_cons, List.cons.injEq] at hships
      obtain ⟨ha, hb, _⟩ := hships
      simp only [survivors, ha, hb]
      split
      · -- the largest fleet stands alone at the top, so both lists start with it
        rename_i hlt
        have hmem : a' ∈ a :: b :: l := h.mem_iff.mpr (by simp)
        rcases List.mem_cons.mp hmem with rfl | hmem
        · rfl
        · have hle : a'.shipCount ≤ b.shipCount := by
            rcases List.mem_cons.mp hmem with rfl | hmem
            · exact Nat.le_refl _
            · exact (List.pairwise_cons.mp (List.pairwise_cons.mp hl).2).1 a' hmem
          omega
      · rfl

theorem combat_eq_survivors {fleets l : List Fleet} (hl : Ranked l) (h : l.Perm fleets) :
    combat fleets = survivors l :=
  survivors_congr (ranked_ranking _) hl ((ranking_perm _).trans h.symm)

/-- Neither the order of the fleets nor the sort's treatment of draws matters. -/
theorem combat_congr {fleets fleets' : List Fleet} (h : fleets.Perm fleets') :
    combat fleets = combat fleets' :=
  survivors_congr (ranked_ranking _) (ranked_ranking _)
    ((ranking_perm _).trans (h.trans (ranking_perm _).symm))

/-- The ship counts on a planet from the largest down. -/
def shipRanking (fleets : List Fleet) : List Nat := (ranking fleets).map (·.shipCount)

def largest (fleets : List Fleet) : Nat := (shipRanking fleets).getD 0 0
def secondLargest (fleets : List Fleet) : Nat := (shipRanking fleets).getD 1 0

/-- After the combat the planet holds the largest less the second largest count. -/
theorem sum_combat (fleets : List Fleet) :
    ((combat fleets).map (·.shipCount)).sum = largest fleets - secondLargest fleets := by
  have hr := ranked_ranking fleets
  simp only [combat, largest, secondLargest, shipRanking]
  rcases ranking fleets with - | ⟨a, - | ⟨b, l⟩⟩
  · rfl
  · simp [survivors]
  · simp only [survivors, List.map_cons, List.getD_cons_zero, List.getD_cons_succ]
    split
    · simp
    · simp only [List.map_nil, List.sum_nil]
      omega

end Mozaic.Rules
