import Mozaic.Rules.Arrivals
import Mozaic.Rules.Combat

/-! The rule of combat as players are told it, and as a closed form: both are what the
rounds of a combat come to. -/
namespace Mozaic.Rules
open Rust Outcome

variable {F : Type}

/-- The rule in the description of the game: the ships of the party with the lowest ship
count are subtracted from all other parties, and this repeats until at most one party with
ships remains. -/
inductive Attrition : List Fleet → List Fleet → Prop where
  | settled {fleets : List Fleet} (h : fleets.length ≤ 1) : Attrition fleets fleets
  | round {fleets rest result : List Fleet} {f : Fleet} (hperm : fleets.Perm (f :: rest))
      (hrest : rest ≠ []) (hlowest : ∀ a ∈ rest, f.shipCount ≤ a.shipCount)
      (hnext : Attrition ((rest.map (Fleet.lose f.shipCount)).filter fun a => 0 < a.shipCount)
        result) :
      Attrition fleets result

/-- The owner of the single largest fleet keeps what it has over the second largest, and
nobody keeps anything if two fleets are the largest. -/
structure ClosedForm (fleets result : List Fleet) : Prop where
  alone : fleets.length ≤ 1 → result = fleets
  won : ∀ a ∈ fleets, ∀ b ∈ fleets, b.shipCount < a.shipCount →
    (∀ c ∈ fleets, c ≠ a → c.shipCount ≤ b.shipCount) → result = [a.lose b.shipCount]
  drawn : ∀ a ∈ fleets, ∀ b ∈ fleets, a ≠ b → a.shipCount = b.shipCount →
    (∀ c ∈ fleets, c.shipCount ≤ a.shipCount) → result = []

/-! ## The rule -/

/-- The fleets without ships are the last ones. -/
theorem rdropWhile_eq_filter {l : List Fleet} (h : Ranked l) :
    (l.rdropWhile fun f => f.shipCount = 0) = l.filter fun f => 0 < f.shipCount := by
  induction l using List.reverseRecOn with
  | nil => rfl
  | append_singleton l z ih =>
    obtain ⟨hl, -, hz⟩ := List.pairwise_append.mp h
    by_cases hzero : z.shipCount = 0
    · rw [List.rdropWhile_concat_pos _ _ _ (by simpa using hzero), ih hl, List.filter_append]
      simp [hzero]
    · rw [List.rdropWhile_concat_neg _ _ _ (by simpa using hzero), List.filter_eq_self.mpr]
      intro a ha
      have hle : z.shipCount ≤ a.shipCount := by
        rcases List.mem_append.mp ha with ha | ha
        · exact hz a ha z List.mem_cons_self
        · rw [List.mem_singleton.mp ha]
      simp only [decide_eq_true_eq]
      omega

/-- A round does not change what the combat comes to. -/
theorem combat_round {fleets rest : List Fleet} {f : Fleet} (hperm : fleets.Perm (f :: rest))
    (hrest : rest ≠ []) (hlowest : ∀ a ∈ rest, f.shipCount ≤ a.shipCount) :
    combat ((rest.map (Fleet.lose f.shipCount)).filter fun a => 0 < a.shipCount) =
      combat fleets := by
  have hranking := ranking_perm rest
  have hne : ranking rest ≠ [] := fun h => hrest (List.nil_perm.mp (h ▸ hranking))
  have hlow (a : Fleet) (ha : a ∈ ranking rest) : f.shipCount ≤ a.shipCount :=
    hlowest a (hranking.mem_iff.mp ha)
  have hlast : Ranked (ranking rest ++ [f]) := by
    refine List.pairwise_append.mpr ⟨ranked_ranking rest, List.pairwise_singleton _ _, ?_⟩
    intro a ha b hb
    rw [List.mem_singleton.mp hb]
    exact hlow a ha
  have hlost : Ranked ((ranking rest).map (Fleet.lose f.shipCount)) := by
    refine List.pairwise_map.mpr ((ranked_ranking rest).imp fun h => ?_)
    exact Nat.sub_le_sub_right h _
  have hfleets : (ranking rest ++ [f]).Perm fleets :=
    (List.perm_append_singleton _ _).trans ((hranking.cons f).trans hperm.symm)
  rw [combat_eq_survivors hlast hfleets, ← survivors_round hne hlow, rdropWhile_eq_filter hlost]
  exact combat_eq_survivors (hlost.sublist List.filter_sublist)
    ((hranking.map _).filter _)

theorem combat_of_length_le {fleets : List Fleet} (h : fleets.length ≤ 1) :
    combat fleets = fleets := by
  rcases fleets with - | ⟨a, - | ⟨b, fleets⟩⟩
  · rfl
  · rfl
  · simp at h

theorem exists_lowest {fleets : List Fleet} (h : fleets ≠ []) :
    ∃ f rest, fleets.Perm (f :: rest) ∧ ∀ a ∈ rest, f.shipCount ≤ a.shipCount := by
  obtain ⟨init, f, heq⟩ := (List.eq_nil_or_concat' (ranking fleets)).resolve_left
    fun hnil => h (List.nil_perm.mp (hnil ▸ ranking_perm fleets))
  have hranked := ranked_ranking fleets
  have hperm := ranking_perm fleets
  rw [heq] at hranked hperm
  refine ⟨f, init, hperm.symm.trans (List.perm_append_singleton f init), fun a ha => ?_⟩
  exact (List.pairwise_append.mp hranked).2.2 a ha f List.mem_cons_self

/-- Whichever of the lowest parties is taken in each round. -/
theorem attrition_iff {fleets result : List Fleet} :
    Attrition fleets result ↔ result = combat fleets := by
  constructor
  · intro h
    induction h with
    | settled h => exact (combat_of_length_le h).symm
    | round hperm hrest hlowest _ ih => rw [ih, combat_round hperm hrest hlowest]
  · rintro rfl
    induction hlen : fleets.length using Nat.strong_induction_on generalizing fleets with
    | _ n ih =>
      by_cases hover : fleets.length ≤ 1
      · rw [combat_of_length_le hover]
        exact .settled hover
      · have hsome : fleets ≠ [] := by
          rintro rfl
          exact hover (Nat.zero_le 1)
        obtain ⟨f, rest, hperm, hlowest⟩ := exists_lowest hsome
        have hlength := hperm.length_eq
        rw [List.length_cons] at hlength
        have hrest : rest ≠ [] := by
          rintro rfl
          exact hover (by rw [hlength, List.length_nil])
        rw [← combat_round hperm hrest hlowest]
        refine .round hperm hrest hlowest (ih _ ?_ rfl)
        have hfilter := List.length_filter_le (fun a : Fleet => 0 < a.shipCount)
          (rest.map (Fleet.lose f.shipCount))
        rw [List.length_map] at hfilter
        omega

/-! ## The closed form -/

section Ranking
variable {fleets l : List Fleet} {a b : Fleet}

/-- The fleets at the top of a ranking between distinct owners. -/
theorem ranking_top (hdistinct : OwnersDistinct fleets) (h : ranking fleets = a :: b :: l) :
    a ∈ fleets ∧ b ∈ fleets ∧ a ≠ b ∧ b.shipCount ≤ a.shipCount ∧
      (∀ c ∈ fleets, c.shipCount ≤ a.shipCount) ∧
      ∀ c ∈ fleets, c ≠ a → c.shipCount ≤ b.shipCount := by
  have hperm := ranking_perm fleets
  have hranked := ranked_ranking fleets
  have hnodup : (ranking fleets).Nodup := hperm.nodup_iff.mpr hdistinct.of_map
  rw [h] at hperm hranked hnodup
  obtain ⟨hfirst, hranked⟩ := List.pairwise_cons.mp hranked
  obtain ⟨hsecond, -⟩ := List.pairwise_cons.mp hranked
  have hbelow (c : Fleet) (hc : c ∈ b :: l) : c.shipCount ≤ b.shipCount := by
    rcases List.mem_cons.mp hc with rfl | hc
    · exact le_rfl
    · exact hsecond c hc
  refine ⟨hperm.subset (by simp), hperm.subset (by simp), ?_, hfirst b List.mem_cons_self, ?_, ?_⟩
  · rintro rfl
    exact (List.nodup_cons.mp hnodup).1 List.mem_cons_self
  · intro c hc
    rcases List.mem_cons.mp (hperm.symm.subset hc) with rfl | hc
    · exact le_rfl
    · exact hfirst c hc
  · intro c hc hne
    exact hbelow c ((List.mem_cons.mp (hperm.symm.subset hc)).resolve_left hne)

theorem exists_ranking_top (ha : a ∈ fleets) (hb : b ∈ fleets) (hne : a ≠ b) :
    ∃ a' b' l, ranking fleets = a' :: b' :: l := by
  have hperm := ranking_perm fleets
  rw [← hperm.mem_iff] at ha hb
  rcases htop : ranking fleets with - | ⟨a', - | ⟨b', l⟩⟩ <;> rw [htop] at ha hb
  · cases ha
  · exact absurd ((List.mem_singleton.mp ha).trans (List.mem_singleton.mp hb).symm) hne
  · exact ⟨a', b', l, rfl⟩

theorem length_le_of_ranking (h : (ranking fleets).length ≤ 1) : fleets.length ≤ 1 :=
  (ranking_perm fleets).length_eq ▸ h

end Ranking

theorem combat_closedForm {fleets : List Fleet} (h : OwnersDistinct fleets) :
    ClosedForm fleets (combat fleets) := by
  refine ⟨combat_of_length_le, fun a ha b hb hlt hsecond => ?_, fun a ha b hb hne heq hmax => ?_⟩
  · have hne : a ≠ b := by
      rintro rfl
      exact lt_irrefl _ hlt
    obtain ⟨a', b', l, htop⟩ := exists_ranking_top ha hb hne
    obtain ⟨ha', hb', hne', -, hmax', hsecond'⟩ := ranking_top h htop
    obtain rfl : a' = a := by
      by_contra hother
      exact absurd ((hmax' a ha).trans (hsecond a' ha' hother)) (Nat.not_le_of_lt hlt)
    have heq : b'.shipCount = b.shipCount :=
      Nat.le_antisymm (hsecond b' hb' hne'.symm) (hsecond' b hb hne.symm)
    rw [combat, htop, survivors, heq, if_pos hlt]
  · obtain ⟨a', b', l, htop⟩ := exists_ranking_top ha hb hne
    obtain ⟨ha', -, -, -, -, hsecond'⟩ := ranking_top h htop
    have hdraw : a'.shipCount ≤ b'.shipCount := by
      refine (hmax a' ha').trans ?_
      by_cases hfirst : a = a'
      · rw [heq]
        exact hsecond' b hb (hfirst ▸ hne.symm)
      · exact hsecond' a ha hfirst
    rw [combat, htop, survivors, if_neg (Nat.not_lt.mpr hdraw)]

/-- The closed form says what the result is, and it is the result of the combat. -/
theorem closedForm_iff {fleets result : List Fleet} (h : OwnersDistinct fleets) :
    ClosedForm fleets result ↔ result = combat fleets := by
  constructor
  · intro hform
    rcases htop : ranking fleets with - | ⟨a, - | ⟨b, l⟩⟩
    · have hfew : fleets.length ≤ 1 := length_le_of_ranking (by simp [htop])
      rw [hform.alone hfew, combat_of_length_le hfew]
    · have hfew : fleets.length ≤ 1 := length_le_of_ranking (by simp [htop])
      rw [hform.alone hfew, combat_of_length_le hfew]
    · obtain ⟨ha, hb, hne, hle, hmax, hsecond⟩ := ranking_top h htop
      rw [combat, htop, survivors]
      split
      · rename_i hlt
        exact hform.won a ha b hb hlt hsecond
      · rename_i hlt
        exact hform.drawn a ha b hb hne (Nat.le_antisymm (Nat.le_of_not_lt hlt) hle) hmax
  · rintro rfl
    exact combat_closedForm h

/-! ## Combat -/

/-- A combat between distinct owners ends without an underflow. What it leaves is the closed
form, is what the rule of the game leaves, and does not depend on the order of the fleets. -/
theorem Planet.resolveCombat_closedForm (p : Planet F) (h : OwnersDistinct p.fleets) :
    ∃ fleets, (∀ q : Planet F, q.fleets.Perm p.fleets → q.resolveCombat = .ok { q with fleets }) ∧
      (∀ result, ClosedForm p.fleets result ↔ result = fleets) ∧
      ∀ result, Attrition p.fleets result ↔ result = fleets := by
  refine ⟨combat p.fleets, fun q hq => ?_, fun _ => closedForm_iff h, fun _ => attrition_iff⟩
  rw [q.resolveCombat_eq, combat_congr hq]

/-- Three parties and the neutral garrison, two of the parties as strong as each other. -/
theorem Planet.resolveCombat_closedForm_skirmish : ∃ p : Planet Int,
    p.fleets = [⟨none, 0⟩, ⟨some 0, 3⟩, ⟨some 1, 7⟩, ⟨some 2, 3⟩] ∧
    ∃ fleets, (∀ q : Planet Int, q.fleets.Perm p.fleets → q.resolveCombat = .ok { q with fleets }) ∧
      (∀ result, ClosedForm p.fleets result ↔ result = fleets) ∧
      ∀ result, Attrition p.fleets result ↔ result = fleets :=
  ⟨⟨0, "p", [⟨none, 0⟩, ⟨some 0, 3⟩, ⟨some 1, 7⟩, ⟨some 2, 3⟩], 0, 0⟩, rfl,
    Planet.resolveCombat_closedForm _ (by simp [OwnersDistinct])⟩

end Mozaic.Rules
