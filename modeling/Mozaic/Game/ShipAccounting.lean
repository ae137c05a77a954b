import Mozaic.Game.Turn

/-! Where the ships are. A tally counts the ships of some owners on planets and in
expeditions; only repopulation adds to it and only combat takes away from it. -/
namespace Mozaic
open Rust Rules Network Outcome

variable {F : Type}

/-- The ships of the owners `q` among the fleets. -/
def shipsWhere (q : Option PlayerId → Bool) (fleets : List Fleet) : Nat :=
  (fleets.map fun f => if q f.owner then f.shipCount else 0).sum

@[simp] theorem shipsWhere_nil (q : Option PlayerId → Bool) : shipsWhere q [] = 0 := rfl

@[simp] theorem shipsWhere_cons (q : Option PlayerId → Bool) (f : Fleet) (fleets : List Fleet) :
    shipsWhere q (f :: fleets) = (if q f.owner then f.shipCount else 0) + shipsWhere q fleets := by
  simp [shipsWhere]

@[simp] theorem shipsWhere_append (q : Option PlayerId → Bool) (l l' : List Fleet) :
    shipsWhere q (l ++ l') = shipsWhere q l + shipsWhere q l' := by
  simp [shipsWhere]

theorem shipsWhere_perm (q : Option PlayerId → Bool) {l l' : List Fleet} (h : l.Perm l') :
    shipsWhere q l = shipsWhere q l' :=
  (h.map _).sum_eq

theorem shipsOf_eq_shipsWhere (o : Option PlayerId) (fleets : List Fleet) :
    shipsOf o fleets = shipsWhere (· == o) fleets := by
  simp [shipsOf, shipsWhere]

theorem shipsWhere_le (q : Option PlayerId → Bool) (fleets : List Fleet) :
    shipsWhere q fleets ≤ shipsWhere (fun _ => true) fleets := by
  induction fleets with
  | nil => exact Nat.le_refl _
  | cons f fleets ih =>
    simp only [shipsWhere_cons, if_true]
    split <;> omega

theorem shipsWhere_of_mem {q : Option PlayerId → Bool} {f : Fleet} {fleets : List Fleet}
    (hf : f ∈ fleets) (hq : q f.owner = true) : f.shipCount ≤ shipsWhere q fleets := by
  obtain ⟨l, l', rfl⟩ := List.append_of_mem hf
  simp only [shipsWhere_append, shipsWhere_cons, hq, if_true]
  omega

namespace Rules.PlanetWars

/-- The ships of the owners `q` in the whole game. -/
def tally (q : Option PlayerId → Bool) (s : PlanetWars F) : Nat :=
  (s.planets.map fun p => shipsWhere q p.fleets).sum + shipsWhere q (s.expeditions.map (·.fleet))

def totalShips (s : PlanetWars F) : Nat := s.tally fun _ => true

/-- The ships of one owner (`none`: neutral). -/
def shipsOwnedBy (s : PlanetWars F) (o : Option PlayerId) : Nat := s.tally (· == o)

/-- The number of planets with an owner. -/
def occupied (s : PlanetWars F) : Nat := s.planets.countP (·.owner.isSome)

end Rules.PlanetWars

theorem sum_map_set {α : Type} {l : List α} {i : Nat} {a : α} (h : l[i]? = some a) (b : α)
    (f : α → Nat) : ((l.set i b).map f).sum + f a = (l.map f).sum + f b := by
  obtain ⟨hi, rfl⟩ := List.getElem?_eq_some_iff.mp h
  induction l generalizing i with
  | nil => simp at hi
  | cons c l ih =>
    cases i with
    | zero =>
      simp only [List.set_cons_zero, List.map_cons, List.sum_cons, List.getElem_cons_zero]
      omega
    | succ i =>
      have hi' : i < l.length := by simpa using hi
      have := ih hi' (List.getElem?_eq_getElem hi')
      simp only [List.set_cons_succ, List.map_cons, List.sum_cons, List.getElem_cons_succ]
      omega

/-! ## Growth -/

theorem shipsWhere_grown (q : Option PlayerId → Bool) (p : Planet F) :
    shipsWhere q p.grown.fleets =
      shipsWhere q p.fleets + if p.owner.isSome && q p.owner then 1 else 0 := by
  rcases hf : p.fleets with - | ⟨f, fleets⟩
  · have ho : p.owner = none := by simp [Planet.owner, hf]
    simp [Planet.grown_of_neutral ho, hf, ho]
  · have ho : p.owner = f.owner := by simp [Planet.owner, hf]
    by_cases hs : f.owner.isSome
    · rw [Planet.grown_of_owner hf hs, ho]
      simp only [shipsWhere_cons, hs, Bool.true_and]
      split <;> omega
    · have hnone : p.owner = none := by simpa [ho] using hs
      rw [Planet.grown_of_neutral hnone, hf]
      simp [hnone]

/-- Repopulation builds one ship on every planet with an owner. -/
theorem totalShips_grown (s : PlanetWars F) : s.grown.totalShips = s.totalShips + s.occupied := by
  have hsum (planets : List (Planet F)) :
      ((planets.map Planet.grown).map fun p => shipsWhere (fun _ => true) p.fleets).sum =
        (planets.map fun p => shipsWhere (fun _ => true) p.fleets).sum +
          planets.countP (·.owner.isSome) := by
    induction planets with
    | nil => rfl
    | cons p planets ih =>
      simp only [List.map_cons, List.sum_cons, ih, shipsWhere_grown, Bool.and_true,
        List.countP_cons]
      omega
  simp only [PlanetWars.totalShips, PlanetWars.tally, PlanetWars.grown, PlanetWars.occupied, hsum]
  omega

/-! ## Dispatch -/

/-- Ships that leave a planet are in the expedition. -/
theorem tally_launch {s : PlanetWars F} {e : Expedition} {p : Planet F} {f : Fleet}
    {fleets : List Fleet} (hp : s.planets[e.origin]? = some p) (hf : p.fleets = f :: fleets)
    (ho : e.fleet.owner = f.owner) (hk : e.fleet.shipCount ≤ f.shipCount)
    (q : Option PlayerId → Bool) : (s.launch e).tally q = s.tally q := by
  have hset := sum_map_set hp (p.send e.fleet.shipCount) fun p => shipsWhere q p.fleets
  simp only [Planet.send, hf, List.modifyHead_cons, shipsWhere_cons] at hset
  simp only [PlanetWars.tally, PlanetWars.launch, depart_eq_set hp, Planet.send, List.map_append,
    List.map_cons, List.map_nil, shipsWhere_append, shipsWhere_cons, shipsWhere_nil, hf,
    List.modifyHead_cons, ho]
  split at hset
  · rename_i hq
    simp only [hq, if_true]
    omega
  · rename_i hq
    simp only [hq, Bool.false_eq_true, if_false]
    omega

theorem tally_launchAll {s : PlanetWars F} {es : List Expedition}
    (hes : AdmissibleAll s.planets es) (q : Option PlayerId → Bool) :
    (s.launchAll es).tally q = s.tally q := by
  induction es generalizing s with
  | nil => rfl
  | cons e es ih =>
    obtain ⟨p, hp, ho, hk⟩ := hes.1.origin
    obtain ⟨i, hi⟩ := Option.isSome_iff_exists.mp hes.1.owned
    obtain ⟨fleets, hf⟩ := Planet.fleets_of_owner (ho.trans hi)
    rw [PlanetWars.launchAll_cons, ih hes.2, tally_launch hp hf hi hk]

/-- A dispatch that does not fail changes nobody's number of ships. -/
theorem tally_dispatch [F64 F] (s : PlanetWars F) (d : Dispatch) (q : Option PlayerId → Bool) :
    Safe (fun _ => True) (fun t => t.tally q = s.tally q) (s.dispatch d) := by
  cases h : s.dispatch d with
  | error e => trivial
  | ok t =>
    obtain ⟨origin, ho, target, ht, fleet, hf, n, hn, _⟩ := by
      simpa only [PlanetWars.dispatch, bind_eq_ok, index_eq_ok] using h
    have hk : d.shipCount ≤ fleet.shipCount := by
      unfold checkedSub at hn
      split at hn
      · assumption
      · cases hn
    rcases hfl : origin.fleets with - | ⟨f, fleets⟩
    · simp [hfl] at hf
    · obtain rfl : f = fleet := by simpa [hfl] using hf
      rw [PlanetWars.dispatch_eq ho ht hfl hk] at h
      cases hc : checkedAdd Counter.expeditionNum s.expeditionNum 1 with
      | error e => simp [hc] at h
      | ok m =>
        rw [hc, map_ok] at h
        cases h
        exact tally_launch ho hfl rfl hk q

/-! ## The expedition loop -/

private theorem shipsWhere_mergeFleet (q : Option PlayerId → Bool) (f : Fleet)
    (fleets : List Fleet) :
    Safe (fun _ => True) (fun after => shipsWhere q after = shipsWhere q fleets + shipsWhere q [f])
      (Planet.mergeFleet f fleets) := by
  induction fleets with
  | nil => simp [Planet.mergeFleet]
  | cons other rest ih =>
    rw [Planet.mergeFleet]
    split
    · rename_i ho
      refine Safe.bind (P := (· = other.shipCount + f.shipCount))
        (checkedAdd_safe (fun _ => trivial) fun _ => rfl) ?_
      intro _ heq
      subst heq
      simp only [safe_pure, shipsWhere_cons, shipsWhere_nil, ho]
      split <;> omega
    · refine ih.bind fun rest' h => ?_
      simp only [safe_pure, shipsWhere_cons, h]
      omega

private theorem tally_visit (q : Option PlayerId → Bool) (s : PlanetWars F) (e : Expedition) :
    Safe (fun _ => True) (fun t => t.tally q = s.tally q + shipsWhere q [e.fleet]) (s.visit e) := by
  rw [PlanetWars.visit]
  split
  · rw [deliver]
    cases hp : index (κ := Counter) s.planets e.target with
    | error err => trivial
    | ok p =>
      simp only [ok_bind, Planet.orbit, bind_assoc, pure_bind]
      refine (shipsWhere_mergeFleet q e.fleet p.fleets).bind fun fleets h => ?_
      have hset := sum_map_set (index_eq_ok.mp hp) { p with fleets } fun p => shipsWhere q p.fleets
      simp only [safe_pure, PlanetWars.tally, h] at hset ⊢
      omega
  · cases markAlive s.players e.fleet.owner with
    | error err => trivial
    | ok players =>
      simp only [ok_bind, safe_pure, PlanetWars.tally, List.map_append, List.map_cons, List.map_nil,
        shipsWhere_append, Expedition.advance_fleet]
      omega

/-- The expedition loop moves ships from expeditions to planets. -/
theorem tally_stepExpeditions (q : Option PlayerId → Bool) (s : PlanetWars F) :
    Safe (fun _ => True) (fun t => t.tally q = s.tally q) s.stepExpeditions := by
  rw [s.stepExpeditions_eq]
  refine Safe.weaken (Safe.foldlM_prefix (I := fun done t =>
    t.tally q = { s with expeditions := [] : PlanetWars F }.tally q +
      shipsWhere q (done.map (·.fleet))) (by simp) ?_) ?_
  · intro done e rest _ t ht
    refine (tally_visit q t e).weaken fun t' ht' => ?_
    rw [ht', ht, List.map_append, shipsWhere_append, List.map_singleton, Nat.add_assoc]
  · intro t ht
    have hperm := (sweepOrder_perm Expedition.landing s.expeditions).map (·.fleet)
    rw [ht, shipsWhere_perm q hperm]
    simp [PlanetWars.tally]

/-! ## Combat -/

/-- Nobody gets ships in a combat. -/
theorem shipsWhere_combat_le (q : Option PlayerId → Bool) (fleets : List Fleet) :
    shipsWhere q (combat fleets) ≤ shipsWhere q fleets := by
  rcases combat_cases fleets with h | ⟨f, hf, n, h⟩
  · simp [h]
  · rw [h, shipsWhere_cons, shipsWhere_nil, Fleet.lose_owner, Fleet.lose_shipCount]
    split
    · rename_i hq
      have := shipsWhere_of_mem hf hq
      omega
    · exact Nat.zero_le _

theorem tally_resolveCombat_le (q : Option PlayerId → Bool) (s : PlanetWars F) :
    Safe (fun _ => True) (fun t => t.tally q ≤ s.tally q) s.resolveCombat := by
  rw [PlanetWars.resolveCombat]
  refine Safe.bind (P := fun r : List (Planet F) × List Player =>
    (r.1.map fun p => shipsWhere q p.fleets).sum ≤
      (s.planets.map fun p => shipsWhere q p.fleets).sum) ?_ ?_
  · refine Safe.foldlM_prefix (I := fun done (r : List (Planet F) × List Player) =>
      (r.1.map fun p => shipsWhere q p.fleets).sum ≤
        (done.map fun p : Planet F => shipsWhere q p.fleets).sum) (Nat.le_refl _) ?_
    rintro done p rest _ ⟨planets, players⟩ h
    dsimp only at h ⊢
    rw [Planet.resolveCombat_eq, ok_bind]
    cases markAlive players { p with fleets := combat p.fleets }.owner with
    | error err => trivial
    | ok players' =>
      have := shipsWhere_combat_le q p.fleets
      simp only [ok_bind, safe_pure, List.map_append, List.map_singleton, List.sum_append,
        List.sum_singleton]
      omega
  · rintro ⟨planets, players⟩ h
    exact Nat.add_le_add_right h _

/-! ## Turns -/

/-- Once the orders are launched, a step gives ships to nobody. -/
theorem tally_step_le (q : Option PlayerId → Bool) (s : PlanetWars F) :
    Safe (fun _ => True) (fun t => t.tally q ≤ s.tally q) s.step := by
  rw [PlanetWars.step]
  refine Safe.bind (P := fun _ => True) (checkedAdd_safe (fun _ => trivial) fun _ => trivial) ?_
  intro turnNum _
  refine (tally_stepExpeditions q _).bind fun s₁ h₁ => ?_
  exact (tally_resolveCombat_le q s₁).weaken fun t ht => h₁ ▸ ht

theorem shipsWhere_planet_le (q : Option PlayerId → Bool) {s : PlanetWars F} {p : Planet F}
    (hp : p ∈ s.planets) :
    shipsWhere q p.fleets + shipsWhere q (s.expeditions.map (·.fleet)) ≤ s.totalShips := by
  have hplanet : shipsWhere (fun _ => true) p.fleets ≤
      (s.planets.map fun p => shipsWhere (fun _ => true) p.fleets).sum :=
    List.single_le_sum (fun _ _ => Nat.zero_le _) _ (List.mem_map_of_mem hp)
  have := shipsWhere_le q p.fleets
  have := shipsWhere_le q (s.expeditions.map (·.fleet))
  unfold PlanetWars.totalShips PlanetWars.tally
  omega

theorem shipsWhere_arrivalsAt_le (q : Option PlayerId → Bool) (expeditions : List Expedition)
    (i : Nat) : shipsWhere q (arrivalsAt expeditions i) ≤ shipsWhere q (expeditions.map (·.fleet)) :=
  ((List.filter_sublist.map _).map _).sum_le_sum fun _ _ => Nat.zero_le _

section Turns
variable [F64 F] [External F] {g g' : Game F} {messages : List (PlayerId × ResponseValue)}
  {actions : List (PlayerId × Proto.PlayerAction)}

theorem totalShips_ordered_le (g : Game F) (hnd : (messages.map Prod.fst).Nodup) :
    (g.ordered messages).state.totalShips ≤ g.state.totalShips + g.state.planets.length := by
  have horders := tally_launchAll (s := g.state.grown)
    (orders_admissible g.planetMap g.state.grown.planets hnd) fun _ => true
  have hgrown := totalShips_grown g.state
  have hcount : g.state.occupied ≤ g.state.planets.length := List.countP_le_length
  simp only [PlanetWars.totalShips, Game.ordered, Game.launchAll] at horders hgrown ⊢
  omega

/-- A turn adds at most one ship for every planet. -/
theorem TurnTaken.totalShips_le (h : TurnTaken g messages g' actions)
    (hnd : (messages.map Prod.fst).Nodup) :
    g'.state.totalShips ≤ g.state.totalShips + g.state.planets.length :=
  ((tally_step_le _ _).of_ok h.step).trans (totalShips_ordered_le g hnd)

/-- A ship count can only overflow when there are too many ships in the game. -/
theorem TurnOverflow.ships_ge {e : Panic} (h : TurnOverflow g messages e)
    (he : e = .addOverflow .shipCount) (hnd : (messages.map Prod.fst).Nodup) :
    2 ^ 64 ≤ g.state.totalShips + g.state.planets.length := by
  rcases h with ⟨_, p, hp, ho, hbig⟩ | rfl | ⟨rfl, _⟩ | ⟨_, i, p, o, hp, hbig⟩
  · obtain ⟨o, ho⟩ := Option.isSome_iff_exists.mp ho
    obtain ⟨fleets, hf⟩ := Planet.fleets_of_owner ho
    have hle := shipsWhere_planet_le (fun _ => true) hp
    have hpos := List.length_pos_of_mem hp
    simp only [hf, shipsWhere_cons, if_true] at hle
    omega
  · cases he
  · cases he
  · have hle := shipsWhere_planet_le (· == o) (List.mem_of_getElem? hp)
    have harr := shipsWhere_arrivalsAt_le (· == o) (g.ordered messages).state.expeditions i
    have htotal := totalShips_ordered_le g hnd
    rw [shipsOf_eq_shipsWhere, shipsOf_eq_shipsWhere] at hbig
    omega

/-- After `t` turns there are at most `t` ships more for every planet. -/
theorem play_totalShips_le (hg : g.Consistent) (inputs : List TurnInput) :
    Safe (fun e => ∃ counter, e = .addOverflow counter)
      (fun g' : Game F => g'.state.planets.length = g.state.planets.length ∧
        g'.state.totalShips ≤ g.state.totalShips + inputs.length * g.state.planets.length)
      (g.play inputs) := by
  refine Safe.weaken (Safe.foldlM_prefix (I := fun done (g' : Game F) => g'.Consistent ∧
    g'.state.planets.length = g.state.planets.length ∧
    g'.state.totalShips ≤ g.state.totalShips + done.length * g.state.planets.length)
    ⟨hg, rfl, by simp⟩ ?_) fun _ h => h.2
  intro done input rest _ t h
  obtain ⟨ht, hlen, htotal⟩ := h
  have hnd := HashMap.nodup_fst_entriesIn input.drainOrder input.messages
  refine ((Game.turn_safe ht input).mono (fun _ he => he.overflow) fun _ h => h).map fun r hr => ?_
  have hle := hr.totalShips_le hnd
  refine ⟨ht.taken hnd hr, hr.length_planets.trans hlen, ?_⟩
  rw [List.length_append, List.length_singleton, Nat.succ_mul]
  omega

end Turns
end Mozaic
