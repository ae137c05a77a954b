import Mozaic.Rules.Basic

/-! Merging fleets, and the expedition loop as one pass over the expeditions.
A garrison is what a list of fleets means: who is present, with how many ships. -/
namespace Mozaic.Rules
open Rust Outcome

variable {F : Type}

/-- The ships of one owner (`none`: neutral) among the fleets. -/
def shipsOf (o : Option PlayerId) (fleets : List Fleet) : Nat :=
  (fleets.map fun f => if f.owner = o then f.shipCount else 0).sum

@[simp] theorem shipsOf_nil (o : Option PlayerId) : shipsOf o [] = 0 := rfl

@[simp] theorem shipsOf_cons (o : Option PlayerId) (f : Fleet) (fleets : List Fleet) :
    shipsOf o (f :: fleets) = (if f.owner = o then f.shipCount else 0) + shipsOf o fleets := by
  simp [shipsOf]

@[simp] theorem shipsOf_append (o : Option PlayerId) (l l' : List Fleet) :
    shipsOf o (l ++ l') = shipsOf o l + shipsOf o l' := by
  simp [shipsOf]

theorem shipsOf_perm {l l' : List Fleet} (h : l.Perm l') (o : Option PlayerId) :
    shipsOf o l = shipsOf o l' :=
  (h.map _).sum_eq

/-- No owner has two fleets. -/
def OwnersDistinct (fleets : List Fleet) : Prop := (fleets.map (·.owner)).Nodup

theorem ownersDistinct_of_length_le {fleets : List Fleet} (h : fleets.length ≤ 1) :
    OwnersDistinct fleets := by
  rcases fleets with - | ⟨a, - | ⟨b, l⟩⟩
  · exact List.nodup_nil
  · exact List.nodup_singleton _
  · simp at h

/-! ## Garrisons -/

abbrev Garrison := Option PlayerId → Option Nat

def garrison (fleets : List Fleet) : Garrison :=
  fun o => (fleets.find? (·.owner = o)).map (·.shipCount)

/-- The strength of a fleet after `k` ships join it. -/
def reinforce : Option Nat → Nat → Except Panic Nat
  | none, k => .ok k
  | some n, k => checkedAdd .shipCount n k

/-- A fleet joins a garrison. -/
def Garrison.station (g : Garrison) (f : Fleet) : Except Panic Garrison :=
  (fun n => Function.update g f.owner (some n)) <$> reinforce (g f.owner) f.shipCount

@[simp] theorem garrison_nil : garrison [] = fun _ => none := rfl

@[simp] theorem garrison_cons (f : Fleet) (fleets : List Fleet) :
    garrison (f :: fleets) = Function.update (garrison fleets) f.owner (some f.shipCount) := by
  funext o
  by_cases h : f.owner = o
  · subst o
    simp [garrison]
  · simp [garrison, h, Function.update_of_ne (Ne.symm h)]

theorem garrison_eq_some {fleets : List Fleet} (h : OwnersDistinct fleets) {o : Option PlayerId}
    {n : Nat} : garrison fleets o = some n ↔ ⟨o, n⟩ ∈ fleets := by
  induction fleets with
  | nil => simp
  | cons f fleets ih =>
    obtain ⟨hf, hrest⟩ := List.nodup_cons.mp h
    rw [garrison_cons, List.mem_cons]
    by_cases ho : o = f.owner
    · subst o
      have : (⟨f.owner, n⟩ : Fleet) ∉ fleets := fun hm => hf (List.mem_map.mpr ⟨_, hm, rfl⟩)
      simp [this, Fleet.ext_iff, eq_comm]
    · rw [Function.update_of_ne ho, ih hrest]
      simp [Fleet.ext_iff, ho]

/-- Fleets of distinct owners are determined by their garrison, up to order. -/
theorem perm_of_garrison_eq {l l' : List Fleet} (h : OwnersDistinct l) (h' : OwnersDistinct l')
    (hg : garrison l = garrison l') : l.Perm l' := by
  rw [List.perm_ext_iff_of_nodup h.of_map h'.of_map]
  intro h
  obtain ⟨o, n⟩ := h
  rw [← garrison_eq_some h, ← garrison_eq_some h', hg]

/-- Merging a fleet is stationing it. -/
theorem garrison_mergeFleet (f : Fleet) (fleets : List Fleet) :
    garrison <$> Planet.mergeFleet f fleets = (garrison fleets).station f := by
  induction fleets with
  | nil => simp [Planet.mergeFleet, Garrison.station, reinforce]
  | cons other rest ih =>
    rw [Planet.mergeFleet]
    split
    · rename_i ho
      simp only [Garrison.station, garrison_cons, ← ho, Function.update_self, reinforce]
      cases checkedAdd Counter.shipCount other.shipCount f.shipCount with
      | error e => rfl
      | ok n => simp [ho, pure, Except.pure]
    · rename_i ho
      have hne : f.owner ≠ other.owner := fun h => ho h.symm
      have hmap : garrison <$> (do
          let rest ← Planet.mergeFleet f rest
          pure (other :: rest)) =
          (Function.update · other.owner (some other.shipCount)) <$>
            garrison <$> Planet.mergeFleet f rest := by
        cases Planet.mergeFleet f rest <;> simp [pure, Except.pure]
      rw [hmap, ih]
      simp only [Garrison.station, garrison_cons, Function.update_of_ne hne]
      cases reinforce (garrison rest f.owner) f.shipCount with
      | error e => rfl
      | ok n => simp [Function.update_comm hne]

private theorem reinforce_comm (n : Option Nat) (a b : Nat) :
    Agree Eq (reinforce n a >>= fun n => reinforce (some n) b)
      (reinforce n b >>= fun n => reinforce (some n) a) := by
  cases n with
  | none =>
    simp only [reinforce, ok_bind, checkedAdd, Nat.add_comm b]
    split <;> simp
  | some n =>
    simp only [reinforce, checkedAdd]
    by_cases h : n + a + b < 2 ^ 64
    · have h' : n + b + a < 2 ^ 64 := by omega
      rw [if_pos (by omega), if_pos (by omega)]
      simp only [ok_bind, if_pos h, if_pos h', agree_ok]
      omega
    · have h' : ¬ n + b + a < 2 ^ 64 := by omega
      split <;> split <;> simp only [ok_bind, error_bind, if_neg h, if_neg h', agree_error]

/-- Two fleets may join in either order. -/
theorem Garrison.station_comm (g : Garrison) (a b : Fleet) :
    Agree Eq (g.station a >>= (·.station b)) (g.station b >>= (·.station a)) := by
  by_cases h : a.owner = b.owner
  · have hpair (x y : Fleet) (hxy : x.owner = y.owner) : (g.station x >>= (·.station y)) =
        (fun n => Function.update g y.owner (some n)) <$>
          (reinforce (g y.owner) x.shipCount >>= fun n => reinforce (some n) y.shipCount) := by
      simp only [Garrison.station, hxy]
      cases reinforce (g y.owner) x.shipCount <;> simp
    rw [hpair a b h, hpair b a h.symm, h]
    exact (reinforce_comm _ _ _).map fun n m hnm => by rw [hnm]
  · have h' : b.owner ≠ a.owner := Ne.symm h
    unfold Garrison.station
    cases ha : reinforce (g a.owner) a.shipCount <;> cases hb : reinforce (g b.owner) b.shipCount <;>
      simp [ha, hb, Function.update_of_ne h', Function.update_of_ne h, Function.update_comm h]

/-- What merging a fleet does, owner by owner. -/
structure Merged (f : Fleet) (before after : List Fleet) : Prop where
  owners : after.map (·.owner) =
    if f.owner ∈ before.map (·.owner) then before.map (·.owner) else before.map (·.owner) ++ [f.owner]
  ships : ∀ o, shipsOf o after = shipsOf o before + if f.owner = o then f.shipCount else 0

theorem Merged.distinct {f : Fleet} {before after : List Fleet} (h : Merged f before after)
    (hb : OwnersDistinct before) : OwnersDistinct after := by
  rw [OwnersDistinct]
  rw [h.owners]
  split
  · exact hb
  · rename_i hf
    rw [List.nodup_append]
    refine ⟨hb, List.nodup_singleton _, fun a ha b hb' => ?_⟩
    intro heq
    subst heq
    exact hf (List.mem_singleton.mp hb' ▸ ha)

theorem Merged.mem_owners {f : Fleet} {before after : List Fleet} (h : Merged f before after)
    {o : Option PlayerId} :
    o ∈ after.map (·.owner) ↔ o ∈ before.map (·.owner) ∨ o = f.owner := by
  rw [h.owners]
  split
  · exact ⟨.inl, fun ho => ho.elim id fun ho => ho ▸ ‹_›⟩
  · simp

theorem mergeFleet_safe (f : Fleet) (fleets : List Fleet) :
    Safe (fun e => e = .addOverflow .shipCount ∧ 2 ^ 64 ≤ shipsOf f.owner fleets + f.shipCount)
      (Merged f fleets) (Planet.mergeFleet f fleets) := by
  induction fleets with
  | nil => exact ⟨rfl, fun o => by simp⟩
  | cons other rest ih =>
    rw [Planet.mergeFleet]
    split
    · rename_i ho
      refine Safe.bind (P := (· = other.shipCount + f.shipCount)) ?_ ?_
      · refine checkedAdd_safe (fun h => ⟨rfl, ?_⟩) fun _ => rfl
        simp only [shipsOf_cons, ho, if_true]
        omega
      · intro n heq
        subst heq
        refine ⟨by simp [ho], fun o => ?_⟩
        simp only [shipsOf_cons, ho]
        split <;> omega
    · rename_i ho
      refine Safe.bind (ih.mono ?_ fun _ h => h) fun rest' h => ?_
      · intro e h
        obtain ⟨rfl, he⟩ := h
        exact ⟨rfl, by simpa [ho] using he⟩
      · refine ⟨?_, fun o => ?_⟩
        · have hne : f.owner ≠ other.owner := fun h => ho h.symm
          simp only [List.map_cons, h.owners, List.mem_cons, hne, false_or]
          split <;> simp
        · simp only [shipsOf_cons, h.ships, Nat.add_assoc]

/-! ## The expedition loop -/

def Expedition.landing (e : Expedition) : Bool := e.turnsRemaining ≤ 1

def Expedition.advance (e : Expedition) : Expedition :=
  { e with turnsRemaining := e.turnsRemaining - 1 }

@[simp] theorem Expedition.advance_fleet (e : Expedition) : e.advance.fleet = e.fleet := rfl
@[simp] theorem Expedition.advance_id (e : Expedition) : e.advance.id = e.id := rfl
@[simp] theorem Expedition.advance_origin (e : Expedition) : e.advance.origin = e.origin := rfl
@[simp] theorem Expedition.advance_target (e : Expedition) : e.advance.target = e.target := rfl

/-- A landed expedition joins the fleets of its target. -/
def deliver (planets : List (Planet F)) (e : Expedition) : Except Panic (List (Planet F)) := do
  let planet ← index planets e.target
  let planet ← planet.orbit e.fleet
  pure (planets.set e.target planet)

/-- What the loop does about one expedition. -/
def PlanetWars.visit (s : PlanetWars F) (e : Expedition) : Except Panic (PlanetWars F) :=
  if e.landing then do
    let planets ← deliver s.planets e
    pure { s with planets }
  else do
    let players ← markAlive s.players e.fleet.owner
    pure { s with players, expeditions := s.expeditions ++ [e.advance] }

private theorem stepExpeditionsFrom_eq (fuel : Nat) (todo : List Expedition)
    (hf : todo.length ≤ fuel) (s : PlanetWars F) :
    PlanetWars.stepExpeditionsFrom fuel s.expeditions.length
        { s with expeditions := s.expeditions ++ todo } =
      (sweepOrder Expedition.landing todo).foldlM PlanetWars.visit s := by
  induction fuel generalizing todo s with
  | zero =>
    rw [List.length_eq_zero_iff.mp (Nat.le_zero.mp hf)]
    simp [PlanetWars.stepExpeditionsFrom]
    rfl
  | succ fuel ih =>
    cases todo with
    | nil => simp [PlanetWars.stepExpeditionsFrom]; rfl
    | cons exp rest =>
      simp only [List.length_cons, Nat.add_le_add_iff_right] at hf
      have hget : (s.expeditions ++ exp :: rest)[s.expeditions.length]? = some exp := by simp
      simp only [PlanetWars.stepExpeditionsFrom, hget, sweepOrder_cons, List.foldlM_cons,
        PlanetWars.visit]
      by_cases hl : exp.turnsRemaining ≤ 1
      · have hland : exp.landing = true := by simpa [Expedition.landing] using hl
        simp only [hl, hland, if_true, swapRemove_append, ok_bind, deliver, bind_assoc, pure_bind]
        congr 1
        funext planet
        congr 1
        funext planet
        exact ih (refill rest) (by simpa using hf) { s with planets := s.planets.set _ planet }
      · have hland : ¬ exp.landing = true := by simpa [Expedition.landing] using hl
        rw [if_neg hl, if_neg hland, if_neg hland, checkedSub_of_le (by omega)]
        simp only [ok_bind, bind_assoc, pure_bind]
        congr 1
        funext players
        have := ih rest hf { s with players, expeditions := s.expeditions ++ [exp.advance] }
        simpa [Expedition.advance] using this

/-- The loop visits every expedition once, in the order swap-removal brings it
round to them. -/
theorem PlanetWars.stepExpeditions_eq (s : PlanetWars F) :
    s.stepExpeditions =
      (sweepOrder Expedition.landing s.expeditions).foldlM PlanetWars.visit
        { s with expeditions := [] } := by
  have := stepExpeditionsFrom_eq s.expeditions.length s.expeditions (Nat.le_refl _)
    { s with expeditions := [] }
  simpa [stepExpeditions] using this

end Mozaic.Rules
