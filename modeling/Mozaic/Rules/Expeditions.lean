import Mozaic.Rules.Arrivals

/-! What `step_expeditions` does: every flying expedition comes one turn closer and
shows its owner is alive, every other one is merged into the fleets of its target. -/
namespace Mozaic.Rules
open Rust Outcome

variable {F : Type}

/-- What the arrivals of one turn do to a planet. -/
structure Received (arrivals : List Fleet) (p p' : Planet F) : Prop where
  id : p'.id = p.id
  name : p'.name = p.name
  x : p'.x = p.x
  y : p'.y = p.y
  distinct : OwnersDistinct p.fleets → OwnersDistinct p'.fleets
  owners : ∀ o, o ∈ p'.fleets.map (·.owner) ↔
    o ∈ p.fleets.map (·.owner) ∨ o ∈ arrivals.map (·.owner)
  ships : ∀ o, shipsOf o p'.fleets = shipsOf o p.fleets + shipsOf o arrivals

theorem Received.refl (p : Planet F) : Received [] p p :=
  ⟨rfl, rfl, rfl, rfl, fun h => h, by simp, by simp⟩

theorem Received.concat {arrivals : List Fleet} {p p' : Planet F} (h : Received arrivals p p')
    {f : Fleet} {fleets : List Fleet} (hm : Merged f p'.fleets fleets) :
    Received (arrivals ++ [f]) p { p' with fleets } where
  id := h.id
  name := h.name
  x := h.x
  y := h.y
  distinct := fun hd => hm.distinct (h.distinct hd)
  owners := fun o => by
    rw [hm.mem_owners, h.owners, List.map_append, List.mem_append, or_assoc]
    simp
  ships := fun o => by
    simp only [hm.ships, h.ships, shipsOf_append, shipsOf_cons, shipsOf_nil]
    omega

theorem Received.perm {l l' : List Fleet} {p p' : Planet F} (h : Received l p p')
    (hl : l.Perm l') : Received l' p p' :=
  { h with
    owners := fun o => by rw [h.owners, (hl.map _).mem_iff]
    ships := fun o => by rw [h.ships, shipsOf_perm hl] }

/-- The fleets that land on planet `i`. -/
def arrivalsAt (expeditions : List Expedition) (i : Nat) : List Fleet :=
  (expeditions.filter fun e => e.landing ∧ e.target = i).map (·.fleet)

theorem arrivalsAt_append (l l' : List Expedition) (i : Nat) :
    arrivalsAt (l ++ l') i = arrivalsAt l i ++ arrivalsAt l' i := by
  simp [arrivalsAt]

theorem arrivalsAt_perm {l l' : List Expedition} (h : l.Perm l') (i : Nat) :
    (arrivalsAt l i).Perm (arrivalsAt l' i) :=
  (h.filter _).map _

theorem mem_arrivalsAt {l : List Expedition} {i : Nat} {f : Fleet} :
    f ∈ arrivalsAt l i ↔ ∃ e ∈ l, e.landing ∧ e.target = i ∧ e.fleet = f := by
  simp [arrivalsAt, and_assoc]

/-- Does an expedition that stays in flight belong to player `i`? -/
def flyingFor (expeditions : List Expedition) (i : PlayerId) : Bool :=
  expeditions.any fun e => !e.landing && e.fleet.owner == some i

theorem flyingFor_perm {l l' : List Expedition} (h : l.Perm l') (i : PlayerId) :
    flyingFor l i = flyingFor l' i := by
  unfold flyingFor
  rw [Bool.eq_iff_iff, List.any_eq_true, List.any_eq_true]
  exact exists_congr fun e => and_congr_left fun _ => h.mem_iff

/-- The state `t` after the expedition loop ran on `s`. -/
structure ExpeditionsStepped (s t : PlanetWars F) : Prop where
  expeditionNum : t.expeditionNum = s.expeditionNum
  turnNum : t.turnNum = s.turnNum
  maxTurns : t.maxTurns = s.maxTurns
  expeditions : t.expeditions.Perm
    ((s.expeditions.filter (!·.landing)).map Expedition.advance)
  players : ∀ i, t.players[i]? = s.players[i]?.map fun p : Player =>
    { p with alive := p.alive || flyingFor s.expeditions i }
  planetCount : t.planets.length = s.planets.length
  planets : ∀ (i : Nat) (p' : Planet F), t.planets[i]? = some p' →
    ∃ p, s.planets[i]? = some p ∧ Received (arrivalsAt s.expeditions i) p p'

/-- The indices in expeditions are those of planets and players. -/
def Addressed (players planets : Nat) (e : Expedition) : Prop :=
  e.target < planets ∧ ∀ p, e.fleet.owner = some p → p < players

theorem length_of_getElem?_map {α : Type} {l l' : List α} {f : Nat → α → α}
    (h : ∀ i, l'[i]? = l[i]?.map (f i)) : l'.length = l.length := by
  refine Nat.le_antisymm (List.getElem?_eq_none_iff.mp ?_) (List.getElem?_eq_none_iff.mp ?_)
  · simp [h]
  · simpa using (h l'.length).symm

theorem markAlive_safe {A : Panic → Prop} {players : List Player} {owner : Option PlayerId}
    (h : ∀ p, owner = some p → p < players.length) :
    Safe A (fun players' => ∀ i : PlayerId, players'[i]? = players[i]?.map fun p : Player =>
      { p with alive := p.alive || owner == some i }) (markAlive players owner) := by
  cases owner with
  | none => simp [markAlive]
  | some o =>
    have ho := h o rfl
    simp only [markAlive, index_of_getElem? (List.getElem?_eq_getElem ho), ok_bind, safe_pure,
      List.getElem?_set]
    intro i
    by_cases hi : o = i
    · subst i
      simp [ho]
    · have hb : (o == i) = false := by simpa using hi
      cases players[i]? <;> simp [hi, hb]

theorem deliver_safe {planets : List (Planet F)} {e : Expedition} (h : e.target < planets.length) :
    Safe (fun err => err = .addOverflow .shipCount ∧ ∃ p, planets[e.target]? = some p ∧
        2 ^ 64 ≤ shipsOf e.fleet.owner p.fleets + e.fleet.shipCount)
      (fun planets' => ∃ p fleets, planets[e.target]? = some p ∧ Merged e.fleet p.fleets fleets ∧
        planets' = planets.set e.target { p with fleets })
      (deliver planets e) := by
  have hp := List.getElem?_eq_getElem h
  simp only [deliver, index_of_getElem? hp, ok_bind, Planet.orbit, bind_assoc, pure_bind]
  refine Safe.bind ((mergeFleet_safe e.fleet _).mono ?_ fun _ h => h) fun fleets hm => ?_
  · intro err h
    obtain ⟨rfl, he⟩ := h
    exact ⟨rfl, _, hp, he⟩
  · exact ⟨_, fleets, hp, hm, rfl⟩

/-- A landing overflows the ship count of some planet's owner. -/
def ArrivalOverflow (s : PlanetWars F) (err : Panic) : Prop :=
  err = .addOverflow .shipCount ∧ ∃ i p o, s.planets[i]? = some p ∧
    2 ^ 64 ≤ shipsOf o p.fleets + shipsOf o (arrivalsAt s.expeditions i)

/-- The loop's state after it visited `done`. -/
private structure Visited (s : PlanetWars F) (done : List Expedition) (t : PlanetWars F) : Prop where
  expeditionNum : t.expeditionNum = s.expeditionNum
  turnNum : t.turnNum = s.turnNum
  maxTurns : t.maxTurns = s.maxTurns
  expeditions : t.expeditions = (done.filter (!·.landing)).map Expedition.advance
  players : ∀ i, t.players[i]? = s.players[i]?.map fun p : Player =>
    { p with alive := p.alive || flyingFor done i }
  planetCount : t.planets.length = s.planets.length
  planets : ∀ (i : Nat) (p' : Planet F), t.planets[i]? = some p' →
    ∃ p, s.planets[i]? = some p ∧ Received (arrivalsAt done i) p p'

private theorem visited_nil (s : PlanetWars F) : Visited s [] { s with expeditions := [] } where
  expeditionNum := rfl
  turnNum := rfl
  maxTurns := rfl
  expeditions := rfl
  players := fun i => by cases s.players[i]? <;> simp [flyingFor]
  planetCount := rfl
  planets := fun _ p' hp' => ⟨p', hp', .refl p'⟩

private theorem Visited.land {s t : PlanetWars F} {done : List Expedition} (h : Visited s done t)
    {e : Expedition} (he : e.landing = true) {p : Planet F} {fleets : List Fleet}
    (hp : t.planets[e.target]? = some p) (hm : Merged e.fleet p.fleets fleets) :
    Visited s (done ++ [e]) { t with planets := t.planets.set e.target { p with fleets } } where
  expeditionNum := h.expeditionNum
  turnNum := h.turnNum
  maxTurns := h.maxTurns
  expeditions := by simp [h.expeditions, he]
  players := fun i => by simp [h.players, flyingFor, he]
  planetCount := by simp [h.planetCount]
  planets := fun i p' hp' => by
    rw [arrivalsAt_append]
    simp only [List.getElem?_set] at hp'
    by_cases hi : e.target = i
    · subst i
      obtain ⟨p₀, hp₀, hr⟩ := h.planets _ p hp
      have hlt := (List.getElem?_eq_some_iff.mp hp).1
      simp only [if_true, hlt, Option.some.injEq] at hp'
      subst p'
      refine ⟨p₀, hp₀, ?_⟩
      simpa [arrivalsAt, he] using hr.concat hm
    · rw [if_neg hi] at hp'
      simpa [arrivalsAt, he, hi] using h.planets i p' hp'

private theorem Visited.fly {s t : PlanetWars F} {done : List Expedition} (h : Visited s done t)
    {e : Expedition} (he : e.landing = false) {players : List Player}
    (hp : ∀ i : PlayerId, players[i]? = t.players[i]?.map fun p : Player =>
      { p with alive := p.alive || e.fleet.owner == some i }) :
    Visited s (done ++ [e]) { t with players, expeditions := t.expeditions ++ [e.advance] } where
  expeditionNum := h.expeditionNum
  turnNum := h.turnNum
  maxTurns := h.maxTurns
  expeditions := by simp [h.expeditions, he]
  players := fun i => by
    simp only [hp, h.players, Option.map_map]
    congr 1
    funext p
    simp [flyingFor, he, Bool.or_assoc]
  planetCount := h.planetCount
  planets := fun i p' hp' => by
    rw [arrivalsAt_append]
    simpa [arrivalsAt, he] using h.planets i p' hp'

private theorem Visited.step {s t : PlanetWars F} {done rest all : List Expedition} {e : Expedition}
    (hall : all = done ++ e :: rest) (hperm : all.Perm s.expeditions)
    (he : Addressed s.players.length s.planets.length e) (h : Visited s done t) :
    Safe (ArrivalOverflow s) (Visited s (done ++ [e])) (t.visit e) := by
  rw [PlanetWars.visit]
  split
  · rename_i hland
    refine Safe.bind ((deliver_safe (h.planetCount ▸ he.1)).mono ?_ fun _ h => h) ?_
    · intro err h
      obtain ⟨rfl, p, hp, hbig⟩ := h
      obtain ⟨p₀, hp₀, hr⟩ := h.planets _ p hp
      refine ⟨rfl, e.target, p₀, e.fleet.owner, hp₀, ?_⟩
      have hships := shipsOf_perm (arrivalsAt_perm hperm e.target) e.fleet.owner
      have hcons : arrivalsAt (e :: rest) e.target = e.fleet :: arrivalsAt rest e.target := by
        simp [arrivalsAt, hland]
      rw [hall, arrivalsAt_append, hcons] at hships
      simp only [shipsOf_append, shipsOf_cons, if_true] at hships
      have := hr.ships e.fleet.owner
      omega
    · intro _ h
      obtain ⟨p, fleets, hp, hm, rfl⟩ := h
      exact h.land hland hp hm
  · rename_i hland
    refine Safe.bind (markAlive_safe fun p hp => length_of_getElem?_map h.players ▸ he.2 p hp) fun players hp => ?_
    exact h.fly (by simpa using hland) hp

/-- The expedition loop visits everything once; it can only fail by an overflow. -/
theorem PlanetWars.stepExpeditions_safe (s : PlanetWars F)
    (hs : ∀ e ∈ s.expeditions, Addressed s.players.length s.planets.length e) :
    Safe (ArrivalOverflow s) (ExpeditionsStepped s) s.stepExpeditions := by
  have hperm := sweepOrder_perm Expedition.landing s.expeditions
  rw [s.stepExpeditions_eq]
  refine Safe.weaken (P := Visited s (sweepOrder Expedition.landing s.expeditions)) ?_ ?_
  · refine Safe.foldlM_prefix (visited_nil s) fun done e rest hall t ht => ?_
    exact ht.step hall hperm (hs e (hperm.mem_iff.mp (by simp [hall])))
  · intro t ht
    exact
      { expeditionNum := ht.expeditionNum
        turnNum := ht.turnNum
        maxTurns := ht.maxTurns
        expeditions := by
          rw [ht.expeditions]
          exact (hperm.filter _).map _
        players := fun i => by rw [ht.players, flyingFor_perm hperm]
        planetCount := ht.planetCount
        planets := fun i p' hp' => by
          obtain ⟨p, hp, hr⟩ := ht.planets i p' hp'
          exact ⟨p, hp, hr.perm (arrivalsAt_perm hperm i)⟩ }

end Mozaic.Rules
