import Mozaic.Rules.Combat
import Mozaic.Rules.Expeditions

/-! What one `step` of the game does, in one statement that later proofs split. -/
namespace Mozaic.Rules
open Rust Outcome

variable {F : Type}

def Planet.afterCombat (p : Planet F) : Planet F := { p with fleets := combat p.fleets }

@[simp] theorem Planet.afterCombat_fleets (p : Planet F) :
    p.afterCombat.fleets = combat p.fleets := rfl

/-- Does player `i` own one of the planets? -/
def ownsPlanet (planets : List (Planet F)) (i : PlayerId) : Bool :=
  planets.any fun p => p.owner == some i

theorem Planet.owner_mem {p : Planet F} {o : PlayerId} (h : p.owner = some o) :
    ∃ f ∈ p.fleets, f.owner = some o := by
  rcases hf : p.fleets with - | ⟨f, fleets⟩
  · simp [Planet.owner, hf] at h
  · exact ⟨f, by simp, by simpa [Planet.owner, hf] using h⟩

/-- The owner after a combat had a fleet in it. -/
theorem owner_afterCombat_mem {p : Planet F} {o : PlayerId} (h : p.afterCombat.owner = some o) :
    ∃ f ∈ p.fleets, f.owner = some o := by
  obtain ⟨g, hg, ho⟩ := Planet.owner_mem h
  rcases combat_cases p.fleets with hc | ⟨f, hf, n, hc⟩
  · simp [hc] at hg
  · simp only [Planet.afterCombat_fleets, hc, List.mem_singleton] at hg
    subst hg
    exact ⟨f, hf, ho⟩

/-- Every owner of a fleet on these planets is a player. -/
def OwnersBelow (n : Nat) (planets : List (Planet F)) : Prop :=
  ∀ p ∈ planets, ∀ f ∈ p.fleets, ∀ o, f.owner = some o → o < n

/-- Combat fails nowhere, and marks as alive whoever owns a planet after it. -/
theorem PlanetWars.resolveCombat_safe {A : Panic → Prop} (s : PlanetWars F)
    (hs : OwnersBelow s.players.length s.planets) :
    Safe A (fun t => ∃ players, t = { s with planets := s.planets.map Planet.afterCombat, players } ∧
      ∀ i : PlayerId, players[i]? = s.players[i]?.map fun p : Player =>
        { p with alive := p.alive || ownsPlanet (s.planets.map Planet.afterCombat) i })
      s.resolveCombat := by
  rw [PlanetWars.resolveCombat]
  refine Safe.bind (P := fun r : List (Planet F) × List Player =>
    r.1 = s.planets.map Planet.afterCombat ∧ ∀ i : PlayerId, r.2[i]? = s.players[i]?.map
      fun p : Player => { p with alive := p.alive || ownsPlanet r.1 i }) ?_ ?_
  · refine Safe.foldlM_prefix (I := fun done (r : List (Planet F) × List Player) =>
      r.1 = done.map Planet.afterCombat ∧ ∀ i : PlayerId, r.2[i]? = s.players[i]?.map
        fun p : Player => { p with alive := p.alive || ownsPlanet r.1 i }) ?_ ?_
    · refine ⟨rfl, fun i => ?_⟩
      cases s.players[i]? <;> simp [ownsPlanet]
    · rintro done p rest hl ⟨planets, players⟩ ⟨hplanets, hplayers⟩
      dsimp only at hplanets hplayers ⊢
      rw [Planet.resolveCombat_eq]
      have hlen : players.length = s.players.length := length_of_getElem?_map hplayers
      have howner : ∀ o, p.afterCombat.owner = some o → o < players.length := by
        intro o ho
        obtain ⟨f, hf, hfo⟩ := owner_afterCombat_mem ho
        exact hlen ▸ hs p (by simp [hl]) f hf o hfo
      refine (markAlive_safe howner).bind fun players' hp' => ?_
      refine ⟨by simp [hplanets, Planet.afterCombat], fun i => ?_⟩
      simp only [hp', hplayers, Option.map_map]
      congr 1
      funext q
      simp [ownsPlanet, Bool.or_assoc, Planet.afterCombat]
  · rintro ⟨planets, players⟩ ⟨rfl, hp⟩
    exact ⟨players, rfl, hp⟩

theorem ExpeditionsStepped.ownersBelow {s t : PlanetWars F} (h : ExpeditionsStepped s t) {n k : Nat}
    (howners : OwnersBelow n s.planets) (hexp : ∀ e ∈ s.expeditions, Addressed n k e) :
    OwnersBelow n t.planets := by
  intro q hq f hf o ho
  obtain ⟨i, hi⟩ := List.mem_iff_getElem?.mp hq
  obtain ⟨p, hp, hr⟩ := h.planets i q hi
  rcases (hr.owners _).mp (List.mem_map_of_mem hf) with hm | hm
  · obtain ⟨f', hf', hfo⟩ := List.mem_map.mp hm
    exact howners p (List.mem_of_getElem? hp) f' hf' o (hfo.trans ho)
  · obtain ⟨f', hf', hfo⟩ := List.mem_map.mp hm
    obtain ⟨e, he, _, _, rfl⟩ := mem_arrivalsAt.mp hf'
    exact (hexp e he).2 o (hfo.trans ho)

/-- The state `t` one `step` after `s`. -/
structure Stepped (s t : PlanetWars F) : Prop where
  expeditionNum : t.expeditionNum = s.expeditionNum
  turnNum : t.turnNum = s.turnNum + 1
  maxTurns : t.maxTurns = s.maxTurns
  expeditions : t.expeditions.Perm
    ((s.expeditions.filter (!·.landing)).map Expedition.advance)
  planetCount : t.planets.length = s.planets.length
  planets : ∀ (i : Nat) (p' : Planet F), t.planets[i]? = some p' →
    ∃ p q, s.planets[i]? = some p ∧ Received (arrivalsAt s.expeditions i) p q ∧ p' = q.afterCombat
  players : ∀ i, t.players[i]? = s.players[i]?.map fun p : Player =>
    { p with alive := flyingFor s.expeditions i || ownsPlanet t.planets i }

/-- `step` fails only by an overflow: of the turn counter, or of the ships of an
owner whose expeditions land. -/
theorem PlanetWars.step_safe (s : PlanetWars F)
    (howners : OwnersBelow s.players.length s.planets)
    (hexp : ∀ e ∈ s.expeditions, Addressed s.players.length s.planets.length e) :
    Safe (fun err => (err = .addOverflow .turnNum ∧ 2 ^ 64 ≤ s.turnNum + 1) ∨ ArrivalOverflow s err)
      (Stepped s) s.step := by
  rw [PlanetWars.step]
  refine Safe.bind (P := (· = s.turnNum + 1)) ?_ ?_
  · exact checkedAdd_safe (fun h => .inl ⟨rfl, h⟩) fun _ => rfl
  · intro _ heq
    subst heq
    set s₁ : PlanetWars F := { s with
      turnNum := s.turnNum + 1
      players := s.players.map fun player => { player with alive := false } } with hs₁
    have hlen₁ : s₁.players.length = s.players.length := by simp [hs₁]
    refine Safe.bind (s₁.stepExpeditions_safe (by rw [hlen₁]; exact hexp) |>.mono
      (fun _ h => .inr h) fun _ h => h) fun t₁ h₁ => ?_
    have hlen : t₁.players.length = s.players.length :=
      (length_of_getElem?_map h₁.players).trans hlen₁
    have howners₁ : OwnersBelow t₁.players.length t₁.planets := by
      rw [hlen]
      exact h₁.ownersBelow howners hexp
    refine (t₁.resolveCombat_safe howners₁).weaken ?_
    intro _ h
    obtain ⟨players, rfl, hp⟩ := h
    exact
      { expeditionNum := h₁.expeditionNum
        turnNum := h₁.turnNum
        maxTurns := h₁.maxTurns
        expeditions := h₁.expeditions
        planetCount := by simpa using h₁.planetCount
        planets := fun i p' hp' => by
          simp only [List.getElem?_map, Option.map_eq_some_iff] at hp'
          obtain ⟨q, hq, rfl⟩ := hp'
          obtain ⟨p, hp, hr⟩ := h₁.planets i q hq
          exact ⟨p, q, hp, hr, rfl⟩
        players := fun i => by
          simp only [hp, h₁.players, hs₁, List.getElem?_map, Option.map_map]
          congr 1 }

end Mozaic.Rules
