import Mozaic.Game.Turn

/-! A player is alive exactly while it owns something, and nobody comes back. -/
namespace Mozaic
open Rust Rules Network Outcome

variable {F : Type}

/-- Player `i` owns a planet or has an expedition under way. -/
def InPlay (s : PlanetWars F) (i : PlayerId) : Prop :=
  (∃ p ∈ s.planets, p.owner = some i) ∨ ∃ e ∈ s.expeditions, e.fleet.owner = some i

theorem ownsPlanet_iff {planets : List (Planet F)} {i : PlayerId} :
    ownsPlanet planets i ↔ ∃ p ∈ planets, p.owner = some i := by
  simp [ownsPlanet]

theorem Rules.PlanetWars.mem_livingPlayers {s : PlanetWars F}
    (hids : s.players.map (·.id) = List.range s.players.length) {i : PlayerId} :
    i ∈ s.livingPlayers ↔ ∃ p, s.players[i]? = some p ∧ p.alive = true := by
  have hid {j : Nat} {p : Player} (hp : s.players[j]? = some p) : p.id = j := by
    have hj : (s.players.map (·.id))[j]? = some p.id := by simp [hp]
    rw [hids] at hj
    obtain ⟨_, hj⟩ := List.getElem?_eq_some_iff.mp hj
    simpa using hj.symm
  simp only [livingPlayers, List.mem_filterMap, Option.ite_none_right_eq_some, Option.some.injEq]
  constructor
  · intro h
    obtain ⟨p, hp, ha, rfl⟩ := h
    obtain ⟨j, hj⟩ := List.mem_iff_getElem?.mp hp
    exact ⟨p, hid hj ▸ hj, ha⟩
  · intro h
    obtain ⟨p, hp, ha⟩ := h
    exact ⟨p, List.mem_of_getElem? hp, ha, hid hp⟩

/-! ## Nobody comes into play -/

theorem Rules.Planet.owner_of_mem {p : Planet F} (hp : p.fleets.length ≤ 1) {f : Fleet}
    (hf : f ∈ p.fleets) : p.owner = f.owner := by
  rw [owner]
  rcases hl : p.fleets with - | ⟨a, - | ⟨b, l⟩⟩
  · simp [hl] at hf
  · simp_all
  · simp [hl] at hp

/-- The owner of a planet goes by the owners of its fleets. -/
private theorem owner_congr {p q : Planet F}
    (h : p.fleets.map (·.owner) = q.fleets.map (·.owner)) : p.owner = q.owner := by
  unfold Planet.owner
  have hhead := congrArg List.head? h
  rw [List.head?_map, List.head?_map] at hhead
  cases hp : p.fleets.head? <;> cases hq : q.fleets.head? <;> simp_all

theorem inPlay_grown {s : PlanetWars F} {i : PlayerId} (h : InPlay s.grown i) : InPlay s i := by
  refine h.imp (fun ⟨p, hp, ho⟩ => ?_) id
  obtain ⟨q, hq, rfl⟩ := List.mem_map.mp hp
  exact ⟨q, hq, (owner_congr q.map_owner_grown) ▸ ho⟩

/-- Ships only leave planets that their owner has. -/
theorem inPlay_launch {s : PlanetWars F} {e : Expedition} (he : Admissible s.planets e)
    {i : PlayerId} (h : InPlay (s.launch e) i) : InPlay s i := by
  rcases h with ⟨p, hp, ho⟩ | ⟨e', he', ho⟩
  · obtain ⟨q, hq, hmap⟩ := map_owner_depart hp
    exact .inl ⟨q, hq, owner_congr hmap ▸ ho⟩
  · simp only [PlanetWars.launch, List.mem_append, List.mem_singleton] at he'
    rcases he' with he' | rfl
    · exact .inr ⟨e', he', ho⟩
    · obtain ⟨p, hp, hpo, _⟩ := he.origin
      exact .inl ⟨p, List.mem_of_getElem? hp, hpo.trans ho⟩

theorem inPlay_launchAll {s : PlanetWars F} {es : List Expedition}
    (hes : AdmissibleAll s.planets es) {i : PlayerId} (h : InPlay (s.launchAll es) i) :
    InPlay s i := by
  induction es generalizing s with
  | nil => exact h
  | cons e es ih => exact inPlay_launch hes.1 (ih hes.2 h)

theorem mem_expeditions_of_stepped {s t : PlanetWars F} (h : Stepped s t) {e : Expedition} :
    e ∈ t.expeditions ↔ ∃ e₀ ∈ s.expeditions, e₀.landing = false ∧ e₀.advance = e := by
  simp [h.expeditions.mem_iff, and_assoc]

/-- Whoever owns a planet after a combat had ships there or sent some. -/
theorem inPlay_stepped {s t : PlanetWars F} (hs : Valid s) (h : Stepped s t) {i : PlayerId}
    (hi : InPlay t i) : InPlay s i := by
  rcases hi with ⟨p', hp', ho⟩ | ⟨e, he, ho⟩
  · obtain ⟨j, hj⟩ := List.mem_iff_getElem?.mp hp'
    obtain ⟨p, q, hp, hr, rfl⟩ := h.planets j p' hj
    obtain ⟨f, hf, hfo⟩ := owner_afterCombat_mem ho
    rcases (hr.owners _).mp (List.mem_map_of_mem hf) with hm | hm
    · obtain ⟨f', hf', ho'⟩ := List.mem_map.mp hm
      have hmem := List.mem_of_getElem? hp
      exact .inl ⟨p, hmem, (Planet.owner_of_mem (hs.fleets p hmem) hf').trans (ho'.trans hfo)⟩
    · obtain ⟨f', hf', ho'⟩ := List.mem_map.mp hm
      obtain ⟨e, he, _, _, rfl⟩ := mem_arrivalsAt.mp hf'
      exact .inr ⟨e, he, ho'.trans hfo⟩
  · obtain ⟨e₀, he₀, _, rfl⟩ := (mem_expeditions_of_stepped h).mp he
    exact .inr ⟨e₀, he₀, ho⟩

/-- The flags after a step say who is in play. -/
theorem alive_iff_of_stepped {s t : PlanetWars F} (h : Stepped s t) {i : PlayerId} {p : Player}
    (hp : t.players[i]? = some p) : p.alive = true ↔ InPlay t i := by
  rw [h.players] at hp
  obtain ⟨p₀, _, rfl⟩ := Option.map_eq_some_iff.mp hp
  have hfly : flyingFor s.expeditions i = true ↔ ∃ e ∈ t.expeditions, e.fleet.owner = some i := by
    simp only [flyingFor, List.any_eq_true, Bool.and_eq_true, Bool.not_eq_true', beq_iff_eq,
      mem_expeditions_of_stepped h]
    constructor
    · intro h
      obtain ⟨e, he, hl, ho⟩ := h
      exact ⟨e.advance, ⟨e, he, hl, rfl⟩, ho⟩
    · intro h
      obtain ⟨_, ⟨e, he, hl, rfl⟩, ho⟩ := h
      exact ⟨e, he, hl, ho⟩
  simp only [Bool.or_eq_true, hfly, ownsPlanet_iff, InPlay, or_comm]

/-! ## Whole games -/

section Play
variable [F64 F] [External F]

theorem inPlay_taken {g g' : Game F} {messages : List (PlayerId × ResponseValue)}
    {actions : List (PlayerId × Proto.PlayerAction)} (hg : g.Consistent)
    (hnd : (messages.map Prod.fst).Nodup) (h : TurnTaken g messages g' actions) {i : PlayerId}
    (hi : InPlay g'.state i) : InPlay g.state i :=
  inPlay_grown (inPlay_launchAll (orders_admissible _ _ hnd)
    (inPlay_stepped (hg.valid_ordered hnd) h.stepped hi))

/-- Every player in play has its flag set. -/
def FlagsCover (s : PlanetWars F) : Prop :=
  ∀ (i : PlayerId) (p : Player), s.players[i]? = some p → InPlay s i → p.alive = true

/-- The flags are right. -/
def FlagsExact (s : PlanetWars F) : Prop :=
  ∀ (i : PlayerId) (p : Player), s.players[i]? = some p → (p.alive = true ↔ InPlay s i)

omit [F64 F] [External F] in
theorem Created.flagsCover {c : Config} {n : Nat} {s : PlanetWars F} (h : Created c n s) :
    FlagsCover s := by
  intro i p hp _
  rw [h.players] at hp
  obtain ⟨_, _, rfl⟩ := List.mem_map.mp (List.mem_of_getElem? hp)
  rfl

/-- Nobody is in play and nobody alive in `t` who was not so in `s`. -/
structure Outlived (s t : PlanetWars F) : Prop where
  inPlay : ∀ i, InPlay t i → InPlay s i
  living : t.livingPlayers ⊆ s.livingPlayers

omit [F64 F] [External F] in
theorem Outlived.refl (s : PlanetWars F) : Outlived s s := ⟨fun _ h => h, List.Subset.refl _⟩

omit [F64 F] [External F] in
theorem Outlived.trans {s t u : PlanetWars F} (h : Outlived s t) (h' : Outlived t u) :
    Outlived s u :=
  ⟨fun i hi => h.inPlay i (h'.inPlay i hi), List.Subset.trans h'.living h.living⟩

theorem outlived_taken {g g' : Game F} {messages : List (PlayerId × ResponseValue)}
    {actions : List (PlayerId × Proto.PlayerAction)} (hg : g.Consistent)
    (hcover : FlagsCover g.state) (hnd : (messages.map Prod.fst).Nodup)
    (h : TurnTaken g messages g' actions) : Outlived g.state g'.state where
  inPlay := fun _ hi => inPlay_taken hg hnd h hi
  living := fun i hi => by
    rw [PlanetWars.mem_livingPlayers (hg.taken hnd h).settled.playerIds] at hi
    obtain ⟨p', hp', ha⟩ := hi
    have hplay := inPlay_taken hg hnd h ((alive_iff_of_stepped h.stepped hp').mp ha)
    have hlt : i < g.state.players.length :=
      h.length_players ▸ (List.getElem?_eq_some_iff.mp hp').1
    have hp := List.getElem?_eq_getElem hlt
    exact (PlanetWars.mem_livingPlayers hg.settled.playerIds).mpr ⟨_, hp, hcover i _ hp hplay⟩

/-- What the flags of a game say after any number of further turns. -/
theorem play_outlived {g : Game F} (hg : g.Consistent) (hcover : FlagsCover g.state)
    (inputs : List TurnInput) :
    Safe (fun e => ∃ counter, e = .addOverflow counter)
      (fun g' => g'.Consistent ∧ FlagsCover g'.state ∧ (inputs ≠ [] → FlagsExact g'.state) ∧
        Outlived g.state g'.state)
      (g.play inputs) := by
  refine Safe.foldlM_prefix (I := fun done (g' : Game F) => g'.Consistent ∧ FlagsCover g'.state ∧
    (done ≠ [] → FlagsExact g'.state) ∧ Outlived g.state g'.state)
    ⟨hg, hcover, fun h => absurd rfl h, .refl _⟩ ?_
  intro done input rest _ t h
  obtain ⟨ht, htcover, _, hout⟩ := h
  have hnd := HashMap.nodup_fst_entriesIn input.drainOrder input.messages
  refine ((Game.turn_safe ht input).mono (fun _ he => he.overflow) fun _ h => h).map fun r hr => ?_
  have hexact : FlagsExact r.1.state := fun i p hp => alive_iff_of_stepped hr.stepped hp
  refine ⟨ht.taken hnd hr, fun i p hp hi => (hexact i p hp).mpr hi, fun _ => hexact, ?_⟩
  exact hout.trans (outlived_taken ht htcover hnd hr)

/-- After at least one step the flags say exactly who owns a planet or an expedition;
and however the game goes on, the dead own nothing and the living get fewer. -/
theorem alive_iff_inPlay_and_outlived (c : Config) (n : Nat) (inputs : List TurnInput) :
    Safe (fun e => CreationPanic e ∨ ∃ counter, e = .addOverflow counter)
      (fun g : Game F =>
        (inputs ≠ [] → ∀ (i : PlayerId) (p : Player), g.state.players[i]? = some p →
          (p.alive = true ↔ InPlay g.state i)) ∧
        ∀ later, Safe (fun e => ∃ counter, e = .addOverflow counter)
          (fun g' =>
            (∀ (i : PlayerId) (p : Player), g.state.players[i]? = some p → p.alive = false →
              ¬ InPlay g'.state i) ∧
            g'.state.livingPlayers ⊆ g.state.livingPlayers)
          (g.play later))
      (do
        let state ← c.createGame n
        (Game.ofState state).play inputs) := by
  refine Safe.bind ((c.createGame_safe n).mono (fun _ h => .inl h) fun _ h => h) fun s hs => ?_
  refine (play_outlived (Game.consistent_ofState hs) hs.flagsCover inputs).mono
    (fun _ h => .inr h) ?_
  intro g h
  obtain ⟨hg, hcover, hexact, _⟩ := h
  refine ⟨hexact, fun later => (play_outlived hg hcover later).weaken ?_⟩
  intro g' h
  obtain ⟨_, _, _, hout⟩ := h
  refine ⟨fun i p hp ha hi => ?_, hout.living⟩
  rw [hcover i p hp (hout.inPlay i hi)] at ha
  cases ha

end Play
end Mozaic
