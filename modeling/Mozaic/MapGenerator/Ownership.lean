import Mozaic.MapGenerator.CreateMap

/-! Who owns the planets of a generated map. -/
namespace Mozaic.MapGenerator
open Rust Outcome

/-! ## What is generated -/

/-- There is something to draw wherever something is drawn. -/
structure Drawable (config : Config) (d : Draws) : Prop where
  numPlayers : config.playerAmount.min < config.playerAmount.max
  numPlanets : config.planetAmount.min < config.planetAmount.max
  shipCounts : config.startShips.min < config.startShips.max ∨ d.numPlanets = 0

/-- The drawn numbers fit together. -/
structure Draws.Sized (d : Draws) : Prop where
  planetLocs : d.planetLocs.length = d.numPlanets
  playerLocs : d.playerLocs.length = d.numPlayers
  le : d.numPlayers ≤ d.numPlanets

/-- The first planets get the owners, and the owners the numbers of the drawn planets. -/
def Draws.owners (d : Draws) : List (Option String) :=
  d.playerLocs.map (some ∘ playerName) ++ List.replicate (d.numPlanets - d.numPlayers) none

/-- The planets, each with its place, its ships, its owner and its name. -/
def Draws.tuples (d : Draws) : List ((Int × Int) × Nat × Option String × String) :=
  d.planetLocs.zip (((List.range d.numPlanets).map d.shipCounts).zip
    (d.owners.zip ((List.range d.numPlanets).map planetName)))

def Draws.map (d : Draws) : Map where
  players := (List.range d.numPlayers).map fun i => playerName (i + 1)
  planets := d.tuples.map fun ((x, y), shipCount, owner, name) =>
    ⟨asF32 x, asF32 y, owner, shipCount, name⟩

theorem Bound.sample_safe (b : Bound Nat) (amount : Nat) (drawn : Nat → Nat) :
    Safe (fun _ => ¬ (b.min < b.max ∨ amount = 0))
      (fun l => (b.min < b.max ∨ amount = 0) ∧ l = (List.range amount).map drawn)
      (b.sample amount drawn) := by
  cases amount with
  | zero => exact ⟨.inr rfl, rfl⟩
  | succ n =>
    refine (Safe.mapM fun i _ => genRange_safe b.min b.max (drawn i)).mono ?_ fun l hl => ?_
    · rintro _ hempty (hlt | hzero)
      · exact hempty hlt
      · exact Nat.succ_ne_zero n hzero
    · have heq : List.Forall₂ Eq ((List.range (n + 1)).map drawn) l :=
        List.forall₂_map_left_iff.mpr (hl.imp fun _ _ h => h.2.symm)
      rw [List.forall₂_eq_eq_eq] at heq
      rw [List.range_succ_eq_map] at hl
      obtain ⟨_, _, hfirst, -, -⟩ := List.forall₂_cons_left_iff.mp hl
      exact ⟨.inl hfirst.1, heq.symm⟩

/-- The assignments to `planet_owners`, from some of them on. -/
theorem assignOwners_eq (playerLocs : List Nat) (owners : List (Option String)) {m : Nat}
    (hm : playerLocs.length ≤ m) :
    (playerLocs.zipIdx owners.length).foldlM
      (fun owners (player, i) => modifyAt owners i fun _ => .ok (some (playerName player)))
      (owners ++ List.replicate m none) =
    (.ok (owners ++ (playerLocs.map (some ∘ playerName) ++
      List.replicate (m - playerLocs.length) none)) : Except Panic _) := by
  induction playerLocs generalizing owners m with
  | nil => rfl
  | cons player playerLocs ih =>
    obtain ⟨m, rfl⟩ : ∃ k, m = k + 1 := Nat.exists_eq_succ_of_ne_zero (by
      rw [List.length_cons] at hm
      omega)
    have hassign : modifyAt (owners ++ List.replicate (m + 1) none) owners.length
        (fun _ => .ok (some (playerName player))) =
          (.ok (owners ++ [some (playerName player)] ++ List.replicate m none) : Except Panic _) := by
      rw [modifyAt_of_getElem? (a := none) (by simp)]
      simp [List.replicate_succ, List.set_append_right]
    rw [List.zipIdx_cons, List.foldlM_cons]
    dsimp only
    rw [hassign, ok_bind]
    have hrest := ih (owners ++ [some (playerName player)]) (Nat.le_of_succ_le_succ hm)
    rw [List.length_append, List.length_singleton] at hrest
    rw [hrest]
    simp

theorem Draws.Sized.planetOwners_eq {d : Draws} (h : d.Sized) :
    planetOwners d.planetLocs.length d.playerLocs = .ok d.owners := by
  have hle : d.playerLocs.length ≤ d.planetLocs.length := by
    rw [h.playerLocs, h.planetLocs]
    exact h.le
  rw [planetOwners, owners, ← h.planetLocs, ← h.playerLocs]
  exact assignOwners_eq d.playerLocs [] hle

theorem createMap_safe {config : Config} {d : Draws} (h : Drawable config d → d.Sized) :
    Safe (fun _ => ¬ Drawable config d) (fun map => Drawable config d ∧ map = d.map)
      (createMap config d) := by
  refine ((genRange_safe _ _ _).mono (fun _ hempty hd => hempty hd.numPlayers) fun _ hn => hn).bind ?_
  rintro _ ⟨hplayers, rfl⟩
  refine ((genRange_safe _ _ _).mono (fun _ hempty hd => hempty hd.numPlanets) fun _ hn => hn).bind ?_
  rintro _ ⟨hplanets, rfl⟩
  refine ((Bound.sample_safe _ _ _).mono (fun _ hempty hd => hempty hd.shipCounts) fun _ hn => hn).bind ?_
  rintro _ ⟨hships, rfl⟩
  have hd : Drawable config d := ⟨hplayers, hplanets, hships⟩
  dsimp only
  rw [(h hd).planetOwners_eq, ok_bind]
  exact ⟨hd, rfl⟩

/-! ## Its planets -/

namespace Draws
variable {d : Draws}

theorem Sized.length_owners (h : d.Sized) : d.owners.length = d.numPlanets := by
  rw [owners, List.length_append, List.length_map, List.length_replicate, h.playerLocs]
  exact Nat.add_sub_of_le h.le

theorem Sized.columns (h : d.Sized) : d.tuples.map Prod.fst = d.planetLocs ∧
    d.tuples.map (·.2.2.1) = d.owners ∧
      d.tuples.map (·.2.2.2) = (List.range d.numPlanets).map planetName := by
  have howners : (d.owners.zip ((List.range d.numPlanets).map planetName)).map Prod.fst =
      d.owners := List.map_fst_zip (by simp [h.length_owners])
  have hnames : (d.owners.zip ((List.range d.numPlanets).map planetName)).map Prod.snd =
      (List.range d.numPlanets).map planetName := List.map_snd_zip (by simp [h.length_owners])
  have hships : (((List.range d.numPlanets).map d.shipCounts).zip
      (d.owners.zip ((List.range d.numPlanets).map planetName))).length = d.numPlanets := by
    simp [h.length_owners]
  have hlast : d.tuples.map (·.2.2) = d.owners.zip ((List.range d.numPlanets).map planetName) := by
    have hcomp : (fun t : (Int × Int) × Nat × Option String × String => t.2.2) =
        Prod.snd ∘ Prod.snd := rfl
    rw [hcomp, ← List.map_map, tuples, List.map_snd_zip (by rw [hships, h.planetLocs])]
    exact List.map_snd_zip (by simp [h.length_owners])
  refine ⟨List.map_fst_zip (by rw [hships, h.planetLocs]), ?_, ?_⟩
  · rw [← howners, ← hlast, List.map_map]
    rfl
  · rw [← hnames, ← hlast, List.map_map]
    rfl

theorem Sized.map_position (h : d.Sized) : d.map.planets.map (fun p => (p.x, p.y)) =
    d.planetLocs.map fun loc => (asF32 loc.1, asF32 loc.2) := by
  rw [← h.columns.1, map, List.map_map, List.map_map]
  rfl

theorem Sized.map_owner (h : d.Sized) : d.map.planets.map (·.owner) = d.owners := by
  rw [← h.columns.2.1, map, List.map_map]
  rfl

theorem Sized.map_name (h : d.Sized) :
    d.map.planets.map (·.name) = (List.range d.numPlanets).map planetName := by
  rw [← h.columns.2.2, map, List.map_map]
  rfl

end Draws

/-! ## Owners -/

theorem playerName_injective : Function.Injective playerName := by
  intro i j h
  simpa [playerName] using h

theorem planetName_injective : Function.Injective planetName := by
  intro i j h
  simpa [planetName] using h

/-- No two planets have one place or one name, an owner is a player of the map, and every player
starts with one planet. -/
structure Fair (map : Map) : Prop where
  positions : (map.planets.map fun p => (p.x, p.y)).Nodup
  names : (map.planets.map (·.name)).Nodup
  owners : ∀ p ∈ map.planets, ∀ owner, p.owner = some owner → owner ∈ map.players
  starts : ∀ player ∈ map.players, map.planets.countP (·.owner = some player) = 1

/-- No two of the drawn points are the same planet's place. -/
def Draws.Apart (d : Draws) : Prop :=
  (d.planetLocs.map fun loc => (asF32 loc.1, asF32 loc.2)).Nodup

/-- The planets drawn for the players have the players' own numbers. -/
def Draws.Numbered (d : Draws) : Prop := ∀ i ∈ d.playerLocs, 1 ≤ i ∧ i ≤ d.numPlayers

namespace Draws
variable {d : Draws}

instance : Decidable d.Numbered := inferInstanceAs (Decidable (∀ i ∈ d.playerLocs, _))

theorem playerName_mem_players {i : Nat} :
    playerName i ∈ d.map.players ↔ 1 ≤ i ∧ i ≤ d.numPlayers := by
  rw [map, List.mem_map]
  constructor
  · rintro ⟨j, hj, heq⟩
    have hlt := List.mem_range.mp hj
    have := playerName_injective heq
    omega
  · rintro ⟨hpos, hle⟩
    refine ⟨i - 1, List.mem_range.mpr (by omega), ?_⟩
    rw [Nat.sub_add_cancel hpos]

theorem mem_owners {owner : String} :
    some owner ∈ d.owners ↔ ∃ i ∈ d.playerLocs, playerName i = owner := by
  simp [owners]

theorem Sized.owners_listed (h : d.Sized) :
    (∀ p ∈ d.map.planets, ∀ owner, p.owner = some owner → owner ∈ d.map.players) ↔ d.Numbered := by
  constructor
  · intro hlisted i hi
    have hmem : some (playerName i) ∈ d.map.planets.map (·.owner) :=
      h.map_owner ▸ mem_owners.mpr ⟨i, hi, rfl⟩
    obtain ⟨p, hp, howner⟩ := List.mem_map.mp hmem
    exact playerName_mem_players.mp (hlisted p hp _ howner)
  · intro hnumbered p hp owner howner
    have hmem : some owner ∈ d.owners := by
      rw [← h.map_owner, ← howner]
      exact List.mem_map_of_mem hp
    obtain ⟨i, hi, rfl⟩ := mem_owners.mp hmem
    exact playerName_mem_players.mpr (hnumbered i hi)

theorem Sized.count_owner (h : d.Sized) (i : Nat) :
    d.map.planets.countP (·.owner = some (playerName i)) = d.playerLocs.count i := by
  have hcomp : d.map.planets.countP (·.owner = some (playerName i)) =
      (d.map.planets.map (·.owner)).count (some (playerName i)) := by
    rw [List.count, List.countP_map]
    congr 1
    funext p
    exact (beq_eq_decide p.owner _).symm
  have hnone : (List.replicate (d.numPlanets - d.numPlayers) none).count
      (some (playerName i)) = 0 := by
    simp [List.count_replicate]
  rw [hcomp, h.map_owner, owners, List.count_append, hnone, Nat.add_zero]
  exact List.count_map_of_injective _ _ (Option.some_injective _ |>.comp playerName_injective) i

/-- If the numbers are the players' own, every one of them is drawn. -/
theorem Sized.perm_of_numbered (h : d.Sized) {space : List Nat}
    (hsample : IsSample space d.numPlayers d.playerLocs) (hnumbered : d.Numbered) :
    d.playerLocs.Perm ((List.range d.numPlayers).map (· + 1)) := by
  apply hsample.perm_of_subset
  · intro i hi
    obtain ⟨hpos, hle⟩ := hnumbered i hi
    exact List.mem_map.mpr ⟨i - 1, List.mem_range.mpr (by omega), Nat.sub_add_cancel hpos⟩
  · simp [h.playerLocs]

theorem Sized.fair_iff (h : d.Sized) {space : List Nat}
    (hsample : IsSample space d.numPlayers d.playerLocs) :
    Fair d.map ↔ d.Apart ∧ d.Numbered := by
  constructor
  · intro hfair
    refine ⟨?_, h.owners_listed.mp hfair.owners⟩
    rw [Apart, ← h.map_position]
    exact hfair.positions
  · rintro ⟨hapart, hnumbered⟩
    refine ⟨?_, ?_, h.owners_listed.mpr hnumbered, ?_⟩
    · rw [h.map_position]
      exact hapart
    · rw [h.map_name]
      exact List.nodup_range.map planetName_injective
    · intro player hplayer
      obtain ⟨i, hi, rfl⟩ := List.mem_map.mp hplayer
      rw [h.count_owner]
      apply List.count_eq_one_of_mem hsample.nodup
      exact (h.perm_of_numbered hsample hnumbered).mem_iff.mpr (List.mem_map_of_mem hi)

end Draws

/-! ## Maps -/

/-- Whatever is drawn, the players fit on the planets and the planets on the grid. -/
def Config.Ample (c : Config) : Prop :=
  ∀ numPlayers numPlanets, c.playerAmount.min ≤ numPlayers → numPlayers < c.playerAmount.max →
    c.planetAmount.min ≤ numPlanets → numPlanets < c.planetAmount.max →
      numPlayers ≤ numPlanets ∧ numPlanets ≤ c.euclidSpace.length

theorem Config.Ample.sized {config : Config} (h : config.Ample) {d : Draws}
    (hd : d.Possible config) (hdraw : Drawable config d) : d.Sized := by
  obtain ⟨hplayers, hplayers'⟩ := hd.numPlayers hdraw.numPlayers
  obtain ⟨hplanets, hplanets'⟩ := hd.numPlanets hdraw.numPlanets
  obtain ⟨hle, hspace⟩ := h _ _ hplayers hplayers' hplanets hplanets'
  refine ⟨hd.planetLocs.length_of_le hspace, hd.playerLocs.length_of_le ?_, hle⟩
  rwa [List.length_range]

/-- A generated map is fair if and only if there was something to draw, rounding keeps the drawn
points apart, and the planets drawn for the players are those with the players' numbers. -/
theorem createMap_fair_iff {config : Config} (hconfig : config.Ample) {d : Draws}
    (hd : d.Possible config) : (∃ map, createMap config d = .ok map ∧ Fair map) ↔
      Drawable config d ∧ d.Apart ∧ d.Numbered := by
  have hsafe := createMap_safe (hconfig.sized hd)
  constructor
  · rintro ⟨map, hmap, hfair⟩
    obtain ⟨hdraw, rfl⟩ := hsafe.of_ok hmap
    exact ⟨hdraw, ((hconfig.sized hd hdraw).fair_iff hd.playerLocs).mp hfair⟩
  · rintro ⟨hdraw, hdrawn⟩
    cases hmap : createMap config d with
    | error e => exact absurd hdraw (hsafe.of_error hmap)
    | ok map =>
      obtain ⟨-, rfl⟩ := hsafe.of_ok hmap
      exact ⟨_, rfl, ((hconfig.sized hd hdraw).fair_iff hd.playerLocs).mpr hdrawn⟩

/-! ## The default -/

theorem Bound.mem_range {b : Bound Int} {n : Int} : n ∈ b.range ↔ b.min ≤ n ∧ n < b.max := by
  rw [range, List.mem_map]
  constructor
  · rintro ⟨i, hi, rfl⟩
    have := List.mem_range.mp hi
    omega
  · rintro ⟨hmin, hmax⟩
    exact ⟨(n - b.min).toNat, List.mem_range.mpr (by omega), by omega⟩

theorem Config.mem_euclidSpace {c : Config} {loc : Int × Int} : loc ∈ c.euclidSpace ↔
    (c.horizontalBound.min ≤ loc.1 ∧ loc.1 < c.horizontalBound.max) ∧
      c.verticalBound.min ≤ loc.2 ∧ loc.2 < c.verticalBound.max := by
  rw [euclidSpace, List.mem_product, Bound.mem_range, Bound.mem_range]

theorem Config.length_euclidSpace (c : Config) : c.euclidSpace.length =
    (c.horizontalBound.max - c.horizontalBound.min).toNat *
      (c.verticalBound.max - c.verticalBound.min).toNat := by
  simp [euclidSpace, Bound.range, List.length_product]

/-- On a small grid rounding changes nothing. -/
theorem Draws.Possible.apart {config : Config} {d : Draws} (hd : d.Possible config)
    (hsmall : ∀ loc ∈ config.euclidSpace, loc.1.natAbs < 2 ^ 24 ∧ loc.2.natAbs < 2 ^ 24) :
    d.Apart := by
  have hsame : d.planetLocs.map (fun loc => (asF32 loc.1, asF32 loc.2)) = d.planetLocs.map id := by
    apply List.map_congr_left
    intro loc hloc
    obtain ⟨hx, hy⟩ := hsmall loc (hd.planetLocs.subset hloc)
    rw [asF32_of_small hx, asF32_of_small hy]
    rfl
  rw [Apart, hsame, List.map_id]
  exact hd.planetLocs.nodup

theorem Config.new_small : ∀ loc ∈ Config.new.euclidSpace,
    loc.1.natAbs < 2 ^ 24 ∧ loc.2.natAbs < 2 ^ 24 := by
  intro loc hloc
  rw [mem_euclidSpace] at hloc
  simp only [new] at hloc
  omega

theorem Config.new_ample : Config.new.Ample := by
  intro numPlayers numPlanets _ hplayers hplanets hplanets'
  have hspace : new.euclidSpace.length = 101 * 41 := length_euclidSpace new
  simp only [new] at hplayers hplanets hplanets'
  omega

/-- The first points of the default grid. -/
def corner : List (Int × Int) := [(-50, -20), (-50, -19), (-50, -18), (-50, -17)]

/-- Four planets there, two of them for the players. -/
def cornerDraws (first second : Nat) : Draws where
  numPlayers := 2
  numPlanets := 4
  planetLocs := corner
  shipCounts _ := 1
  playerLocs := [first, second]

theorem corner_subset : corner ⊆ Config.new.euclidSpace := by
  intro loc hloc
  have hloc' : loc.1 = -50 ∧ -20 ≤ loc.2 ∧ loc.2 ≤ -17 := by
    revert loc
    decide
  rw [Config.mem_euclidSpace]
  simp only [Config.new]
  omega

theorem cornerDraws_possible {first second : Nat} (hne : first ≠ second) (hfirst : first < 4)
    (hsecond : second < 4) : (cornerDraws first second).Possible Config.new where
  numPlayers _ := (by decide : 2 ≤ 2 ∧ 2 < 3)
  numPlanets _ := (by decide : 4 ≤ 4 ∧ 4 < 11)
  planetLocs := by
    have hspace : Config.new.euclidSpace.length = 101 * 41 := Config.length_euclidSpace Config.new
    exact ⟨(by decide : corner.Nodup), corner_subset, by rw [hspace]; rfl⟩
  shipCounts _ _ := (by decide : 1 ≤ 1 ∧ 1 < 16)
  playerLocs := by
    refine ⟨by simpa [cornerDraws] using hne, ?_, rfl⟩
    simp [cornerDraws, hfirst, hsecond]

theorem createMap_fair_iff_corner :
    ∃ map, createMap Config.new (cornerDraws 2 1) = .ok map ∧ Fair map := by
  have hd : (cornerDraws 2 1).Possible Config.new :=
    cornerDraws_possible (by decide) (by decide) (by decide)
  apply (createMap_fair_iff Config.new_ample hd).mpr
  exact ⟨⟨by decide, by decide, .inl (by decide)⟩, hd.apart Config.new_small, by decide⟩

/-- The planets 0 and 3 are drawn for the players: `Player_0` owns a planet. -/
theorem not_fair_corner : Config.new.Ample ∧ (cornerDraws 0 3).Possible Config.new ∧
    ¬ ∃ map, createMap Config.new (cornerDraws 0 3) = .ok map ∧ Fair map := by
  have hd : (cornerDraws 0 3).Possible Config.new :=
    cornerDraws_possible (by decide) (by decide) (by decide)
  refine ⟨Config.new_ample, hd, ?_⟩
  rintro ⟨map, hmap, hfair⟩
  obtain ⟨hdraw, rfl⟩ := (createMap_safe (Config.new_ample.sized hd)).of_ok hmap
  have hnumbered := (Config.new_ample.sized hd hdraw).owners_listed.mp hfair.owners
  exact absurd (hnumbered 0 List.mem_cons_self).1 (by decide)

end Mozaic.MapGenerator
