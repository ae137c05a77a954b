import Mozaic.Rules.Arrivals

/-! A chart of a game shows what its vectors hold and hides how they hold it: fleets
are garrisons, expeditions are a multiset and have no ids. On charts the expedition
loop is a fold whose steps commute. -/
namespace Mozaic.Rules
open Rust Outcome

variable {F : Type}

def Expedition.anonymous (e : Expedition) : Expedition := { e with id := 0 }

structure Site (F : Type) where
  id : Nat
  name : String
  x : F
  y : F
  garrison : Garrison

structure Chart (F : Type) where
  sites : List (Site F)
  players : List Player
  flights : Multiset Expedition
  expeditionNum : Nat
  turnNum : Nat
  maxTurns : Nat

def Planet.site (p : Planet F) : Site F where
  id := p.id
  name := p.name
  x := p.x
  y := p.y
  garrison := Mozaic.Rules.garrison p.fleets

def PlanetWars.chart (s : PlanetWars F) : Chart F where
  sites := s.planets.map Planet.site
  players := s.players
  flights := (s.expeditions.map Expedition.anonymous : Multiset Expedition)
  expeditionNum := s.expeditionNum
  turnNum := s.turnNum
  maxTurns := s.maxTurns

namespace Chart

def land (sites : List (Site F)) (e : Expedition) : Except Panic (List (Site F)) := do
  let site ← index sites e.target
  let garrison ← site.garrison.station e.fleet
  pure (sites.set e.target { site with garrison })

def visit (c : Chart F) (e : Expedition) : Except Panic (Chart F) :=
  if e.landing then do
    let sites ← land c.sites e
    pure { c with sites }
  else do
    let players ← markAlive c.players e.fleet.owner
    pure { c with players, flights := e.advance ::ₘ c.flights }

end Chart

/-! ## The chart of a step -/

theorem map_site_deliver (planets : List (Planet F)) (e : Expedition) :
    List.map Planet.site <$> deliver planets e = Chart.land (planets.map Planet.site) e := by
  unfold deliver Chart.land
  cases hp : planets[e.target]? with
  | none => simp [index, hp]
  | some p =>
    have hsite : (planets.map Planet.site)[e.target]? = some p.site := by simp [hp]
    have hg : p.site.garrison.station e.fleet = garrison <$> Planet.mergeFleet e.fleet p.fleets :=
      (garrison_mergeFleet e.fleet p.fleets).symm
    simp only [index_of_getElem? hp, index_of_getElem? hsite, ok_bind, Planet.orbit, hg]
    cases Planet.mergeFleet e.fleet p.fleets with
    | error err => rfl
    | ok fleets => simp [pure, Except.pure, List.map_set, Planet.site]

/-- The chart of what the loop does is what it does to the chart. -/
theorem chart_visit (s : PlanetWars F) (e : Expedition) :
    PlanetWars.chart <$> s.visit e = s.chart.visit e.anonymous := by
  unfold PlanetWars.visit Chart.visit
  have hland : e.anonymous.landing = e.landing := rfl
  rw [hland]
  split
  · have h : Chart.land s.chart.sites e.anonymous = Chart.land (s.planets.map Planet.site) e := rfl
    rw [h, ← map_site_deliver]
    cases deliver s.planets e <;> rfl
  · have h : markAlive s.chart.players e.anonymous.fleet.owner = markAlive s.players e.fleet.owner :=
      rfl
    rw [h]
    cases markAlive s.players e.fleet.owner with
    | error err => rfl
    | ok players =>
      simp only [ok_bind, pure, Except.pure, map_ok, PlanetWars.chart, List.map_append,
        List.map_cons, List.map_nil, Except.ok.injEq, Chart.mk.injEq, true_and, and_true]
      rw [← Multiset.coe_add, Multiset.coe_singleton, Multiset.add_comm, Multiset.singleton_add]
      rfl

/-! ## Steps commute -/

private theorem land_eq (sites : List (Site F)) (e : Expedition) :
    Chart.land sites e = modifyAt sites e.target fun site =>
      (fun garrison => { site with garrison }) <$> site.garrison.station e.fleet := by
  unfold Chart.land modifyAt
  congr 1
  funext site
  dsimp only
  cases site.garrison.station e.fleet <;> rfl

private theorem land_comm (sites : List (Site F)) (a b : Expedition) :
    Agree Eq (Chart.land sites a >>= (Chart.land · b)) (Chart.land sites b >>= (Chart.land · a)) := by
  simp only [land_eq]
  refine modifyAt_comm sites fun _ site => ?_
  have hpair (x y : Fleet) :
      ((fun garrison => { site with garrison : Site F }) <$> site.garrison.station x >>= fun site =>
        (fun garrison => { site with garrison : Site F }) <$> site.garrison.station y) =
      (fun garrison => { site with garrison : Site F }) <$>
        (site.garrison.station x >>= (·.station y)) := by
    cases site.garrison.station x <;> simp
  rw [hpair, hpair]
  exact (site.garrison.station_comm a.fleet b.fleet).map fun _ _ h => h ▸ rfl

private theorem markAlive_some (players : List Player) (o : PlayerId) :
    markAlive players (some o) = modifyAt players o fun p => .ok { p with alive := true } := by
  unfold markAlive modifyAt
  congr 1

private theorem markAlive_comm (players : List Player) (o o' : Option PlayerId) :
    Agree Eq (markAlive players o >>= (markAlive · o')) (markAlive players o' >>= (markAlive · o)) := by
  have hnone (players : List Player) : markAlive players none = .ok players := rfl
  rcases o with - | o <;> rcases o' with - | o'
  · exact Agree.refl_of _ fun _ _ => rfl
  · cases h : markAlive players (some o') <;> simp [hnone, h]
  · cases h : markAlive players (some o) <;> simp [hnone, h]
  · simp only [markAlive_some]
    exact modifyAt_comm players fun _ p => rfl

/-- The loop may come across two expeditions in either order. -/
theorem Chart.visit_comm (c : Chart F) (a b : Expedition) :
    Agree Eq (c.visit a >>= (·.visit b)) (c.visit b >>= (·.visit a)) := by
  by_cases ha : a.landing <;> by_cases hb : b.landing
  · have hpair (x y : Expedition) (hx : x.landing) (hy : y.landing) :
        (c.visit x >>= (·.visit y)) =
          (fun sites => { c with sites }) <$> (land c.sites x >>= (land · y)) := by
      simp only [visit, hx, if_true]
      cases land c.sites x with
      | error e => rfl
      | ok sites =>
        simp only [ok_bind, pure, Except.pure, hy, if_true]
        cases land sites y <;> rfl
    rw [hpair a b ha hb, hpair b a hb ha]
    exact (land_comm c.sites a b).map fun _ _ h => h ▸ rfl
  · simp only [visit, ha, hb, if_true, Bool.false_eq_true, if_false]
    cases hl : land c.sites a <;> cases hm : markAlive c.players b.fleet.owner <;>
      simp [pure, Except.pure, hl, hm]
  · simp only [visit, ha, hb, if_true, Bool.false_eq_true, if_false]
    cases hl : land c.sites b <;> cases hm : markAlive c.players a.fleet.owner <;>
      simp [pure, Except.pure, hl, hm]
  · have hpair (x y : Expedition) (hx : ¬ x.landing) (hy : ¬ y.landing) :
        (c.visit x >>= (·.visit y)) =
          (fun players => { c with players, flights := y.advance ::ₘ x.advance ::ₘ c.flights }) <$>
            (markAlive c.players x.fleet.owner >>= (markAlive · y.fleet.owner)) := by
      simp only [visit, hx, Bool.false_eq_true, if_false]
      cases markAlive c.players x.fleet.owner with
      | error e => rfl
      | ok players =>
        simp only [ok_bind, pure, Except.pure, hy, Bool.false_eq_true, if_false]
        cases markAlive players y.fleet.owner <;> rfl
    rw [hpair a b ha hb, hpair b a hb ha]
    refine (markAlive_comm c.players a.fleet.owner b.fleet.owner).map fun _ _ h => ?_
    rw [h, Multiset.cons_swap]

private theorem chart_run (s : PlanetWars F) :
    PlanetWars.chart <$> s.stepExpeditions =
      ((sweepOrder Expedition.landing s.expeditions).map Expedition.anonymous).foldlM Chart.visit
        { s.chart with flights := 0 } := by
  rw [s.stepExpeditions_eq, map_foldlM fun e _ s => chart_visit s e]
  rfl

/-- Games with one chart still have one after the expedition loop. -/
theorem chart_stepExpeditions {s t : PlanetWars F} (h : s.chart = t.chart) :
    Agree (fun s' t' => s'.chart = t'.chart) s.stepExpeditions t.stepExpeditions := by
  refine Agree.of_map (S := Eq) ?_
  have hflights : (s.expeditions.map Expedition.anonymous).Perm
      (t.expeditions.map Expedition.anonymous) :=
    Multiset.coe_eq_coe.mp (congrArg Chart.flights h)
  have hperm := ((sweepOrder_perm Expedition.landing s.expeditions).map
    Expedition.anonymous).trans (hflights.trans
      ((sweepOrder_perm Expedition.landing t.expeditions).map Expedition.anonymous).symm)
  rw [chart_run, chart_run, h]
  refine Agree.foldlM_perm (fun _ _ h => h.symm) (fun _ _ _ h h' => h.trans h') hperm ?_ ?_ rfl
  · intro e _ c _ heq
    subst heq
    exact Agree.refl_of _ fun _ _ => rfl
  · exact fun a _ b _ c _ => c.visit_comm a b

end Mozaic.Rules
