import Mozaic.Game.Loading
import Mozaic.Game.DrainOrder

/-! Players that are modest: they send ships from a planet at most once a turn, and leave one
there. They are never refused anything but to send no ships at all. -/
namespace Mozaic
open Rust Rules Network Outcome

variable {F : Type}

/-- Player `i` has ships on every planet that is its own. -/
def Manned (i : PlayerId) (planets : List (Planet F)) : Prop :=
  ∀ p ∈ planets, p.owner = some i → 0 < p.shipCount

/-- The map finds a planet by its name. -/
def Named (planetMap : HashMap String Nat) (planets : List (Planet F)) : Prop :=
  ∀ o p, planets[o]? = some p → planetMap.lookup p.name = some o

/-- From each planet of player `i` ships are sent once at most, and one ship stays. -/
structure Modest (i : PlayerId) (planets : List (Planet F)) (commands : List Proto.Command) :
    Prop where
  once : (commands.map (·.origin)).Nodup
  origins : ∀ mv ∈ commands, ∃ p ∈ planets, p.name = mv.origin ∧ p.owner = some i ∧
    mv.shipCount < p.shipCount
  destinations : ∀ mv ∈ commands, ∃ p ∈ planets, p.name = mv.destination

/-- What is reported about a modest command. -/
def judged (command : Proto.Command) : Proto.PlayerCommand :=
  { command, error := if command.shipCount = 0 then some .zeroShipMove else none }

/-! ## Modest commands -/

section Departures
variable {i : PlayerId} {planets : List (Planet F)} {e : Expedition}

theorem name_depart {o : Nat} {p : Planet F} (hp : (depart planets e)[o]? = some p) :
    ∃ q, planets[o]? = some q ∧ q.name = p.name := by
  rw [getElem?_depart] at hp
  split at hp
  · obtain ⟨q, hq, rfl⟩ := Option.map_eq_some_iff.mp hp
    exact ⟨q, hq, rfl⟩
  · exact ⟨p, hp, rfl⟩

theorem Named.depart {planetMap : HashMap String Nat} (h : Named planetMap planets) :
    Named planetMap (Mozaic.depart planets e) := by
  intro o p hp
  obtain ⟨q, hq, hname⟩ := name_depart hp
  exact hname ▸ h o q hq

theorem Manned.depart (h : Manned i planets) (hleaves : ∀ p, planets[e.origin]? = some p →
    e.fleet.shipCount < p.shipCount) : Manned i (Mozaic.depart planets e) := by
  intro p hp howner
  obtain ⟨o, ho⟩ := List.mem_iff_getElem?.mp hp
  rw [getElem?_depart] at ho
  split at ho
  · rename_i horigin
    obtain ⟨q, hq, rfl⟩ := Option.map_eq_some_iff.mp ho
    have hlt := hleaves q (horigin ▸ hq)
    rw [Planet.shipCount_send]
    omega
  · exact h p (List.mem_of_getElem? ho) howner

/-- Planets with another name stay as they are. -/
theorem mem_depart_of_name {p q : Planet F} (hp : p ∈ planets) (hq : planets[e.origin]? = some q)
    (hne : p.name ≠ q.name) : p ∈ depart planets e := by
  obtain ⟨o, ho⟩ := List.mem_iff_getElem?.mp hp
  have hother : e.origin ≠ o := by
    rintro rfl
    rw [hq] at ho
    exact hne (congrArg Planet.name (Option.some.inj ho).symm)
  refine List.mem_of_getElem? (i := o) ?_
  rw [getElem?_depart, if_neg hother]
  exact ho

theorem exists_name_depart {name : String} (h : ∃ p ∈ planets, p.name = name) :
    ∃ p ∈ depart planets e, p.name = name := by
  obtain ⟨p, hp, rfl⟩ := h
  obtain ⟨o, ho⟩ := List.mem_iff_getElem?.mp hp
  have hlt : o < (depart planets e).length := by
    rw [length_depart]
    exact (List.getElem?_eq_some_iff.mp ho).1
  obtain ⟨q, hq, hname⟩ := name_depart (List.getElem?_eq_getElem hlt)
  rw [ho] at hq
  exact ⟨_, List.getElem_mem hlt, hname ▸ congrArg Planet.name (Option.some.inj hq).symm⟩

end Departures

section Judging
variable [F64 F] {planetMap : HashMap String Nat} {i : PlayerId} {planets : List (Planet F)}

/-- The verdict on a command that names planets, one of them with the ships. -/
theorem judge_of_owned (hnamed : Named planetMap planets) {mv : Proto.Command} {p : Planet F}
    (hp : p ∈ planets) (hname : p.name = mv.origin) (howner : p.owner = some i)
    (hle : mv.shipCount ≤ p.shipCount) (hdestination : ∃ q ∈ planets, q.name = mv.destination) :
    ∃ o, planets[o]? = some p ∧
      if mv.shipCount = 0 then judge planetMap planets i mv = .error .zeroShipMove
      else ∃ e, judge planetMap planets i mv = .ok e ∧ e.origin = o ∧
        e.fleet.shipCount = mv.shipCount := by
  obtain ⟨o, ho⟩ := List.mem_iff_getElem?.mp hp
  obtain ⟨q, hq, hqname⟩ := hdestination
  obtain ⟨t, ht⟩ := List.mem_iff_getElem?.mp hq
  have horigin : planetMap.lookup mv.origin = some o := hname ▸ hnamed o p ho
  have htarget : planetMap.lookup mv.destination = some t := hqname ▸ hnamed t q ht
  refine ⟨o, ho, ?_⟩
  simp only [judge, horigin, htarget, ho, ht, howner, ne_eq, not_true, if_false,
    if_neg (Nat.not_lt.mpr hle)]
  split
  · rfl
  · exact ⟨_, rfl, rfl, rfl⟩

omit [F64 F] in
theorem Modest.tail {mv : Proto.Command} {commands : List Proto.Command}
    (h : Modest i planets (mv :: commands)) : Modest i planets commands where
  once := (List.nodup_cons.mp h.once).2
  origins mv' hmv' := h.origins mv' (List.mem_cons_of_mem _ hmv')
  destinations mv' hmv' := h.destinations mv' (List.mem_cons_of_mem _ hmv')

/-- Modest commands are accepted, but for those of no ships. Afterwards the player still has
ships on all of its planets. -/
theorem judgeAll_modest (hnamed : Named planetMap planets) (hmanned : Manned i planets)
    {commands : List Proto.Command} (h : Modest i planets commands) :
    (judgeAll planetMap i planets commands).2 = commands.map judged ∧
      Manned i (departAll planets (judgeAll planetMap i planets commands).1) := by
  induction commands generalizing planets with
  | nil => exact ⟨rfl, hmanned⟩
  | cons mv commands ih =>
    obtain ⟨p, hp, hname, howner, hlt⟩ := h.origins mv List.mem_cons_self
    obtain ⟨o, ho, hjudge⟩ := judge_of_owned hnamed hp hname howner hlt.le
      (h.destinations mv List.mem_cons_self)
    by_cases hzero : mv.shipCount = 0
    · rw [if_pos hzero] at hjudge
      obtain ⟨hreports, hstays⟩ := ih hnamed hmanned h.tail
      simp only [judgeAll, hjudge]
      exact ⟨by rw [hreports, List.map_cons, judged, if_pos hzero], hstays⟩
    · rw [if_neg hzero] at hjudge
      obtain ⟨e, hjudge, rfl, hships⟩ := hjudge
      have hrest : Modest i (depart planets e) commands := by
        refine ⟨h.tail.once, fun mv' hmv' => ?_, fun mv' hmv' => ?_⟩
        · obtain ⟨q, hq, hqname, hrest⟩ := h.tail.origins mv' hmv'
          have hne : q.name ≠ p.name := by
            rw [hqname, hname]
            intro heq
            exact (List.nodup_cons.mp h.once).1 (List.mem_map.mpr ⟨mv', hmv', heq⟩)
          exact ⟨q, mem_depart_of_name hq ho hne, hqname, hrest⟩
        · exact exists_name_depart (h.tail.destinations mv' hmv')
      have hstays : Manned i (depart planets e) := by
        refine hmanned.depart fun q hq => ?_
        rw [ho] at hq
        rw [hships, ← Option.some.inj hq]
        exact hlt
      obtain ⟨hreports, hall⟩ := ih hnamed.depart hstays hrest
      simp only [judgeAll, hjudge]
      exact ⟨by rw [hreports, List.map_cons, judged, if_neg hzero], hall⟩

end Judging

/-! ## A turn -/

theorem Manned.grown {i : PlayerId} {s : PlanetWars F} (h : Manned i s.planets) :
    Manned i s.grown.planets := by
  intro p' hp' howner
  obtain ⟨p, hp, rfl⟩ := List.mem_map.mp hp'
  by_cases hsome : p.owner.isSome = true
  · rw [Planet.grown, if_pos hsome] at howner ⊢
    cases hfleets : p.fleets with
    | nil => simp [Planet.owner, hfleets] at hsome
    | cons f fleets => simp [Planet.shipCount]
  · rw [Planet.grown, if_neg hsome] at howner ⊢
    exact h p hp howner

theorem Rules.Planet.le_shipCount_grown (p : Planet F) : p.shipCount ≤ p.grown.shipCount := by
  rw [Planet.grown]
  split
  · cases hfleets : p.fleets <;> simp [Planet.shipCount, hfleets]
  · exact Nat.le_refl _

theorem Rules.Planet.owner_grown (p : Planet F) : p.grown.owner = p.owner := by
  rw [Planet.grown]
  split
  · cases hfleets : p.fleets <;> simp [Planet.owner, hfleets]
  · rfl

theorem Rules.Planet.name_grown (p : Planet F) : p.grown.name = p.name := by
  rw [Planet.grown]
  split <;> rfl

theorem Named.of_names {planetMap : HashMap String Nat} {planets planets' : List (Planet F)}
    (h : Named planetMap planets) (hnames : planets'.map (·.name) = planets.map (·.name)) :
    Named planetMap planets' := by
  intro o p hp
  have hname : (planets'.map (·.name))[o]? = some p.name := by rw [List.getElem?_map, hp]; rfl
  rw [hnames, List.getElem?_map, Option.map_eq_some_iff] at hname
  obtain ⟨q, hq, hqname⟩ := hname
  exact hqname ▸ h o q hq

/-- What was modest when a player was asked is modest when the planets have grown. -/
theorem Modest.grown {i : PlayerId} {s : PlanetWars F} {commands : List Proto.Command}
    (h : Modest i s.planets commands) : Modest i s.grown.planets commands where
  once := h.once
  origins mv hmv := by
    obtain ⟨p, hp, hname, howner, hlt⟩ := h.origins mv hmv
    exact ⟨p.grown, List.mem_map_of_mem hp, p.name_grown.trans hname, p.owner_grown.trans howner,
      hlt.trans_le p.le_shipCount_grown⟩
  destinations mv hmv := by
    obtain ⟨p, hp, hname⟩ := h.destinations mv hmv
    exact ⟨p.grown, List.mem_map_of_mem hp, p.name_grown.trans hname⟩

theorem departAll_append (planets : List (Planet F)) (es es' : List Expedition) :
    departAll planets (es ++ es') = departAll (departAll planets es) es' :=
  List.foldl_append

theorem SameViews.departAll {i : PlayerId} {planets planets' : List (Planet F)}
    (h : SameViews i planets planets') (es : List Expedition) :
    SameViews i (Mozaic.departAll planets es) (Mozaic.departAll planets' es) := by
  induction es generalizing planets planets' with
  | nil => exact h
  | cons e es ih => exact ih (h.depart e)

theorem Manned.of_sameViews {i : PlayerId} {planets planets' : List (Planet F)}
    (h : Manned i planets) (hsame : SameViews i planets planets') : Manned i planets' := by
  intro p' hp' howner
  obtain ⟨j, hj⟩ := List.mem_iff_getElem?.mp hp'
  have hview := hsame j
  rw [hj] at hview
  cases hp : planets[j]? with
  | none =>
    rw [hp] at hview
    cases hview
  | some p =>
    rw [hp] at hview
    cases hview with
    | some hview =>
      have howner' := hview.owner.symm.trans howner
      rw [hview.ships howner']
      exact h p (List.mem_of_getElem? hp) howner'

/-- The combat on a planet leaves ships, if there is somebody left. -/
theorem combat_manned {fleets : List Fleet} {f : Fleet} (hf : f ∈ combat fleets) :
    0 < f.shipCount ∨ fleets = [f] := by
  rw [combat] at hf
  rcases hranking : ranking fleets with - | ⟨a, - | ⟨b, l⟩⟩
  · rw [hranking] at hf
    cases hf
  · rw [hranking] at hf
    obtain rfl := List.mem_singleton.mp hf
    have hperm := ranking_perm fleets
    rw [hranking] at hperm
    exact .inr (List.perm_singleton.mp hperm.symm)
  · rw [hranking, survivors] at hf
    split at hf
    · rw [List.mem_singleton.mp hf, Fleet.lose_shipCount]
      omega
    · cases hf

theorem shipsOf_pos {o : Option PlayerId} {fleets : List Fleet} {f : Fleet} (hf : f ∈ fleets)
    (howner : f.owner = o) (hpos : 0 < f.shipCount) : 0 < shipsOf o fleets := by
  have hle := List.single_le_sum (fun _ _ => Nat.zero_le _) _
    (List.mem_map_of_mem (f := fun f : Fleet => if f.owner = o then f.shipCount else 0) hf)
  rw [if_pos howner] at hle
  exact hpos.trans_le hle

/-- After a step a player has ships on all of its planets, if it had before. -/
theorem Manned.stepped {i : PlayerId} {s t : PlanetWars F} (h : Manned i s.planets)
    (hs : Valid s) (hst : Stepped s t) : Manned i t.planets := by
  intro p' hp' howner
  obtain ⟨j, hj⟩ := List.mem_iff_getElem?.mp hp'
  obtain ⟨p, q, hp, hreceived, rfl⟩ := hst.planets j p' hj
  have hmem := List.mem_of_getElem? hp
  obtain ⟨fleets, hfleets⟩ := Planet.fleets_of_owner howner
  rw [Planet.afterCombat_fleets] at hfleets
  rcases combat_manned (hfleets ▸ List.mem_cons_self) with hpos | hsingle
  · exact hpos
  · -- nobody fought, so its ships were there or have just arrived
    have hships := hreceived.ships (some i)
    rw [hsingle, shipsOf_cons, shipsOf_nil, if_pos rfl, Nat.add_zero] at hships
    dsimp only at hships
    rw [hships]
    have howners := (hreceived.owners (some i)).mp (by simp [hsingle])
    rcases howners with hstayed | harrived
    · obtain ⟨f, hf, hfowner⟩ := List.mem_map.mp hstayed
      have hone : p.fleets = [f] := by
        have hlength := hs.fleets p hmem
        rcases hall : p.fleets with - | ⟨a, - | ⟨b, l⟩⟩
        · simp [hall] at hf
        · rw [hall, List.mem_singleton] at hf
          rw [hf]
        · simp [hall] at hlength
      have hpos := h p hmem (by simp [Planet.owner, hone, hfowner])
      rw [Planet.shipCount, hone] at hpos
      exact Nat.add_pos_left (shipsOf_pos hf hfowner hpos) _
    · obtain ⟨f, hf, hfowner⟩ := List.mem_map.mp harrived
      obtain ⟨e, he, -, -, rfl⟩ := mem_arrivalsAt.mp hf
      exact Nat.add_pos_right _ (shipsOf_pos hf hfowner (hs.expeditions e he).ships)

/-! ## The start of a game -/

theorem named_ofState {c : Config} {n : Nat} {s : PlanetWars F} (hs : Created c n s)
    (hnames : (s.planets.map (·.name)).Nodup) : Named (Game.ofState s).planetMap s.planets := by
  intro o p hp
  have hkeys : ((s.planets.map fun planet => (planet.name, planet.id)).map Prod.fst).Nodup := by
    rw [List.map_map]
    exact hnames
  have hid : (s.planets.map (·.id))[o]? = some p.id := by rw [List.getElem?_map, hp]; rfl
  rw [hs.planetIds, List.getElem?_range (List.getElem?_eq_some_iff.mp hp).1] at hid
  rw [Option.some.inj hid]
  exact (HashMap.lookup_collect_of_nodup hkeys).mpr
    (List.mem_map_of_mem (List.mem_of_getElem? hp))

/-- Without ships a planet of the map is nobody's. -/
theorem Proto.Planet.manned_loaded (planet : Proto.Planet F) {n num : Nat} {i : PlayerId}
    (h : (planet.loaded n num).owner = some i) : 0 < (planet.loaded n num).shipCount := by
  rw [shipCount_loaded]
  by_contra hzero
  rw [owner_loaded, if_neg hzero] at h
  cases h

/-! ## Modest answers -/

section Turns
variable [F64 F] [External F] {g g' : Game F} {messages : List (PlayerId × ResponseValue)}
  {actions : List (PlayerId × Proto.PlayerAction)} {i : PlayerId}

/-- If the answer of player `i` is one of commands, they are modest. -/
def ModestAnswer (i : PlayerId) (planets : List (Planet F)) (response : ResponseValue) : Prop :=
  ∀ message action, response = .ok message → External.actionFromSlice F message = .ok action →
    Modest i planets action.commands

theorem manned_verdict {planetMap : HashMap String Nat} {planets : List (Planet F)}
    (hnamed : Named planetMap planets) (hmanned : Manned i planets) {response : ResponseValue}
    (hmodest : ModestAnswer i planets response) :
    Manned i (departAll planets (verdict planetMap planets i response).1) := by
  unfold verdict
  split
  · exact hmanned
  · rename_i message
    split
    · exact hmanned
    · rename_i action haction
      exact (judgeAll_modest hnamed hmanned (hmodest message action rfl haction)).2

theorem manned_orders {planetMap : HashMap String Nat} {planets : List (Planet F)}
    (hnamed : Named planetMap planets) (hmanned : Manned i planets)
    (hnd : (messages.map Prod.fst).Nodup)
    (hmodest : ∀ response, (i, response) ∈ messages → ModestAnswer i planets response) :
    Manned i (departAll planets (orders planetMap planets messages)) := by
  have hothers {l : List (PlayerId × ResponseValue)} (hl : i ∉ l.map Prod.fst) :
      ∀ e ∈ orders planetMap planets l, e.fleet.owner ≠ some i := by
    intro e he
    obtain ⟨m, hm, he⟩ := List.mem_flatMap.mp he
    rw [(verdict_admissible planetMap planets m.1 m.2).2 e he]
    rintro heq
    exact hl (Option.some.inj heq ▸ List.mem_map_of_mem hm)
  have hadmissible := orders_admissible planetMap planets hnd
  by_cases hi : i ∈ messages.map Prod.fst
  · obtain ⟨⟨j, response⟩, hmem, hj⟩ := List.mem_map.mp hi
    subst hj
    obtain ⟨before, after, rfl⟩ := List.append_of_mem hmem
    rw [List.map_append, List.map_cons, List.nodup_append, List.nodup_cons] at hnd
    obtain ⟨-, ⟨hafter, -⟩, hdisjoint⟩ := hnd
    have hbefore : j ∉ before.map Prod.fst := fun hmem => hdisjoint _ hmem _ (by simp) rfl
    rw [orders, List.flatMap_append, List.flatMap_cons, admissibleAll_append,
      admissibleAll_append] at hadmissible
    rw [orders, List.flatMap_append, List.flatMap_cons, departAll_append, departAll_append]
    have hview := sameViews_departAll hadmissible.1 (hothers hbefore)
    exact ((manned_verdict hnamed hmanned (hmodest response hmem)).of_sameViews
      (hview.departAll _)).of_sameViews (sameViews_departAll hadmissible.2.2 (hothers hafter))
  · exact hmanned.of_sameViews (sameViews_departAll hadmissible (hothers hi))

/-- A modest player keeps ships on all of its planets. -/
theorem TurnTaken.manned (h : TurnTaken g messages g' actions) (hg : g.Consistent)
    (hnd : (messages.map Prod.fst).Nodup) (hnamed : Named g.planetMap g.state.planets)
    (hmanned : Manned i g.state.planets)
    (hmodest : ∀ response, (i, response) ∈ messages → ModestAnswer i g.state.planets response) :
    Manned i g'.state.planets := by
  have hordered : Manned i (g.ordered messages).state.planets := by
    rw [Game.ordered, Game.planets_launchAll]
    refine manned_orders (hnamed.of_names (map_name_grown _)) hmanned.grown hnd ?_
    intro response hmem message action hok haction
    exact (hmodest response hmem message action hok haction).grown
  exact hordered.stepped (hg.valid_ordered hnd) h.stepped

end Turns
end Mozaic
