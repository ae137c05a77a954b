import Mozaic.Game.Turn

/-! Commands one by one: what is accepted, what that does, and what the commands of a turn
do together. -/
namespace Mozaic
open Rust Rules Network Outcome

variable {F : Type}

/-- The player owns the origin, and the origin has the ships; both names exist. -/
structure Acceptable (g : Game F) (i : PlayerId) (mv : Proto.Command) : Prop where
  origin : ∃ o p, g.planetMap.lookup mv.origin = some o ∧ g.state.planets[o]? = some p ∧
    p.owner = some i ∧ mv.shipCount ≤ p.shipCount
  destination : mv.destination ∈ g.planetMap
  ships : 0 < mv.shipCount

/-- The game `g'` after an accepted command: its ships left the only fleet of the origin,
and a new expedition `e` is under way. -/
structure Accepted [F64 F] (i : PlayerId) (mv : Proto.Command) (e : Expedition) (g g' : Game F) :
    Prop where
  origin : g.planetMap.lookup mv.origin = some e.origin
  target : g.planetMap.lookup mv.destination = some e.target
  id : e.id = g.state.expeditionNum
  fleet : e.fleet = ⟨some i, mv.shipCount⟩
  distance : ∃ p q, g.state.planets[e.origin]? = some p ∧ g.state.planets[e.target]? = some q ∧
    e.turnsRemaining = p.distance q
  game : ∃ p n, g.state.planets[e.origin]? = some p ∧ p.fleets = [⟨some i, n⟩] ∧
    mv.shipCount ≤ n ∧ g' = { g with state := { g.state with
      planets := g.state.planets.set e.origin { p with fleets := [⟨some i, n - mv.shipCount⟩] }
      expeditionNum := g.state.expeditionNum + 1
      expeditions := g.state.expeditions ++ [e] } }

/-- The commands of a player, executed one after the other. Each is judged by the game that
the accepted ones before it left. -/
inductive Executed [F64 F] (i : PlayerId) :
    Game F → List Proto.Command → Game F → List Proto.PlayerCommand → Prop
  | nil (g : Game F) : Executed i g [] g []
  | accepted {g g' g'' : Game F} {mv : Proto.Command} {mvs : List Proto.Command}
      {reports : List Proto.PlayerCommand} {e : Expedition} (h : Acceptable g i mv)
      (he : Accepted i mv e g g') (hrest : Executed i g' mvs g'' reports) :
      Executed i g (mv :: mvs) g'' ({ command := mv, error := none } :: reports)
  | rejected {g g' : Game F} {mv : Proto.Command} {mvs : List Proto.Command}
      {reports : List Proto.PlayerCommand} (error : Proto.CommandError) (h : ¬ Acceptable g i mv)
      (hrest : Executed i g mvs g' reports) :
      Executed i g (mv :: mvs) g' ({ command := mv, error := some error } :: reports)

/-- The ships that these expeditions took from planet `o`. -/
def shipsFrom (o : Nat) (es : List Expedition) : Nat :=
  ((es.filter (·.origin = o)).map (·.fleet.shipCount)).sum

theorem shipsFrom_cons (o : Nat) (e : Expedition) (es : List Expedition) :
    shipsFrom o (e :: es) = (if e.origin = o then e.fleet.shipCount else 0) + shipsFrom o es := by
  rw [shipsFrom, List.filter_cons]
  split <;> split <;> simp_all [shipsFrom]

theorem shipsFrom_numbered (o num : Nat) (es : List Expedition) :
    shipsFrom o (numbered num es) = shipsFrom o es := by
  induction es generalizing num with
  | nil => rfl
  | cons e es ih =>
    have hcons : numbered num (e :: es) = { e with id := num } :: numbered (num + 1) es := by
      simp [numbered, Nat.add_assoc, Nat.add_comm 1]
    rw [hcons, shipsFrom_cons, shipsFrom_cons, ih]

/-- What leaves a planet and what stays is what was there. -/
theorem shipsFrom_departAll {planets : List (Planet F)} {es : List Expedition}
    (hes : AdmissibleAll planets es) {o : Nat} {p : Planet F} (hp : planets[o]? = some p) :
    ∃ p', (departAll planets es)[o]? = some p' ∧ shipsFrom o es + p'.shipCount = p.shipCount := by
  induction es generalizing planets p with
  | nil => exact ⟨p, hp, Nat.zero_add _⟩
  | cons e es ih =>
    obtain ⟨⟨⟨q, hq, -, hle⟩, -, -, -⟩, hrest⟩ := hes
    rw [departAll_cons]
    have hdepart := getElem?_depart planets e o
    rw [hp] at hdepart
    by_cases ho : e.origin = o
    · rw [if_pos ho, Option.map_some] at hdepart
      obtain ⟨p', hp', hsum⟩ := ih hrest hdepart
      obtain rfl : q = p := by
        rw [ho, hp] at hq
        exact (Option.some.inj hq).symm
      refine ⟨p', hp', ?_⟩
      rw [shipsFrom_cons, if_pos ho]
      rw [Planet.shipCount_send] at hsum
      omega
    · rw [if_neg ho] at hdepart
      obtain ⟨p', hp', hsum⟩ := ih hrest hdepart
      refine ⟨p', hp', ?_⟩
      rw [shipsFrom_cons, if_neg ho, Nat.zero_add, hsum]

theorem reserve_safe_of_lt (num k : Nat) :
    Safe (fun e : Panic => e = .addOverflow .expeditionNum ∧ 2 ^ 64 ≤ num + k) (fun _ => True)
      (reserve num k) := by
  induction k generalizing num with
  | zero => trivial
  | succ k ih =>
    refine Safe.bind (P := (· = num + 1)) (checkedAdd_safe (fun h => ⟨rfl, ?_⟩) fun _ => rfl) ?_
    · omega
    · rintro _ rfl
      exact (ih (num + 1)).mono (fun e he => ⟨he.1, by omega⟩) fun _ _ => trivial

section Judging
variable [F64 F] {g : Game F} {i : PlayerId} {mv : Proto.Command}

theorem acceptable_of_judge {e : Expedition}
    (h : judge g.planetMap g.state.planets i mv = .ok e) : Acceptable g i mv := by
  unfold judge at h
  split at h
  · cases h
  · cases h
  · rename_i o t ho ht
    split at h
    · rename_i origin target horigin htarget
      split_ifs at h with howner hfew hzero
      exact ⟨⟨o, origin, ho, horigin, of_not_not howner, Nat.le_of_not_lt hfew⟩,
        Finmap.mem_iff.mpr ⟨t, ht⟩, Nat.pos_of_ne_zero hzero⟩
    · cases h

theorem not_acceptable_of_judge (hg : g.Mapped) {error : Proto.CommandError}
    (h : judge g.planetMap g.state.planets i mv = .error error) : ¬ Acceptable g i mv := by
  rintro ⟨⟨o, p, ho, hp, howner, hle⟩, hdest, hpos⟩
  obtain ⟨t, ht⟩ := Finmap.mem_iff.mp hdest
  have htarget := List.getElem?_eq_getElem (hg _ _ ht)
  unfold judge at h
  simp only [ho, ht, hp, htarget] at h
  rw [if_neg (not_not.mpr howner), if_neg (Nat.not_lt.mpr hle), if_neg hpos.ne'] at h
  cases h

theorem accepted_of_judge (hs : Valid g.state) {e : Expedition}
    (h : judge g.planetMap g.state.planets i mv = .ok e) :
    Accepted i mv { e with id := g.state.expeditionNum } g (g.launchAll [e]) := by
  unfold judge at h
  split at h
  · cases h
  · cases h
  · rename_i o t ho ht
    split at h
    · rename_i p q hp hq
      split_ifs at h with howner hfew hzero
      obtain rfl := Except.ok.inj h
      obtain ⟨fleets, hfleets⟩ := Planet.fleets_of_owner (of_not_not howner)
      have hlength := hs.fleets p (List.mem_of_getElem? hp)
      rw [hfleets, List.length_cons] at hlength
      obtain rfl : fleets = [] := List.length_eq_zero_iff.mp (by omega)
      refine ⟨ho, ht, rfl, rfl, ⟨p, q, hp, hq, rfl⟩, p, p.shipCount, hp, hfleets,
        Nat.le_of_not_lt hfew, ?_⟩
      have hsend : p.send mv.shipCount =
          { p with fleets := [⟨some i, p.shipCount - mv.shipCount⟩] } := by
        rw [Planet.send, hfleets]
        rfl
      rw [Game.launchAll, PlanetWars.launchAll_cons, PlanetWars.launchAll_nil, PlanetWars.launch,
        depart_eq_set hp]
      dsimp only
      rw [hsend]
    · cases h

end Judging

namespace Game
variable [F64 F] {g : Game F}

theorem accepted_of_executeCommand (hg : g.Mapped) (hs : Valid g.state) {g' : Game F}
    {i : PlayerId} {mv : Proto.Command} {done : List Proto.PlayerCommand}
    (h : executeCommand i (g, done) mv = .ok (g', done ++ [{ command := mv, error := none }])) :
    ∃ e, Accepted i mv e g g' := by
  rw [executeCommand_eq hg] at h
  cases hj : judge g.planetMap g.state.planets i mv with
  | error error =>
    rw [hj] at h
    simp at h
  | ok e =>
    rw [hj] at h
    cases hr : reserve g.state.expeditionNum 1 with
    | error err => simp [hr] at h
    | ok _ =>
      obtain rfl : g.launchAll [e] = g' := by simpa [hr] using h
      exact ⟨_, accepted_of_judge hs hj⟩

/-- Executing a list of commands step by step. -/
theorem executeCommands_safe (hg : g.Mapped) (hs : Valid g.state) (i : PlayerId)
    (done : List Proto.PlayerCommand) (mvs : List Proto.Command) :
    Safe (fun e => e = .addOverflow .expeditionNum ∧
        2 ^ 64 ≤ g.state.expeditionNum + mvs.length)
      (fun r => ∃ reports, r.2 = done ++ reports ∧ Executed i g mvs r.1 reports)
      (mvs.foldlM (executeCommand i) (g, done)) := by
  induction mvs generalizing g done with
  | nil => exact ⟨[], (List.append_nil _).symm, .nil g⟩
  | cons mv mvs ih =>
    rw [List.foldlM_cons, executeCommand_eq hg]
    cases hj : judge g.planetMap g.state.planets i mv with
    | error error =>
      refine ((ih hg hs _).mono (fun e he => ⟨he.1, ?_⟩) ?_)
      · have hlength := he.2
        rw [List.length_cons]
        omega
      · rintro r ⟨reports, hr, hexecuted⟩
        refine ⟨_ :: reports, ?_, .rejected error (not_acceptable_of_judge hg hj) hexecuted⟩
        rw [hr, List.append_assoc, List.singleton_append]
    | ok e =>
      have hadmissible := (judge_ok hj).1
      have hvalid : Valid (g.launchAll [e]).state := hs.launchAll ⟨hadmissible, trivial⟩
      refine Safe.bind (P := (· = (g.launchAll [e], done ++ [⟨mv, none⟩]))) ?_ ?_
      · refine ((reserve_safe_of_lt g.state.expeditionNum 1).mono (fun e he => ⟨he.1, ?_⟩)
          fun _ h => h).map fun _ _ => rfl
        have hlength := he.2
        rw [List.length_cons]
        omega
      · rintro _ rfl
        refine (ih (hg.launchAll [e]) hvalid _).mono (fun e he => ⟨he.1, ?_⟩) ?_
        · have hlength := he.2
          rw [expeditionNum_launchAll] at hlength
          rw [List.length_cons]
          simp only [List.length_cons, List.length_nil] at hlength
          omega
        · rintro r ⟨reports, hr, hexecuted⟩
          refine ⟨_ :: reports, ?_,
            .accepted (acceptable_of_judge hj) (accepted_of_judge hs hj) hexecuted⟩
          rw [hr, List.append_assoc, List.singleton_append]

/-- All that happens from `g` to `g'` is that expeditions set out, with ships that the planets
can spare. -/
def Launches (g g' : Game F) : Prop :=
  ∃ es, AdmissibleAll g.state.planets es ∧ g' = g.launchAll es

section Launches
variable {g g' g'' : Game F}

omit [F64 F]

theorem Launches.refl (g : Game F) : Launches g g := ⟨[], trivial, rfl⟩

theorem Launches.trans (h : Launches g g') (h' : Launches g' g'') : Launches g g'' := by
  obtain ⟨es, hes, rfl⟩ := h
  obtain ⟨es', hes', rfl⟩ := h'
  rw [planets_launchAll] at hes'
  exact ⟨es ++ es', admissibleAll_append.mpr ⟨hes, hes'⟩, (launchAll_append g es es').symm⟩

theorem Launches.mapped (h : Launches g g') (hg : g.Mapped) : g'.Mapped := by
  obtain ⟨es, -, rfl⟩ := h
  exact hg.launchAll es

theorem Launches.valid (h : Launches g g') (hg : Valid g.state) : Valid g'.state := by
  obtain ⟨es, hes, rfl⟩ := h
  exact hg.launchAll hes

theorem Launches.expeditions (h : Launches g g') : ∃ es,
    g'.state.expeditions = g.state.expeditions ++ numbered g.state.expeditionNum es ∧
      g.state.expeditionNum ≤ g'.state.expeditionNum := by
  obtain ⟨es, -, rfl⟩ := h
  refine ⟨es, ?_, ?_⟩
  · rw [launchAll, PlanetWars.launchAll_eq]
  · rw [expeditionNum_launchAll]
    exact Nat.le_add_right _ _

end Launches

theorem executeCommands_launches (hg : g.Mapped) (i : PlayerId) (done : List Proto.PlayerCommand)
    (mvs : List Proto.Command) :
    Safe (fun e => e = .addOverflow .expeditionNum) (fun r => Launches g r.1)
      (mvs.foldlM (executeCommand i) (g, done)) := by
  rw [executeCommands_eq hg]
  refine (reserve_safe _ _).map fun _ _ => ⟨_, ?_, rfl⟩
  exact (judgeAll_admissible _ i _ mvs).1

variable [External F]

theorem executeAction_launches (hg : g.Mapped) (i : PlayerId) (response : ResponseValue) :
    Safe (fun e => e = .addOverflow .expeditionNum) (fun r => Launches g r.1)
      (g.executeAction i response) := by
  rw [executeAction_eq hg]
  refine (reserve_safe _ _).map fun _ _ => ⟨_, ?_, rfl⟩
  exact (verdict_admissible _ _ i response).1

theorem executeMessages_launches (hg : g.Mapped)
    (actions : List (PlayerId × Proto.PlayerAction)) (messages : List (PlayerId × ResponseValue)) :
    Safe (fun e => e = .addOverflow .expeditionNum) (fun r => Launches g r.1)
      (messages.foldlM executeMessage (g, actions)) := by
  apply Safe.foldlM (I := fun r : Game F × _ => Launches g r.1) (Launches.refl g)
  rintro ⟨i, response⟩ - ⟨g', actions⟩ h
  refine Safe.bind (executeAction_launches (h.mapped hg) i response) ?_
  rintro ⟨g'', action⟩ h'
  exact h.trans h'

end Game
end Mozaic
