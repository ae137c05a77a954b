import Mozaic.Game.DrainOrder
import Mozaic.Controller.System

/-! The rules know no player by name. If the players are renamed, in the map and in what they
answer, then the match is the same one with the players renamed. -/
namespace Mozaic
open Rust Rules Network Outcome

variable {F : Type} {σ : Equiv.Perm PlayerId}

namespace Rules

def Fleet.rename (σ : Equiv.Perm PlayerId) (f : Fleet) : Fleet := { f with owner := f.owner.map σ }

def Planet.rename (σ : Equiv.Perm PlayerId) (p : Planet F) : Planet F :=
  { p with fleets := p.fleets.map (Fleet.rename σ) }

def Expedition.rename (σ : Equiv.Perm PlayerId) (e : Expedition) : Expedition :=
  { e with fleet := e.fleet.rename σ }

/-! ## Planets and fleets -/

theorem map_owner_eq_iff {o o' : Option PlayerId} : o.map σ = o'.map σ ↔ o = o' :=
  (Option.map_injective σ.injective).eq_iff

theorem Planet.owner_rename (p : Planet F) : (p.rename σ).owner = p.owner.map σ := by
  unfold Planet.owner Planet.rename
  cases p.fleets <;> rfl

theorem Planet.shipCount_rename (p : Planet F) : (p.rename σ).shipCount = p.shipCount := by
  unfold Planet.shipCount Planet.rename
  cases p.fleets <;> rfl

theorem Planet.repopulate_rename (p : Planet F) :
    (p.rename σ).repopulate = Planet.rename σ <$> p.repopulate := by
  rw [Planet.repopulate, Planet.repopulate, Planet.owner_rename, Option.isSome_map]
  split
  · rcases hf : p.fleets with - | ⟨f, fleets⟩
    · simp [Planet.rename, hf, index]
    · simp only [Planet.rename, hf, List.map_cons, index_of_getElem? (List.getElem?_cons_zero ..),
        ok_bind, Fleet.rename]
      cases checkedAdd Counter.shipCount f.shipCount 1 with
      | error e => rfl
      | ok n => simp [Planet.rename, Fleet.rename, pure, Except.pure]
  · rfl

theorem Planet.mergeFleet_rename (fleet : Fleet) (fleets : List Fleet) :
    Planet.mergeFleet (fleet.rename σ) (fleets.map (Fleet.rename σ)) =
      List.map (Fleet.rename σ) <$> Planet.mergeFleet fleet fleets := by
  induction fleets with
  | nil => rfl
  | cons other rest ih =>
    have howner : (other.rename σ).owner = (fleet.rename σ).owner ↔ other.owner = fleet.owner :=
      map_owner_eq_iff
    by_cases hsame : other.owner = fleet.owner
    · rw [List.map_cons, Planet.mergeFleet, Planet.mergeFleet, if_pos hsame, if_pos (howner.mpr hsame)]
      change (checkedAdd Counter.shipCount other.shipCount fleet.shipCount >>= _) = _
      cases checkedAdd Counter.shipCount other.shipCount fleet.shipCount <;> rfl
    · rw [List.map_cons, Planet.mergeFleet, Planet.mergeFleet, if_neg hsame,
        if_neg (howner.not.mpr hsame), ih]
      cases Planet.mergeFleet fleet rest <;> rfl

theorem Planet.orbit_rename (p : Planet F) (fleet : Fleet) :
    (p.rename σ).orbit (fleet.rename σ) = Planet.rename σ <$> p.orbit fleet := by
  rw [Planet.orbit, Planet.orbit]
  change (Planet.mergeFleet (fleet.rename σ) (p.fleets.map (Fleet.rename σ)) >>= _) = _
  rw [Planet.mergeFleet_rename]
  cases Planet.mergeFleet fleet p.fleets <;> rfl

theorem ranking_rename (fleets : List Fleet) :
    ranking (fleets.map (Fleet.rename σ)) = (ranking fleets).map (Fleet.rename σ) :=
  (List.map_insertionSort _ _ (Fleet.rename σ) fleets fun _ _ _ _ => Iff.rfl).symm

theorem survivors_rename (fleets : List Fleet) :
    survivors (fleets.map (Fleet.rename σ)) = (survivors fleets).map (Fleet.rename σ) := by
  rcases fleets with - | ⟨a, - | ⟨b, fleets⟩⟩
  · rfl
  · rfl
  · change (if b.shipCount < a.shipCount then _ else _) = _
    rw [survivors]
    split <;> rfl

theorem Planet.resolveCombat_rename (p : Planet F) :
    (p.rename σ).resolveCombat = Planet.rename σ <$> p.resolveCombat := by
  rw [Planet.resolveCombat_eq, Planet.resolveCombat_eq]
  change Except.ok { p with fleets := combat (p.fleets.map (Fleet.rename σ)) } = _
  rw [combat, ranking_rename, survivors_rename]
  rfl

/-! ## The players -/

/-- The players `qs` are the players `ps` under their new names. -/
def PlayersRenamed (σ : Equiv.Perm PlayerId) (ps qs : List Player) : Prop :=
  ∀ i, qs[σ i]? = ps[i]?.map fun p => { p with id := σ i }

theorem PlayersRenamed.markAlive {ps qs : List Player} (h : PlayersRenamed σ ps qs)
    (owner : Option PlayerId) :
    Agree (PlayersRenamed σ) (markAlive ps owner) (markAlive qs (owner.map σ)) := by
  cases owner with
  | none => exact h
  | some o =>
    have ho := h o
    simp only [Rules.markAlive, Option.map_some]
    cases hp : ps[o]? with
    | none =>
      rw [hp] at ho
      simp [index, hp, ho]
    | some p =>
      rw [hp] at ho
      rw [index_of_getElem? hp, index_of_getElem? ho]
      simp only [ok_bind, pure, Except.pure, agree_ok]
      intro i
      rw [List.getElem?_set, List.getElem?_set]
      by_cases hi : o = i
      · subst hi
        have hlt := (List.getElem?_eq_some_iff.mp hp).1
        have hlt' := (List.getElem?_eq_some_iff.mp ho).1
        simp [hlt, hlt']
      · rw [if_neg hi, if_neg (σ.injective.ne hi)]
        exact h i

/-- A player stands where its number says. -/
theorem PlayersRenamed.id_eq {ps qs : List Player} (h : PlayersRenamed σ ps qs) {j : Nat}
    {q : Player} (hq : qs[j]? = some q) : q.id = j := by
  have hj := h (σ.symm j)
  rw [σ.apply_symm_apply, hq] at hj
  obtain ⟨p, -, rfl⟩ := Option.map_eq_some_iff.mp hj.symm
  rfl

theorem PlayersRenamed.map_id {ps qs : List Player} (h : PlayersRenamed σ ps qs) :
    qs.map (·.id) = List.range qs.length := by
  apply List.ext_getElem
  · simp
  · intro j hj hj'
    rw [List.getElem_map, List.getElem_range]
    exact h.id_eq (List.getElem?_eq_getElem _)

theorem PlayersRenamed.lt_iff {ps qs : List Player} (h : PlayersRenamed σ ps qs) (i : PlayerId) :
    σ i < qs.length ↔ i < ps.length := by
  rw [← not_iff_not, Nat.not_lt, Nat.not_lt, ← List.getElem?_eq_none_iff, h i,
    Option.map_eq_none_iff, List.getElem?_eq_none_iff]

theorem PlayersRenamed.perm {ps qs : List Player} (h : PlayersRenamed σ ps qs) :
    qs.Perm (ps.mapIdx fun i p => { p with id := σ i }) := by
  have hids' : (ps.mapIdx fun i p => ({ p with id := σ i } : Player)).map (·.id) =
      (List.range ps.length).map σ := by
    apply List.ext_getElem <;> simp
  have hnodup : qs.Nodup := .of_map _ (h.map_id ▸ List.nodup_range)
  have hnodup' : (ps.mapIdx fun i p => ({ p with id := σ i } : Player)).Nodup :=
    .of_map _ (hids' ▸ List.nodup_range.map σ.injective)
  rw [List.perm_ext_iff_of_nodup hnodup hnodup']
  intro q
  rw [List.mem_iff_getElem?, List.mem_iff_getElem?, σ.surjective.exists]
  simp only [h _, List.getElem?_mapIdx]

theorem PlayersRenamed.length_alive {ps qs : List Player} (h : PlayersRenamed σ ps qs) :
    (qs.filter (·.alive)).length = (ps.filter (·.alive)).length := by
  have hmap (l : List Player) : (l.filter (·.alive)).length = ((l.map (·.alive)).filter id).length := by
    rw [List.filter_map, List.length_map]
    rfl
  have halive : (ps.mapIdx fun i p => ({ p with id := σ i } : Player)).map (·.alive) =
      ps.map (·.alive) := by
    apply List.ext_getElem <;> simp
  rw [(h.perm.filter _).length_eq, hmap, halive, ← hmap]

/-! ## States -/

/-- The state `t` is the state `s` with the players renamed. -/
structure Renamed (σ : Equiv.Perm PlayerId) (s t : PlanetWars F) : Prop where
  players : PlayersRenamed σ s.players t.players
  planets : t.planets = s.planets.map (Planet.rename σ)
  expeditions : t.expeditions = s.expeditions.map (Expedition.rename σ)
  expeditionNum : t.expeditionNum = s.expeditionNum
  turnNum : t.turnNum = s.turnNum
  maxTurns : t.maxTurns = s.maxTurns

theorem Renamed.repopulate {s t : PlanetWars F} (h : Renamed σ s t) :
    Agree (Renamed σ) s.repopulate t.repopulate := by
  have hmap : t.planets.mapM Planet.repopulate =
      List.map (Planet.rename σ) <$> s.planets.mapM Planet.repopulate := by
    rw [h.planets]
    exact mapM_map_eq Planet.repopulate_rename
  rw [PlanetWars.repopulate, PlanetWars.repopulate, hmap]
  cases s.planets.mapM Planet.repopulate with
  | error e => trivial
  | ok planets => exact { h with planets := rfl }

theorem Renamed.visit {s t : PlanetWars F} (h : Renamed σ s t) (e : Expedition) :
    Agree (Renamed σ) (s.visit e) (t.visit (e.rename σ)) := by
  have hland : (e.rename σ).landing = e.landing := rfl
  rw [PlanetWars.visit, PlanetWars.visit, hland]
  split
  · have hdeliver : deliver t.planets (e.rename σ) =
        List.map (Planet.rename σ) <$> deliver s.planets e := by
      rw [deliver, deliver, h.planets]
      change (index (s.planets.map (Planet.rename σ)) e.target >>= _) = _
      cases hp : s.planets[e.target]? with
      | none => simp [index, hp]
      | some p =>
        have hp' : (s.planets.map (Planet.rename σ))[e.target]? = some (p.rename σ) := by simp [hp]
        rw [index_of_getElem? hp, index_of_getElem? hp', ok_bind, ok_bind]
        change ((p.rename σ).orbit (e.fleet.rename σ) >>= _) = _
        rw [Planet.orbit_rename]
        cases p.orbit e.fleet with
        | error err => rfl
        | ok p' => simp [pure, Except.pure, List.map_set, Expedition.rename]
    rw [hdeliver]
    cases deliver s.planets e with
    | error err => trivial
    | ok planets => exact { h with planets := rfl }
  · refine (h.players.markAlive e.fleet.owner).bind fun ps qs _ _ hplayers => ?_
    exact { h with
      players := hplayers
      expeditions := by rw [h.expeditions, List.map_append]; rfl }

theorem Renamed.stepExpeditions {s t : PlanetWars F} (h : Renamed σ s t) :
    Agree (Renamed σ) s.stepExpeditions t.stepExpeditions := by
  have hsweep : sweepOrder Expedition.landing (s.expeditions.map (Expedition.rename σ)) =
      (sweepOrder Expedition.landing s.expeditions).map (Expedition.rename σ) :=
    sweepOrder_map _ _ _
  rw [PlanetWars.stepExpeditions_eq, PlanetWars.stepExpeditions_eq, h.expeditions, hsweep,
    List.foldlM_map]
  exact Agree.foldlM { h with expeditions := rfl } fun e _ s t h => h.visit e

theorem Renamed.resolveCombat {s t : PlanetWars F} (h : Renamed σ s t) :
    Agree (Renamed σ) s.resolveCombat t.resolveCombat := by
  rw [PlanetWars.resolveCombat, PlanetWars.resolveCombat, h.planets, List.foldlM_map]
  refine Agree.bind (R := fun r r' => r'.1 = r.1.map (Planet.rename σ) ∧ PlayersRenamed σ r.2 r'.2)
    (Agree.foldlM ⟨rfl, h.players⟩ ?_) ?_
  · rintro p _ ⟨planets, players⟩ ⟨_, players'⟩ ⟨rfl, hplayers⟩
    dsimp only
    rw [Planet.resolveCombat_rename]
    cases p.resolveCombat with
    | error e => trivial
    | ok p' =>
      rw [map_ok, ok_bind, ok_bind, Planet.owner_rename]
      refine (hplayers.markAlive p'.owner).bind fun ps qs _ _ hplayers' => ?_
      exact ⟨by simp, hplayers'⟩
  · rintro ⟨planets, players⟩ ⟨_, players'⟩ _ _ ⟨rfl, hplayers⟩
    exact { h with planets := rfl, players := hplayers }

/-- A step of the game goes the same way under any names. -/
theorem Renamed.step {s t : PlanetWars F} (h : Renamed σ s t) :
    Agree (Renamed σ) s.step t.step := by
  rw [PlanetWars.step, PlanetWars.step, h.turnNum]
  refine Agree.bind (Agree.refl_of (R := Eq) _ fun _ _ => rfl) ?_
  rintro turnNum _ _ _ rfl
  have hdead : PlayersRenamed σ (s.players.map fun player => { player with alive := false })
      (t.players.map fun player => { player with alive := false }) := by
    intro i
    rw [List.getElem?_map, List.getElem?_map, h.players i, Option.map_map, Option.map_map]
    rfl
  have hstart : Renamed σ
      { s with turnNum, players := s.players.map fun player => { player with alive := false } }
      { t with turnNum, players := t.players.map fun player => { player with alive := false } } :=
    { h with players := hdead, turnNum := rfl }
  exact hstart.stepExpeditions.bind fun _ _ _ _ h => h.resolveCombat

end Rules

/-! ## Orders -/

theorem depart_rename (planets : List (Planet F)) (e : Expedition) :
    depart (planets.map (Planet.rename σ)) (e.rename σ) =
      (depart planets e).map (Planet.rename σ) := by
  have hsend (p : Planet F) (k : Nat) : (p.rename σ).send k = (p.send k).rename σ := by
    unfold Planet.send Planet.rename
    cases p.fleets <;> rfl
  apply List.ext_getElem?
  intro i
  have horigin : (e.rename σ).origin = e.origin := rfl
  have hships : (e.rename σ).fleet.shipCount = e.fleet.shipCount := rfl
  rw [getElem?_depart, List.getElem?_map, List.getElem?_map, getElem?_depart, horigin, hships]
  split
  · cases planets[i]? <;> simp [hsend]
  · rfl

section Judging
variable [F64 F]

theorem judge_rename (planetMap : HashMap String Nat) (planets : List (Planet F)) (i : PlayerId)
    (mv : Proto.Command) :
    judge planetMap (planets.map (Planet.rename σ)) (σ i) mv =
      Expedition.rename σ <$> judge planetMap planets i mv := by
  unfold judge
  split
  · rfl
  · rfl
  · rename_i o t _ _
    rw [List.getElem?_map, List.getElem?_map]
    cases planets[o]? with
    | none => rfl
    | some origin =>
      cases planets[t]? with
      | none => rfl
      | some target =>
        have howner : (origin.rename σ).owner ≠ some (σ i) ↔ origin.owner ≠ some i := by
          rw [Planet.owner_rename, not_iff_not, ← Option.map_some]
          exact map_owner_eq_iff
        simp only [Option.map_some, howner, Planet.shipCount_rename]
        split
        · rfl
        · split
          · rfl
          · split <;> rfl

theorem judgeAll_rename (planetMap : HashMap String Nat) (i : PlayerId) (planets : List (Planet F))
    (commands : List Proto.Command) :
    judgeAll planetMap (σ i) (planets.map (Planet.rename σ)) commands =
      ((judgeAll planetMap i planets commands).1.map (Expedition.rename σ),
        (judgeAll planetMap i planets commands).2) := by
  induction commands generalizing planets with
  | nil => rfl
  | cons command rest ih =>
    simp only [judgeAll, judge_rename]
    cases judge planetMap planets i command with
    | ok e => simp only [map_ok, depart_rename, ih, List.map_cons]
    | error error => simp only [map_error, ih]

variable [External F]

theorem verdict_rename (planetMap : HashMap String Nat) (planets : List (Planet F)) (i : PlayerId)
    (response : ResponseValue) :
    verdict planetMap (planets.map (Planet.rename σ)) (σ i) response =
      ((verdict planetMap planets i response).1.map (Expedition.rename σ),
        (verdict planetMap planets i response).2) := by
  unfold verdict
  split
  · rfl
  · split
    · rfl
    · rw [judgeAll_rename]

/-- The answers of a turn, each under the new name of the player that gave it. -/
def renameMessages (σ : Equiv.Perm PlayerId) (messages : List (PlayerId × ResponseValue)) :
    List (PlayerId × ResponseValue) :=
  messages.map fun m => (σ m.1, m.2)

theorem orders_rename (planetMap : HashMap String Nat) (planets : List (Planet F))
    (messages : List (PlayerId × ResponseValue)) :
    orders planetMap (planets.map (Planet.rename σ)) (renameMessages σ messages) =
      (orders planetMap planets messages).map (Expedition.rename σ) := by
  simp only [orders, renameMessages, List.flatMap_map, List.map_flatMap, verdict_rename]

theorem reports_rename (planetMap : HashMap String Nat) (planets : List (Planet F))
    (messages : List (PlayerId × ResponseValue)) :
    reports planetMap (planets.map (Planet.rename σ)) (renameMessages σ messages) =
      (reports planetMap planets messages).map fun r => (σ r.1, r.2) := by
  simp only [reports, renameMessages, List.map_map, Function.comp_def, verdict_rename]

end Judging

theorem Rules.Renamed.launchAll {s t : PlanetWars F} (h : Renamed σ s t) (es : List Expedition) :
    Renamed σ (s.launchAll es) (t.launchAll (es.map (Expedition.rename σ))) := by
  induction es generalizing s t with
  | nil => exact h
  | cons e es ih =>
    rw [List.map_cons, PlanetWars.launchAll_cons, PlanetWars.launchAll_cons]
    apply ih
    refine { h with planets := ?_, expeditions := ?_, expeditionNum := ?_ }
    · change depart t.planets (e.rename σ) = (depart s.planets e).map _
      rw [h.planets, depart_rename]
    · change t.expeditions ++ [{ e.rename σ with id := t.expeditionNum }] =
        (s.expeditions ++ [{ e with id := s.expeditionNum }]).map _
      rw [h.expeditions, h.expeditionNum, List.map_append]
      rfl
    · change t.expeditionNum + 1 = s.expeditionNum + 1
      rw [h.expeditionNum]

theorem Rules.Renamed.grown {s t : PlanetWars F} (h : Renamed σ s t) :
    Renamed σ s.grown t.grown := by
  have hgrown (p : Planet F) : (p.rename σ).grown = p.grown.rename σ := by
    unfold Planet.grown
    rw [Planet.owner_rename, Option.isSome_map]
    split
    · unfold Planet.rename
      cases p.fleets <;> rfl
    · rfl
  refine { h with planets := ?_ }
  rw [PlanetWars.grown, PlanetWars.grown, h.planets, List.map_map, List.map_map]
  exact List.map_congr_left fun p _ => hgrown p

/-! ## Turns -/

/-- The state `t` is what `s` becomes if the players are renamed, but for the ids and the order
of the expeditions. -/
def Mirrored (σ : Equiv.Perm PlayerId) (s t : PlanetWars F) : Prop :=
  ∃ u, Renamed σ s u ∧ Similar u t

theorem Mirrored.isFinished {s t : PlanetWars F} (h : Mirrored σ s t) :
    t.isFinished = s.isFinished := by
  obtain ⟨u, hrenamed, hsimilar⟩ := h
  rw [PlanetWars.isFinished, PlanetWars.isFinished, ← hsimilar.players, ← hsimilar.turnNum,
    ← hsimilar.maxTurns, hrenamed.players.length_alive, hrenamed.turnNum, hrenamed.maxTurns]

theorem Rules.Renamed.valid {s t : PlanetWars F} (h : Renamed σ s t) (hs : Valid s) : Valid t where
  fleets := by
    rw [h.planets]
    intro q hq
    obtain ⟨p, hp, rfl⟩ := List.mem_map.mp hq
    simpa [Planet.rename] using hs.fleets p hp
  owners := by
    rw [h.planets]
    intro q hq g hg o ho
    obtain ⟨p, hp, rfl⟩ := List.mem_map.mp hq
    obtain ⟨f, hf, rfl⟩ := List.mem_map.mp hg
    obtain ⟨i, hi, rfl⟩ := Option.map_eq_some_iff.mp ho
    exact (h.players.lt_iff i).mpr (hs.owners p hp f hf i hi)
  expeditions := by
    rw [h.expeditions]
    intro e' he'
    obtain ⟨e, he, rfl⟩ := List.mem_map.mp he'
    obtain ⟨⟨i, ho, hi⟩, horigin, htarget, hships⟩ := hs.expeditions e he
    have hlen : t.planets.length = s.planets.length := by rw [h.planets, List.length_map]
    refine ⟨⟨σ i, ?_, (h.players.lt_iff i).mpr hi⟩, hlen ▸ horigin, hlen ▸ htarget, hships⟩
    simp [Expedition.rename, Fleet.rename, ho]
  idsDistinct := by
    rw [h.expeditions, List.map_map]
    exact hs.idsDistinct
  idsBelow := by
    rw [h.expeditions, h.expeditionNum]
    intro e' he'
    obtain ⟨e, he, rfl⟩ := List.mem_map.mp he'
    exact hs.idsBelow e he
  playerIds := h.players.map_id

theorem Mirrored.repopulate {s t : PlanetWars F} (h : Mirrored σ s t) :
    Agree (fun s' t' => Mirrored σ s' t' ∧ s' = s.grown ∧ t' = t.grown) s.repopulate
      t.repopulate := by
  obtain ⟨u, hrenamed, hsimilar⟩ := h
  have hsame := (repopulate_similar hsimilar).mono fun _ _ h => h.1
  exact (hrenamed.repopulate.comp hsame).and_safe s.repopulate_safe t.repopulate_safe

theorem Mirrored.step {s t : PlanetWars F} (hs : Valid s) (ht : Valid t) (h : Mirrored σ s t) :
    Agree (Mirrored σ) s.step t.step := by
  obtain ⟨u, hrenamed, hsimilar⟩ := h
  exact hrenamed.step.comp (step_similar (hrenamed.valid hs) ht hsimilar)

section Turns
variable [F64 F] [External F]

/-- The same answers, each from the player who has the name now. -/
def SameAnswers (σ : Equiv.Perm PlayerId) (messages messages' : HashMap PlayerId ResponseValue) :
    Prop :=
  ∀ i, messages'.lookup (σ i) = messages.lookup i

omit [F64 F] [External F] in
theorem SameAnswers.perm {messages messages' : HashMap PlayerId ResponseValue}
    (h : SameAnswers σ messages messages') (ord ord' : IterOrder PlayerId) :
    (renameMessages σ (messages.entriesIn ord)).Perm (messages'.entriesIn ord') := by
  have hnodup : (renameMessages σ (messages.entriesIn ord)).Nodup := by
    refine (HashMap.nodup_entriesIn ord messages).map ?_
    rintro ⟨i, v⟩ ⟨j, w⟩ heq
    simp only [Prod.mk.injEq, EmbeddingLike.apply_eq_iff_eq] at heq
    exact Prod.ext heq.1 heq.2
  rw [List.perm_ext_iff_of_nodup hnodup (HashMap.nodup_entriesIn ord' messages')]
  rintro ⟨j, v⟩
  obtain ⟨i, rfl⟩ := σ.surjective j
  rw [HashMap.mem_entriesIn, h i, renameMessages, List.mem_map]
  constructor
  · rintro ⟨⟨i', w⟩, hm, heq⟩
    simp only [Prod.mk.injEq, EmbeddingLike.apply_eq_iff_eq] at heq
    rw [← heq.1, ← heq.2]
    exact HashMap.mem_entriesIn.mp hm
  · exact fun hv => ⟨(i, v), HashMap.mem_entriesIn.mpr hv, rfl⟩

/-- A player is told the same under its new name. -/
theorem actionsFor_rename (actions : List (PlayerId × Proto.PlayerAction)) (i : PlayerId) :
    actionsFor (σ i) (actions.map fun r => (σ r.1, r.2)) = actionsFor i actions := by
  simp [actionsFor, List.filter_map, Function.comp_def]

theorem turn_mirrored {g g' : Game F} (hg : g.Consistent) (hg' : g'.Consistent)
    (hmap : g.planetMap = g'.planetMap) (h : Mirrored σ g.state g'.state)
    {messages messages' : HashMap PlayerId ResponseValue} (hsame : SameAnswers σ messages messages')
    (ord ord' : IterOrder PlayerId) :
    Agree (fun r r' => r.1.planetMap = r'.1.planetMap ∧ Mirrored σ r.1.state r'.1.state ∧
        ∀ i, actionsFor (σ i) r'.2 = actionsFor i r.2)
      (g.turn ⟨ord, messages⟩) (g'.turn ⟨ord', messages'⟩) := by
  unfold Game.turn
  refine h.repopulate.bind ?_
  rintro _ _ - - ⟨⟨u, hrenamed, hsimilar⟩, rfl, rfl⟩
  have hnd := HashMap.nodup_fst_entriesIn ord messages
  have hnd' := HashMap.nodup_fst_entriesIn ord' messages'
  have hperm := hsame.perm ord ord'
  have hplanets : g'.state.grown.planets = g.state.grown.planets.map (Planet.rename σ) := by
    rw [← hsimilar.planets, hrenamed.planets]
  have horders : ((orders g.planetMap g.state.grown.planets (messages.entriesIn ord)).map
      (Expedition.rename σ)).Perm
      (orders g'.planetMap g'.state.grown.planets (messages'.entriesIn ord')) := by
    rw [← orders_rename, hmap, hplanets]
    exact hperm.flatMap_right _
  have hreports : ((reports g.planetMap g.state.grown.planets (messages.entriesIn ord)).map
      fun r => (σ r.1, r.2)).Perm
      (reports g'.planetMap g'.state.grown.planets (messages'.entriesIn ord')) := by
    rw [← reports_rename, hmap, hplanets]
    exact hperm.map _
  have hnum : g'.state.grown.expeditionNum = g.state.grown.expeditionNum :=
    hsimilar.expeditionNum.symm.trans hrenamed.expeditionNum
  have hexecuted : Agree (fun r r' => r.1.planetMap = r'.1.planetMap ∧
      Mirrored σ r.1.state r'.1.state ∧ ∀ i, actionsFor (σ i) r'.2 = actionsFor i r.2)
      (Game.executeMessages { g with state := g.state.grown } (messages.entriesIn ord))
      (Game.executeMessages { g' with state := g'.state.grown } (messages'.entriesIn ord')) := by
    rw [Game.executeMessages_eq hg.mapped_grown hnd, Game.executeMessages_eq hg'.mapped_grown hnd',
      hnum, ← horders.length_eq, List.length_map]
    refine (Agree.refl_of (R := Eq) _ fun _ _ => rfl).map fun _ _ _ => ⟨hmap, ?_, fun i => ?_⟩
    · exact ⟨_, hrenamed.launchAll _, launchAll_similar hsimilar horders⟩
    · have hkeys : ((reports g'.planetMap g'.state.grown.planets
          (messages'.entriesIn ord')).map Prod.fst).Nodup := by
        rw [reports, List.map_map]
        exact hnd'
      exact (actionsFor_perm hreports.symm hkeys (σ i)).trans (actionsFor_rename _ i)
  refine (hexecuted.and_safe (hg.executeMessages_safe hnd) (hg'.executeMessages_safe hnd')).bind ?_
  rintro ⟨g₁, actions⟩ ⟨g₁', actions'⟩ - - ⟨⟨hmap₁, h₁, hactions⟩, heq, heq'⟩
  have hvalid : Valid g₁.state := by
    rw [Prod.mk.injEq] at heq
    exact heq.1 ▸ hg.valid_ordered hnd
  have hvalid' : Valid g₁'.state := by
    rw [Prod.mk.injEq] at heq'
    exact heq'.1 ▸ hg'.valid_ordered hnd'
  exact (h₁.step hvalid hvalid').bind fun t t' _ _ ht => ⟨hmap₁, ht, hactions⟩

end Turns

/-! ## Whole games -/

/-- Player numbers count from 1. The number 0 is no player's. -/
def renameNum (σ : Equiv.Perm PlayerId) : Nat → Nat
  | 0 => 0
  | id + 1 => σ id + 1

def Proto.Planet.rename (σ : Equiv.Perm PlayerId) (planet : Proto.Planet F) : Proto.Planet F :=
  { planet with owner := planet.owner.map (renameNum σ) }

def Proto.Map.rename (σ : Equiv.Perm PlayerId) (map : Proto.Map F) : Proto.Map F :=
  { map with planets := map.planets.map (Proto.Planet.rename σ) }

/-- The new name of a player in the game is that of a player in the game. -/
def Among (n : Nat) (σ : Equiv.Perm PlayerId) : Prop := ∀ i, σ i < n ↔ i < n

theorem loadPlanet_rename {n : Nat} (hσ : Among n σ) (planet : Proto.Planet F) (num : Nat) :
    Config.loadPlanet n (planet.rename σ) num =
      Rules.Planet.rename σ <$> Config.loadPlanet n planet num := by
  have hfleets (owner : Option PlayerId) :
      (if planet.shipCount > 0 then [(⟨owner.map σ, planet.shipCount⟩ : Fleet)] else []) =
        (if planet.shipCount > 0 then [⟨owner, planet.shipCount⟩] else []).map (Fleet.rename σ) := by
    split <;> rfl
  have hplanet (owner : Option PlayerId) : (⟨num, planet.name,
      if planet.shipCount > 0 then [⟨owner.map σ, planet.shipCount⟩] else [], planet.x,
        planet.y⟩ : Rules.Planet F) = Rules.Planet.rename σ ⟨num, planet.name,
          if planet.shipCount > 0 then [⟨owner, planet.shipCount⟩] else [], planet.x, planet.y⟩ := by
    rw [hfleets]
    rfl
  rw [Config.loadPlanet, Config.loadPlanet, Proto.Planet.rename]
  rcases howner : planet.owner with - | - | id
  · exact congrArg Except.ok (hplanet none)
  · rfl
  · have hid (k : Nat) : checkedSub (κ := Counter) (k + 1) 1 = .ok k := checkedSub_of_le (by omega)
    by_cases hlt : id < n
    · simp only [Option.map_some, renameNum, hid, ok_bind, pure_bind, hσ id, if_pos hlt]
      exact congrArg Except.ok (hplanet (some id))
    · simp only [Option.map_some, renameNum, hid, ok_bind, pure_bind, hσ id, if_neg hlt]
      exact congrArg Except.ok (hplanet none)

theorem createGame_renamed [External F] {n : Nat} (hσ : Among n σ) {c c' : Config}
    (hread : c'.readMap (F := F) = (c.readMap (F := F)).map (Proto.Map.rename σ))
    (hmax : c'.maxTurns = c.maxTurns) :
    Agree (Renamed (F := F) σ) (c.createGame n) (c'.createGame n) := by
  have hload : c'.loadMap (F := F) n = List.map (Rules.Planet.rename σ) <$> c.loadMap n := by
    rw [Config.loadMap, Config.loadMap, hread]
    cases c.readMap (F := F) with
    | none => rfl
    | some map =>
      change List.mapM _ (map.planets.map (Proto.Planet.rename σ)).zipIdx = _
      rw [List.zipIdx_map]
      exact mapM_map_eq fun x => loadPlanet_rename hσ x.1 x.2
  have hplayers : PlayersRenamed σ ((List.range n).map fun id => { id, alive := true })
      ((List.range n).map fun id => { id, alive := true }) := by
    intro i
    by_cases hi : i < n
    · simp [hi, (hσ i).mpr hi]
    · simp [hi, (hσ i).not.mpr hi]
  rw [Config.createGame, Config.createGame, hload]
  cases c.loadMap (F := F) n with
  | error e => trivial
  | ok planets => exact ⟨hplayers, rfl, rfl, rfl, rfl, hmax⟩

section Games
variable [F64 F] [External F]

/-- Rename the players in the map, and give the answers to those who have the names now: both
games fail, or they go the same way under the new names. So no player has an advantage that the
map does not give it. The messages may be drained in any order. -/
theorem playReported_mirrored {n : Nat} (hσ : Among n σ) {c c' : Config}
    (hread : c'.readMap (F := F) = (c.readMap (F := F)).map (Proto.Map.rename σ))
    (hmax : c'.maxTurns = c.maxTurns) (turns : List (TurnInput × TurnInput))
    (hturns : ∀ t ∈ turns, SameAnswers σ t.1.messages t.2.messages) :
    Agree (fun (r r' : Game F × List (List (PlayerId × Proto.PlayerAction))) =>
        Mirrored σ r.1.state r'.1.state ∧ r'.1.state.isFinished = r.1.state.isFinished ∧
        List.Forall₂ (fun actions actions' => ∀ i, actionsFor (σ i) actions' = actionsFor i actions)
          r.2 r'.2)
      (do
        let state ← c.createGame n
        (Game.ofState state).playReported (turns.map Prod.fst))
      (do
        let state ← c'.createGame n
        (Game.ofState state).playReported (turns.map Prod.snd)) := by
  refine Agree.bind ((createGame_renamed hσ hread hmax).and_safe (c.createGame_safe n)
    (c'.createGame_safe n)) ?_
  intro s t _ _ ⟨hrenamed, hs, ht⟩
  have hg := Game.consistent_ofState hs
  have hg' := Game.consistent_ofState ht
  have hmap : (Game.ofState s).planetMap = (Game.ofState t).planetMap := by
    rw [Game.ofState, Game.ofState, hrenamed.planets, List.map_map]
    rfl
  refine Agree.mono (R := fun r r' => r.1.Consistent ∧ r'.1.Consistent ∧
    r.1.planetMap = r'.1.planetMap ∧ Mirrored σ r.1.state r'.1.state ∧
    List.Forall₂ (fun actions actions' => ∀ i, actionsFor (σ i) actions' = actionsFor i actions)
      r.2 r'.2) ?_ ?_
  · unfold Game.playReported
    rw [List.foldlM_map, List.foldlM_map]
    refine Agree.foldlM ⟨hg, hg', hmap, ⟨t, hrenamed, .refl t⟩, .nil⟩ ?_
    rintro ⟨⟨ord, messages⟩, ⟨ord', messages'⟩⟩ ht ⟨g, log⟩ ⟨g', log'⟩ ⟨hg, hg', hmap, hsim, hlog⟩
    have hnd := HashMap.nodup_fst_entriesIn ord messages
    have hnd' := HashMap.nodup_fst_entriesIn ord' messages'
    refine Agree.bind ((turn_mirrored hg hg' hmap hsim (hturns _ ht) ord ord').and_safe
      (Game.turn_safe hg ⟨ord, messages⟩) (Game.turn_safe hg' ⟨ord', messages'⟩)) ?_
    rintro ⟨g₁, actions⟩ ⟨g₁', actions'⟩ _ _ ⟨⟨hmap₁, h₁, hactions⟩, htaken, htaken'⟩
    refine ⟨hg.taken hnd htaken, hg'.taken hnd' htaken', hmap₁, h₁, ?_⟩
    exact List.rel_append hlog (.cons hactions .nil)
  · rintro r r' ⟨_, _, _, h, hlog⟩
    exact ⟨h, h.isFinished, hlog⟩

end Games

section Swap
open Controller

/-- The file `w` has the small map with its players swapped. -/
@[reducible] def mirrorServer : External Int where
  readFile path := if path = "m" then some skirmishMap else if path = "w" then some "" else none
  mapFromStr text :=
    if text = skirmishMap then some ⟨[⟨6, 0, 0, some 1, "a"⟩, ⟨6, 3, 4, some 2, "b"⟩]⟩
    else some ⟨[⟨6, 0, 0, some 2, "a"⟩, ⟨6, 3, 4, some 1, "b"⟩]⟩
  configFromSlice _ := none
  actionFromSlice data :=
    if data = [1] then .ok ⟨[⟨"a", "b", 7⟩]⟩ else .error "expected value at line 1 column 1"
  decodeLobbyMessage _ := none

/-- The player of `a` sends all its ships, in the second game under another name. -/
def mirrorTurns : List (TurnInput × TurnInput) :=
  [(⟨skirmishRuntime.drainOrder, HashMap.collect [(0, .ok [1]), (1, .ok [2])]⟩,
    ⟨skirmishRuntime.drainOrder, HashMap.collect [(0, .ok [2]), (1, .ok [1])]⟩)]

theorem playReported_mirrored_swap :
    ∃ g g', (do
        let state ← @Config.createGame Int mirrorServer ⟨"m", 9⟩ 2
        @Game.playReported Int _ mirrorServer (Game.ofState state)
          (mirrorTurns.map Prod.fst)) = .ok g ∧
      (do
        let state ← @Config.createGame Int mirrorServer ⟨"w", 9⟩ 2
        @Game.playReported Int _ mirrorServer (Game.ofState state)
          (mirrorTurns.map Prod.snd)) = .ok g' ∧
      Mirrored (Equiv.swap 0 1) g.1.state g'.1.state := by
  have hamong : Among 2 (Equiv.swap 0 1) := by
    intro i
    by_cases h₀ : i = 0
    · subst h₀
      simp
    · by_cases h₁ : i = 1
      · subst h₁
        simp
      · rw [Equiv.swap_apply_of_ne_of_ne h₀ h₁]
  have hread : @Config.readMap Int mirrorServer ⟨"w", 9⟩ =
      (@Config.readMap Int mirrorServer ⟨"m", 9⟩).map (Proto.Map.rename (Equiv.swap 0 1)) := by
    decide +kernel
  have hturns : ∀ t ∈ mirrorTurns, SameAnswers (Equiv.swap 0 1) t.1.messages t.2.messages := by
    intro t ht i
    rw [List.mem_singleton.mp ht]
    simp only [HashMap.collect, List.foldl_cons, List.foldl_nil, HashMap.lookup_insert_eq]
    by_cases h₀ : i = 0
    · subst h₀
      simp
    · by_cases h₁ : i = 1
      · subst h₁
        simp
      · rw [Equiv.swap_apply_of_ne_of_ne h₀ h₁]
        simp [h₀, h₁]
  have hagree := @playReported_mirrored Int _ _ mirrorServer 2 hamong ⟨"m", 9⟩ ⟨"w", 9⟩ hread rfl
    mirrorTurns hturns
  have hok : (do
      let state ← @Config.createGame Int mirrorServer ⟨"m", 9⟩ 2
      @Game.playReported Int _ mirrorServer (Game.ofState state)
        (mirrorTurns.map Prod.fst)).toOption.isSome := by
    decide +kernel
  obtain ⟨g, g', hg, hg', hmirrored, -⟩ := hagree.exists_ok hok
  exact ⟨g, g', hg, hg', hmirrored⟩

end Swap
end Mozaic
