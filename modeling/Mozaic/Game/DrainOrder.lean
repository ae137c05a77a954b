import Mozaic.Game.Turn
import Mozaic.Rules.Chart

/-! The order in which a turn's messages are drained leaves no trace but the ids and
the order of the expeditions. -/
namespace Mozaic
open Rust Rules Network Outcome

variable {F : Type}

/-- States that differ in nothing but the ids and the order of their expeditions. -/
structure Similar (s t : PlanetWars F) : Prop where
  planets : s.planets = t.planets
  players : s.players = t.players
  expeditions : (s.expeditions.map Expedition.anonymous).Perm
    (t.expeditions.map Expedition.anonymous)
  expeditionNum : s.expeditionNum = t.expeditionNum
  turnNum : s.turnNum = t.turnNum
  maxTurns : s.maxTurns = t.maxTurns

theorem Similar.refl (s : PlanetWars F) : Similar s s := ⟨rfl, rfl, .refl _, rfl, rfl, rfl⟩

theorem Similar.chart {s t : PlanetWars F} (h : Similar s t) : s.chart = t.chart := by
  simp only [PlanetWars.chart, h.planets, h.players, h.expeditionNum, h.turnNum, h.maxTurns,
    Multiset.coe_eq_coe.mpr h.expeditions]

/-! ## The step -/

private theorem map_eq_map_of {α β γ : Type} {f : α → β} {g : α → γ} {l l' : List α}
    (h : l.map f = l'.map f) (hg : ∀ a ∈ l, ∀ b ∈ l', f a = f b → g a = g b) :
    l.map g = l'.map g := by
  induction l generalizing l' with
  | nil => simp_all
  | cons a l ih =>
    rcases l' with - | ⟨b, l'⟩
    · simp at h
    · simp only [List.map_cons, List.cons.injEq] at h ⊢
      refine ⟨hg a (by simp) b (by simp) h.1, ih h.2 fun c hc d hd => ?_⟩
      exact hg c (by simp [hc]) d (by simp [hd])

/-- Combat sees only the garrison of a planet. -/
private theorem afterCombat_congr {p q : Planet F} (hp : OwnersDistinct p.fleets)
    (hq : OwnersDistinct q.fleets) (h : p.site = q.site) : p.afterCombat = q.afterCombat := by
  simp only [Planet.site, Site.mk.injEq] at h
  obtain ⟨hid, hname, hx, hy, hgarrison⟩ := h
  have hcombat := combat_congr (perm_of_garrison_eq hp hq hgarrison)
  simp only [Planet.afterCombat, hid, hname, hx, hy, hcombat]

private theorem resolveCombat_similar {s t : PlanetWars F} (h : s.chart = t.chart)
    (hs : ∀ p ∈ s.planets, OwnersDistinct p.fleets) (ht : ∀ p ∈ t.planets, OwnersDistinct p.fleets)
    (hso : OwnersBelow s.players.length s.planets) (hto : OwnersBelow t.players.length t.planets) :
    Agree Similar s.resolveCombat t.resolveCombat := by
  simp only [PlanetWars.chart, Chart.mk.injEq] at h
  obtain ⟨hsites, hplayers, hflights, hnum, hturn, hmax⟩ := h
  have hplanets : s.planets.map Planet.afterCombat = t.planets.map Planet.afterCombat :=
    map_eq_map_of hsites fun p hp q hq h => afterCombat_congr (hs p hp) (ht q hq) h
  refine Agree.of_safe (s.resolveCombat_safe hso) (t.resolveCombat_safe hto) ?_
  rintro _ _ ⟨players, rfl, hp⟩ ⟨players', rfl, hp'⟩
  exact
    { planets := hplanets
      players := List.ext_getElem? fun i => by rw [hp, hp', hplanets, hplayers]
      expeditions := Multiset.coe_eq_coe.mp hflights
      expeditionNum := hnum
      turnNum := hturn
      maxTurns := hmax }

private theorem distinct_of_stepped {s t : PlanetWars F} (h : ExpeditionsStepped s t)
    (hs : ∀ p ∈ s.planets, p.fleets.length ≤ 1) : ∀ p ∈ t.planets, OwnersDistinct p.fleets := by
  intro p hp
  obtain ⟨i, hi⟩ := List.mem_iff_getElem?.mp hp
  obtain ⟨p₀, hp₀, hr⟩ := h.planets i p hi
  exact hr.distinct (ownersDistinct_of_length_le (hs p₀ (List.mem_of_getElem? hp₀)))

theorem step_similar {s t : PlanetWars F} (hs : Valid s) (ht : Valid t) (h : Similar s t) :
    Agree Similar s.step t.step := by
  rw [PlanetWars.step]
  rw [h.turnNum, h.players]
  refine Agree.bind (Agree.refl_of (R := Eq) _ fun _ _ => rfl) ?_
  intro turnNum _ _ _ heq
  subst heq
  set players := t.players.map fun player => { player with alive := false }
  set s₁ : PlanetWars F := { s with turnNum, players }
  set t₁ : PlanetWars F := { t with turnNum, players }
  have hlen : players.length = t.players.length := by simp [players]
  have hlen' : players.length = s.players.length := by rw [hlen, h.players]
  have h₁ : Similar s₁ t₁ := { h with players := rfl, turnNum := rfl }
  have hsaddr : ∀ e ∈ s₁.expeditions, Addressed s₁.players.length s₁.planets.length e := by
    rw [show s₁.players.length = s.players.length from hlen']
    exact hs.addressed
  have htaddr : ∀ e ∈ t₁.expeditions, Addressed t₁.players.length t₁.planets.length e := by
    rw [show t₁.players.length = t.players.length from hlen]
    exact ht.addressed
  refine Agree.bind ((chart_stepExpeditions h₁.chart).and_safe (s₁.stepExpeditions_safe hsaddr)
    (t₁.stepExpeditions_safe htaddr)) ?_
  intro s₂ t₂ _ _ h
  obtain ⟨hchart, hs₂, ht₂⟩ := h
  refine resolveCombat_similar hchart (distinct_of_stepped hs₂ hs.fleets)
    (distinct_of_stepped ht₂ ht.fleets) ?_ ?_
  · rw [length_of_getElem?_map hs₂.players]
    refine hs₂.ownersBelow ?_ hsaddr
    rw [show s₁.players.length = s.players.length from hlen']
    exact hs.owners
  · rw [length_of_getElem?_map ht₂.players]
    refine ht₂.ownersBelow ?_ htaddr
    rw [show t₁.players.length = t.players.length from hlen]
    exact ht.owners

/-! ## The turn -/

theorem depart_comm (planets : List (Planet F)) (e e' : Expedition) :
    depart (depart planets e) e' = depart (depart planets e') e := by
  have hsend (p : Planet F) (k k' : Nat) : (p.send k).send k' = (p.send k').send k := by
    unfold Planet.send
    cases p.fleets <;> simp [Nat.sub_right_comm]
  refine List.ext_getElem? fun i => ?_
  simp only [getElem?_depart]
  by_cases h : e.origin = i <;> by_cases h' : e'.origin = i <;> simp [h, h', Function.comp_def, hsend]

instance : RightCommutative (depart (F := F)) := ⟨depart_comm⟩

private theorem numbered_anonymous (num : Nat) (es : List Expedition) :
    (numbered num es).map Expedition.anonymous = es.map Expedition.anonymous := by
  refine List.ext_getElem? fun i => ?_
  simp only [numbered, List.getElem?_map, List.getElem?_mapIdx, Option.map_map]
  rfl

theorem launchAll_similar {s t : PlanetWars F} (h : Similar s t) {es es' : List Expedition}
    (hes : es.Perm es') : Similar (s.launchAll es) (t.launchAll es') := by
  simp only [PlanetWars.launchAll_eq]
  exact
    { planets := by rw [h.planets]; exact hes.foldl_eq _
      players := h.players
      expeditions := by
        simp only [List.map_append, numbered_anonymous]
        exact h.expeditions.append (hes.map _)
      expeditionNum := by rw [h.expeditionNum, hes.length_eq]
      turnNum := h.turnNum
      maxTurns := h.maxTurns }

/-- What was reported to player `i`, in order. -/
def actionsFor (i : PlayerId) (actions : List (PlayerId × Proto.PlayerAction)) :
    List Proto.PlayerAction :=
  (actions.filter (·.1 = i)).map (·.2)

theorem actionsFor_perm {actions actions' : List (PlayerId × Proto.PlayerAction)}
    (h : actions.Perm actions') (hnd : (actions.map Prod.fst).Nodup) (i : PlayerId) :
    actionsFor i actions = actionsFor i actions' := by
  have hfilter := h.filter fun a => a.1 = i
  have hsub : ((actions.filter (·.1 = i)).map Prod.fst).Nodup :=
    hnd.sublist (List.filter_sublist.map _)
  have hall : ∀ k ∈ (actions.filter (·.1 = i)).map Prod.fst, k = i := by simp
  unfold actionsFor
  rcases hl : actions.filter (·.1 = i) with - | ⟨a, - | ⟨b, l⟩⟩
  · rw [hl] at hfilter
    rw [List.nil_perm.mp hfilter, hl]
  · rw [hl] at hfilter
    rw [← List.singleton_perm.mp hfilter, hl]
  · rw [hl] at hsub hall
    exact absurd ((hall a.1 (by simp)).trans (hall b.1 (by simp)).symm) (by simp_all)

private theorem repopulate_eq (s : PlanetWars F) :
    s.repopulate = (fun planets => { s with planets }) <$> s.planets.mapM Planet.repopulate := by
  unfold PlanetWars.repopulate
  cases s.planets.mapM Planet.repopulate <;> rfl

theorem repopulate_similar {s t : PlanetWars F} (h : Similar s t) :
    Agree (fun s' t' => Similar s' t' ∧ s' = s.grown ∧ t' = t.grown) s.repopulate t.repopulate := by
  refine Agree.and_safe ?_ s.repopulate_safe t.repopulate_safe
  rw [repopulate_eq, repopulate_eq, h.planets]
  refine (Agree.refl_of (R := Eq) _ fun _ _ => rfl).map ?_
  intro planets _ heq
  subst heq
  exact { h with planets := rfl }

section Turns
variable [F64 F] [External F]

theorem executeMessages_similar {g g' : Game F} (hg : g.Mapped) (hg' : g'.Mapped)
    (hmap : g.planetMap = g'.planetMap) (h : Similar g.state g'.state)
    (messages : HashMap PlayerId ResponseValue) (ord ord' : IterOrder PlayerId) :
    Agree (fun r r' => r.1.planetMap = r'.1.planetMap ∧ Similar r.1.state r'.1.state ∧
        ∀ i, actionsFor i r.2 = actionsFor i r'.2)
      (g.executeMessages (messages.entriesIn ord)) (g'.executeMessages (messages.entriesIn ord')) := by
  have hperm := HashMap.entriesIn_perm ord ord' messages
  have horders : (orders g.planetMap g.state.planets (messages.entriesIn ord)).Perm
      (orders g'.planetMap g'.state.planets (messages.entriesIn ord')) := by
    rw [hmap, h.planets]
    exact hperm.flatMap_right _
  have hreports : (reports g.planetMap g.state.planets (messages.entriesIn ord)).Perm
      (reports g'.planetMap g'.state.planets (messages.entriesIn ord')) := by
    rw [hmap, h.planets]
    exact hperm.map _
  have hkeys : ((reports g.planetMap g.state.planets (messages.entriesIn ord)).map Prod.fst).Nodup := by
    rw [reports, List.map_map]
    exact HashMap.nodup_fst_entriesIn ord messages
  rw [Game.executeMessages_eq hg (HashMap.nodup_fst_entriesIn ord messages),
    Game.executeMessages_eq hg' (HashMap.nodup_fst_entriesIn ord' messages), h.expeditionNum,
    horders.length_eq]
  refine (Agree.refl_of (R := Eq) _ fun _ _ => rfl).map fun _ _ _ => ?_
  exact ⟨hmap, launchAll_similar h horders, actionsFor_perm hreports hkeys⟩

theorem turn_similar {g g' : Game F} (hg : g.Consistent) (hg' : g'.Consistent)
    (hmap : g.planetMap = g'.planetMap) (h : Similar g.state g'.state)
    (messages : HashMap PlayerId ResponseValue) (ord ord' : IterOrder PlayerId) :
    Agree (fun r r' => r.1.planetMap = r'.1.planetMap ∧ Similar r.1.state r'.1.state ∧
        ∀ i, actionsFor i r.2 = actionsFor i r'.2)
      (g.turn ⟨ord, messages⟩) (g'.turn ⟨ord', messages⟩) := by
  unfold Game.turn
  refine (repopulate_similar h).bind ?_
  intro _ _ _ _ h
  obtain ⟨hgrown, rfl, rfl⟩ := h
  have hnd := HashMap.nodup_fst_entriesIn ord messages
  have hnd' := HashMap.nodup_fst_entriesIn ord' messages
  refine ((executeMessages_similar hg.mapped_grown hg'.mapped_grown hmap hgrown messages ord
    ord').and_safe (hg.executeMessages_safe hnd) (hg'.executeMessages_safe hnd')).bind ?_
  rintro ⟨g₁, actions⟩ ⟨g₁', actions'⟩ _ _ ⟨⟨hmap₁, h₁, hactions⟩, heq, heq'⟩
  have hvalid : Valid g₁.state := by
    rw [Prod.mk.injEq] at heq
    exact heq.1 ▸ hg.valid_ordered hnd
  have hvalid' : Valid g₁'.state := by
    rw [Prod.mk.injEq] at heq'
    exact heq'.1 ▸ hg'.valid_ordered hnd'
  refine (step_similar hvalid hvalid' h₁).bind fun t t' _ _ ht => ?_
  exact ⟨hmap₁, ht, hactions⟩

/-! ## Whole games -/

/-- Play the given turns, noting what is reported in each. -/
def Game.playReported (g : Game F) (inputs : List TurnInput) :
    Except Panic (Game F × List (List (PlayerId × Proto.PlayerAction))) :=
  inputs.foldlM (fun (g, log) input => do
    let (g, actions) ← g.turn input
    pure (g, log ++ [actions])) (g, [])

/-- Two runs in which the same messages arrive, drained in any two orders, both fail
or go the same way, up to the ids and the order of the expeditions. -/
theorem playReported_similar (c : Config) (n : Nat)
    (turns : List (HashMap PlayerId ResponseValue × IterOrder PlayerId × IterOrder PlayerId)) :
    Agree (fun (r r' : Game F × List (List (PlayerId × Proto.PlayerAction))) =>
        Similar r.1.state r'.1.state ∧ r.1.state.isFinished = r'.1.state.isFinished ∧
        List.Forall₂ (fun actions actions' => ∀ i, actionsFor i actions = actionsFor i actions')
          r.2 r'.2)
      (do
        let state ← c.createGame n
        (Game.ofState state).playReported (turns.map fun t => ⟨t.2.1, t.1⟩))
      (do
        let state ← c.createGame n
        (Game.ofState state).playReported (turns.map fun t => ⟨t.2.2, t.1⟩)) := by
  refine Agree.bind ((Agree.refl_of (R := Eq) _ fun _ _ => rfl).and_safe (c.createGame_safe n)
    (c.createGame_safe n)) ?_
  intro s _ _ _ h
  obtain ⟨rfl, hs, _⟩ := h
  have hg := Game.consistent_ofState hs
  refine Agree.mono (R := fun r r' => r.1.Consistent ∧ r'.1.Consistent ∧
    r.1.planetMap = r'.1.planetMap ∧ Similar r.1.state r'.1.state ∧
    List.Forall₂ (fun actions actions' => ∀ i, actionsFor i actions = actionsFor i actions')
      r.2 r'.2) ?_ ?_
  · unfold Game.playReported
    rw [List.foldlM_map, List.foldlM_map]
    refine Agree.foldlM ⟨hg, hg, rfl, .refl _, .nil⟩ ?_
    rintro ⟨messages, ord, ord'⟩ _ ⟨g, log⟩ ⟨g', log'⟩ ⟨hg, hg', hmap, hsim, hlog⟩
    have hnd := HashMap.nodup_fst_entriesIn ord messages
    have hnd' := HashMap.nodup_fst_entriesIn ord' messages
    refine Agree.bind ((turn_similar hg hg' hmap hsim messages ord ord').and_safe
      (Game.turn_safe hg ⟨ord, messages⟩) (Game.turn_safe hg' ⟨ord', messages⟩)) ?_
    rintro ⟨g₁, actions⟩ ⟨g₁', actions'⟩ _ _ ⟨⟨hmap₁, h₁, hactions⟩, htaken, htaken'⟩
    refine ⟨hg.taken hnd htaken, hg'.taken hnd' htaken', hmap₁, h₁, ?_⟩
    exact List.rel_append hlog (.cons hactions .nil)
  · intro r r' h
    obtain ⟨_, _, _, h, hlog⟩ := h
    refine ⟨h, ?_, hlog⟩
    simp only [PlanetWars.isFinished, h.players, h.turnNum, h.maxTurns]

end Turns
end Mozaic
