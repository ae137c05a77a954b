import Mozaic.Game.Orders

/-! Executing the messages of a turn, in closed form: every player's commands are
judged on the planets as they were before the first one was executed, and what is
accepted is launched. -/
namespace Mozaic
open Rust Rules Network Outcome

variable {F : Type}

/-! ## Launching several expeditions -/

def departAll (planets : List (Planet F)) (es : List Expedition) : List (Planet F) :=
  es.foldl depart planets

@[simp] theorem departAll_nil (planets : List (Planet F)) : departAll planets [] = planets := rfl

@[simp] theorem departAll_cons (planets : List (Planet F)) (e : Expedition) (es : List Expedition) :
    departAll planets (e :: es) = departAll (depart planets e) es := rfl

@[simp] theorem length_departAll (planets : List (Planet F)) (es : List Expedition) :
    (departAll planets es).length = planets.length := by
  induction es generalizing planets with
  | nil => rfl
  | cons e es ih => rw [departAll_cons, ih, length_depart]

/-- Number the expeditions from `num` on. -/
def numbered (num : Nat) (es : List Expedition) : List Expedition :=
  es.mapIdx fun i e => { e with id := num + i }

theorem Rules.PlanetWars.launchAll_eq (s : PlanetWars F) (es : List Expedition) :
    s.launchAll es = { s with
      planets := departAll s.planets es
      expeditionNum := s.expeditionNum + es.length
      expeditions := s.expeditions ++ numbered s.expeditionNum es } := by
  induction es generalizing s with
  | nil => simp [numbered]
  | cons e es ih =>
    simp only [launchAll_cons, ih, launch, departAll_cons, List.length_cons, numbered,
      List.mapIdx_cons, Nat.add_zero, List.append_assoc, List.singleton_append]
    congr 1
    · congr 3
      funext i e'
      rw [Nat.add_assoc, Nat.add_comm 1]
    · omega

/-- Each expedition can be launched once those before it were. -/
def AdmissibleAll : List (Planet F) → List Expedition → Prop
  | _, [] => True
  | planets, e :: es => Admissible planets e ∧ AdmissibleAll (depart planets e) es

theorem admissibleAll_append {planets : List (Planet F)} {es es' : List Expedition} :
    AdmissibleAll planets (es ++ es') ↔
      AdmissibleAll planets es ∧ AdmissibleAll (departAll planets es) es' := by
  induction es generalizing planets with
  | nil => simp [AdmissibleAll]
  | cons e es ih => simp [AdmissibleAll, ih, and_assoc]

/-- A player does not see the expeditions of others leave. -/
theorem sameViews_departAll {i : PlayerId} {planets : List (Planet F)} {es : List Expedition}
    (hes : AdmissibleAll planets es) (hi : ∀ e ∈ es, e.fleet.owner ≠ some i) :
    SameViews i planets (departAll planets es) := by
  induction es generalizing planets with
  | nil => exact .refl i planets
  | cons e es ih =>
    refine (sameViews_depart hes.1 (hi e List.mem_cons_self)).trans (ih hes.2 ?_)
    exact fun e' he' => hi e' (List.mem_cons_of_mem e he')

/-- Room for `k` more expedition ids after `num`. -/
def reserve : Nat → Nat → Except Panic Unit
  | _, 0 => .ok ()
  | num, k + 1 => do
    let num ← checkedAdd .expeditionNum num 1
    reserve num k

theorem reserve_add (num j k : Nat) :
    reserve num (j + k) = reserve num j >>= fun _ => reserve (num + j) k := by
  induction j generalizing num with
  | zero => simp [reserve]
  | succ j ih =>
    simp only [Nat.succ_add, reserve, bind_assoc]
    cases h : checkedAdd Counter.expeditionNum num 1 with
    | error e => rfl
    | ok n =>
      obtain ⟨_, rfl⟩ := checkedAdd_eq_ok.mp h
      simp only [ok_bind, ih, Nat.add_assoc, Nat.add_comm 1]

theorem reserve_safe (num k : Nat) :
    Safe (fun e : Panic => e = .addOverflow .expeditionNum) (fun _ => True) (reserve num k) := by
  induction k generalizing num with
  | zero => trivial
  | succ k ih =>
    refine Safe.bind (P := fun _ => True) (checkedAdd_safe (fun _ => rfl) fun _ => trivial) ?_
    exact fun n _ => ih n

/-! ## Judging a turn -/

section Judging
variable [F64 F]

theorem judgeAll_admissible (planetMap : HashMap String Nat) (i : PlayerId)
    (planets : List (Planet F)) (commands : List Proto.Command) :
    AdmissibleAll planets (judgeAll planetMap i planets commands).1 ∧
      ∀ e ∈ (judgeAll planetMap i planets commands).1, e.fleet.owner = some i := by
  induction commands generalizing planets with
  | nil => simp [judgeAll, AdmissibleAll]
  | cons command rest ih =>
    simp only [judgeAll]
    cases hj : judge planetMap planets i command with
    | ok e =>
      obtain ⟨hadm, howner⟩ := judge_ok hj
      obtain ⟨hrest, howners⟩ := ih (depart planets e)
      exact ⟨⟨hadm, hrest⟩, List.forall_mem_cons.mpr ⟨howner, howners⟩⟩
    | error error => exact ih planets

variable [External F]

/-- The expeditions a player's answer leads to, and the action reported back. -/
def verdict (planetMap : HashMap String Nat) (planets : List (Planet F)) (playerId : PlayerId)
    (response : ResponseValue) : List Expedition × Proto.PlayerAction :=
  match response with
  | .error .timeout => ([], .timeout)
  | .ok message =>
    match External.actionFromSlice F message with
    | .error err => ([], .parseError err)
    | .ok action =>
      let (es, reports) := judgeAll planetMap playerId planets action.commands
      (es, .commands reports)

theorem verdict_admissible (planetMap : HashMap String Nat) (planets : List (Planet F))
    (i : PlayerId) (response : ResponseValue) :
    AdmissibleAll planets (verdict planetMap planets i response).1 ∧
      ∀ e ∈ (verdict planetMap planets i response).1, e.fleet.owner = some i := by
  unfold verdict
  split
  · simp [AdmissibleAll]
  · split
    · simp [AdmissibleAll]
    · exact judgeAll_admissible planetMap i planets _

theorem verdict_congr (planetMap : HashMap String Nat) {planets planets' : List (Planet F)}
    {i : PlayerId} (h : SameViews i planets planets') (response : ResponseValue) :
    verdict planetMap planets i response = verdict planetMap planets' i response := by
  unfold verdict
  simp only [judgeAll_congr h]

/-- All expeditions the messages of a turn lead to, each player judged alone. -/
def orders (planetMap : HashMap String Nat) (planets : List (Planet F))
    (messages : List (PlayerId × ResponseValue)) : List Expedition :=
  messages.flatMap fun m => (verdict planetMap planets m.1 m.2).1

/-- What is reported to the players about a turn. -/
def reports (planetMap : HashMap String Nat) (planets : List (Planet F))
    (messages : List (PlayerId × ResponseValue)) : List (PlayerId × Proto.PlayerAction) :=
  messages.map fun m => (m.1, (verdict planetMap planets m.1 m.2).2)

/-- What stays visible to the players that are still to be judged. -/
private theorem sameViews_rest (planetMap : HashMap String Nat) {planets planets' : List (Planet F)}
    {m : PlayerId × ResponseValue} {rest : List (PlayerId × ResponseValue)}
    (hnd : ((m :: rest).map Prod.fst).Nodup)
    (h : ∀ i ∈ (m :: rest).map Prod.fst, SameViews i planets planets') :
    ∀ i ∈ rest.map Prod.fst,
      SameViews i planets (departAll planets' (verdict planetMap planets m.1 m.2).1) := by
  intro i hi
  obtain ⟨hm, _⟩ := List.nodup_cons.mp hnd
  have hv := verdict_congr planetMap (h m.1 (by simp)) m.2
  obtain ⟨hadm, howner⟩ := verdict_admissible planetMap planets' m.1 m.2
  rw [hv]
  refine (h i (by simp [hi])).trans (sameViews_departAll hadm fun e he => ?_)
  rw [howner e he]
  intro h
  obtain ⟨rfl⟩ := h
  exact hm hi

/-- Judged apart, the accepted commands of all players can be executed together. -/
theorem orders_admissible (planetMap : HashMap String Nat) (planets : List (Planet F))
    {messages : List (PlayerId × ResponseValue)} (hnd : (messages.map Prod.fst).Nodup) :
    AdmissibleAll planets (orders planetMap planets messages) := by
  have go (rest : List (PlayerId × ResponseValue)) (hnd : (rest.map Prod.fst).Nodup)
      (planets' : List (Planet F)) (h : ∀ i ∈ rest.map Prod.fst, SameViews i planets planets') :
      AdmissibleAll planets' (orders planetMap planets rest) := by
    induction rest generalizing planets' with
    | nil => trivial
    | cons m rest ih =>
      have hv := verdict_congr planetMap (h m.1 (by simp)) m.2
      refine admissibleAll_append.mpr ⟨?_, ih (List.nodup_cons.mp hnd).2 _ (sameViews_rest planetMap hnd h)⟩
      dsimp only
      rw [hv]
      exact (verdict_admissible planetMap planets' m.1 m.2).1
  exact go messages hnd planets fun i _ => .refl i planets

end Judging

/-! ## Execution -/

namespace Game

/-- Every planet the map names is there. -/
def Mapped (g : Game F) : Prop := ∀ name i, g.planetMap.lookup name = some i → i < g.state.planets.length

def launchAll (g : Game F) (es : List Expedition) : Game F :=
  { g with state := g.state.launchAll es }

@[simp] theorem planetMap_launchAll (g : Game F) (es : List Expedition) :
    (g.launchAll es).planetMap = g.planetMap := rfl

@[simp] theorem planets_launchAll (g : Game F) (es : List Expedition) :
    (g.launchAll es).state.planets = departAll g.state.planets es := by
  simp [launchAll, PlanetWars.launchAll_eq]

@[simp] theorem expeditionNum_launchAll (g : Game F) (es : List Expedition) :
    (g.launchAll es).state.expeditionNum = g.state.expeditionNum + es.length := by
  simp [launchAll, PlanetWars.launchAll_eq]

theorem launchAll_append (g : Game F) (es es' : List Expedition) :
    g.launchAll (es ++ es') = (g.launchAll es).launchAll es' := by
  simp [launchAll, PlanetWars.launchAll_append]

theorem Mapped.launchAll {g : Game F} (h : g.Mapped) (es : List Expedition) :
    (g.launchAll es).Mapped := by
  intro name i hi
  simpa using h name i hi

variable [F64 F]

theorem parseCommand_eq {g : Game F} (hg : g.Mapped) (playerId : PlayerId) (mv : Proto.Command) :
    g.parseCommand playerId mv =
      .ok ((fun e => ⟨e.origin, e.target, e.fleet.shipCount⟩) <$>
        judge g.planetMap g.state.planets playerId mv) := by
  unfold parseCommand judge
  cases ho : g.planetMap.lookup mv.origin with
  | none => rfl
  | some o =>
    cases ht : g.planetMap.lookup mv.destination with
    | none => rfl
    | some t =>
      have ho' := List.getElem?_eq_getElem (hg _ _ ho)
      have ht' := List.getElem?_eq_getElem (hg _ _ ht)
      simp only [index_of_getElem? ho', ho', ht', ok_bind, pure, Except.pure]
      split_ifs <;> rfl

theorem executeCommand_eq {g : Game F} (hg : g.Mapped) (playerId : PlayerId)
    (done : List Proto.PlayerCommand) (command : Proto.Command) :
    executeCommand playerId (g, done) command =
      match judge g.planetMap g.state.planets playerId command with
      | .ok e => (fun _ => (g.launchAll [e], done ++ [{ command, error := none }])) <$>
          reserve g.state.expeditionNum 1
      | .error error => .ok (g, done ++ [{ command, error := some error }]) := by
  simp only [executeCommand, parseCommand_eq hg, ok_bind]
  cases hj : judge g.planetMap g.state.planets playerId command with
  | error error => rfl
  | ok e =>
    obtain ⟨⟨⟨p, hp, ho, hk⟩, htarget, _, _⟩, howner⟩ := judge_ok hj
    have ht := List.getElem?_eq_getElem htarget
    obtain ⟨fleets, hf⟩ := Planet.fleets_of_owner (ho.trans howner)
    have he : (⟨0, e.origin, e.target, ⟨some playerId, e.fleet.shipCount⟩,
        p.distance g.state.planets[e.target]⟩ : Expedition) = e := by
      -- the accepted expedition is the one the dispatch leads to
      unfold judge at hj
      split at hj
      · cases hj
      · cases hj
      · split at hj
        · rename_i origin target horigin htarget'
          split_ifs at hj
          simp only [Except.ok.injEq] at hj
          subst hj
          simp only [hp, ht, Option.some.injEq] at horigin htarget'
          simp [horigin, htarget']
        · cases hj
    simp only [map_ok, PlanetWars.dispatch_eq (d := ⟨e.origin, e.target, e.fleet.shipCount⟩) hp ht
      hf hk, he, reserve]
    cases checkedAdd Counter.expeditionNum g.state.expeditionNum 1 <;> rfl

theorem executeCommands_eq {g : Game F} (hg : g.Mapped) (playerId : PlayerId)
    (done : List Proto.PlayerCommand) (commands : List Proto.Command) :
    commands.foldlM (executeCommand playerId) (g, done) =
      (fun _ => (g.launchAll (judgeAll g.planetMap playerId g.state.planets commands).1,
        done ++ (judgeAll g.planetMap playerId g.state.planets commands).2)) <$>
      reserve g.state.expeditionNum
        (judgeAll g.planetMap playerId g.state.planets commands).1.length := by
  induction commands generalizing g done with
  | nil => simp [judgeAll, reserve, launchAll]; rfl
  | cons command rest ih =>
    rw [List.foldlM_cons, executeCommand_eq hg]
    simp only [judgeAll]
    cases judge g.planetMap g.state.planets playerId command with
    | error error => simp [ih hg]
    | ok e =>
      dsimp only
      rw [List.length_cons, Nat.add_comm _ 1, reserve_add]
      cases reserve g.state.expeditionNum 1 with
      | error err => rfl
      | ok _ =>
        have hcons (es : List Expedition) : (g.launchAll [e]).launchAll es = g.launchAll (e :: es) := by
          rw [← launchAll_append]
          rfl
        simp only [map_ok, ok_bind, ih (hg.launchAll [e]), planetMap_launchAll, planets_launchAll,
          departAll_cons, departAll_nil, expeditionNum_launchAll, List.length_singleton, hcons,
          List.append_assoc, List.singleton_append]

variable [External F]

theorem executeAction_eq {g : Game F} (hg : g.Mapped) (playerId : PlayerId)
    (response : ResponseValue) :
    g.executeAction playerId response =
      (fun _ => (g.launchAll (verdict g.planetMap g.state.planets playerId response).1,
        (verdict g.planetMap g.state.planets playerId response).2)) <$>
      reserve g.state.expeditionNum
        (verdict g.planetMap g.state.planets playerId response).1.length := by
  unfold executeAction verdict
  rcases response with ⟨⟨⟩⟩ | message
  · rfl
  · dsimp only
    cases External.actionFromSlice F message with
    | error err => rfl
    | ok action =>
      simp only [executeCommands_eq hg, List.nil_append]
      cases reserve g.state.expeditionNum
        (judgeAll g.planetMap playerId g.state.planets action.commands).1.length <;> rfl

/-- Draining the messages launches the orders of all players and reports to each
what was made of its own. -/
theorem executeMessages_eq {g : Game F} (hg : g.Mapped)
    {messages : List (PlayerId × ResponseValue)} (hnd : (messages.map Prod.fst).Nodup) :
    g.executeMessages messages =
      (fun _ => (g.launchAll (orders g.planetMap g.state.planets messages),
        reports g.planetMap g.state.planets messages)) <$>
      reserve g.state.expeditionNum (orders g.planetMap g.state.planets messages).length := by
  have go (rest : List (PlayerId × ResponseValue)) (hnd : (rest.map Prod.fst).Nodup)
      (g' : Game F) (hg' : g'.Mapped) (hmap : g'.planetMap = g.planetMap)
      (h : ∀ i ∈ rest.map Prod.fst, SameViews i g.state.planets g'.state.planets)
      (actions : List (PlayerId × Proto.PlayerAction)) :
      rest.foldlM executeMessage (g', actions) =
        (fun _ => (g'.launchAll (orders g.planetMap g.state.planets rest),
          actions ++ reports g.planetMap g.state.planets rest)) <$>
        reserve g'.state.expeditionNum (orders g.planetMap g.state.planets rest).length := by
    induction rest generalizing g' actions with
    | nil => simp [orders, reports, reserve, launchAll]; rfl
    | cons m rest ih =>
      have hv := verdict_congr g.planetMap (h m.1 (by simp)) m.2
      have hrest := sameViews_rest g.planetMap hnd h
      rw [List.foldlM_cons]
      simp only [executeMessage, executeAction_eq hg', hmap, ← hv, orders, reports, List.flatMap_cons,
        List.map_cons, List.length_append, reserve_add]
      cases reserve g'.state.expeditionNum
          (verdict g.planetMap g.state.planets m.1 m.2).1.length with
      | error err => rfl
      | ok _ =>
        simp only [map_ok, ok_bind, pure_bind]
        rw [ih (List.nodup_cons.mp hnd).2 _ (hg'.launchAll _) hmap (by simpa using hrest)]
        simp only [expeditionNum_launchAll, ← launchAll_append, orders, reports, List.append_assoc,
          List.singleton_append]
  simpa [executeMessages] using go messages hnd g hg rfl (fun i _ => .refl i _) []

end Game
end Mozaic
