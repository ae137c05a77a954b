import Mozaic.Game.Basic
import Mozaic.Rules.Arrivals

/-! The orders of one player. Whether they are accepted depends on the planets of
that player alone, so every player acts as if nobody else did. -/
namespace Mozaic
open Rust Rules Network Outcome

variable {F : Type}

/-! ## Departures -/

/-- `k` ships leave the first fleet of a planet. -/
def Rules.Planet.send (p : Planet F) (k : Nat) : Planet F :=
  { p with fleets := p.fleets.modifyHead fun f => { f with shipCount := f.shipCount - k } }

@[simp] theorem Rules.Planet.owner_send (p : Planet F) (k : Nat) : (p.send k).owner = p.owner := by
  unfold Planet.owner Planet.send
  cases p.fleets <;> rfl

@[simp] theorem Rules.Planet.shipCount_send (p : Planet F) (k : Nat) :
    (p.send k).shipCount = p.shipCount - k := by
  unfold Planet.shipCount Planet.send
  cases p.fleets <;> simp

theorem Rules.Planet.fleets_of_owner {p : Planet F} {o : PlayerId} (h : p.owner = some o) :
    ∃ fleets, p.fleets = ⟨some o, p.shipCount⟩ :: fleets := by
  unfold Planet.owner at h
  unfold Planet.shipCount
  rcases hf : p.fleets with - | ⟨⟨owner, n⟩, fleets⟩
  · simp [hf] at h
  · simp only [hf, List.head?_cons, Option.bind_some] at h
    exact ⟨fleets, by simp [h]⟩

/-- The planets after the ships of `e` left. -/
def depart (planets : List (Planet F)) (e : Expedition) : List (Planet F) :=
  planets.modify e.origin (·.send e.fleet.shipCount)

@[simp] theorem length_depart (planets : List (Planet F)) (e : Expedition) :
    (depart planets e).length = planets.length := by
  simp [depart]

theorem getElem?_depart (planets : List (Planet F)) (e : Expedition) (i : Nat) :
    (depart planets e)[i]? =
      if e.origin = i then planets[i]?.map (·.send e.fleet.shipCount) else planets[i]? := by
  rw [depart, List.getElem?_modify]
  split
  · rfl
  · simp

theorem depart_eq_set {planets : List (Planet F)} {e : Expedition} {p : Planet F}
    (hp : planets[e.origin]? = some p) :
    depart planets e = planets.set e.origin (p.send e.fleet.shipCount) := by
  rw [depart, List.modify_eq_set_getElem?, hp]
  rfl

/-- Send out `e`, under the next id. -/
def Rules.PlanetWars.launch (s : PlanetWars F) (e : Expedition) : PlanetWars F :=
  { s with
    planets := depart s.planets e
    expeditionNum := s.expeditionNum + 1
    expeditions := s.expeditions ++ [{ e with id := s.expeditionNum }] }

def Rules.PlanetWars.launchAll (s : PlanetWars F) (es : List Expedition) : PlanetWars F :=
  es.foldl PlanetWars.launch s

@[simp] theorem Rules.PlanetWars.launchAll_nil (s : PlanetWars F) : s.launchAll [] = s := rfl

@[simp] theorem Rules.PlanetWars.launchAll_cons (s : PlanetWars F) (e : Expedition)
    (es : List Expedition) : s.launchAll (e :: es) = (s.launch e).launchAll es := rfl

theorem Rules.PlanetWars.launchAll_append (s : PlanetWars F) (es es' : List Expedition) :
    s.launchAll (es ++ es') = (s.launchAll es).launchAll es' :=
  List.foldl_append

/-- The planets can spare the ships of `e`. -/
structure Admissible (planets : List (Planet F)) (e : Expedition) : Prop where
  origin : ∃ p, planets[e.origin]? = some p ∧ p.owner = e.fleet.owner ∧
    e.fleet.shipCount ≤ p.shipCount
  target : e.target < planets.length
  owned : e.fleet.owner.isSome
  ships : 0 < e.fleet.shipCount

variable [F64 F]

/-- Dispatching ships that are there launches them. -/
theorem Rules.PlanetWars.dispatch_eq {s : PlanetWars F} {d : Dispatch} {p t : Planet F} {f : Fleet}
    {fleets : List Fleet} (hp : s.planets[d.origin]? = some p)
    (ht : s.planets[d.target]? = some t) (hf : p.fleets = f :: fleets)
    (hk : d.shipCount ≤ f.shipCount) :
    s.dispatch d = (fun _ => s.launch ⟨0, d.origin, d.target, ⟨f.owner, d.shipCount⟩,
      p.distance t⟩) <$> checkedAdd .expeditionNum s.expeditionNum 1 := by
  have hsend : p.send d.shipCount =
      { p with fleets := { f with shipCount := f.shipCount - d.shipCount } :: fleets } := by
    simp [Planet.send, hf]
  simp only [dispatch, index_of_getElem? hp, index_of_getElem? ht, hf, ok_bind,
    index_of_getElem? (List.getElem?_cons_zero ..), checkedSub_of_le hk, List.set_cons_zero,
    Planet.owner, List.head?_cons, Option.bind_some, ← hsend, launch,
    depart_eq_set (e := ⟨0, d.origin, d.target, ⟨f.owner, d.shipCount⟩, p.distance t⟩) hp]
  unfold checkedAdd
  split
  · rfl
  · rfl

/-! ## Judging -/

/-- What becomes of one command of a player: an error, or an expedition that has no
id yet. The last branch needs planets the map names and the game lacks. -/
def judge (planetMap : HashMap String Nat) (planets : List (Planet F)) (playerId : PlayerId)
    (mv : Proto.Command) : Except Proto.CommandError Expedition :=
  match planetMap.lookup mv.origin, planetMap.lookup mv.destination with
  | none, _ => .error .originDoesNotExist
  | some _, none => .error .destinationDoesNotExist
  | some o, some t =>
    match planets[o]?, planets[t]? with
    | some origin, some target =>
      if origin.owner ≠ some playerId then .error .originNotOwned
      else if origin.shipCount < mv.shipCount then .error .notEnoughShips
      else if mv.shipCount = 0 then .error .zeroShipMove
      else .ok ⟨0, o, t, ⟨some playerId, mv.shipCount⟩, origin.distance target⟩
    | _, _ => .error .originDoesNotExist

/-- The expeditions a list of commands leads to, and what is reported about it. -/
def judgeAll (planetMap : HashMap String Nat) (playerId : PlayerId) :
    List (Planet F) → List Proto.Command → List Expedition × List Proto.PlayerCommand
  | _, [] => ([], [])
  | planets, command :: rest =>
    match judge planetMap planets playerId command with
    | .ok e =>
      let (es, reports) := judgeAll planetMap playerId (depart planets e) rest
      (e :: es, { command, error := none } :: reports)
    | .error error =>
      let (es, reports) := judgeAll planetMap playerId planets rest
      (es, { command, error := some error } :: reports)

theorem judge_ok {planetMap : HashMap String Nat} {planets : List (Planet F)} {playerId : PlayerId}
    {mv : Proto.Command} {e : Expedition} (h : judge planetMap planets playerId mv = .ok e) :
    Admissible planets e ∧ e.fleet.owner = some playerId := by
  unfold judge at h
  split at h
  · cases h
  · cases h
  · rename_i o t ho ht
    split at h
    · rename_i origin target horigin htarget
      split_ifs at h with howner hfew hzero
      simp only [Except.ok.injEq] at h
      subst h
      refine ⟨⟨⟨origin, horigin, of_not_not howner, Nat.le_of_not_lt hfew⟩, ?_, rfl, ?_⟩, rfl⟩
      · exact (List.getElem?_eq_some_iff.mp htarget).1
      · exact Nat.pos_of_ne_zero hzero
    · cases h

/-- What player `i` is shown of a planet, as far as orders go. -/
structure SameView (i : PlayerId) (p p' : Planet F) : Prop where
  x : p'.x = p.x
  y : p'.y = p.y
  owner : p'.owner = p.owner
  ships : p.owner = some i → p'.shipCount = p.shipCount

omit [F64 F] in
theorem SameView.refl (i : PlayerId) (p : Planet F) : SameView i p p := ⟨rfl, rfl, rfl, fun _ => rfl⟩

abbrev SameViews (i : PlayerId) (planets planets' : List (Planet F)) : Prop :=
  ∀ j : Nat, Option.Rel (SameView i) planets[j]? planets'[j]?

omit [F64 F] in
theorem SameViews.refl (i : PlayerId) (planets : List (Planet F)) : SameViews i planets planets := by
  intro j
  cases planets[j]? with
  | none => exact .none
  | some p => exact .some (.refl i p)

omit [F64 F] in
theorem SameViews.trans {i : PlayerId} {a b d : List (Planet F)} (h : SameViews i a b)
    (h' : SameViews i b d) : SameViews i a d := by
  intro j
  have hj := h j
  have hj' := h' j
  revert hj hj'
  cases a[j]? <;> cases b[j]? <;> cases d[j]? <;> intro hj hj' <;> cases hj <;> cases hj'
  · exact .none
  · rename_i p q r hp hq
    exact .some ⟨hq.x.trans hp.x, hq.y.trans hp.y, hq.owner.trans hp.owner,
      fun ho => (hq.ships (hp.owner.trans ho)).trans (hp.ships ho)⟩

omit [F64 F] in
private theorem SameView.send {i : PlayerId} {p p' : Planet F} (h : SameView i p p') (k : Nat) :
    SameView i (p.send k) (p'.send k) where
  x := h.x
  y := h.y
  owner := by simp [h.owner]
  ships := fun ho => by simp [h.ships (by simpa using ho)]

omit [F64 F] in
theorem SameViews.depart {i : PlayerId} {planets planets' : List (Planet F)}
    (h : SameViews i planets planets') (e : Expedition) :
    SameViews i (Mozaic.depart planets e) (Mozaic.depart planets' e) := by
  intro j
  rw [getElem?_depart, getElem?_depart]
  have hj := h j
  revert hj
  cases planets[j]? <;> cases planets'[j]? <;> intro hj <;> cases hj
  · split <;> exact .none
  · rename_i p p' hp
    split
    · exact .some (hp.send _)
    · exact .some hp

omit [F64 F] in
/-- A player does not see the ships of others leave. -/
theorem sameViews_depart {i : PlayerId} {planets : List (Planet F)} {e : Expedition}
    (he : Admissible planets e) (hi : e.fleet.owner ≠ some i) :
    SameViews i planets (Mozaic.depart planets e) := by
  intro j
  rw [getElem?_depart]
  split
  · subst j
    obtain ⟨p, hp, ho, _⟩ := he.origin
    rw [hp]
    exact .some ⟨rfl, rfl, by simp, fun h => absurd (ho.symm.trans h) hi⟩
  · exact SameViews.refl i planets j

theorem judge_congr {planetMap : HashMap String Nat} {planets planets' : List (Planet F)}
    {i : PlayerId} (h : SameViews i planets planets') (mv : Proto.Command) :
    judge planetMap planets i mv = judge planetMap planets' i mv := by
  unfold judge
  cases planetMap.lookup mv.origin with
  | none => rfl
  | some o =>
    cases planetMap.lookup mv.destination with
    | none => rfl
    | some t =>
      have ho := h o
      have ht := h t
      revert ho ht
      dsimp only
      cases planets[o]? <;> cases planets'[o]? <;> cases planets[t]? <;> cases planets'[t]? <;>
        intro ho ht <;> cases ho <;> cases ht <;> try rfl
      rename_i p p' q q' hp hq
      dsimp only
      rw [hp.owner]
      by_cases howner : p.owner = some i
      · simp only [howner, ne_eq, not_true, if_false, hp.ships howner, Planet.distance, hp.x, hp.y,
          hq.x, hq.y]
      · simp only [ne_eq, howner, not_false_eq_true, if_true]

theorem judgeAll_congr {planetMap : HashMap String Nat} {planets planets' : List (Planet F)}
    {i : PlayerId} (h : SameViews i planets planets') (commands : List Proto.Command) :
    judgeAll planetMap i planets commands = judgeAll planetMap i planets' commands := by
  induction commands generalizing planets planets' with
  | nil => rfl
  | cons command rest ih =>
    simp only [judgeAll, judge_congr h]
    cases judge planetMap planets' i command with
    | ok e => simp only [ih (h.depart e)]
    | error error => simp only [ih h]

end Mozaic
