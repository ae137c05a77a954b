import Mozaic.Rust.HashMap
import Mozaic.Rust.Outcome

/-! Plain objects of JavaScript that serve as dictionaries. An object has its own
properties, and those of its prototype can be read through it. -/
namespace Mozaic.JavaScript
open Rust Outcome

variable {ν μ ε : Type}

/-- The properties of `Object.prototype`. -/
def objectPrototype : List String :=
  ["constructor", "__defineGetter__", "__defineSetter__", "hasOwnProperty", "__lookupGetter__",
    "__lookupSetter__", "isPrototypeOf", "propertyIsEnumerable", "toString", "valueOf",
    "__proto__", "toLocaleString"]

/-- A dictionary whose values are objects. -/
structure Dict (ν : Type) where
  own : HashMap String ν
  /-- The value that became the prototype, if not `Object.prototype`. -/
  proto : Option ν

/-- What is found when a property is read. -/
inductive Property (ν : Type) where
  | value (v : ν)
  /-- A property of the prototype. -/
  | inherited
  | undefined
deriving DecidableEq, Repr

/-- The `name` of an inherited property: all but two are functions. -/
def inheritedName (key : String) : Option String :=
  if key = "constructor" then some "Object"
  else if key = "__proto__" ∨ key ∉ objectPrototype then none
  else some key

namespace Dict

def empty : Dict ν := ⟨∅, none⟩

/-- `d[key]`, where `fields` are the properties of each value. -/
def get (fields : List String) (d : Dict ν) (key : String) : Property ν :=
  match d.own.lookup key, d.proto with
  | some v, _ => .value v
  | none, none => if key ∈ objectPrototype then .inherited else .undefined
  | none, some v =>
    if key = "__proto__" then .value v
    else if key ∈ objectPrototype ∨ key ∈ fields then .inherited
    else .undefined

/-- `d[key] = v`. Unless there is such a property already, `__proto__` is a setter. -/
def set (d : Dict ν) (key : String) (v : ν) : Dict ν :=
  if key = "__proto__" ∧ key ∉ d.own then { d with proto := some v }
  else { d with own := d.own.insert key v }

/-- A new dictionary is filled key by key: `Object.keys(d).forEach((key) => ..)`. -/
def rebuild (ord : IterOrder String) (f : ν → Except ε μ) (d : Dict ν) : Except ε (Dict μ) :=
  (HashMap.entriesIn ord d.own).foldlM (fun new e => do
    let v ← f e.2
    pure (new.set e.1 v)) empty

theorem get_eq_undefined_iff {fields : List String} {d : Dict ν} {key : String}
    (hproto : d.proto = none) : d.get fields key = .undefined ↔
      d.own.lookup key = none ∧ key ∉ objectPrototype := by
  rw [get, hproto]
  cases d.own.lookup key with
  | some v => simp
  | none =>
    dsimp only
    split <;> simp [*]

/-! ## Filling a dictionary -/

/-- What a new dictionary holds once these entries are through. -/
structure Filled (f : ν → Except ε μ) (entries : List (String × ν)) (d : Dict μ) : Prop where
  passed : ∀ e ∈ entries, ∃ v, f e.2 = .ok v
  own : ∀ key v, d.own.lookup key = some v ↔
    key ≠ "__proto__" ∧ ∃ u, (key, u) ∈ entries ∧ f u = .ok v
  proto : ∀ v, d.proto = some v → ∃ u, ("__proto__", u) ∈ entries ∧ f u = .ok v

theorem Filled.empty (f : ν → Except ε μ) : Filled f [] .empty :=
  ⟨by simp, by simp [Dict.empty], by simp [Dict.empty]⟩

theorem Filled.not_mem {f : ν → Except ε μ} {entries : List (String × ν)} {d : Dict μ}
    (h : Filled f entries d) : "__proto__" ∉ d.own := by
  intro hmem
  obtain ⟨v, hv⟩ := Finmap.mem_iff.mp hmem
  exact ((h.own _ v).mp hv).1 rfl

theorem Filled.set {f : ν → Except ε μ} {entries : List (String × ν)} {d : Dict μ} {key : String}
    {u : ν} {v : μ} (h : Filled f entries d) (hnew : ∀ e ∈ entries, e.1 ≠ key)
    (hv : f u = .ok v) : Filled f (entries ++ [(key, u)]) (d.set key v) := by
  have hpassed : ∀ e ∈ entries ++ [(key, u)], ∃ v, f e.2 = .ok v := by
    intro e he
    rcases List.mem_append.mp he with he | he
    · exact h.passed e he
    · rw [List.mem_singleton.mp he]
      exact ⟨v, hv⟩
  have hmore (key' : String) (u' : ν) : (key', u') ∈ entries ++ [(key, u)] ↔
      (key', u') ∈ entries ∨ key' = key ∧ u' = u := by
    simp
  by_cases hkey : key = "__proto__"
  · rw [Dict.set, if_pos ⟨hkey, hkey ▸ h.not_mem⟩]
    refine ⟨hpassed, fun key' v' => ?_, fun v' hv' => ?_⟩
    · rw [h.own]
      refine and_congr_right fun hne => exists_congr fun u' => and_congr_left fun _ => ?_
      rw [hmore, or_iff_left]
      rintro ⟨rfl, -⟩
      exact hne hkey
    · rw [← Option.some.inj hv']
      exact ⟨u, (hmore _ _).mpr (.inr ⟨hkey.symm, rfl⟩), hv⟩
  · rw [Dict.set, if_neg fun hset => hkey hset.1]
    refine ⟨hpassed, fun key' v' => ?_, fun v' hv' => ?_⟩
    · rw [HashMap.lookup_insert_eq]
      split
      · rename_i heq
        constructor
        · intro heq'
          rw [← Option.some.inj heq']
          exact ⟨heq ▸ hkey, u, (hmore _ _).mpr (.inr ⟨heq, rfl⟩), hv⟩
        · rintro ⟨-, u', hmem, hu'⟩
          rcases (hmore _ _).mp hmem with hmem | ⟨-, rfl⟩
          · exact absurd heq (hnew _ hmem)
          · exact congrArg some (Except.ok.inj (hv.symm.trans hu'))
      · rename_i hne
        rw [h.own]
        refine and_congr_right fun _ => exists_congr fun u' => and_congr_left fun _ => ?_
        rw [hmore, or_iff_left]
        exact fun heq => hne heq.1
    · obtain ⟨u', hmem, hu'⟩ := h.proto v' hv'
      exact ⟨u', (hmore _ _).mpr (.inl hmem), hu'⟩

variable {ord : IterOrder String} {f : ν → Except ε μ} {d : Dict ν}

theorem rebuild_filled (ord : IterOrder String) (f : ν → Except ε μ) (d : Dict ν) :
    Safe (fun err => ∃ key u, d.own.lookup key = some u ∧ f u = .error err)
      (Filled f (HashMap.entriesIn ord d.own)) (d.rebuild ord f) := by
  have hnd := HashMap.nodup_fst_entriesIn ord d.own
  apply Safe.foldlM_prefix (Filled.empty f)
  intro done e rest hl t ht
  have hnew : ∀ e' ∈ done, e'.1 ≠ e.1 := by
    intro e' he'
    rw [hl, List.map_append, List.nodup_append] at hnd
    exact hnd.2.2 e'.1 (List.mem_map_of_mem he') e.1 (by simp)
  cases hv : f e.2 with
  | error err =>
    have hmem : e ∈ HashMap.entriesIn ord d.own := hl ▸ by simp
    exact ⟨e.1, e.2, HashMap.mem_entriesIn.mp hmem, hv⟩
  | ok v => exact ht.set hnew hv

/-- The loop gets through if and only if it does for every value. -/
theorem rebuild_eq_ok_iff :
    (∃ d', d.rebuild ord f = .ok d') ↔ ∀ key u, d.own.lookup key = some u → ∃ v, f u = .ok v := by
  have hfilled := rebuild_filled ord f d
  constructor
  · rintro ⟨d', hd'⟩ key u hu
    exact (hfilled.of_ok hd').passed (key, u) (HashMap.mem_entriesIn.mpr hu)
  · intro h
    cases hd' : d.rebuild ord f with
    | ok d' => exact ⟨d', rfl⟩
    | error err =>
      obtain ⟨key, u, hu, herr⟩ := hfilled.of_error hd'
      obtain ⟨v, hv⟩ := h key u hu
      rw [hv] at herr
      cases herr

theorem lookup_rebuild {d' : Dict μ} (h : d.rebuild ord f = .ok d') {key : String} {v : μ} :
    d'.own.lookup key = some v ↔
      key ≠ "__proto__" ∧ ∃ u, d.own.lookup key = some u ∧ f u = .ok v := by
  rw [((rebuild_filled ord f d).of_ok h).own]
  simp only [HashMap.mem_entriesIn]

/-- A key goes missing if it is `__proto__`, and only then. -/
theorem mem_rebuild {d' : Dict μ} (h : d.rebuild ord f = .ok d') {key : String} :
    key ∈ d'.own ↔ key ≠ "__proto__" ∧ key ∈ d.own := by
  rw [Finmap.mem_iff, Finmap.mem_iff]
  constructor
  · rintro ⟨v, hv⟩
    obtain ⟨hne, u, hu, -⟩ := (lookup_rebuild h).mp hv
    exact ⟨hne, u, hu⟩
  · rintro ⟨hne, u, hu⟩
    obtain ⟨v, hv⟩ := rebuild_eq_ok_iff.mp ⟨d', h⟩ key u hu
    exact ⟨v, (lookup_rebuild h).mpr ⟨hne, u, hu, hv⟩⟩

theorem keys_rebuild_iff {d' : Dict μ} (h : d.rebuild ord f = .ok d') :
    d'.own.keys = d.own.keys ↔ "__proto__" ∉ d.own := by
  rw [Finset.ext_iff]
  simp only [Finmap.mem_keys, mem_rebuild h, and_iff_right_iff_imp]
  constructor
  · exact fun hkeys hmem => hkeys _ hmem rfl
  · rintro hmem key hkey rfl
    exact hmem hkey

theorem proto_rebuild {d' : Dict μ} (h : d.rebuild ord f = .ok d') (hmem : "__proto__" ∉ d.own) :
    d'.proto = none := by
  rw [Option.eq_none_iff_forall_ne_some]
  intro v hv
  obtain ⟨u, hu, -⟩ := ((rebuild_filled ord f d).of_ok h).proto v hv
  exact hmem (Finmap.mem_iff.mpr ⟨u, HashMap.mem_entriesIn.mp hu⟩)

end Dict
end Mozaic.JavaScript
