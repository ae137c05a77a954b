import Mathlib

/-! Pre- and postconditions of computations that return a value or stop with an
error. `Safe` is the unary logic, `Agree` the relational one. -/
namespace Mozaic.Rust.Outcome

universe u v
variable {ε : Type u} {α β γ σ ι : Type v}

@[simp] theorem ok_bind (a : α) (f : α → Except ε β) : (Except.ok a >>= f) = f a := rfl
@[simp] theorem error_bind (e : ε) (f : α → Except ε β) : (Except.error e >>= f) = .error e := rfl
@[simp] theorem map_ok (f : α → β) (a : α) : f <$> (Except.ok a : Except ε α) = .ok (f a) := rfl
@[simp] theorem map_error (f : α → β) (e : ε) : f <$> (Except.error e : Except ε α) = .error e := rfl

theorem bind_eq_ok {x : Except ε α} {f : α → Except ε β} {b : β} :
    x >>= f = .ok b ↔ ∃ a, x = .ok a ∧ f a = .ok b := by
  cases x <;> simp

/-- The error a computation stops with. -/
def failure? : Except ε α → Option ε
  | .ok _ => none
  | .error e => some e

theorem eq_error_of_failure? {x : Except ε α} {e : ε} (h : failure? x = some e) : x = .error e := by
  cases x with
  | ok a => cases h
  | error e' => rw [Option.some.inj h]

/-- `x` returns a value satisfying `P`, or stops with an error that `A` allows. -/
def Safe (A : ε → Prop) (P : α → Prop) : Except ε α → Prop
  | .ok a => P a
  | .error e => A e

section Unary
variable {A B : ε → Prop} {P Q : α → Prop} {R : β → Prop}

@[simp] theorem safe_ok {a : α} : Safe A P (.ok a) ↔ P a := Iff.rfl
@[simp] theorem safe_error {e : ε} : Safe A P (.error e) ↔ A e := Iff.rfl
@[simp] theorem safe_pure {a : α} : Safe A P (pure a) ↔ P a := Iff.rfl

theorem Safe.of_ok {x : Except ε α} {a : α} (h : Safe A P x) (hx : x = .ok a) : P a := by
  rwa [hx] at h

theorem Safe.of_error {x : Except ε α} {e : ε} (h : Safe A P x) (hx : x = .error e) : A e := by
  rwa [hx] at h

theorem Safe.mono {x : Except ε α} (h : Safe A P x) (hA : ∀ e, A e → B e)
    (hP : ∀ a, P a → Q a) : Safe B Q x := by
  cases x with
  | ok a => exact hP a h
  | error e => exact hA e h

theorem Safe.weaken {x : Except ε α} (h : Safe A P x) (hP : ∀ a, P a → Q a) : Safe A Q x :=
  h.mono (fun _ he => he) hP

theorem safe_true (x : Except ε α) : Safe (fun _ => True) (fun _ => True) x := by
  cases x <;> trivial

theorem Safe.and {x : Except ε α} (h : Safe A P x) (h' : Safe A Q x) :
    Safe A (fun a => P a ∧ Q a) x := by
  cases x with
  | ok a => exact ⟨h, h'⟩
  | error e => exact h

/-- As `Safe.and`, where what stops the computation is known from the first one. -/
theorem Safe.join {x : Except ε α} (h : Safe A P x) (h' : Safe B Q x) :
    Safe A (fun a => P a ∧ Q a) x := by
  cases x with
  | ok a => exact ⟨h, h'⟩
  | error e => exact h

/-- Sequencing: the first computation establishes what the second one needs. -/
theorem Safe.bind {x : Except ε α} {f : α → Except ε β} (h : Safe A P x)
    (hf : ∀ a, P a → Safe A R (f a)) : Safe A R (x >>= f) := by
  cases x with
  | ok a => exact hf a h
  | error e => exact h

/-- As `Safe.bind`, remembering that the first computation did return `a`. -/
theorem Safe.bind_eq {x : Except ε α} {f : α → Except ε β} (h : Safe A P x)
    (hf : ∀ a, x = .ok a → P a → Safe A R (f a)) : Safe A R (x >>= f) := by
  cases x with
  | ok a => exact hf a rfl h
  | error e => exact h

theorem Safe.map {x : Except ε α} {f : α → β} (h : Safe A P x) (hf : ∀ a, P a → R (f a)) :
    Safe A R (f <$> x) := by
  cases x with
  | ok a => exact hf a h
  | error e => exact h

/-- The invariant rule: what every step preserves holds after the whole run. -/
theorem Safe.foldlM {I : σ → Prop} {step : σ → ι → Except ε σ} {l : List ι} {s : σ} (hs : I s)
    (hstep : ∀ a ∈ l, ∀ t, I t → Safe A I (step t a)) : Safe A I (l.foldlM step s) := by
  induction l generalizing s with
  | nil => exact hs
  | cons a l ih =>
    rw [List.foldlM_cons]
    refine (hstep a List.mem_cons_self s hs).bind fun t ht => ih ht fun b hb => ?_
    exact hstep b (List.mem_cons_of_mem a hb)

/-- As `Safe.foldlM`, with an invariant over the part of the list already consumed. -/
theorem Safe.foldlM_prefix {I : List ι → σ → Prop} {step : σ → ι → Except ε σ} {l : List ι}
    {s : σ} (hs : I [] s)
    (hstep : ∀ done a rest, l = done ++ a :: rest → ∀ t, I done t →
      Safe A (I (done ++ [a])) (step t a)) :
    Safe A (I l) (l.foldlM step s) := by
  have go (done rest : List ι) (hl : l = done ++ rest) (t : σ) (ht : I done t) :
      Safe A (I l) (rest.foldlM step t) := by
    induction rest generalizing done t with
    | nil => simpa [hl] using ht
    | cons a rest ih =>
      rw [List.foldlM_cons]
      refine (hstep done a rest hl t ht).bind fun t' ht' => ?_
      exact ih (done ++ [a]) (by simp [hl]) t' ht'
  exact go [] l rfl s hs

theorem Safe.mapM {T : ι → β → Prop} {f : ι → Except ε β} {l : List ι}
    (hf : ∀ a ∈ l, Safe A (T a) (f a)) : Safe A (List.Forall₂ T l) (l.mapM f) := by
  induction l with
  | nil => exact .nil
  | cons a l ih =>
    rw [List.mapM_cons]
    refine (hf a List.mem_cons_self).bind fun b hb => ?_
    refine (ih fun c hc => hf c (List.mem_cons_of_mem a hc)).bind fun l' hl' => ?_
    exact .cons hb hl'

theorem exists_of_mem_forall₂ {T : ι → β → Prop} {l : List ι} {l' : List β}
    (h : List.Forall₂ T l l') {b : β} (hb : b ∈ l') : ∃ a ∈ l, T a b := by
  induction h with
  | nil => cases hb
  | cons hab _ ih =>
    rcases List.mem_cons.mp hb with rfl | hb
    · exact ⟨_, List.mem_cons_self, hab⟩
    · obtain ⟨a, ha, hT⟩ := ih hb
      exact ⟨a, List.mem_cons_of_mem _ ha, hT⟩

end Unary

/-- Both computations return related values, or both stop with an error. -/
def Agree (R : α → β → Prop) : Except ε α → Except ε β → Prop
  | .ok a, .ok b => R a b
  | .error _, .error _ => True
  | _, _ => False

section Relational
variable {R : α → β → Prop} {x : Except ε α} {y : Except ε β}

@[simp] theorem agree_ok {a : α} {b : β} : Agree (ε := ε) R (.ok a) (.ok b) ↔ R a b := Iff.rfl
@[simp] theorem agree_error {e e' : ε} : Agree R (.error e : Except ε α) (.error e') ↔ True := Iff.rfl
@[simp] theorem not_agree_ok_error {a : α} {e : ε} : ¬ Agree R (.ok a) (.error e : Except ε β) := id
@[simp] theorem not_agree_error_ok {e : ε} {b : β} : ¬ Agree R (.error e : Except ε α) (.ok b) := id

theorem Agree.refl_of {R : α → α → Prop} (x : Except ε α) (hR : ∀ a, x = .ok a → R a a) :
    Agree R x x := by
  cases x with
  | ok a => exact hR a rfl
  | error e => trivial

theorem Agree.symm {R : α → α → Prop} {x y : Except ε α} (h : Agree R x y)
    (hR : ∀ a b, R a b → R b a) : Agree R y x := by
  cases x <;> cases y <;> first | exact hR _ _ h | exact h

theorem Agree.trans {R : α → α → Prop} {x y z : Except ε α} (h : Agree R x y) (h' : Agree R y z)
    (hR : ∀ a b c, R a b → R b c → R a c) : Agree R x z := by
  cases x <;> cases y <;> cases z <;> simp_all
  exact hR _ _ _ h h'

/-- Two agreements with one computation in common. -/
theorem Agree.comp {S : β → γ → Prop} {z : Except ε γ} (h : Agree R x y) (h' : Agree S y z) :
    Agree (fun a c => ∃ b, R a b ∧ S b c) x z := by
  cases x <;> cases y <;> cases z <;> simp_all
  exact ⟨_, h, h'⟩

theorem Agree.exists_ok (h : Agree R x y) (hx : x.toOption.isSome) :
    ∃ a b, x = .ok a ∧ y = .ok b ∧ R a b := by
  cases x with
  | error e => simp [Except.toOption] at hx
  | ok a =>
    cases y with
    | error e => exact h.elim
    | ok b => exact ⟨a, b, rfl, rfl, h⟩

theorem Agree.mono {R' : α → β → Prop} (h : Agree R x y) (hR : ∀ a b, R a b → R' a b) :
    Agree R' x y := by
  cases x <;> cases y <;> simp_all

/-- Sequencing for two computations run side by side. -/
theorem Agree.bind {S : γ → σ → Prop} {f : α → Except ε γ} {g : β → Except ε σ} (h : Agree R x y)
    (hfg : ∀ a b, x = .ok a → y = .ok b → R a b → Agree S (f a) (g b)) :
    Agree S (x >>= f) (y >>= g) := by
  cases x <;> cases y <;> simp_all

theorem Agree.map {S : γ → σ → Prop} {f : α → γ} {g : β → σ} (h : Agree R x y)
    (hfg : ∀ a b, R a b → S (f a) (g b)) : Agree S (f <$> x) (g <$> y) := by
  cases x <;> cases y <;> simp_all

theorem Agree.of_map {S : γ → σ → Prop} {f : α → γ} {g : β → σ} (h : Agree S (f <$> x) (g <$> y)) :
    Agree (fun a b => S (f a) (g b)) x y := by
  cases x <;> cases y <;> simp_all

/-- Two computations that cannot fail agree on what both establish. -/
theorem Agree.of_safe {P : α → Prop} {Q : β → Prop} (hx : Safe (fun _ => False) P x)
    (hy : Safe (fun _ => False) Q y) (h : ∀ a b, P a → Q b → R a b) : Agree R x y := by
  cases x <;> cases y <;> simp_all

/-- Add to an agreement what each side is known to establish by itself. -/
theorem Agree.and_safe {A B : ε → Prop} {P : α → Prop} {Q : β → Prop} (h : Agree R x y)
    (hx : Safe A P x) (hy : Safe B Q y) : Agree (fun a b => R a b ∧ P a ∧ Q b) x y := by
  cases x <;> cases y <;> simp_all

theorem Agree.foldlM {S : σ → γ → Prop} {f : σ → ι → Except ε σ} {g : γ → ι → Except ε γ}
    {l : List ι} {s : σ} {t : γ} (h : S s t)
    (hstep : ∀ a ∈ l, ∀ s t, S s t → Agree S (f s a) (g t a)) :
    Agree S (l.foldlM f s) (l.foldlM g t) := by
  induction l generalizing s t with
  | nil => exact h
  | cons a l ih =>
    simp only [List.foldlM_cons]
    refine (hstep a List.mem_cons_self s t h).bind fun s' t' _ _ h' => ih h' fun b hb => ?_
    exact hstep b (List.mem_cons_of_mem a hb)

/-- Steps that commute up to `R` may be taken in any order. `R` need only be
symmetric and transitive, so it can carry an invariant of the states. -/
theorem Agree.foldlM_perm {R : σ → σ → Prop} {step : σ → ι → Except ε σ}
    (hsymm : ∀ a b, R a b → R b a) (htrans : ∀ a b c, R a b → R b c → R a c)
    {l l' : List ι} (hl : l.Perm l')
    (hstep : ∀ a ∈ l, ∀ s t, R s t → Agree R (step s a) (step t a))
    (hcomm : ∀ a ∈ l, ∀ b ∈ l, ∀ s, R s s →
      Agree R (step s a >>= (step · b)) (step s b >>= (step · a)))
    {s t : σ} (h : R s t) : Agree R (l.foldlM step s) (l'.foldlM step t) := by
  have hself {s t : σ} (h : R s t) : R s s := htrans s t s h (hsymm s t h)
  induction hl generalizing s t with
  | nil => exact h
  | cons a _ ih =>
    simp only [List.foldlM_cons]
    refine (hstep a List.mem_cons_self s t h).bind fun s' t' _ _ h' => ih ?_ ?_ h'
    · exact fun b hb => hstep b (List.mem_cons_of_mem a hb)
    · exact fun b hb c hc => hcomm b (List.mem_cons_of_mem a hb) c (List.mem_cons_of_mem a hc)
  | swap a b l =>
    simp only [List.foldlM_cons, ← bind_assoc]
    have hst : Agree R (step s b >>= (step · a)) (step t b >>= (step · a)) :=
      (hstep b (by simp) s t h).bind fun s' t' _ _ h' => hstep a (by simp) s' t' h'
    have hswap := hcomm b (by simp) a (by simp) t (hself (hsymm s t h))
    refine (hst.trans hswap htrans).bind fun s' t' _ _ h' => ?_
    exact Agree.foldlM h' fun c hc => hstep c (by simp [hc])
  | trans hl₁ _ ih₁ ih₂ =>
    refine (ih₁ hstep hcomm h).trans (ih₂ ?_ ?_ (hself (hsymm s t h))) htrans
    · exact fun a ha => hstep a (hl₁.mem_iff.mpr ha)
    · exact fun a ha b hb => hcomm a (hl₁.mem_iff.mpr ha) b (hl₁.mem_iff.mpr hb)

end Relational

/-- A function that turns steps into steps turns runs into runs. -/
theorem map_foldlM {f : σ → α} {g : ι → β} {step : σ → ι → Except ε σ}
    {step' : α → β → Except ε α} {l : List ι}
    (h : ∀ a ∈ l, ∀ s, f <$> step s a = step' (f s) (g a)) (s : σ) :
    f <$> l.foldlM step s = (l.map g).foldlM step' (f s) := by
  induction l generalizing s with
  | nil => rfl
  | cons a l ih =>
    rw [List.foldlM_cons, List.map_cons, List.foldlM_cons, ← h a List.mem_cons_self]
    cases step s a with
    | error e => rfl
    | ok t => exact ih (fun b hb => h b (List.mem_cons_of_mem a hb)) t

theorem mapM_map_eq {κ : Type} {l : List ι} {f : ι → κ} {g : κ → Except ε β}
    {g' : ι → Except ε α} {h : α → β} (heq : ∀ a, g (f a) = h <$> g' a) :
    (l.map f).mapM g = List.map h <$> l.mapM g' := by
  induction l with
  | nil => rfl
  | cons a l ih =>
    rw [List.map_cons, List.mapM_cons, List.mapM_cons, ih, heq]
    cases g' a with
    | error e => rfl
    | ok b => cases l.mapM g' <;> rfl

end Mozaic.Rust.Outcome
