import Mathlib

/-! Components with a state. Inside of an event handler or a lifecycle method, calls of
`setState` are collected and the component changes once; elsewhere it changes with every call. -/
namespace Mozaic.JavaScript

variable {σ ι : Type}

/-- A call of `setState`. Its callback is run after the change, and sees the new state. -/
structure SetState (σ ι : Type) where
  update : σ → σ
  callback : σ → ι → ι

/-- A component: its state, and the fields of its instance. -/
structure Component (σ ι : Type) where
  state : σ
  fields : ι

namespace Component

def batch (c : Component σ ι) (calls : List (SetState σ ι)) : Component σ ι :=
  let state := calls.foldl (fun s call => call.update s) c.state
  { state, fields := calls.foldl (fun i call => call.callback state i) c.fields }

def change (c : Component σ ι) (call : SetState σ ι) : Component σ ι :=
  let state := call.update c.state
  { state, fields := call.callback state c.fields }

/-- The component after each of the calls. -/
def changes (c : Component σ ι) : List (SetState σ ι) → List (Component σ ι)
  | [] => []
  | call :: calls => c.change call :: (c.change call).changes calls

/-- What every call preserves holds of the component after each of them. -/
theorem changes_invariant {I : Component σ ι → Prop} {c : Component σ ι}
    {calls : List (SetState σ ι)} (hc : I c) (hcalls : ∀ call ∈ calls, ∀ c, I c → I (c.change call)) :
    ∀ c' ∈ c.changes calls, I c' := by
  induction calls generalizing c with
  | nil =>
    intro c' hc'
    cases hc'
  | cons call calls ih =>
    have hnext := hcalls call List.mem_cons_self c hc
    intro c' hc'
    rcases List.mem_cons.mp hc' with rfl | hc'
    · exact hnext
    · exact ih hnext (fun call' hcall' => hcalls call' (List.mem_cons_of_mem call hcall')) c' hc'

/-- A property of the state that the updates preserve outlasts a batch. -/
theorem batch_state {P : σ → Prop} {c : Component σ ι} {calls : List (SetState σ ι)}
    (hc : P c.state) (hcalls : ∀ call ∈ calls, ∀ s, P s → P (call.update s)) :
    P (c.batch calls).state := by
  simp only [batch]
  generalize c.state = state at hc
  induction calls generalizing state with
  | nil => exact hc
  | cons call calls ih =>
    have hnext := hcalls call List.mem_cons_self state hc
    exact ih (fun call' hcall' => hcalls call' (List.mem_cons_of_mem call hcall')) _ hnext

/-- A property of the fields that the callbacks preserve outlasts a batch. -/
theorem batch_fields {P : ι → Prop} {c : Component σ ι} {calls : List (SetState σ ι)}
    (hc : P c.fields) (hcalls : ∀ call ∈ calls, ∀ s f, P f → P (call.callback s f)) :
    P (c.batch calls).fields := by
  simp only [batch]
  generalize calls.foldl (fun s call => call.update s) c.state = state
  generalize c.fields = fields at hc
  induction calls generalizing fields with
  | nil => exact hc
  | cons call calls ih =>
    have hnext := hcalls call List.mem_cons_self state fields hc
    exact ih (fun call' hcall' => hcalls call' (List.mem_cons_of_mem call hcall')) _ hnext

end Component
end Mozaic.JavaScript
