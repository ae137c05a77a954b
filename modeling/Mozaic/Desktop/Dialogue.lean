import Mozaic.MozaicClient.BotRunner

/-! Which line of a bot is the answer to which state, told from what its client hears and not
from what the client keeps. -/
namespace Mozaic.Desktop

variable {F : Type}

/-- A client, its bot, and the states between them, by their numbers. -/
structure Dialogue where
  /-- How many states the client was sent. -/
  states : Nat
  /-- The states the bot was asked about and did not answer yet. -/
  waiting : List Nat
  answers : List (Nat × String)
deriving DecidableEq, Repr

namespace Dialogue

def new : Dialogue := ⟨0, [], []⟩

/-- A bot answers the states it is asked about in their order, with a line each. A final
state asks for nothing. -/
def hear (d : Dialogue) : Heard F → Dialogue
  | .message (.gameState _) =>
    { d with states := d.states + 1, waiting := d.waiting ++ [d.states] }
  | .message (.playerAction _) => d
  | .message (.finalState _) => { d with states := d.states + 1 }
  | .line response =>
    match d.waiting with
    | number :: waiting => { d with waiting, answers := d.answers ++ [(number, response)] }
    | [] => d

def of (heard : List (Heard F)) : Dialogue := heard.foldl hear new

@[simp] theorem of_nil : of ([] : List (Heard F)) = new := rfl

@[simp] theorem of_append_singleton (heard : List (Heard F)) (last : Heard F) :
    of (heard ++ [last]) = (of heard).hear last := by
  simp [of]

theorem hear_line_of_idle {d : Dialogue} (h : d.waiting = []) (response : String) :
    d.hear (.line response : Heard F) = d := by
  simp only [hear, h]

theorem hear_line {d : Dialogue} {number : Nat} {waiting : List Nat}
    (h : d.waiting = number :: waiting) (response : String) :
    d.hear (.line response : Heard F) =
      { d with waiting, answers := d.answers ++ [(number, response)] } := by
  simp only [hear, h]

/-! ## The order of answers -/

/-- States are answered in their order. -/
structure InOrder (d : Dialogue) : Prop where
  pairwise : (d.answers.map Prod.fst ++ d.waiting).Pairwise (· < ·)
  lt : ∀ number ∈ d.answers.map Prod.fst ++ d.waiting, number < d.states

theorem InOrder.hear {d : Dialogue} (h : d.InOrder) (last : Heard F) : (d.hear last).InOrder := by
  have hmore (number : Nat) (hn : number ∈ d.answers.map Prod.fst ++ d.waiting) :
      number < d.states + 1 := Nat.lt_succ_of_lt (h.lt number hn)
  cases last with
  | message msg =>
    cases msg with
    | gameState state =>
      constructor
      · change (_ ++ (d.waiting ++ [d.states])).Pairwise (· < ·)
        rw [← List.append_assoc, List.pairwise_append]
        refine ⟨h.pairwise, List.pairwise_singleton _ _, fun number hn last hlast => ?_⟩
        rw [List.mem_singleton.mp hlast]
        exact h.lt number hn
      · intro number hn
        change number ∈ _ ++ (d.waiting ++ [d.states]) at hn
        rw [← List.append_assoc, List.mem_append, List.mem_singleton] at hn
        rcases hn with hn | rfl
        · exact hmore number hn
        · exact Nat.lt_succ_self _
    | playerAction action => exact h
    | finalState state => exact ⟨h.pairwise, hmore⟩
  | line response =>
    cases hw : d.waiting with
    | nil => rwa [hear_line_of_idle hw]
    | cons number waiting =>
      rw [hear_line hw]
      have heq : (d.answers ++ [(number, response)]).map Prod.fst ++ waiting =
          d.answers.map Prod.fst ++ d.waiting := by
        simp [hw]
      constructor
      · change (_ ++ waiting).Pairwise (· < ·)
        rw [heq]
        exact h.pairwise
      · change ∀ number ∈ _ ++ waiting, number < d.states
        rw [heq]
        exact h.lt

theorem inOrder_of (heard : List (Heard F)) : (of heard).InOrder := by
  induction heard using List.reverseRecOn with
  | nil => exact ⟨List.Pairwise.nil, by simp [new]⟩
  | append_singleton heard last ih =>
    rw [of_append_singleton]
    exact ih.hear last

/-- Nobody answers a state before an earlier one that is still waiting. -/
theorem InOrder.answered_lt {d : Dialogue} (h : d.InOrder) {number : Nat} {waiting : List Nat}
    (hw : d.waiting = number :: waiting) {a : Nat × String} (ha : a ∈ d.answers) : a.1 < number :=
  (List.pairwise_append.mp h.pairwise).2.2 a.1 (List.mem_map_of_mem ha) number (by simp [hw])

theorem InOrder.waiting_lt {d : Dialogue} (h : d.InOrder) {number : Nat} {waiting : List Nat}
    (hw : d.waiting = number :: waiting) : number < d.states :=
  h.lt number (by simp [hw])

/-! ## What is in time -/

/-- If a state waits for its answer, it is the last one that was sent. -/
def InTime (d : Dialogue) : Prop := ∀ number ∈ d.waiting.head?, d.states = number + 1

instance (d : Dialogue) : Decidable d.InTime := by
  unfold InTime
  infer_instance

end Dialogue

/-- Each line that answers a state comes before the next state does. -/
def Punctual (heard : List (Heard F)) : Prop :=
  ∀ before response, before ++ [.line response] <+: heard → (Dialogue.of before).InTime

theorem Punctual.mono {heard heard' : List (Heard F)} (h : Punctual heard')
    (hp : heard <+: heard') : Punctual heard :=
  fun before response hb => h before response (hb.trans hp)

theorem punctual_nil : Punctual ([] : List (Heard F)) := by
  intro before response h
  simp at h

theorem Punctual.append {heard : List (Heard F)} (h : Punctual heard) {last : Heard F}
    (hlast : ∀ response, last = .line response → (Dialogue.of heard).InTime) :
    Punctual (heard ++ [last]) := by
  intro before response hb
  rcases List.prefix_concat_iff.mp hb with heq | hb
  · obtain ⟨rfl, hresponse⟩ := List.append_inj' heq rfl
    exact hlast response (List.singleton_inj.mp hresponse).symm
  · exact h before response hb

/-! ## The bot runner -/

section Runner
open MozaicClient
variable [Protobufjs]

/-- The client of a bot, to which state number `k` comes in the message `ids k`. -/
def hearing (ids : Nat → Nat) (c : MozaicClient.Client F) : Heard F → MozaicClient.Client F
  | .message msg => c.handleGameMessage (ids c.turnNum) msg
  | .line response => (c.onLine response).1

/-- The log of the client is the one of what it heard, and its bot runner calls the callback of
every message with the answer to the state that came in it. -/
theorem foldl_hearing (ids : Nat → Nat) (heard : List (Heard F)) :
    (heard.foldl (hearing ids) .new).logged = Client.run heard ∧
      (heard.foldl (hearing ids) .new).turnNum = (Dialogue.of heard).states ∧
      (heard.foldl (hearing ids) .new).botRunner =
        ⟨(Dialogue.of heard).waiting.map ids,
          (Dialogue.of heard).answers.map fun a => (ids a.1, a.2)⟩ := by
  induction heard using List.reverseRecOn with
  | nil => exact ⟨rfl, rfl, rfl⟩
  | append_singleton heard last ih =>
    obtain ⟨hlogged, hturnNum, hrunner⟩ := ih
    rw [List.foldl_append, Dialogue.of_append_singleton]
    set c := heard.foldl (hearing ids) (MozaicClient.Client.new (F := F))
    have hrun : Client.run (heard ++ [last]) = c.logged.hear last := by
      rw [hlogged]
      simp [Client.run]
    rw [hrun]
    change (hearing ids c last).logged = _ ∧ (hearing ids c last).turnNum = _ ∧
      (hearing ids c last).botRunner = _
    cases last with
    | message msg =>
      refine ⟨c.logged_handleGameMessage _ msg, ?_⟩
      cases msg with
      | gameState state =>
        simp [hearing, MozaicClient.Client.handleGameMessage, MozaicClient.Client.handleGameState,
          MozaicClient.Client.logState, BotRunner.request, Dialogue.hear, hturnNum, hrunner]
      | playerAction action => exact ⟨hturnNum, hrunner⟩
      | finalState state =>
        simp [hearing, MozaicClient.Client.handleGameMessage, MozaicClient.Client.handleFinalState,
          MozaicClient.Client.logState, Dialogue.hear, hturnNum, hrunner]
    | line response =>
      refine ⟨c.logged_onLine response, ?_⟩
      cases hw : (Dialogue.of heard).waiting with
      | nil =>
        rw [Dialogue.hear_line_of_idle hw]
        simp [hearing, MozaicClient.Client.onLine, BotRunner.onLine, hrunner, hw, hturnNum]
      | cons number waiting =>
        rw [Dialogue.hear_line hw]
        simp [hearing, MozaicClient.Client.onLine, BotRunner.onLine, hrunner, hw, hturnNum]

end Runner
end Mozaic.Desktop
