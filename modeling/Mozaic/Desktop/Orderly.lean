import Mozaic.Desktop.Prospect

/-! An invariant of the slots: in the state that is left once everything is answered, the
slots of the list and the players of the server are the same. -/
namespace Mozaic.Desktop
open Rust Rules Network Outcome Controller

variable {F : Type}

namespace SlotManager

variable {r : Roll} {replies : List Answer} {m m' : SlotManager} {slot : Slot} {token : Token}
  {clientId : Nat} {draws : Draws} {running : Bool}

/-- The slots of the list are apart, no token of theirs can be drawn again, and once every
answer is there they are the players of the current lobby. `running` says whether there is
a match runner. -/
structure Orderly (draws : Draws) (running : Bool) (r : Roll) (replies : List Answer)
    (m : SlotManager) : Prop where
  runner : m.matchRunner.isSome = running
  nodup : m.slotList.Nodup
  tokens : ∀ token slot, m.objects.lookup token = some slot → slot.token = token
  listed : ∀ token ∈ m.slotList, ((m.view r replies).left token).isSome
  drawn : ∀ token ∈ m.slotList, ∃ n < m.drawn, draws.token n = token
  removed : ∀ token clientId, (.removePlayer, .unregistered token clientId) ∈ m.due r replies →
    ∃ n < m.drawn, draws.token n = token
  plain : ∀ request ∈ m.requests, ∀ payload, request.message ≠ .startGame payload
  seated : m.matchRunner.isSome →
    ∃ seats, m.slotList.Perm (seats.map Prod.fst) ∧ (m.view r replies).Seats seats

namespace Orderly

theorem not_mem_slotList (h : m.Orderly draws running r replies) : draws.token m.drawn ∉ m.slotList := by
  intro hmem
  obtain ⟨n, hn, heq⟩ := h.drawn _ hmem
  exact absurd (draws.fresh heq) hn.ne

theorem not_mem_due (h : m.Orderly draws running r replies) (id : Nat) :
    (.removePlayer, .unregistered (draws.token m.drawn) id) ∉ m.due r replies := by
  intro hmem
  obtain ⟨n, hn, heq⟩ := h.removed _ _ hmem
  exact absurd (draws.fresh heq) hn.ne

theorem enrol (h : m.Orderly draws running r replies) {list : List Token}
    (hlist : list.Perm (draws.token m.drawn :: m.slotList)) :
    Orderly draws running r replies { (m.createSlot draws).2 with slotList := list } := by
  have hrequests : (m.createSlot draws).2.requests = m.requests ∨
      ∃ messageId, (m.createSlot draws).2.requests = m.requests ++
        [⟨messageId, .addPlayer (draws.token m.drawn), .registered (draws.token m.drawn)⟩] := by
    cases hrunner : m.matchRunner with
    | none => exact .inl (by simp [createSlot, registerSlot, requests, hrunner])
    | some runner =>
      have hplace : (m.place (m.newSlot draws)).matchRunner = some runner := hrunner
      exact .inr ⟨_, requests_registerSlot hplace _⟩
  constructor
  · exact Option.isSome_map.trans h.runner
  · exact hlist.nodup_iff.mpr (List.nodup_cons.mpr ⟨h.not_mem_slotList, h.nodup⟩)
  · intro token slot hlookup
    rw [createSlot_eq] at hlookup
    change (m.objects.insert _ _).lookup token = some slot at hlookup
    rw [HashMap.lookup_insert_eq] at hlookup
    split at hlookup
    · rename_i heq
      rw [heq, ← Option.some.inj hlookup]
    · exact h.tokens token slot hlookup
  · intro token htoken
    change Option.isSome (((m.createSlot draws).2.view r replies).left token) = true
    exact isSome_left_createSlot h.not_mem_due
      ((List.mem_cons.mp (hlist.subset htoken)).imp_right (h.listed token))
  · intro token htoken
    rcases List.mem_cons.mp (hlist.subset htoken) with rfl | htoken
    · exact ⟨m.drawn, Nat.lt_succ_self _, rfl⟩
    · obtain ⟨n, hn, heq⟩ := h.drawn token htoken
      exact ⟨n, Nat.lt_succ_of_lt hn, heq⟩
  · intro token clientId hmem
    change _ ∈ (m.createSlot draws).2.due r replies at hmem
    have hdue : (.removePlayer, .unregistered token clientId) ∈ m.due r replies := by
      rcases hrequests with heq | ⟨messageId, heq⟩
      · rwa [due, heq] at hmem
      · rw [due_request heq, List.mem_append, List.mem_singleton] at hmem
        rcases hmem with hmem | hmem
        · exact hmem
        · cases hmem
    obtain ⟨n, hn, heq⟩ := h.removed token clientId hdue
    exact ⟨n, Nat.lt_succ_of_lt hn, heq⟩
  · intro request hrequest payload
    change request ∈ (m.createSlot draws).2.requests at hrequest
    rcases hrequests with heq | ⟨messageId, heq⟩
    · exact h.plain request (heq ▸ hrequest) payload
    · rw [heq, List.mem_append, List.mem_singleton] at hrequest
      rcases hrequest with hrequest | rfl
      · exact h.plain request hrequest payload
      · simp
  · intro hrunner
    change Option.isSome (m.matchRunner.map _) = true at hrunner
    rw [Option.isSome_map] at hrunner
    obtain ⟨seats, hseats, hview⟩ := h.seated hrunner
    refine ⟨_, ?_, (view_createSlot (r := r) hrunner h.not_mem_due).symm ▸ hview.enrol ?_⟩
    · exact hlist.trans (hseats.cons _)
    · exact fun hmem => h.not_mem_slotList (hseats.mem_iff.mpr hmem)

theorem token_of_slot? (h : m.Orderly draws running r replies) (hslot : m.slot? token = some slot) :
    slot.token = token := by
  rw [slot?] at hslot
  split at hslot
  · exact h.tokens token slot hslot
  · cases hslot

/-- A slot of the list that has got its answer knows its client id. -/
theorem exists_seat (h : m.Orderly draws running r replies) (hrunner : m.matchRunner.isSome)
    (htoken : token ∈ m.slotList) (hslot : m.slot? token = some slot)
    (hanswered : m.Answered r replies token) :
    ∃ seats clientId, m.slotList.Perm (seats.map Prod.fst) ∧ (m.view r replies).Seats seats ∧
      (token, clientId) ∈ seats ∧ slot.clientId = some clientId := by
  obtain ⟨seats, hseats, hview⟩ := h.seated hrunner
  obtain ⟨⟨token, clientId⟩, hseat, rfl⟩ := List.mem_map.mp (hseats.subset htoken)
  refine ⟨seats, clientId, hseats, hview, hseat, ?_⟩
  have hleft := hview.left _ hseat
  have hclient : m.clientId? token = some slot.clientId := by rw [clientId?, hslot, Option.map_some]
  change List.foldl _ (m.clientId? token) _ = _ at hleft
  rw [hclient] at hleft
  refine Answer.foldl_rename_of_forall (fun id hmem => ?_) hleft
  have hid := hanswered id hmem
  rw [hclient] at hid
  exact Option.some.inj hid

theorem dismiss (h : m.Orderly draws running r replies) {list : List Token}
    (hlist : m.slotList.Perm (token :: list)) (hslot : m.slot? token = some slot)
    (hanswered : m.Answered r replies token) :
    Orderly draws running r replies { m.unregisterSlot slot with slotList := list } := by
  have htoken : token ∈ m.slotList := hlist.symm.subset List.mem_cons_self
  have hsub (token' : Token) (hmem : token' ∈ list) : token' ∈ m.slotList :=
    hlist.symm.subset (List.mem_cons_of_mem token hmem)
  obtain ⟨hnot, hnd⟩ := List.nodup_cons.mp (hlist.nodup_iff.mp h.nodup)
  cases hrunner : m.matchRunner with
  | none =>
    rw [unregisterSlot_of_none hrunner]
    exact
      { runner := h.runner
        nodup := hnd
        tokens := h.tokens
        listed := fun token' hmem => h.listed token' (hsub token' hmem)
        drawn := fun token' hmem => h.drawn token' (hsub token' hmem)
        removed := h.removed
        plain := h.plain
        seated := fun hsome => by simp [hrunner] at hsome }
  | some runner =>
    have hsome : m.matchRunner.isSome := by rw [hrunner]; rfl
    obtain ⟨seats, clientId, hseats, hview, hseat, hid⟩ := h.exists_seat hsome htoken hslot hanswered
    have hpos := (hview.below _ hseat).1
    have hslotToken := h.token_of_slot? hslot
    have hrequests := requests_unregisterSlot hrunner hid hpos
    have hview' : (m.unregisterSlot slot).view r replies = _ := view_unregisterSlot hsome hid hpos
    have hdue : (m.unregisterSlot slot).due r replies = _ := due_request hrequests
    rw [hslotToken] at hview' hdue hrequests
    rw [unregisterSlot_eq hid hpos] at hview' hdue hrequests ⊢
    have hperm := List.perm_cons_erase hseat
    have hlist' : list.Perm ((seats.erase (token, clientId)).map Prod.fst) :=
      (hlist.symm.trans (hseats.trans (hperm.map Prod.fst))).cons_inv
    have hdismissed := (hview.perm hperm).dismiss fun hmem => hnot (hlist'.mem_iff.mpr hmem)
    have hseated : ∃ seats', list.Perm (seats'.map Prod.fst) ∧
        ((m.view r replies).dismiss token clientId).Seats seats' := ⟨_, hlist', hdismissed⟩
    constructor
    · exact Option.isSome_map.trans h.runner
    · exact hnd
    · exact h.tokens
    · intro token' hmem
      obtain ⟨⟨_, id⟩, hseat', rfl⟩ := List.mem_map.mp (hlist'.subset hmem)
      rw [← hview'] at hdismissed
      exact (hdismissed.left _ hseat') ▸ rfl
    · exact fun token' hmem => h.drawn token' (hsub token' hmem)
    · intro token' id hmem
      change _ ∈ due r replies { m with
        matchRunner := m.matchRunner.map (·.removePlayer slot.token clientId) } at hmem
      rw [hdue, List.mem_append, List.mem_singleton] at hmem
      rcases hmem with hmem | hmem
      · exact h.removed token' id hmem
      · cases hmem
        exact h.drawn token htoken
    · intro request hmem payload
      change request ∈ requests { m with
        matchRunner := m.matchRunner.map (·.removePlayer slot.token clientId) } at hmem
      rw [hrequests, List.mem_append, List.mem_singleton] at hmem
      rcases hmem with hmem | rfl
      · exact h.plain request hmem payload
      · simp
    · intro _
      rw [← hview'] at hseated
      exact hseated

theorem exists_slot (h : m.Orderly draws running r replies) (htoken : token ∈ m.slotList) :
    ∃ slot, m.slot? token = some slot := by
  have hleft := h.listed token htoken
  change Option.isSome (List.foldl _ (m.clientId? token) _) = true at hleft
  cases hslot : m.slot? token with
  | none => simp [clientId?, hslot] at hleft
  | some slot => exact ⟨slot, rfl⟩

/-- What does not concern registrations. -/
theorem keep (h : m.Orderly draws running r replies) (hlist : m'.slotList = m.slotList)
    (hids : m'.clientId? = m.clientId?) (hclients : m'.clients = m.clients)
    (hrunner : m'.matchRunner = m.matchRunner) (hdrawn : m'.drawn = m.drawn)
    (htokens : ∀ token slot, m'.objects.lookup token = some slot → slot.token = token) :
    m'.Orderly draws running r replies := by
  have hrequests : m'.requests = m.requests := by rw [requests, requests, hrunner]
  have hdue : m'.due r replies = m.due r replies := by rw [due, due, hrequests]
  have hview : m'.view r replies = m.view r replies := by
    rw [view, view, hdue, hids, hclients, hrequests]
  constructor
  · rw [hrunner]
    exact h.runner
  · rw [hlist]
    exact h.nodup
  · exact htokens
  · rw [hlist, hview]
    exact h.listed
  · rw [hlist, hdrawn]
    exact h.drawn
  · rw [hdue, hdrawn]
    exact h.removed
  · rw [hrequests]
    exact h.plain
  · rw [hrunner, hlist, hview]
    exact h.seated

theorem modify (h : m.Orderly draws running r replies) (token : Token) {f : Slot → Slot}
    (hid : ∀ slot, (f slot).clientId = slot.clientId) (htoken : ∀ slot, (f slot).token = slot.token) :
    (m.modify token f).Orderly draws running r replies := by
  refine h.keep (slotList_modify ..) ?_ (clients_modify ..) (matchRunner_modify ..)
    (drawn_modify ..) ?_
  · funext token'
    exact clientId?_modify_of_keep _ _ _ _ hid
  · intro token' slot hlookup
    rw [lookup_modify] at hlookup
    split at hlookup
    · obtain ⟨slot', hslot', rfl⟩ := Option.map_eq_some_iff.mp hlookup
      rename_i heq
      rw [htoken, h.tokens _ _ hslot', heq]
    · exact h.tokens _ _ hlookup

theorem bindLocalBot (h : m.Orderly draws running r replies) (bot : Bot) :
    (m.bindLocalBot bot).Orderly draws running r replies := by
  rw [SlotManager.bindLocalBot]
  split
  · exact h.modify _ (fun _ => rfl) fun _ => rfl
  · exact h

theorem setConnected (h : m.Orderly draws running r replies) (connected : Bool) (clientId : Nat) :
    (m.setConnected connected clientId).Orderly draws running r replies := by
  rw [SlotManager.setConnected]
  split
  · exact h.modify _ (fun _ => rfl) fun _ => rfl
  · exact h

theorem connectClient (h : m.Orderly draws running r replies) (clientId : Nat) :
    (m.connectClient clientId).Orderly draws running r replies := by
  have hkeep : Orderly draws running r replies
      { m with connectedClients := insert clientId m.connectedClients } :=
    h.keep rfl rfl rfl rfl rfl h.tokens
  exact hkeep.setConnected true clientId

theorem disconnectClient (h : m.Orderly draws running r replies) (clientId : Nat) :
    (m.disconnectClient clientId).Orderly draws running r replies := by
  have hkeep : Orderly draws running r replies
      { m with connectedClients := m.connectedClients.erase clientId } :=
    h.keep rfl rfl rfl rfl rfl h.tokens
  exact hkeep.setConnected false clientId

theorem addSlot (h : m.Orderly draws running r replies) : (m.addSlot draws).Orderly draws running r replies :=
  h.enrol (List.perm_append_singleton _ _)

theorem removeBot (h : m.Orderly draws running r replies) {playerNum : Nat}
    (hanswered : ∀ token ∈ m.slotList[playerNum]?, m.Answered r replies token) :
    (m.removeBot draws playerNum).Orderly draws running r replies := by
  rw [SlotManager.removeBot]
  split
  · rename_i oldSlot hold
    obtain ⟨token, htoken, hslot⟩ := Option.bind_eq_some_iff.mp hold
    obtain ⟨hi, rfl⟩ := List.getElem?_eq_some_iff.mp htoken
    have hdismissed :=
      h.dismiss (List.getElem_cons_eraseIdx_perm hi).symm hslot (hanswered _ htoken)
    change Orderly draws running r replies { ((m.unregisterSlot oldSlot).createSlot draws).2 with
      slotList := (m.unregisterSlot oldSlot).slotList.set playerNum
        (draws.token (m.unregisterSlot oldSlot).drawn) }
    rw [slotList_unregisterSlot]
    exact hdismissed.enrol (List.set_perm_cons_eraseIdx hi _)
  · exact h

theorem popSlot (h : m.Orderly draws running r replies)
    (hanswered : ∀ token ∈ m.slotList.getLast?, m.Answered r replies token) :
    m.popSlot.Orderly draws running r replies := by
  cases hlast : m.slotList.getLast? with
  | none => rwa [popSlot_of_none hlast]
  | some token =>
    have hlist := List.dropLast_append_getLast? token hlast
    have hperm : m.slotList.Perm (token :: m.slotList.dropLast) := by
      nth_rewrite 1 [← hlist]
      exact List.perm_append_singleton _ _
    obtain ⟨slot, hslot⟩ := h.exists_slot (hperm.symm.subset List.mem_cons_self)
    rw [popSlot_eq hlast hslot]
    exact h.dismiss hperm hslot (hanswered token hlast)

theorem answered_popSlot (h : m.Orderly draws running r replies)
    (hanswered : m.Answered r replies token) : m.popSlot.Answered r replies token := by
  cases hlast : m.slotList.getLast? with
  | none => rwa [popSlot_of_none hlast]
  | some last =>
    obtain ⟨slot, hslot⟩ := h.exists_slot (List.mem_of_getLast? hlast)
    rw [popSlot_eq hlast hslot]
    intro clientId hmem
    have hids : (m.unregisterSlot slot).clientId? = m.clientId? := by
      unfold unregisterSlot
      split <;> rfl
    change (m.unregisterSlot slot).clientId? token = _
    rw [hids]
    exact hanswered clientId (mem_due_of_unregisterSlot hmem)

theorem growLoop (h : m.Orderly draws running r replies) (slots : Nat) :
    ((SlotManager.growLoop draws slots).run m).Orderly draws running r replies ∧
      ((SlotManager.growLoop draws slots).run m = m ∧ slots ≤ m.slotList.length ∨
        ((SlotManager.growLoop draws slots).run m).slotList.length = slots) := by
  have hrun := (SlotManager.growLoop draws slots).run_rule
    (P := fun m m' => m.Orderly draws running r replies → m'.Orderly draws running r replies ∧
      (m' = m ∧ slots ≤ m.slotList.length ∨ m'.slotList.length = slots)) ?_ ?_ m
  · exact hrun h
  · intro s t hdone hs
    simp only [SlotManager.growLoop] at hdone
    split at hdone
    · cases hdone
    · cases hdone
      exact ⟨hs, .inl ⟨rfl, by omega⟩⟩
  · intro s t u hnext ih hs
    simp only [SlotManager.growLoop] at hnext
    split at hnext
    · cases hnext
      have hlength : (s.addSlot draws).slotList.length = s.slotList.length + 1 := by
        simp [SlotManager.addSlot, createSlot, registerSlot]
      obtain ⟨hu, ⟨rfl, hge⟩ | hlen⟩ := ih hs.addSlot
      · exact ⟨hu, .inr (by omega)⟩
      · exact ⟨hu, .inr hlen⟩
    · cases hnext

theorem shrinkLoop (h : m.Orderly draws running r replies) {slots : Nat}
    (hanswered : ∀ token ∈ m.slotList.drop slots, m.Answered r replies token) :
    ((SlotManager.shrinkLoop slots).run m).Orderly draws running r replies := by
  have hrun := (SlotManager.shrinkLoop slots).run_rule
    (P := fun m m' => m.Orderly draws running r replies →
      (∀ token ∈ m.slotList.drop slots, m.Answered r replies token) → m'.Orderly draws running r replies)
    ?_ ?_ m
  · exact hrun h hanswered
  · intro s t hdone hs _
    simp only [SlotManager.shrinkLoop] at hdone
    split at hdone
    · cases hdone
    · cases hdone
      exact hs
  · intro s t u hnext ih hs hans
    simp only [SlotManager.shrinkLoop] at hnext
    split at hnext
    · rename_i hlt
      cases hnext
      refine ih (hs.popSlot fun token hlast => hans token ?_) fun token htoken => ?_
      · apply List.mem_of_getLast?
        rw [List.getLast?_drop, if_neg (by omega)]
        exact hlast
      · rw [slotList_popSlot, List.dropLast_eq_take, List.drop_take] at htoken
        exact hs.answered_popSlot (hans token (List.mem_of_mem_take htoken))
    · cases hnext

theorem update (h : m.Orderly draws running r replies) {slots : Nat}
    (hanswered : ∀ token ∈ m.slotList.drop slots, m.Answered r replies token) :
    (m.update draws slots).Orderly draws running r replies := by
  obtain ⟨hgrown, ⟨heq, _⟩ | hlength⟩ := h.growLoop slots
  · refine hgrown.shrinkLoop ?_
    rw [heq]
    exact hanswered
  · refine hgrown.shrinkLoop ?_
    rw [List.drop_of_length_le hlength.le]
    exact fun token htoken => absurd htoken List.not_mem_nil

end Orderly

/-! ## A new match runner -/

/-- All slots of a list are registered with a new match runner. -/
def registering (m : SlotManager) (list : List Token) : SlotManager :=
  { m with matchRunner := some (list.foldl MatchRunner.addPlayer .new) }

theorem registering_append (m : SlotManager) (list : List Token) (slot : Slot) :
    m.registering (list ++ [slot.token]) = (m.registering list).registerSlot slot := by
  rw [registering, List.foldl_append]
  rfl

theorem setMatchRunner_eq
    (h : ∀ token ∈ m.slotList, ∃ slot, m.slot? token = some slot ∧ slot.token = token) :
    m.setMatchRunner = m.registering m.slotList := by
  have hstep : m.setMatchRunner = m.slotList.foldl
      (fun m token => (m.slot? token).elim m m.registerSlot) (m.registering []) := by
    rw [setMatchRunner]
    congr 1
    funext m token
    cases m.slot? token <;> rfl
  have hfold (list : List Token) (runner : MatchRunner)
      (hlist : ∀ token ∈ list, ∃ slot, m.slot? token = some slot ∧ slot.token = token) :
      list.foldl (fun m token => (m.slot? token).elim m m.registerSlot)
        { m with matchRunner := some runner } =
      { m with matchRunner := some (list.foldl MatchRunner.addPlayer runner) } := by
    induction list generalizing runner with
    | nil => rfl
    | cons token list ih =>
      obtain ⟨slot, hslot, rfl⟩ := hlist token List.mem_cons_self
      have hslot' : slot? { m with matchRunner := some runner } slot.token = some slot := hslot
      rw [List.foldl_cons, List.foldl_cons, hslot']
      exact ih _ fun t ht => hlist t (List.mem_cons_of_mem _ ht)
  exact hstep.trans (hfold m.slotList .new h)

/-- The clients of the slots are numbered from one on. -/
theorem seats_registering {list : List Token} (hnd : list.Nodup)
    (h : ∀ token ∈ list, (m.clientId? token).isSome) (hclients : m.clients = ∅) :
    ((m.registering list).view .new []).Seats (list.zipIdx 1) ∧
      ((m.registering list).view .new []).roll.counter = 1 + list.length ∧
      ∀ token id, (.removePlayer, .unregistered token id) ∉ (m.registering list).due .new [] := by
  induction list using List.reverseRecOn with
  | nil =>
    refine ⟨⟨?_, ?_, ?_, ?_, Nat.one_pos, List.nodup_nil⟩, rfl, fun token id => List.not_mem_nil⟩
    · exact fun seat hseat => absurd hseat List.not_mem_nil
    · intro token clientId
      change m.clients.lookup clientId = some token ↔ _
      simp [hclients]
    · intro clientId
      change clientId ∈ (∅ : Finset Nat) ↔ _
      simp
    · exact fun seat hseat => absurd hseat List.not_mem_nil
  | append_singleton list token ih =>
    obtain ⟨hnd, hnot⟩ : list.Nodup ∧ token ∉ list := by
      have hperm := (List.perm_append_singleton token list).nodup_iff.mp hnd
      exact (List.nodup_cons.mp hperm).symm
    obtain ⟨hseats, hcounter, hdue⟩ := ih hnd fun t ht => h t (List.mem_append_left _ ht)
    let slot : Slot := ⟨"", token, false, none, none⟩
    have hsome : (((m.registering list).view .new []).left slot.token).isSome := by
      obtain ⟨client, hclient⟩ := Option.isSome_iff_exists.mp
        (h token (List.mem_append_right _ (List.mem_singleton_self _)))
      change Option.isSome (List.foldl _ (m.clientId? token) _) = true
      rw [hclient]
      exact Answer.foldl_rename_isSome (hdue token)
    have hview := view_registerSlot (m := m.registering list) rfl hsome
    have hregister := m.registering_append list slot
    have hfst : (list.zipIdx 1).map Prod.fst = list := List.zipIdx_map_fst _ _
    rw [hregister, hview]
    refine ⟨(hseats.enrol (by rwa [hfst])).perm ?_, ?_, fun t id hmem => ?_⟩
    · rw [hcounter, List.zipIdx_append]
      exact (List.perm_append_singleton _ _).symm
    · rw [List.length_append, ← Nat.add_assoc, ← hcounter]
      rfl
    · rw [due_request (requests_registerSlot (m := m.registering list) rfl slot), List.mem_append,
        List.mem_singleton] at hmem
      rcases hmem with hmem | hmem
      · exact hdue t id hmem
      · cases hmem

theorem messages_registering (m : SlotManager) (list : List Token) :
    (m.registering list).requests.map (·.message) = list.map .addPlayer := by
  induction list using List.reverseRecOn with
  | nil => rfl
  | append_singleton list token ih =>
    have happend := m.registering_append list ⟨"", token, false, none, none⟩
    rw [happend, requests_registerSlot (m := m.registering list) rfl, List.map_append, ih,
      List.map_append]
    rfl

/-- A runner can be set while the client ids that are known are ids which the slots of the
list get anew. -/
theorem Orderly.setMatchRunner (h : m.Orderly draws running r replies)
    (hclients : ∀ clientId ∈ m.clients, 0 < clientId ∧ clientId ≤ m.slotList.length) :
    m.setMatchRunner.Orderly draws true .new [] := by
  have hslots (token : Token) (htoken : token ∈ m.slotList) :
      ∃ slot, m.slot? token = some slot ∧ slot.token = token := by
    obtain ⟨slot, hslot⟩ := h.exists_slot htoken
    exact ⟨slot, hslot, h.token_of_slot? hslot⟩
  have hids (token : Token) (htoken : token ∈ m.slotList) : (m.clientId? token).isSome := by
    obtain ⟨slot, hslot, _⟩ := hslots token htoken
    rw [clientId?, hslot]
    rfl
  obtain ⟨hseats, _, hdue⟩ := seats_registering (m := { m with clients := ∅ }) h.nodup hids rfl
  have hfst : (m.slotList.zipIdx 1).map Prod.fst = m.slotList := List.zipIdx_map_fst _ _
  have hview : (m.registering m.slotList).view .new [] =
      (({ m with clients := ∅ } : SlotManager).registering m.slotList).view .new [] := by
    refine View.ext rfl ?_ rfl
    funext id
    change List.foldl _ (m.clients.lookup id) _ = List.foldl _ ((∅ : HashMap Nat Token).lookup id) _
    cases hlookup : m.clients.lookup id with
    | none => rfl
    | some token =>
      -- the client ids that are known are all given out anew
      obtain ⟨hpos, hle⟩ := hclients id (Finmap.mem_of_lookup_eq_some hlookup)
      have hseat : (m.slotList[id - 1], id) ∈ m.slotList.zipIdx 1 := by
        rw [List.mk_mem_zipIdx_iff_le_and_getElem?_sub]
        exact ⟨hpos, List.getElem?_eq_getElem (by omega)⟩
      have hholder := (hseats.holder _ _).mpr hseat
      change List.foldl _ ((∅ : HashMap Nat Token).lookup id) _ = _ at hholder
      rw [Finmap.lookup_empty] at hholder ⊢
      rw [hholder]
      exact Answer.foldl_rebind_of_some hholder _
  rw [setMatchRunner_eq hslots]
  rw [← hview] at hseats
  constructor
  · rfl
  · exact h.nodup
  · exact h.tokens
  · intro token htoken
    obtain ⟨seat, hseat, rfl⟩ := List.mem_map.mp (hfst.symm ▸ htoken)
    exact (hseats.left seat hseat) ▸ rfl
  · exact h.drawn
  · exact fun token id hmem => absurd hmem (hdue token id)
  · intro request hrequest payload hmessage
    have hmem : request.message ∈ m.slotList.map Proto.LobbyMessage.addPlayer := by
      rw [← messages_registering m]
      exact List.mem_map_of_mem hrequest
    rw [hmessage] at hmem
    simp at hmem
  · exact fun _ => ⟨_, .of_eq hfst.symm, hseats⟩

/-! ## Answers -/

namespace Orderly

/-- An answer that leaves what is left in the end. -/
theorem resolve (h : m.Orderly draws running r replies) {replies' : List Answer} (a : Answer)
    (hdue : ∀ b ∈ m.due r replies', b ∈ m.due r replies)
    (hleft : ∀ token ∈ m.slotList,
      ((m.resolve a.1 a.2).view r replies').left token = (m.view r replies).left token)
    (hholder : ∀ clientId,
      ((m.resolve a.1 a.2).view r replies').holder clientId = (m.view r replies).holder clientId) :
    (m.resolve a.1 a.2).Orderly draws running r replies' := by
  have hdue' : (m.resolve a.1 a.2).due r replies' = m.due r replies' := by
    rw [due, due, requests_resolve]
  have hroll : ((m.resolve a.1 a.2).view r replies').roll = (m.view r replies).roll := by
    change (r.answerAll (m.resolve a.1 a.2).requests).2 = _
    rw [requests_resolve]
    rfl
  constructor
  · rw [matchRunner_resolve]
    exact h.runner
  · rw [slotList_resolve]
    exact h.nodup
  · exact m.tokens_resolve a h.tokens
  · intro token htoken
    rw [slotList_resolve] at htoken
    rw [hleft token htoken]
    exact h.listed token htoken
  · rw [slotList_resolve, drawn_resolve]
    exact h.drawn
  · rw [hdue', drawn_resolve]
    exact fun token clientId hmem => h.removed token clientId (hdue _ hmem)
  · rw [requests_resolve]
    exact h.plain
  · rw [matchRunner_resolve, slotList_resolve]
    intro hrunner
    obtain ⟨seats, hseats, hview⟩ := h.seated hrunner
    refine ⟨seats, hseats, ?_, ?_, ?_, ?_, ?_, hview.distinct⟩
    · intro seat hseat
      rw [hleft _ (hseats.symm.subset (List.mem_map_of_mem hseat))]
      exact hview.left seat hseat
    · intro token clientId
      rw [hholder]
      exact hview.holder token clientId
    · rw [hroll]
      exact hview.players
    · rw [hroll]
      exact hview.below
    · rw [hroll]
      exact hview.started

/-- The next answer arrives. -/
theorem deliver {a : Answer} (h : m.Orderly draws running r (a :: replies)) :
    (m.resolve a.1 a.2).Orderly draws running r replies := by
  have hdue : (m.resolve a.1 a.2).due r replies = m.due r replies := by
    rw [due, due, requests_resolve]
  refine h.resolve a (fun b hb => List.mem_cons_of_mem a hb) (fun token _ => ?_) fun clientId => ?_
  · change List.foldl _ _ ((m.resolve a.1 a.2).due r replies) = _
    rw [hdue, clientId?_resolve]
    rfl
  · change List.foldl _ _ ((m.resolve a.1 a.2).due r replies) = _
    rw [hdue, clients_resolve]
    rfl

end Orderly

/-- What a late answer writes is what is left in the end, or another answer writes over it. -/
def Harmless (r : Roll) (replies : List Answer) (m : SlotManager) : Answer → Prop
  | (.addPlayer clientId, .registered token) =>
    (token ∈ m.slotList → (m.view r replies).left token = some (some clientId) ∨
      ∃ id, (.addPlayer id, .registered token) ∈ m.due r replies) ∧
    ((m.view r replies).holder clientId = some token ∨
      ∃ a ∈ m.due r replies, Answer.About clientId a)
  | (.removePlayer, .unregistered token clientId) =>
    token ∉ m.slotList ∧
    ((m.view r replies).holder clientId = none ∨ ∃ a ∈ m.due r replies, Answer.About clientId a)
  | _ => True

namespace Orderly

/-- An answer to a match runner that was replaced. -/
theorem late {a : Answer} (h : m.Orderly draws running r replies) (ha : m.Harmless r replies a) :
    (m.resolve a.1 a.2).Orderly draws running r replies := by
  have hdue : (m.resolve a.1 a.2).due r replies = m.due r replies := by
    rw [due, due, requests_resolve]
  refine h.resolve a (fun _ hb => hb) (fun token htoken => ?_) fun clientId => ?_
  · obtain ⟨slot, hslot⟩ := h.exists_slot htoken
    have hsome : m.clientId? token = some slot.clientId := by rw [clientId?, hslot, Option.map_some]
    change List.foldl _ _ ((m.resolve a.1 a.2).due r replies) = List.foldl _ _ _
    rw [hdue, clientId?_resolve, hsome]
    obtain ⟨id, rfl⟩ | ⟨id, rfl⟩ | hkeep := Answer.rename_cases token a
    · rw [Answer.rename_registered, Option.map_some]
      rcases ha.1 htoken with hleft | ⟨id', hmem⟩
      · have hleft' := hleft
        change List.foldl _ (m.clientId? token) _ = _ at hleft'
        rw [Answer.foldl_rename_idem hleft', ← hsome]
        exact hleft.symm
      · exact Answer.foldl_rename_of_mem hmem _ _
    · exact absurd htoken ha.1
    · rw [hkeep]
  · change List.foldl _ _ ((m.resolve a.1 a.2).due r replies) = List.foldl _ _ _
    rw [hdue, clients_resolve]
    obtain ⟨slot, rfl⟩ | ⟨slot, rfl⟩ | hkeep := Answer.rebind_cases clientId a
    · rw [Answer.rebind_registered]
      rcases ha.2 with hholder | ⟨b, hb, habout⟩
      · rw [Answer.foldl_rebind_idem hholder]
        exact hholder.symm
      · exact Answer.foldl_rebind_of_mem hb habout _ _
    · rw [Answer.rebind_unregistered]
      rcases ha.2 with hholder | ⟨b, hb, habout⟩
      · rw [Answer.foldl_rebind_idem hholder]
        exact hholder.symm
      · exact Answer.foldl_rebind_of_mem hb habout _ _
    · rw [hkeep]

/-- The server handles the next request: what it answers was known. -/
theorem serve {lobby lobby' : Lobby F} {runner : MatchRunner} {request : Request}
    {requests : List Request} {response : Proto.LobbyResponse}
    (h : m.Orderly draws running lobby.roll replies) (hrunner : m.matchRunner = some runner)
    (hrequests : runner.requests = request :: requests)
    (hanswer : lobby.answer request.message = .ok (response, lobby')) :
    Orderly draws running lobby'.roll (replies ++ [(response, request.resolve)])
      { m with matchRunner := some { runner with requests } } := by
  have hroll := Lobby.roll_answer hanswer
  have hm : m.requests = request :: requests := by rw [SlotManager.requests, hrunner, ← hrequests]
  have hdue : due lobby'.roll (replies ++ [(response, request.resolve)])
      { m with matchRunner := some { runner with requests } } = m.due lobby.roll replies := by
    rw [due, due, hm, Roll.answerAll, hroll, List.append_assoc]
    rfl
  have hview : view lobby'.roll (replies ++ [(response, request.resolve)])
      { m with matchRunner := some { runner with requests } } = m.view lobby.roll replies := by
    refine View.ext ?_ ?_ ?_
    · funext token
      change List.foldl _ _ (due _ _ _) = _
      rw [hdue]
      rfl
    · funext clientId
      change List.foldl _ _ (due _ _ _) = _
      rw [hdue]
      rfl
    · change (lobby'.roll.answerAll requests).2 = (lobby.roll.answerAll m.requests).2
      rw [hm, Roll.answerAll, hroll]
  constructor
  · rw [← h.runner, hrunner]
    rfl
  · exact h.nodup
  · exact h.tokens
  · rw [hview]
    exact h.listed
  · exact h.drawn
  · rw [hdue]
    exact h.removed
  · exact fun q hq => h.plain q (hm ▸ List.mem_cons_of_mem request hq)
  · intro _
    rw [hview]
    exact h.seated (by rw [hrunner]; rfl)

end Orderly
end SlotManager
end Mozaic.Desktop
