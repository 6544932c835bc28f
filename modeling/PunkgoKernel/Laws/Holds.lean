import PunkgoKernel.Laws.Effects

/-!
# Hold requests

A hold request is written by one transaction only, so its row says what that
transaction knew: the action it keeps, and a positive energy reserved for it.
What an approval submits again is that action, with the sentinels set.
-/

namespace PunkgoKernel

open Json (Value)
open Relational (Table key)

/-! ## Rows -/

/-- The stored payload of a hold request names the action that triggered it and the
energy it reserved. An approval builds its action from these three fields, and reads
each of them with a default should it be missing. -/
structure HoldRequest.WellFormed (hold : HoldRequest) : Prop where
  target : hold.pendingPayload.get? "target" = some (.str hold.triggerTarget)
  actionType : ∃ t : ActionType, t.isStateChanging = true ∧ hold.triggerAction = t.asStr ∧
    hold.pendingPayload.get? "action_type" = some (.str t.asStr)
  cost : ∃ c : Int, 0 < c ∧ c < 2 ^ 58 ∧
    hold.pendingPayload.get? "reserved_cost" = some (.num (.int c))

/-- Two states of one hold request: all fields agree but those a decision writes
(status, decision, instruction and the time of the decision). -/
structure SameHold (h h' : HoldRequest) : Prop where
  holdId : h'.holdId = h.holdId
  envelopeId : h'.envelopeId = h.envelopeId
  agentId : h'.agentId = h.agentId
  triggerTarget : h'.triggerTarget = h.triggerTarget
  triggerAction : h'.triggerAction = h.triggerAction
  pendingPayload : h'.pendingPayload = h.pendingPayload
  triggeredAt : h'.triggeredAt = h.triggeredAt

/-- A row is a state of itself. -/
theorem SameHold.refl (h : HoldRequest) : SameHold h h := ⟨rfl, rfl, rfl, rfl, rfl, rfl, rfl⟩

/-- States of one hold request are states of each other along a whole run. -/
theorem SameHold.trans {a b c : HoldRequest} (h : SameHold a b) (h' : SameHold b c) :
    SameHold a c where
  holdId := h'.holdId.trans h.holdId
  envelopeId := h'.envelopeId.trans h.envelopeId
  agentId := h'.agentId.trans h.agentId
  triggerTarget := h'.triggerTarget.trans h.triggerTarget
  triggerAction := h'.triggerAction.trans h.triggerAction
  pendingPayload := h'.pendingPayload.trans h.pendingPayload
  triggeredAt := h'.triggeredAt.trans h.triggeredAt

/-- A decision leaves a hold request the same, so what it says of its action may be read
before the decision or after it. -/
theorem SameHold.resolved (h : HoldRequest) (decision : HoldDecision) (instruction : Option String)
    (now : Nat) : SameHold h (EnvelopeStore.resolved decision instruction now h) :=
  ⟨rfl, rfl, rfl, rfl, rfl, rfl, rfl⟩

/-- The reserved energy is read from the payload, which no decision touches. -/
theorem SameHold.reservedCost {h h' : HoldRequest} (hsame : SameHold h h') :
    h'.reservedCost = h.reservedCost := by
  unfold HoldRequest.reservedCost
  rw [hsame.pendingPayload]

/-- Well-formedness is about the payload and the trigger, and hence survives every
decision. -/
theorem SameHold.wellFormed {h h' : HoldRequest} (hsame : SameHold h h') (hw : h.WellFormed) :
    h'.WellFormed := by
  obtain ⟨htarget, htype, hcost⟩ := hw
  constructor
  · rw [hsame.pendingPayload, hsame.triggerTarget, htarget]
  · rw [hsame.pendingPayload, hsame.triggerAction]
    exact htype
  · rw [hsame.pendingPayload]
    exact hcost

/-- The energy a hold has reserved is positive and far below the range of a 64-bit
integer, so reading it back never falls to the default. -/
theorem HoldRequest.WellFormed.reservedCost {hold : HoldRequest} (h : hold.WellFormed) :
    0 < hold.reservedCost ∧ hold.reservedCost < 2 ^ 58 := by
  obtain ⟨c, hpos, hlt, hget⟩ := h.cost
  have hread : (Value.num (.int c)).asI64? = some c :=
    if_pos ⟨by unfold Json.i64Min; omega, by unfold Json.i64Max; omega⟩
  unfold HoldRequest.reservedCost
  rw [hget, Option.bind_some, hread]
  exact ⟨hpos, hlt⟩

/-! ## The action an approval submits -/

/-- Approving writes the reserved energy into the payload, where the second submit reads
it as a claim. The bound is what lets it be read back as a 64-bit integer. -/
theorem holdReservedCost_approvedPayload (payload : Value) {cost : Int} (h0 : 0 < cost)
    (h1 : cost < 2 ^ 58) (instruction : Option String) :
    holdReservedCost (approvedPayload payload cost instruction) = some cost := by
  have hread : (Value.num (.int cost)).asI64? = some cost :=
    if_pos ⟨by unfold Json.i64Min; omega, by unfold Json.i64Max; omega⟩
  unfold holdReservedCost approvedPayload
  cases instruction <;> simp [hread]

/-- Approving marks the payload, and the second submit passes the hold check by that
mark. -/
theorem holdApproved_approvedPayload (payload : Value) (cost : Int)
    (instruction : Option String) : holdApproved (approvedPayload payload cost instruction) = true := by
  unfold holdApproved approvedPayload
  cases instruction <;> simp [Value.asBool?]

/-- The type of a held action is written out as text and read back. An observation would
be read back as a mutate, but is never held. -/
theorem pendingActionType_asStr {t : ActionType} (h : t.isStateChanging = true) :
    pendingActionType t.asStr = t := by
  cases t with
  | observe => cases h
  | create => rfl
  | mutate => rfl
  | execute => rfl

/-- The pending action is the one the hold request names: its target, and its type as
the text that the row has, which is that of a change. -/
theorem HoldRequest.WellFormed.pendingAction {hold : HoldRequest} (h : hold.WellFormed)
    (instruction : Option String) :
    (pendingAction hold instruction).target = hold.triggerTarget ∧
      (pendingAction hold instruction).actionType.asStr = hold.triggerAction ∧
      (pendingAction hold instruction).actionType.isStateChanging = true := by
  obtain ⟨t, hchanging, hname, htype⟩ := h.actionType
  have hkind : (PunkgoKernel.pendingAction hold instruction).actionType = t := by
    show pendingActionType (((hold.pendingPayload.get? "action_type").bind Value.asStr?).getD _) = t
    rw [htype]
    exact pendingActionType_asStr hchanging
  refine ⟨?_, ?_, ?_⟩
  · show ((hold.pendingPayload.get? "target").bind Value.asStr?).getD _ = _
    rw [h.target]
    rfl
  · rw [hkind, hname]
  · rw [hkind, hchanging]

/-! ## The row of a trigger -/

variable [Externals]

/-- The one transaction that writes hold requests writes well-formed ones. Its payload
goes through text and back, which loses nothing of the three fields. -/
theorem wellFormed_holdTriggerTx (env : Env) {action : Action} (envelope : EnvelopeRecord)
    (hchanging : action.actionType.isStateChanging = true) (now : Nat) :
    ((holdTriggerTx env action envelope).request.row now).WellFormed := by
  have hpos : (0 : Int) < quoteCost action := by exact_mod_cast quoteCost_pos action
  have hlt : (quoteCost action : Int) < 2 ^ 58 := by exact_mod_cast quoteCost_lt action
  constructor
  · simp [holdTriggerTx, NewHoldRequest.row, Json.get?_object, reread]
  · exact ⟨action.actionType, hchanging, rfl,
      by simp [holdTriggerTx, NewHoldRequest.row, Json.get?_object, reread]⟩
  · exact ⟨quoteCost action, hpos, hlt,
      by simp [holdTriggerTx, NewHoldRequest.row, Json.get?_object, reread]⟩

/-- A hold request keeps the cost it was quoted, and so what a later decision settles is
what the trigger reserved. -/
theorem reservedCost_holdTriggerTx (env : Env) (action : Action) (envelope : EnvelopeRecord)
    (now : Nat) :
    ((holdTriggerTx env action envelope).request.row now).reservedCost = quoteCost action := by
  have hlt : (quoteCost action : Int) < 2 ^ 58 := by exact_mod_cast quoteCost_lt action
  have hread : (Value.num (.int (quoteCost action))).asI64? = some (quoteCost action : Int) :=
    if_pos ⟨by unfold Json.i64Min; omega, by unfold Json.i64Max; omega⟩
  simp [HoldRequest.reservedCost, holdTriggerTx, NewHoldRequest.row, Json.get?_object, reread,
    hread]

end PunkgoKernel
