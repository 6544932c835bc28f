import PunkgoKernel.Laws.Holds

/-!
# The protocol of a request

A request reads, decides, and writes in separate steps, with other requests in
between. What can be said of it under any interleaving is which operation may
follow which past: a commit settles what the request itself reserved, or what
the hold it approved had reserved, or else what its payload claims
(`Settlement`). This module states that protocol (`allowed`) and what it means
for a program to keep to it (`Follows`).

The laws about reservations, budgets and holds all start from here.
-/

namespace PunkgoKernel

open Json (Value)
open Relational (Table key)
open Resumption

/-- What a request has performed so far, with the answers it got, the newest first. -/
abbrev Past := List (Performed KernelSig)

/-- The request performed the operation, and this was the answer. Others may have acted
since, so it is no fact about the database as it is. -/
def Saw (past : Past) (op : Op) (v : Val op) : Prop :=
  (⟨op, .ok v⟩ : Performed KernelSig) ∈ past

/-! ## What a past leaves open -/

/-- The reservation a request has still to settle: its own, or that of the hold
it approved. -/
def held : Past → Option EnergyReservation
  | [] => none
  | ⟨.reserve actorId cost, .ok _⟩ :: _ => some ⟨actorId, cost⟩
  | ⟨.resolveHold tx, .ok _⟩ :: rest =>
    if tx.decision = .approve then some ⟨tx.agentId, tx.reservedCost⟩ else held rest
  | ⟨.finalize _, .ok _⟩ :: _ => none
  | _ :: rest => held rest

/-- The last hold a request approved, which it goes on with. One that it approved before
is forgotten. -/
def approval : Past → Option HoldResolveTx
  | [] => none
  | ⟨.resolveHold tx, .ok _⟩ :: rest => if tx.decision = .approve then some tx else approval rest
  | _ :: rest => approval rest

/-- The commit a request has made and not charged to any envelope, if there is one. -/
def uncharged : Past → Option FinalizeTx
  | [] => none
  | ⟨.finalize tx, .ok _⟩ :: _ => some tx
  | ⟨.consumeBudget _, .ok (.ok _)⟩ :: _ => none
  | _ :: rest => uncharged rest

/-- Whether a request has committed its action, which it does at most once. -/
def committed : Past → Bool
  | [] => false
  | ⟨.finalize _, .ok _⟩ :: _ => true
  | _ :: rest => committed rest

/-- The lifecycle operation an event reports, read from its type, its target and its
payload. -/
def EventRecord.lifecycle (event : EventRecord) : Option (String × LifecycleOp) :=
  if event.actionType = "mutate" then parseLifecycleOp event.target event.payload else none

/-- The lifecycle operation a request has committed and not carried out: between the two
others may act, and the kernel may be killed. -/
def uncarried : Past → Option (String × LifecycleOp)
  | [] => none
  | ⟨.finalize tx, .ok _⟩ :: _ => tx.event.lifecycle
  | ⟨.executeFreeze _, .ok _⟩ :: _ => none
  | ⟨.executeUnfreeze _, .ok _⟩ :: _ => none
  | ⟨.executeUpdateEnergyShare .., .ok _⟩ :: _ => none
  | _ :: rest => uncarried rest

/-- The operations that only read, and so leave the database as it was. -/
def Op.isRead : Op → Bool
  | .actorExists _ | .getActor _ | .isActive _ | .nextSequence .. | .getActiveForActor _
  | .getEnvelope _ | .getHoldRequest _ | .listPendingHoldsForEnvelope _ | .listActiveWithShares
  | .countEvents | .treeSize | .latestCheckpoint | .inclusionProof .. => true
  | _ => false

/-- The operations that only read, apart from the listing that a settlement goes by. -/
def Op.looksUp : Op → Bool
  | .listPendingHoldsForEnvelope _ => false
  | op => op.isRead

/-- A lookup is a read. -/
theorem Op.isRead_of_looksUp {op : Op} (h : op.looksUp = true) : op.isRead = true := by
  cases op <;> first | exact h | cases h

/-- The operations that leave open what was open: all but those that reserve,
approve, commit or charge. -/
def Op.isQuiet : Op → Bool
  | .reserve .. | .resolveHold _ | .finalize _ | .consumeBudget _ => false
  | _ => true

/-- The operations that leave the envelopes and actors as they are, so that an
authorisation that was checked before them is still the one to go by. -/
def Op.keepsGrants : Op → Bool
  | .setEnvelopeStatus .. | .finalize _ | .consumeBudget _ | .executeFreeze _
  | .executeUnfreeze _ | .executeUpdateEnergyShare .. => false
  | _ => true

/-- The operations that leave open what lifecycle operation is to be carried out: all
but the commit and those that carry one out. -/
def Op.keepsUncarried : Op → Bool
  | .finalize _ | .executeFreeze _ | .executeUnfreeze _ | .executeUpdateEnergyShare .. => false
  | _ => true

/-- A read leaves open what was open. -/
theorem Op.isQuiet_of_isRead {op : Op} (h : op.isRead = true) : op.isQuiet = true := by
  cases op <;> first | rfl | cases h

/-- A read leaves every grant as it was. -/
theorem Op.keepsGrants_of_isRead {op : Op} (h : op.isRead = true) : op.keepsGrants = true := by
  cases op <;> first | rfl | cases h

/-- A quiet operation leaves what the request has reserved. -/
theorem held_quiet {d : Performed KernelSig} {past : Past} (h : d.op.isQuiet = true) :
    held (d :: past) = held past := by
  obtain ⟨op, x⟩ := d
  cases op <;> first | rfl | cases h

/-- An operation that fails reserves nothing and settles nothing. -/
theorem held_error {op : Op} {e : KernelError} {past : Past} :
    held (⟨op, .error e⟩ :: past) = held past := by
  cases op <;> rfl

/-- An operation that fails approves nothing. -/
theorem approval_error {op : Op} {e : KernelError} {past : Past} :
    approval (⟨op, .error e⟩ :: past) = approval past := by
  cases op <;> rfl

/-- A quiet operation leaves the approval the request goes on with. -/
theorem approval_quiet {d : Performed KernelSig} {past : Past} (h : d.op.isQuiet = true) :
    approval (d :: past) = approval past := by
  obtain ⟨op, x⟩ := d
  cases op <;> first | rfl | cases h

/-- A quiet operation charges nothing and commits nothing. -/
theorem uncharged_quiet {d : Performed KernelSig} {past : Past} (h : d.op.isQuiet = true) :
    uncharged (d :: past) = uncharged past := by
  obtain ⟨op, x⟩ := d
  cases op <;> first | rfl | cases h

/-- A quiet operation commits nothing. -/
theorem committed_quiet {d : Performed KernelSig} {past : Past} (h : d.op.isQuiet = true) :
    committed (d :: past) = committed past := by
  obtain ⟨op, x⟩ := d
  cases op <;> first | rfl | cases h

/-- A request that has not committed has nothing to charge, so each charge is of a
commit of the same request. -/
theorem uncharged_of_uncommitted {past : Past} (h : committed past = false) :
    uncharged past = none := by
  induction past with
  | nil => rfl
  | cons d rest ih =>
    unfold committed at h
    unfold uncharged
    split at h
    · next heq => cases heq
    · cases h
    · next hnot heq =>
      cases heq
      split
      · next heq => cases heq
      · next heq =>
        cases heq
        exact absurd rfl (hnot _ _)
      · rfl
      · next heq =>
        cases heq
        exact ih h

/-- What was to be carried out is still to be. -/
theorem uncarried_keeps {d : Performed KernelSig} {past : Past} (h : d.op.keepsUncarried = true) :
    uncarried (d :: past) = uncarried past := by
  obtain ⟨op, x⟩ := d
  cases op <;> first | rfl | cases h

/-- A lifecycle operation that fails is still to be carried out, as far as the past
tells. -/
theorem uncarried_error {op : Op} {e : KernelError} {past : Past} :
    uncarried (⟨op, .error e⟩ :: past) = uncarried past := by
  cases op <;> rfl

/-- Operations of a kind performed on top of a past. Each part of the pipeline promises
of which kind its own are, and what was seen or open before it survives by that. -/
def Since (kind : Op → Bool) (past past' : Past) : Prop :=
  ∃ recent, past' = recent ++ past ∧ ∀ d ∈ recent, kind d.op = true

/-- Nothing performed is of every kind. -/
theorem Since.refl (kind : Op → Bool) (past : Past) : Since kind past past := ⟨[], rfl, by simp⟩

/-- One operation more, of the kind. -/
theorem Since.cons {kind : Op → Bool} {past past' : Past} (h : Since kind past past')
    {d : Performed KernelSig} (hd : kind d.op = true) : Since kind past (d :: past') := by
  obtain ⟨recent, rfl, hrecent⟩ := h
  refine ⟨d :: recent, rfl, ?_⟩
  intro d' hd'
  rcases List.mem_cons.mp hd' with rfl | hd'
  · exact hd
  · exact hrecent d' hd'

/-- The operations of two parts, one after the other. -/
theorem Since.trans {kind : Op → Bool} {a b c : Past} (h : Since kind a b) (h' : Since kind b c) :
    Since kind a c := by
  obtain ⟨recent, rfl, hrecent⟩ := h
  obtain ⟨recent', rfl, hrecent'⟩ := h'
  refine ⟨recent' ++ recent, (List.append_assoc _ _ _).symm, ?_⟩
  intro d hd
  rcases List.mem_append.mp hd with hd | hd
  · exact hrecent' d hd
  · exact hrecent d hd

/-- A wider kind covers them as well. -/
theorem Since.mono {kind kind' : Op → Bool} (hkind : ∀ op, kind op = true → kind' op = true)
    {past past' : Past} (h : Since kind past past') : Since kind' past past' := by
  obtain ⟨recent, rfl, hrecent⟩ := h
  exact ⟨recent, rfl, fun d hd => hkind d.op (hrecent d hd)⟩

/-- What was seen before is still in the past, of whatever kind the operations since
are. -/
theorem Since.saw {kind : Op → Bool} {past past' : Past} (h : Since kind past past') {op : Op}
    {v : Val op} (hsaw : Saw past op v) : Saw past' op v := by
  obtain ⟨recent, rfl, -⟩ := h
  exact List.mem_append_right _ hsaw

/-- What each operation of the kind leaves as it is, all of them do. This is applied to
what a past says is open. -/
theorem Since.keeps {α : Type} {f : Past → α} {kind : Op → Bool}
    (hkeeps : ∀ {d : Performed KernelSig} {past : Past}, kind d.op = true → f (d :: past) = f past)
    {past past' : Past} (h : Since kind past past') : f past' = f past := by
  obtain ⟨recent, rfl, hrecent⟩ := h
  induction recent with
  | nil => rfl
  | cons d rest ih =>
    rw [List.cons_append, hkeeps (hrecent d List.mem_cons_self)]
    exact ih (fun d' hd' => hrecent d' (List.mem_cons_of_mem _ hd'))

/-- The answer was true when the request read it, and the request has done
nothing since that could change an actor or an envelope. -/
def Fresh (past : Past) (op : Op) (v : Val op) : Prop :=
  ∃ older, Since Op.keepsGrants (⟨op, .ok v⟩ :: older) past

/-- An answer stays fresh under operations that keep the grants. -/
theorem Fresh.since {past past' : Past} {op : Op} {v : Val op} (h : Fresh past op v)
    (hs : Since Op.keepsGrants past past') : Fresh past' op v := by
  obtain ⟨older, holder⟩ := h
  exact ⟨older, holder.trans hs⟩

/-- A fresh answer was seen. -/
theorem Fresh.saw {past : Past} {op : Op} {v : Val op} (h : Fresh past op v) : Saw past op v := by
  obtain ⟨older, holder⟩ := h
  exact holder.saw List.mem_cons_self

/-- The newest answer is fresh. -/
theorem fresh_cons {past : Past} {op : Op} {v : Val op} : Fresh (⟨op, .ok v⟩ :: past) op v :=
  ⟨past, .refl _ _⟩

/-! ## The protocol -/

variable [Externals]

/-- What the authorisation of an action found: an agent's change is covered by
the envelope it was made under, and matches no hold rule of it unless the
payload says it was approved. -/
inductive Authorised (past : Past) (action : Action) : Option EnvelopeRecord → Prop where
  | unknown (newer older : Past) : Fresh past (.getActor action.actorId) none →
      past = newer ++ ⟨.getActor action.actorId, .ok none⟩ :: older →
      Saw older (.actorExists action.actorId) true → Authorised past action none
  | free (actor : ActorRecord) : Saw past (.getActor action.actorId) (some actor) →
      (actor.actorType = .human ∨ action.actionType = .observe) →
      checkFrozen actor action = .ok () → Authorised past action none
  | covered (actor : ActorRecord) (envelope : EnvelopeRecord) :
      Saw past (.getActor action.actorId) (some actor) → actor.actorType = .agent →
      Fresh past (.getActiveForActor action.actorId) (some envelope) →
      checkEnvelopeCovers envelope action.target action.actionType.asStr = .ok () →
      (holdApproved action.payload = true ∨
        checkHoldTrigger envelope.holdOn action.target action.actionType.asStr = false) →
      checkFrozen actor action = .ok () → Authorised past action (some envelope)

/-- An authorisation survives what keeps the grants, in each of its three forms. -/
theorem Authorised.since {past past' : Past} {action : Action} {auth : Option EnvelopeRecord}
    (h : Authorised past action auth) (hs : Since Op.keepsGrants past past') :
    Authorised past' action auth := by
  cases h with
  | unknown newer older hfresh hpast hexists =>
    have hfresh' := hfresh.since hs
    obtain ⟨recent, rfl, -⟩ := hs
    refine .unknown (recent ++ newer) older hfresh' ?_ hexists
    rw [hpast, List.append_assoc]
  | free actor hsaw hfree hactive => exact .free actor (hs.saw hsaw) hfree hactive
  | covered actor envelope hsaw htype hfresh hcovers hhold hactive =>
    exact .covered actor envelope (hs.saw hsaw) htype (hfresh.since hs) hcovers hhold hactive

/-- The request approved a hold and goes on with its pending action. The fields tie the
action to the hold: its agent, its target and type, and the energy that was reserved for
it. -/
structure Resumed (past : Past) (action : Action) (tx : HoldResolveTx) : Prop where
  approval : approval past = some tx
  agent : tx.agentId = action.actorId
  held : held past = some ⟨action.actorId, tx.reservedCost⟩
  uncommitted : committed past = false
  positive : 0 < tx.reservedCost
  sentinel : holdReservedCost action.payload = some tx.reservedCost
  approved : holdApproved action.payload = true
  hold : ∃ hold, Saw past (.getHoldRequest tx.holdId) (some hold) ∧
    hold.agentId = action.actorId ∧ hold.triggerTarget = action.target ∧
    hold.triggerAction = action.actionType.asStr
  resolver : ∃ caller, Saw past (.getActor tx.event.actorId) (some caller) ∧
    caller.actorType = .human
  answered : ∃ x, Saw past (.resolveHold tx) x
  response : ∃ env humanAction holdId instruction hold,
    tx = holdResolveTx env humanAction holdId .approve instruction hold

/-- It stays so under quiet operations, which approve and commit nothing. -/
theorem Resumed.since {past past' : Past} {action : Action} {tx : HoldResolveTx}
    (h : Resumed past action tx) (hs : Since Op.isQuiet past past') : Resumed past' action tx where
  approval := (hs.keeps approval_quiet).trans h.approval
  agent := h.agent
  held := (hs.keeps held_quiet).trans h.held
  uncommitted := (hs.keeps committed_quiet).trans h.uncommitted
  positive := h.positive
  sentinel := h.sentinel
  approved := h.approved
  hold := by
    obtain ⟨hold, hsaw, hrest⟩ := h.hold
    exact ⟨hold, hs.saw hsaw, hrest⟩
  resolver := by
    obtain ⟨caller, hsaw, htype⟩ := h.resolver
    exact ⟨caller, hs.saw hsaw, htype⟩
  answered := by
    obtain ⟨x, hsaw⟩ := h.answered
    exact ⟨x, hs.saw hsaw⟩
  response := h.response

/-- How a submit starts: as a request of its own, or after an approval. -/
inductive Entry (past : Past) (action : Action) : Prop where
  | fresh : approval past = none → held past = none → committed past = false → Entry past action
  | resumed (tx : HoldResolveTx) : Resumed past action tx → Entry past action

/-- However a submit starts, it has not committed anything. -/
theorem Entry.uncommitted {past : Past} {action : Action} (h : Entry past action) :
    committed past = false := by
  cases h with
  | fresh _ _ huncommitted => exact huncommitted
  | resumed tx h => exact h.uncommitted

/-- How a submit started is still to be seen after quiet operations. -/
theorem Entry.since {past past' : Past} {action : Action} (h : Entry past action)
    (hs : Since Op.isQuiet past past') : Entry past' action := by
  cases h with
  | fresh happroval hheld huncommitted =>
    exact .fresh ((hs.keeps approval_quiet).trans happroval) ((hs.keeps held_quiet).trans hheld)
      ((hs.keeps committed_quiet).trans huncommitted)
  | resumed tx h => exact .resumed tx (h.since hs)

/-- The cost of a commit and the reservation it settles: quoted and reserved by
the request, claimed by the payload, or reserved by the hold it approved. -/
inductive Settlement (past : Past) (action : Action) : Int → Option EnergyReservation → Prop where
  | quoted : holdReservedCost action.payload = none → approval past = none →
      held past = some ⟨action.actorId, quoteCost action⟩ →
      Settlement past action (quoteCost action) (some ⟨action.actorId, quoteCost action⟩)
  | claimed (cost : Int) : holdReservedCost action.payload = some cost → approval past = none →
      held past = none →
      Settlement past action cost (if 0 < cost then some ⟨action.actorId, cost⟩ else none)
  | approved (tx : HoldResolveTx) : Resumed past action tx →
      Settlement past action tx.reservedCost (some ⟨action.actorId, tx.reservedCost⟩)

/-- What an action asks to be created was made from its actor's own row, read
after the actor was seen to exist. -/
def Proposed (past : Past) (action : Action) (spec : CreateActorSpec) : Prop :=
  ∃ newer older actorId purpose actorType creator,
    past = newer ++ ⟨.getActor action.actorId, .ok creator⟩ :: older ∧
    Saw older (.actorExists action.actorId) true ∧
    actorSpecFrom action actorId purpose actorType creator = .ok spec

/-- What was proposed from rows that were read stays so, of whatever kind the operations
since are. -/
theorem Proposed.since {past past' : Past} {action : Action} {spec : CreateActorSpec}
    {kind : Op → Bool} (h : Proposed past action spec) (hs : Since kind past past') :
    Proposed past' action spec := by
  obtain ⟨newer, older, actorId, purpose, actorType, creator, rfl, hrest⟩ := h
  obtain ⟨recent, rfl, -⟩ := hs
  exact ⟨recent ++ newer, older, actorId, purpose, actorType, creator,
    (List.append_assoc _ _ _).symm, hrest⟩

/-- A lifecycle operation is authorised by what was read of its initiator and
its target. -/
def Managed (past : Past) (action : Action) (targetId : String) (op : LifecycleOp) : Prop :=
  ∃ initiator target, Saw past (.getActor action.actorId) (some initiator) ∧
    Saw past (.getActor targetId) (some target) ∧
    validateLifecycleAuthorization initiator target op = .ok ()

omit [Externals] in
/-- A lifecycle operation that was authorised by rows that were read stays so. -/
theorem Managed.since {past past' : Past} {action : Action} {targetId : String} {op : LifecycleOp}
    {kind : Op → Bool} (h : Managed past action targetId op) (hs : Since kind past past') :
    Managed past' action targetId op := by
  obtain ⟨initiator, target, hinitiator, htarget, hvalid⟩ := h
  exact ⟨initiator, target, hs.saw hinitiator, hs.saw htarget, hvalid⟩

/-- A commit the protocol allows. It demands of the past everything that the code checks
before it, so an invariant about commits only has to look here. -/
inductive FinalizeAllowed (past : Past) (tx : FinalizeTx) : Prop where
  | intro (env : Env) (action : Action) (artifactHash : Option String) :
      tx.event = draftEvent env action tx.settledCost artifactHash →
      Settlement past action tx.settledCost tx.reservation →
      Saw past (.actorExists action.actorId) true →
      Authorised past action tx.authorisedBy →
      (∀ envelopeId spec parent, tx.createEnvelope = some (envelopeId, spec, parent) →
        0 < spec.budget) →
      uncharged past = none →
      committed past = false →
      (∀ spec, tx.createActor = some spec → Proposed past action spec) →
      (∀ targetId op, lifecycleOp? action = some (targetId, op) → Managed past action targetId op) →
      FinalizeAllowed past tx

/-- A hold trigger the protocol allows: of an agent's change that matches a
rule of its envelope. -/
inductive TriggerAllowed (past : Past) : HoldTriggerTx → Prop where
  | intro (env : Env) (action : Action) (envelope : EnvelopeRecord) (actor : ActorRecord) :
      action.actionType.isStateChanging = true →
      Saw past (.getActor action.actorId) (some actor) → actor.actorType = .agent →
      Saw past (.getActiveForActor action.actorId) (some envelope) →
      checkHoldTrigger envelope.holdOn action.target action.actionType.asStr = true →
      TriggerAllowed past (holdTriggerTx env action envelope)

/-- A response the protocol allows: by a human who has committed nothing, to a hold
that was pending when it was read. After an approval there is no other, since an
agent is no human. -/
inductive ResolveAllowed (past : Past) : HoldResolveTx → Prop where
  | intro (env : Env) (humanAction : Action) (holdId : String) (decision : HoldDecision)
      (instruction : Option String) (hold : HoldRequest) (caller : ActorRecord) :
      Saw past (.getActor humanAction.actorId) (some caller) → caller.actorType = .human →
      Saw past (.getHoldRequest holdId) (some hold) → hold.WellFormed → hold.status = .pending →
      decision ≠ .timedOut →
      ((approval past = none ∧ held past = none) ∨
        ∃ holdId' hold', Saw past (.getHoldRequest holdId') (some hold') ∧
          hold'.agentId = humanAction.actorId) →
      committed past = false →
      ResolveAllowed past (holdResolveTx env humanAction holdId decision instruction hold)

/-- A timeout the protocol allows: of a hold that was listed as pending, with the
amounts that its row has. -/
inductive ExpireAllowed (past : Past) : HoldExpireTx → Prop where
  | intro (env : Env) (round : Nat) (hold : HoldRequest) (envelopeId : String)
      (holds : List HoldRequest) :
      Saw past (.listPendingHoldsForEnvelope envelopeId) holds → hold ∈ holds → hold.WellFormed →
      ExpireAllowed past (expireTx env round hold)

/-- A charge the protocol allows: of the last commit, to the envelope its actor
was just seen to have. -/
inductive ChargeAllowed (past : Past) (tx : ConsumeTx) : Prop where
  | intro (ftx : FinalizeTx) (actor : ActorRecord) (envelope : EnvelopeRecord) (older : Past) :
      past = ⟨.getActiveForActor ftx.event.actorId, .ok (some envelope)⟩ ::
        ⟨.getActor ftx.event.actorId, .ok (some actor)⟩ :: older →
      actor.actorType = .agent →
      uncharged past = some ftx →
      tx = ⟨envelope.envelopeId, ftx.settledCost, checkCheckpoint envelope ftx.settledCost⟩ →
      0 < ftx.settledCost →
      ftx.event.actionType ≠ ActionType.observe.asStr →
      ChargeAllowed past tx

/-- A lifecycle operation the protocol allows: the one just committed, and not carried
out yet. -/
def CarryAllowed (past : Past) (op : Op) : Prop :=
  ∃ targetId lifecycleOp, uncarried past = some (targetId, lifecycleOp) ∧
    op = lifecycleCall targetId lifecycleOp

/-- Which operation may follow which past. Reads always may; for every write the guard
is what the code has checked by then. -/
def allowed (past : Past) : Op → Prop
  | .reserve _ cost => 0 < cost ∧ approval past = none ∧ held past = none
  | .triggerHold tx => TriggerAllowed past tx
  | .resolveHold tx => ResolveAllowed past tx
  | .expireHold tx => ExpireAllowed past tx
  | .finalize tx => FinalizeAllowed past tx
  | .consumeBudget tx => ChargeAllowed past tx
  | .executeFreeze targetId => CarryAllowed past (.executeFreeze targetId)
  | .executeUnfreeze targetId => CarryAllowed past (.executeUnfreeze targetId)
  | .executeUpdateEnergyShare targetId energyShare =>
    CarryAllowed past (.executeUpdateEnergyShare targetId energyShare)
  | .creditAll _ => ∃ actors : List (String × ℚ), past = [⟨.listActiveWithShares, .ok actors⟩]
  | .makeCheckpoint treeSize _ => 0 < treeSize ∧ Saw past .countEvents treeSize
  | _ => True

omit [Externals] in
/-- The holds of a list are well formed, as a listing from a sound store is. -/
def AllWellFormed (holds : List HoldRequest) : Prop := ∀ hold ∈ holds, hold.WellFormed

omit [Externals] in
/-- What the answers of the database always satisfy, in a store whose holds are
sound. -/
def answers : (op : Op) → KernelResult (Val op) → Prop
  | .getHoldRequest holdId, .ok (some hold) => hold.holdId = holdId ∧ hold.WellFormed
  | .listPendingHoldsForEnvelope _, .ok holds => AllWellFormed holds
  | .reserve actorId cost, .ok res => res = ⟨actorId, cost⟩
  | _, _ => True

/-- What a request may answer: an approval goes on with its own action, and every other
answer ends the request. -/
def Answer (past : Past) : Outcome → Prop
  | .resubmit _ action => ∃ tx, Resumed past action tx
  | _ => True

omit [Externals] in
/-- A condition on values; an error ends the request and promises nothing. -/
def OnOk {α : Type} (E : Past → α → Prop) (past : Past) : KernelResult α → Prop
  | .ok a => E past a
  | .error _ => True

/-- A program keeps to the protocol from a past on, and a value it ends with is
as `E` says. -/
def Follows {α : Type} (p : KernelProg α) (E : Past → α → Prop) (past : Past) : Prop :=
  Attempt.Honors allowed answers (OnOk E) p past

/-! ## Steps -/

section Steps

variable {α β : Type} {E : Past → α → Prop} {past : Past}

/-- An error promises nothing, so any program may end in one. -/
theorem follows_throw {e : KernelError} : Follows (throw e : KernelProg α) E past := trivial

/-- What is promised of the value may be weakened. -/
theorem Follows.mono {p : KernelProg α} {E' : Past → α → Prop} (h : Follows p E past)
    (hE : ∀ past' a, E past' a → E' past' a) : Follows p E' past := by
  refine Prog.Honors.mono h ?_
  rintro past' (e | a) hx
  · trivial
  · exact hE past' a hx

/-- A part of a program, by what it promises of its value. The proof of a long program
is a chain of these, one for each line of the code. -/
theorem Follows.bind {p : KernelProg β} {f : β → KernelProg α} {Q : Past → β → Prop}
    (hp : Follows p Q past) (hf : ∀ past' b, Q past' b → Follows (f b) E past') :
    Follows (p >>= f) E past := by
  refine Attempt.Honors.bind (Prog.Honors.mono hp ?_)
  rintro past' (e | b) hQ
  · trivial
  · exact hf past' b hQ

/-- A single operation that the past allows. -/
theorem follows_call {op : Op} {E : Past → Val op → Prop} (hop : allowed past op)
    (h : ∀ v, answers op (.ok v) → E (⟨op, .ok v⟩ :: past) v) : Follows (call op) E past := by
  refine ⟨hop, ?_⟩
  rintro (e | v) hx
  · trivial
  · exact h v hx

/-- An operation and what follows it. If it fails the program ends, so only its values
need be looked at. -/
theorem follows_call_bind {op : Op} {f : Val op → KernelProg α} (hop : allowed past op)
    (h : ∀ v, answers op (.ok v) → Follows (f v) E (⟨op, .ok v⟩ :: past)) :
    Follows (call op >>= f) E past := by
  refine ⟨hop, ?_⟩
  rintro (e | v) hx
  · trivial
  · exact h v hx

/-- A call whose failure is only logged, and so what follows it has to cope with every
answer. -/
theorem follows_outcome_bind {op : Op} {f : KernelResult (Val op) → KernelProg α}
    (hop : allowed past op)
    (h : ∀ x, answers op x → Follows (f x) E (⟨op, x⟩ :: past)) :
    Follows (Attempt.outcome (call op) >>= f) E past :=
  ⟨hop, h⟩

/-- A check that asks the database nothing, by what its success says. -/
theorem follows_check {x : KernelResult α} (h : ∀ a, x = .ok a → E past a) :
    Follows (check x) E past := by
  cases x with
  | error e => trivial
  | ok a => exact h a rfl

/-- A check and what follows it, which may use that the check succeeded. -/
theorem follows_check_bind {x : KernelResult β} {f : β → KernelProg α}
    (h : ∀ b, x = .ok b → Follows (f b) E past) : Follows (check x >>= f) E past := by
  cases x with
  | error e => trivial
  | ok b => exact h b rfl

end Steps

end PunkgoKernel
