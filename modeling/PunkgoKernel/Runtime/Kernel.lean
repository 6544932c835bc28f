import PunkgoKernel.Runtime.Parsing
import PunkgoKernel.Runtime.Transactions

/-!
# The submit pipeline (`kernel.rs`)

`submitAction` is the program of a submit request over the operations of the
database, in the order of the source: validate and authorise, put on hold or
answer a hold, parse what is to be created, quote and reserve, validate an
execute payload, commit, and settle the consequences.

What the program takes from outside, the readings of the clock and the fresh
identifiers, it is given in advance, one for each place that asks (`Env`).
Nothing is assumed of them.

The approval of a hold ends with a call of `submit_action` on the pending
action. That call is in tail position, so the program answers with the action
to be submitted (`Outcome.resubmit`), and the request goes on with its
program.
-/

namespace PunkgoKernel

open Json (Value)
open Resumption

/-! ## Clock and identifiers -/

/-- The places that read the clock. A place inside a loop has one reading for
each round. -/
inductive ClockSite where
  | envelopeExpiry
  | expiryScan
  | timeoutEvent (round : Nat)
  | timeoutRow (round : Nat)
  | holdPayload
  | holdEvent
  | holdRow
  | responseTimeout
  | responsePayload
  | responseRow
  | responseEvent
  | event
  | envelope
deriving DecidableEq

/-- The places that make an identifier. -/
inductive UuidSite where
  | holdId
  | holdEvent
  | responseEvent
  | timeoutEvent (round : Nat)
  | event
  | envelope
deriving DecidableEq

/-- The clock readings, in milliseconds, and the identifiers of one pass
through the pipeline. -/
structure Env where
  clock : ClockSite → Nat
  uuid : UuidSite → String

/-- `now_millis_string`. -/
def Env.nowString (env : Env) (site : ClockSite) : String := toString (env.clock site)

/-- What a committed submit answers. -/
structure SubmitReceipt where
  eventId : String
  logIndex : Nat
  eventHash : String
  reservedCost : Int
  settledCost : Int
  artifactHash : Option String
deriving DecidableEq

/-- How a request ends, or goes on. -/
inductive Outcome where
  | quoted (cost : Nat)
  | receipt (r : SubmitReceipt)
  | checkpoint (cp : AuditCheckpoint)
  | snapshot (eventCount : Nat) (cp : AuditCheckpoint)
  | inclusionProof (logIndex treeSize : Nat) (proof : List String)
  | ticked (totalEnergyProduced : Int) (actorsCredited : Nat)
  | resubmit (envs : Nat → Env) (action : Action)

/-- A program of the kernel. -/
abbrev KernelProg (α : Type) := Attempt KernelSig KernelError α

variable [Externals]

/-- A check that needs no store. -/
def check {α : Type} (x : KernelResult α) : KernelProg α := Attempt.ofExcept x

/-! ## Hold timeouts -/

omit [Externals] in
/-- Whether a hold triggered at a time has timed out. -/
def timedOut (now triggeredAt : Nat) (holdTimeoutSecs : Int) : Bool :=
  secsToMillis holdTimeoutSecs < now - parseU64 triggeredAt

/-- The settlement of a hold that timed out. -/
def expireTx (env : Env) (round : Nat) (hold : HoldRequest) : HoldExpireTx :=
  let now := nowMillisU64 (env.clock .expiryScan)
  let reservedCost := hold.reservedCost
  let commitment := if 0 < reservedCost then commitmentCost reservedCost else 0
  let target := s!"ledger/hold/{hold.holdId}"
  let payload := Json.object
    [("hold_id", .str hold.holdId),
     ("agent_id", .str hold.agentId),
     ("decision", .str "timed_out"),
     ("reserved_cost", .num (.int reservedCost)),
     ("commitment_cost", .num (.int commitment)),
     ("triggered_at", .str (toString (parseU64 hold.triggeredAt))),
     ("expired_at", .str (toString now))]
  { holdId := hold.holdId
    agentId := hold.agentId
    reservedCost := reservedCost
    commitmentCost := commitment
    event :=
      { id := env.uuid (.timeoutEvent round)
        logIndex := 0
        eventHash := ""
        actorId := hold.agentId
        actionType := "hold_timeout"
        target := target
        payload := payload
        payloadHash := payloadHashHex ⟨hold.agentId, .mutate, target, payload, none⟩
        artifactHash := none
        reservedEnergy := reservedCost
        settledEnergy := commitment
        timestamp := env.nowString (.timeoutEvent round) }
    now := env.clock (.timeoutRow round) }

/-- Settles those of the listed holds that timed out, in order. -/
def expireListed (env : Env) (holdTimeoutSecs : Int) : Nat → List HoldRequest → KernelProg Unit
  | _, [] => pure ()
  | round, hold :: rest =>
    if timedOut (nowMillisU64 (env.clock .expiryScan)) hold.triggeredAt holdTimeoutSecs then do
      let _ ← call (.expireHold (expireTx env round hold))
      expireListed env holdTimeoutSecs (round + 1) rest
    else expireListed env holdTimeoutSecs (round + 1) rest

/-- `expire_timed_out_holds`. -/
def expireTimedOutHolds (env : Env) (envelopeId : String) (holdTimeoutSecs : Int) :
    KernelProg Unit := do
  let holds ← call (.listPendingHoldsForEnvelope envelopeId)
  expireListed env holdTimeoutSecs 0 holds

/-! ## Authorisation -/

/-- A hold trigger: the pending action is kept with the energy it reserved. -/
def holdTriggerTx (env : Env) (action : Action) (envelope : EnvelopeRecord) : HoldTriggerTx :=
  let holdId := env.uuid .holdId
  let reservedCost : Int := quoteCost action
  let target := s!"ledger/hold/{holdId}"
  let payload := Json.object
    [("hold_id", .str holdId),
     ("agent_id", .str action.actorId),
     ("trigger", Json.object
       [("target", .str action.target),
        ("action_type", .str action.actionType.asStr)]),
     ("pending_action", Json.object
       [("target", .str action.target),
        ("action_type", .str action.actionType.asStr),
        ("payload", action.payload)]),
     ("reserved_cost", .num (.int reservedCost)),
     ("triggered_at", .str (env.nowString .holdPayload))]
  { reservedCost := reservedCost
    event :=
      { id := env.uuid .holdEvent
        logIndex := 0
        eventHash := ""
        actorId := action.actorId
        actionType := "hold_request"
        target := target
        payload := payload
        payloadHash := payloadHashHex ⟨action.actorId, .mutate, target, payload, none⟩
        artifactHash := none
        reservedEnergy := reservedCost
        settledEnergy := 0
        timestamp := env.nowString .holdEvent }
    request :=
      { holdId := holdId
        envelopeId := envelope.envelopeId
        agentId := action.actorId
        triggerTarget := action.target
        triggerAction := action.actionType.asStr
        pendingPayload := Json.object
          [("target", .str action.target),
           ("action_type", .str action.actionType.asStr),
           ("payload", action.payload),
           ("reserved_cost", .num (.int reservedCost))] }
    now := env.clock .holdRow }

/-- The hold check: an action that matches a rule is put on hold, unless its
payload says it was approved. -/
def checkHold (env : Env) (action : Action) (envelope : EnvelopeRecord) : KernelProg Unit :=
  if !holdApproved action.payload &&
      checkHoldTrigger envelope.holdOn action.target action.actionType.asStr then do
    let _ ← call (.triggerHold (holdTriggerTx env action envelope))
    throw (.holdTriggered (env.uuid .holdId) action.actorId)
  else pure ()

omit [Externals] in
/-- Expiry of the envelope by time, noticed on use. -/
def expireEnvelope (env : Env) (envelope : Option EnvelopeRecord) :
    KernelProg (Option EnvelopeRecord) :=
  match envelope with
  | none => pure none
  | some e =>
    if isEnvelopeExpired e (nowMillisU64 (env.clock .envelopeExpiry)) then do
      call (.setEnvelopeStatus e.envelopeId .expired)
      pure none
    else pure (some e)

/-- The timed-out holds of an envelope with hold rules and a timeout. -/
def expireHoldsOf (env : Env) (envelope : EnvelopeRecord) : KernelProg Unit :=
  match envelope.holdOn, envelope.holdTimeoutSecs with
  | _ :: _, some timeoutSecs =>
    if 0 < timeoutSecs then expireTimedOutHolds env envelope.envelopeId timeoutSecs else pure ()
  | _, _ => pure ()

/-- The authorisation of a state-changing action: the envelope that covers it,
for an agent. -/
def authorizeStateChange (env : Env) (action : Action) (actor : ActorRecord) :
    KernelProg (Option EnvelopeRecord) := do
  let envelope ← call (.getActiveForActor action.actorId)
  let envelope ← expireEnvelope env envelope
  let mode ← check (checkAuthorization actor envelope)
  match mode, envelope with
  | .manOnTheLoop, some e => do
    check (checkEnvelopeCovers e action.target action.actionType.asStr)
    expireHoldsOf env e
    checkHold env action e
    pure (some e)
  | _, _ => pure none

omit [Externals] in
/-- A frozen actor changes nothing. What it may still do is observe. -/
def checkFrozen (actor : ActorRecord) (action : Action) : KernelResult Unit :=
  if actor.status = .frozen ∧ action.actionType.isStateChanging then
    .error (.actorFrozen
      s!"actor {action.actorId} is frozen and cannot perform state-changing actions")
  else .ok ()

omit [Externals] in
/-- Every actor of the lineage is active. -/
def checkLineageActive : List String → KernelProg Unit
  | [] => pure ()
  | ancestorId :: rest => do
    let active : Bool ← call (.isActive ancestorId)
    if active then checkLineageActive rest
    else throw (.policyViolation
      s!"lineage ancestor {ancestorId} is not active (PIP-001 §7: delegator absence)")

omit [Externals] in
/-- An agent's changes need its whole lineage active. -/
def checkLineage (action : Action) (actor : ActorRecord) : KernelProg Unit :=
  if actor.actorType = .agent ∧ action.actionType.isStateChanging then
    checkLineageActive actor.lineage
  else pure ()

/-- The checks on the actor's own row, up to the hold check. -/
def authorize (env : Env) (action : Action) (actor : ActorRecord) :
    KernelProg (Option EnvelopeRecord) := do
  check (checkFrozen actor action)
  check (checkWritableBoundary actor action.target action.actionType)
  checkLineage action actor
  if action.actionType.isStateChanging then authorizeStateChange env action actor
  else pure none

/-! ## Creation -/

omit [Externals] in
/-- The row of an actor that has to be known. -/
def findActor (actorId : String) : KernelProg ActorRecord := do
  match ← call (.getActor actorId) with
  | some actor => pure actor
  | none => throw (.actorNotFound actorId)

omit [Externals] in
/-- The authorisation of a lifecycle operation. -/
def authorizeLifecycle (action : Action) : Option (String × LifecycleOp) → KernelProg Unit
  | none => pure ()
  | some (targetActorId, op) => do
    let initiator ← findActor action.actorId
    let target ← findActor targetActorId
    check (validateLifecycleAuthorization initiator target op)

omit [Externals] in
/-- The id of a new actor: the one given, or one derived from the purpose. -/
def newActorId (action : Action) (purpose : String) : KernelProg String :=
  match (action.payload.get? "actor_id").bind Value.asStr? with
  | some id => pure id
  | none =>
    if purpose = "legacy" then
      throw (.invalidRequest "actor_id or purpose is required to create an actor")
    else do
      let seq ← call (.nextSequence action.actorId purpose)
      pure (deriveAgentId action.actorId purpose seq)

/-- What the creator's row decides about a new actor: its lineage and its
writable targets. -/
def actorSpecFrom (action : Action) (actorId purpose : String) (actorType : ActorType)
    (creator : Option ActorRecord) : KernelResult CreateActorSpec := do
  let creatorType := (creator.map (·.actorType)).getD .human
  let creatorLineage := (creator.map (·.lineage)).getD []
  if creatorType = .agent ∧ actorType = .agent then
    .error (.policyViolation
      "agents cannot create agents — creation right belongs to humans (PIP-001 §5)")
  else do
    let writableTargets ← parseWritableTargets action.payload
    match creator with
    | some c => validateChildTargets c writableTargets
    | none => .ok ()
    .ok
      { actorId := actorId
        actorType := actorType
        creatorId := action.actorId
        lineage := buildLineage creatorType action.actorId creatorLineage
        purpose := some purpose
        writableTargets := writableTargets
        energyBalance := ((action.payload.get? "energy_balance").bind Value.asI64?).getD 1000
        energyShare := ((action.payload.get? "energy_share").bind Value.asF64?).getD 0
        reductionPolicy :=
          ((action.payload.get? "reduction_policy").bind Value.asStr?).getD "none" }

omit [Externals] in
/-- The type of a new actor. -/
def parseActorType (payload : Value) : KernelResult ActorType :=
  let actorTypeStr := ((payload.get? "actor_type").bind Value.asStr?).getD "agent"
  match ActorType.parse actorTypeStr with
  | some actorType => .ok actorType
  | none => .error (.invalidRequest s!"invalid actor_type: {actorTypeStr}")

/-- `parse_create_actor_spec`. -/
def parseCreateActorSpec (action : Action) : KernelProg (Option CreateActorSpec) :=
  if action.actionType ≠ .create ∨ action.target ≠ "ledger/actor" then pure none
  else if action.payload.asObject?.isNone then
    throw (.invalidRequest "seed actor payload must be an object")
  else do
    let purpose := ((action.payload.get? "purpose").bind Value.asStr?).getD "legacy"
    let actorType ← check (parseActorType action.payload)
    let actorId ← newActorId action purpose
    let creator ← call (.getActor action.actorId)
    let spec ← check (actorSpecFrom action actorId purpose actorType creator)
    pure (some spec)

/-- The parent of a new envelope: the grantor's own active one, which must
cover it. -/
def parentEnvelope (spec : EnvelopeSpec) (grantorEnvelope : Option EnvelopeRecord) :
    KernelResult (Option String) :=
  match grantorEnvelope with
  | some parent => do
    validateEnvelopeReduction parent spec
    .ok (some parent.envelopeId)
  | none => .ok none

/-- `parse_create_envelope_spec`. -/
def parseCreateEnvelopeSpec (env : Env) (action : Action) :
    KernelProg (Option (String × EnvelopeSpec × Option String)) :=
  if action.actionType ≠ .create ∨ action.target ≠ "ledger/envelope" then pure none
  else do
    let spec ← check (parseEnvelopeFields action)
    let grantorEnvelope ← call (.getActiveForActor action.actorId)
    let parentId ← check (parentEnvelope spec grantorEnvelope)
    pure (some (env.uuid .envelope, spec, parentId))

/-! ## Commit -/

omit [Externals] in
/-- The cost of an action with the reservation it settles. A payload that says
energy is reserved already is believed. -/
def quoteAndReserve (action : Action) : KernelProg (Int × Option EnergyReservation) :=
  match holdReservedCost action.payload with
  | some reserved =>
    pure (reserved, if 0 < reserved then some ⟨action.actorId, reserved⟩ else none)
  | none => do
    let cost : Int := quoteCost action
    if 0 < cost then
      let reservation ← call (.reserve action.actorId cost)
      pure (cost, some reservation)
    else pure (cost, none)

/-- The event of an action. -/
def draftEvent (env : Env) (action : Action) (cost : Int) (artifactHash : Option String) :
    EventRecord :=
  { id := env.uuid .event
    logIndex := 0
    eventHash := ""
    actorId := action.actorId
    actionType := action.actionType.asStr
    target := action.target
    payload := action.payload
    payloadHash := payloadHashHex action
    artifactHash := artifactHash
    reservedEnergy := cost
    settledEnergy := cost
    timestamp := env.nowString .event }

omit [Externals] in
/-- Records a new policy version; a failure is only logged. -/
def recordPolicyVersion : Option String → KernelProg Unit
  | some version => do
    let _ ← Attempt.outcome (call (.setPolicyVersion version))
    pure ()
  | none => pure ()

omit [Externals] in
/-- Charges a committed action to the agent's active envelope, as it then is.
A charge that fails is only logged. -/
def chargeEnvelope (action : Action) (settledCost : Int) : KernelProg Unit :=
  if action.actionType.isStateChanging ∧ 0 < settledCost then do
    match ← Attempt.outcome (call (.getActor action.actorId)) with
    | .ok (some actor) =>
      if actor.actorType = .agent then do
        match ← Attempt.outcome (call (.getActiveForActor action.actorId)) with
        | .ok (some envelope) => do
          let _ ← call (.consumeBudget
            ⟨envelope.envelopeId, settledCost, checkCheckpoint envelope settledCost⟩)
          pure ()
        | _ => pure ()
      else pure ()
    | _ => pure ()
  else pure ()

omit [Externals] in
/-- The operation of a lifecycle request. -/
def lifecycleCall (targetActorId : String) : LifecycleOp → Op
  | .freeze _ => .executeFreeze targetActorId
  | .unfreeze => .executeUnfreeze targetActorId
  | .terminate _ => .executeFreeze targetActorId
  | .updateEnergyShare energyShare => .executeUpdateEnergyShare targetActorId energyShare

omit [Externals] in
/-- Carries out a lifecycle operation; a failure is only logged. -/
def executeLifecycle : Option (String × LifecycleOp) → KernelProg Unit
  | some (targetActorId, op) => do
    let _ ← Attempt.outcome (call (lifecycleCall targetActorId op))
    pure ()
  | none => pure ()

/-- The pipeline from the lifecycle check to the receipt. -/
def commitAction (env : Env) (action : Action) (authorisedBy : Option EnvelopeRecord) :
    KernelProg Outcome := do
  let lifecycleOp := lifecycleOp? action
  authorizeLifecycle action lifecycleOp
  let createActor ← parseCreateActorSpec action
  let createEnvelope ← parseCreateEnvelopeSpec env action
  let (cost, reservation) ← quoteAndReserve action
  let artifactHash ← check (artifactHashOf action)
  let event ← call (.finalize
    { reservation := reservation
      settledCost := cost
      createActor := createActor
      createEnvelope := createEnvelope
      event := draftEvent env action cost artifactHash
      envelopeNow := env.clock .envelope
      authorisedBy := authorisedBy })
  recordPolicyVersion (parsePolicyVersion action)
  chargeEnvelope action cost
  executeLifecycle lifecycleOp
  pure (.receipt ⟨event.id, event.logIndex, event.eventHash, cost, cost, artifactHash⟩)

/-! ## Hold responses -/

/-- The transaction of a response. -/
def holdResolveTx (env : Env) (humanAction : Action) (holdId : String) (decision : HoldDecision)
    (instruction : Option String) (hold : HoldRequest) : HoldResolveTx :=
  let target := s!"ledger/hold/{holdId}"
  let payload := Json.object
    [("hold_id", .str holdId),
     ("agent_id", .str hold.agentId),
     ("decision", .str decision.asStr),
     ("instruction", (instruction.map Value.str).getD .null),
     ("trigger", Json.object
       [("target", .str hold.triggerTarget),
        ("action_type", .str hold.triggerAction)]),
     ("resolved_by", .str humanAction.actorId),
     ("resolved_at", .str (env.nowString .responsePayload))]
  { holdId := holdId
    agentId := hold.agentId
    decision := decision
    instruction := instruction
    reservedCost := hold.reservedCost
    event :=
      { id := env.uuid .responseEvent
        logIndex := 0
        eventHash := ""
        actorId := humanAction.actorId
        actionType := "hold_response"
        target := target
        payload := payload
        payloadHash := payloadHashHex ⟨humanAction.actorId, .mutate, target, payload, none⟩
        artifactHash := none
        reservedEnergy := hold.reservedCost
        settledEnergy := 0
        timestamp := env.nowString .responseEvent }
    now := env.clock .responseRow }

omit [Externals] in
/-- The sentinels of an approved action, put into its payload; a payload that
is no object is replaced. -/
def approvedPayload (payload : Value) (reservedCost : Int) (instruction : Option String) : Value :=
  let fields := match payload with
    | .obj fields => fields
    | _ => []
  let fields := Json.putField "_hold_approved" (.bool true) fields
  let fields := Json.putField "_hold_reserved_cost" (.num (.int reservedCost)) fields
  .obj (match instruction with
    | some text => Json.putField "_hold_instruction" (.str text) fields
    | none => fields)

omit [Externals] in
/-- The type of a pending action; a text that is none of the others stands for
an execute. -/
def pendingActionType (text : String) : ActionType :=
  if text = "observe" then .observe
  else if text = "create" then .create
  else if text = "mutate" then .mutate
  else .execute

omit [Externals] in
/-- The pending action of a hold, as it is submitted again. -/
def pendingAction (hold : HoldRequest) (instruction : Option String) : Action :=
  let pending := hold.pendingPayload
  { actorId := hold.agentId
    actionType := pendingActionType
      (((pending.get? "action_type").bind Value.asStr?).getD hold.triggerAction)
    target := ((pending.get? "target").bind Value.asStr?).getD hold.triggerTarget
    payload := approvedPayload ((pending.get? "payload").getD .null) hold.reservedCost instruction
    timestamp := none }

/-- Settles the holds of an envelope if this hold has timed out, and then
refuses the response. An envelope that cannot be read is passed over. -/
def refuseTimedOut (env : Env) (hold : HoldRequest) : KernelProg Unit := do
  match ← Attempt.outcome (call (.getEnvelope hold.envelopeId)) with
  | .ok (some envelope) =>
    match envelope.holdTimeoutSecs with
    | some timeoutSecs =>
      if 0 < timeoutSecs ∧
          timedOut (nowMillisU64 (env.clock .responseTimeout)) hold.triggeredAt timeoutSecs then do
        expireTimedOutHolds env hold.envelopeId timeoutSecs
        throw (.policyViolation
          s!"hold_request {hold.holdId} has timed out and was auto-rejected")
      else pure ()
    | none => pure ()
  | _ => pure ()

omit [Externals] in
/-- Only a human resolves holds. -/
def requireHuman (caller : ActorRecord) (actorId : String) : KernelResult Unit :=
  if caller.actorType ≠ .human then
    let actorType := caller.actorType.debug
    .error (.policyViolation
      s!"only Human actors can resolve holds; caller {actorId} is {actorType}")
  else .ok ()

omit [Externals] in
/-- Only a pending hold is responded to. -/
def requirePending (hold : HoldRequest) (holdId : String) : KernelResult Unit :=
  if hold.status ≠ .pending then
    let status := hold.status.asStr
    .error (.policyViolation s!"hold_request {holdId} is already resolved (status={status})")
  else .ok ()

omit [Externals] in
/-- The row of a hold that has to be known. -/
def findHold (holdId : String) : KernelProg HoldRequest := do
  match ← call (.getHoldRequest holdId) with
  | some hold => pure hold
  | none => throw (.policyViolation s!"hold_request not found: {holdId}")

/-- `execute_hold_response`. -/
def executeHoldResponse (envs : Nat → Env) (humanAction : Action) (holdId : String)
    (decision : HoldDecision) (instruction : Option String) : KernelProg Outcome := do
  let caller ← findActor humanAction.actorId
  check (requireHuman caller humanAction.actorId)
  let hold ← findHold holdId
  check (requirePending hold holdId)
  refuseTimedOut (envs 0) hold
  let (event, commitment) ←
    call (.resolveHold (holdResolveTx (envs 0) humanAction holdId decision instruction hold))
  if decision = .approve then
    pure (.resubmit (fun n => envs (n + 1)) (pendingAction hold instruction))
  else
    pure (.receipt ⟨event.id, event.logIndex, event.eventHash, hold.reservedCost, commitment, none⟩)

/-! ## The pipeline -/

omit [Externals] in
/-- The actor of a submit has to have a row of its own. -/
def requireActor (actorId : String) : KernelProg Unit := do
  let known : Bool ← call (.actorExists actorId)
  if known then pure () else throw (.actorNotFound actorId)

/-- The checks on the actor's row, when there is one. -/
def authorizeActor (env : Env) (action : Action) : KernelProg (Option EnvelopeRecord) := do
  match ← call (.getActor action.actorId) with
  | some actor => authorize env action actor
  | none => pure none

/-- `submit_action`. -/
def submitAction (envs : Nat → Env) (action : Action) : KernelProg Outcome := do
  check (validateAction action)
  requireActor action.actorId
  let authorisedBy ← authorizeActor (envs 0) action
  match holdResponse? action with
  | some (holdId, decision, instruction) =>
    executeHoldResponse envs action holdId decision instruction
  | none => commitAction (envs 0) action authorisedBy

end PunkgoKernel
