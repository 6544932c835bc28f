import PunkgoKernel.Lib.Float64
import PunkgoKernel.Lib.Prog
import PunkgoKernel.State.Store

/-!
# The transactions of the kernel

The kernel talks to the database in single queries and in transactions. Each
is one operation of `KernelSig`, answered by `exec` in one atomic step: it
commits as a whole, or it answers with an error and the database is as it
was.

The four commit paths are `finalize` (the normal end of a submit),
`triggerHold`, `resolveHold` and `expireHold`. Each takes a draft of its
event, whose index and hash the log assigns.
-/

namespace PunkgoKernel

open Json (Value)
open Relational (Table key)
open Resumption

/-! ## What a transaction is given -/

/-- The normal end of a submit. `authorisedBy` is not part of the transaction:
it names the envelope, if any, that passed `checkEnvelopeCovers` for the
event, so that statements can speak of it. -/
structure FinalizeTx where
  reservation : Option EnergyReservation
  settledCost : Int
  createActor : Option CreateActorSpec
  createEnvelope : Option (String × EnvelopeSpec × Option String)
  event : EventRecord
  envelopeNow : Nat
  authorisedBy : Option EnvelopeRecord
deriving DecidableEq

/-- An action is put on hold: its energy is reserved, the event and the hold
request are written. -/
structure HoldTriggerTx where
  reservedCost : Int
  event : EventRecord
  request : NewHoldRequest
  now : Nat
deriving DecidableEq

/-- A human resolves a hold. The settled energy of the event is what the
transaction settles. -/
structure HoldResolveTx where
  holdId : String
  agentId : String
  decision : HoldDecision
  instruction : Option String
  reservedCost : Int
  event : EventRecord
  now : Nat
deriving DecidableEq

/-- A hold that timed out is settled as a rejection. -/
structure HoldExpireTx where
  holdId : String
  agentId : String
  reservedCost : Int
  commitmentCost : Int
  event : EventRecord
  now : Nat
deriving DecidableEq

/-- The charge of a committed action to an envelope, with the checkpoint
decided before it. -/
structure ConsumeTx where
  envelopeId : String
  amount : Int
  checkpoint : Option CheckpointLevel
deriving DecidableEq

/-! ## The transactions -/

/-- The part of a reservation that is lost when a hold is not approved: one
fifth, rounded up, in floating point. -/
def commitmentCost (reservedCost : Int) : Int := Float64.ceilFifth reservedCost.toNat

/-- What is lost of a reservation is no gain. -/
theorem commitmentCost_nonneg (reservedCost : Int) : 0 ≤ commitmentCost reservedCost :=
  Int.natCast_nonneg _

variable [Externals]

omit [Externals] in
/-- Settles what was reserved for the action, if anything was, at its cost. -/
def settleReservation (reservation : Option EnergyReservation) (settledCost : Int) (db : Db) :
    KernelResult Db :=
  match reservation with
  | some res => EnergyLedger.settleInTx res.actorId res.reserved settledCost db
  | none => .ok db

omit [Externals] in
/-- The rows of a new actor, if the action creates one: its ledger row and its actor
row. -/
def createActorRows (createActor : Option CreateActorSpec) (db : Db) : KernelResult Db :=
  match createActor with
  | some spec => do
    let db ← EnergyLedger.createActorInTx spec.actorId spec.energyBalance db
    ActorStore.createInTx spec db
  | none => .ok db

omit [Externals] in
/-- The row of a new envelope, if the action grants one. -/
def createEnvelopeRow (createEnvelope : Option (String × EnvelopeSpec × Option String))
    (now : Nat) (db : Db) : KernelResult Db :=
  match createEnvelope with
  | some (envelopeId, spec, parentId) =>
    EnvelopeStore.createInTx envelopeId spec parentId now db
  | none => .ok db

/-- `finalize_energy_and_event`. -/
def finalizeEnergyAndEvent (tx : FinalizeTx) (db : Db) : KernelResult (EventRecord × Db) := do
  let db ← settleReservation tx.reservation tx.settledCost db
  let db ← createActorRows tx.createActor db
  let db ← createEnvelopeRow tx.createEnvelope tx.envelopeNow db
  let (event, db) ← EventLog.appendInTx tx.event db
  let db ← appendAudit event db
  .ok (event, db)

omit [Externals] in
/-- A reservation made only when there is something to reserve. -/
def reserveIfPositive (actorId : String) (cost : Int) (db : Db) : KernelResult Db :=
  if 0 < cost then do
    let (_, db) ← EnergyLedger.reserve actorId cost db
    .ok db
  else .ok db

/-- The hold trigger of `submit_action`. -/
def triggerHold (tx : HoldTriggerTx) (db : Db) : KernelResult (EventRecord × Db) := do
  let db ← reserveIfPositive tx.request.agentId tx.reservedCost db
  let (event, db) ← EventLog.appendInTx tx.event db
  let db ← EnvelopeStore.createHoldRequestInTx tx.request tx.now db
  let db ← appendAudit event db
  .ok (event, db)

omit [Externals] in
/-- A settlement made only in one case. -/
def settleIf (settles : Prop) [Decidable settles] (actorId : String)
    (reservedCost actualCost : Int) (db : Db) : KernelResult Db :=
  if settles then EnergyLedger.settleInTx actorId reservedCost actualCost db else .ok db

omit [Externals] in
/-- What a response settles: a rejection's commitment cost, if anything was
reserved. -/
def HoldResolveTx.cost (tx : HoldResolveTx) : Int :=
  if tx.decision = .reject ∧ 0 < tx.reservedCost then commitmentCost tx.reservedCost else 0

/-- The transaction of `execute_hold_response`. -/
def resolveHold (tx : HoldResolveTx) (db : Db) : KernelResult ((EventRecord × Int) × Db) := do
  let db ← EnvelopeStore.resolveHoldRequestInTx tx.holdId tx.decision tx.instruction tx.now db
  let db ← settleIf (tx.decision = .reject ∧ 0 < tx.reservedCost)
    tx.agentId tx.reservedCost tx.cost db
  let (event, db) ← EventLog.appendInTx { tx.event with settledEnergy := tx.cost } db
  let db ← appendAudit event db
  .ok ((event, tx.cost), db)

/-- The transaction of `expire_timed_out_holds`, for one hold. -/
def expireHold (tx : HoldExpireTx) (db : Db) : KernelResult (EventRecord × Db) := do
  let db ← EnvelopeStore.resolveHoldRequestInTx tx.holdId .timedOut none tx.now db
  let db ← settleIf (0 < tx.reservedCost) tx.agentId tx.reservedCost tx.commitmentCost db
  let (event, db) ← EventLog.appendInTx tx.event db
  let db ← appendAudit event db
  .ok (event, db)

omit [Externals] in
/-- The budget transaction of `submit_action`. A charge the envelope refuses is
only logged, so it is an answer and not an error. -/
def consumeBudget (tx : ConsumeTx) (db : Db) : KernelResult (KernelResult Int × Db) :=
  match EnvelopeStore.consumeBudgetInTx tx.envelopeId tx.amount db with
  | .error e => .ok (.error e, db)
  | .ok (newConsumed, db) =>
    match tx.checkpoint with
    | some .halt => do
      let db ← EnvelopeStore.setStatusInTx tx.envelopeId .expired db
      .ok (.ok newConsumed, db)
    | _ => .ok (.ok newConsumed, db)

omit [Externals] in
/-- Freezes each of a list of actors, in order. -/
def freezeAll : List String → Db → KernelResult Db
  | [], db => .ok db
  | actorId :: rest, db => do
    let db ← ActorStore.setStatusInTx actorId .frozen db
    freezeAll rest db

omit [Externals] in
/-- `execute_freeze`: the target, then its descendants. They are listed outside
the transaction, so the list is of the database before its first write. -/
def executeFreeze (targetId : String) (db : Db) : KernelResult (List String × Db) := do
  let frozen ← ActorStore.setStatusInTx targetId .frozen db
  let descendants ← ActorStore.listDescendants targetId db
  let descendantIds := descendants.map (·.actorId)
  let frozen ← freezeAll descendantIds frozen
  .ok (targetId :: descendantIds, frozen)

omit [Externals] in
/-- The credits of one production tick, in one transaction: the actors credited
and the energy given out. -/
def creditAll : List (String × Int) → Db → KernelResult ((Nat × Int) × Db)
  | [], db => .ok ((0, 0), db)
  | (actorId, credit) :: rest, db =>
    if credit ≤ 0 then creditAll rest db
    else do
      let db ← EnergyLedger.creditEnergyInTx actorId credit db
      let ((count, total), db) ← creditAll rest db
      .ok ((count + 1, total + credit), db)

/-! ## The operations -/

/-- The operations the kernel asks the database for. -/
inductive Op where
  | actorExists (actorId : String)
  | getActor (actorId : String)
  | isActive (actorId : String)
  | nextSequence (creatorId purpose : String)
  | getActiveForActor (actorId : String)
  | getEnvelope (envelopeId : String)
  | getHoldRequest (holdId : String)
  | listPendingHoldsForEnvelope (envelopeId : String)
  | setEnvelopeStatus (envelopeId : String) (status : EnvelopeStatus)
  | reserve (actorId : String) (cost : Int)
  | triggerHold (tx : HoldTriggerTx)
  | resolveHold (tx : HoldResolveTx)
  | expireHold (tx : HoldExpireTx)
  | finalize (tx : FinalizeTx)
  | setPolicyVersion (version : String)
  | consumeBudget (tx : ConsumeTx)
  | executeFreeze (targetId : String)
  | executeUnfreeze (targetId : String)
  | executeUpdateEnergyShare (targetId : String) (energyShare : ℚ)
  | listActiveWithShares
  | creditAll (allocations : List (String × Int))
  | countEvents
  | treeSize
  | makeCheckpoint (treeSize now : Nat)
  | latestCheckpoint
  | inclusionProof (logIndex treeSize : Nat)
deriving DecidableEq

/-- What an operation answers when it succeeds. -/
def Val : Op → Type
  | .actorExists _ => Bool
  | .getActor _ => Option ActorRecord
  | .isActive _ => Bool
  | .nextSequence .. => Nat
  | .getActiveForActor _ => Option EnvelopeRecord
  | .getEnvelope _ => Option EnvelopeRecord
  | .getHoldRequest _ => Option HoldRequest
  | .listPendingHoldsForEnvelope _ => List HoldRequest
  | .setEnvelopeStatus .. => Unit
  | .reserve .. => EnergyReservation
  | .triggerHold _ => EventRecord
  | .resolveHold _ => EventRecord × Int
  | .expireHold _ => EventRecord
  | .finalize _ => EventRecord
  | .setPolicyVersion _ => Unit
  | .consumeBudget _ => KernelResult Int
  | .executeFreeze _ => List String
  | .executeUnfreeze _ => Unit
  | .executeUpdateEnergyShare .. => Unit
  | .listActiveWithShares => List (String × ℚ)
  | .creditAll _ => Nat × Int
  | .countEvents => Nat
  | .treeSize => Nat
  | .makeCheckpoint .. => AuditCheckpoint
  | .latestCheckpoint => AuditCheckpoint
  | .inclusionProof .. => List String

/-- A write without an answer of its own. -/
def unitTx (x : KernelResult Db) : KernelResult (Unit × Db) := x.map fun db => ((), db)

omit [Externals] in
/-- An operation of the audit log, its error shown as the kernel shows it. -/
def auditTx {α : Type} (x : Except AuditError α) : KernelResult α :=
  x.mapError fun e => .audit e.toString

/-- The transaction of an operation. -/
def transaction : (op : Op) → Db → KernelResult (Val op × Db)
  | .actorExists actorId, db => .ok (StateStore.actorExists actorId db, db)
  | .getActor actorId, db => .ok (ActorStore.get actorId db, db)
  | .isActive actorId, db => .ok (ActorStore.isActive actorId db, db)
  | .nextSequence creatorId purpose, db =>
    (ActorStore.nextSequence creatorId purpose db).map fun seq => (seq, db)
  | .getActiveForActor actorId, db => .ok (EnvelopeStore.getActiveForActor actorId db, db)
  | .getEnvelope envelopeId, db => .ok (EnvelopeStore.get envelopeId db, db)
  | .getHoldRequest holdId, db => .ok (EnvelopeStore.getHoldRequest holdId db, db)
  | .listPendingHoldsForEnvelope envelopeId, db =>
    .ok (EnvelopeStore.listPendingHoldsForEnvelope envelopeId db, db)
  | .setEnvelopeStatus envelopeId status, db =>
    unitTx (EnvelopeStore.setStatusInTx envelopeId status db)
  | .reserve actorId cost, db => EnergyLedger.reserve actorId cost db
  | .triggerHold tx, db => PunkgoKernel.triggerHold tx db
  | .resolveHold tx, db => PunkgoKernel.resolveHold tx db
  | .expireHold tx, db => PunkgoKernel.expireHold tx db
  | .finalize tx, db => finalizeEnergyAndEvent tx db
  | .setPolicyVersion version, db => .ok ((), StateStore.setMeta "policy_version" version db)
  | .consumeBudget tx, db => PunkgoKernel.consumeBudget tx db
  | .executeFreeze targetId, db => PunkgoKernel.executeFreeze targetId db
  | .executeUnfreeze targetId, db => unitTx (ActorStore.setStatusInTx targetId .active db)
  | .executeUpdateEnergyShare targetId energyShare, db =>
    unitTx (ActorStore.updateEnergyShareInTx targetId energyShare db)
  | .listActiveWithShares, db => .ok (ActorStore.listActiveWithShares db, db)
  | .creditAll allocations, db => PunkgoKernel.creditAll allocations db
  | .countEvents, db => .ok (EventLog.count db, db)
  | .treeSize, db => .ok (AuditLog.treeSize db, db)
  | .makeCheckpoint treeSize now, db => auditTx (AuditLog.makeCheckpoint treeSize now db)
  | .latestCheckpoint, db => auditTx ((AuditLog.latestCheckpoint db).map fun cp => (cp, db))
  | .inclusionProof logIndex treeSize, db =>
    auditTx ((AuditLog.inclusionProof logIndex treeSize db).map fun proof => (proof, db))

/-- The kernel's view of its database: every operation answers with a value or
an error. -/
abbrev KernelSig : Signature where
  Op := Op
  Ans op := KernelResult (Val op)

/-- A transaction commits, or it answers with its error and changes nothing. -/
def exec (op : Op) (db : Db) : KernelResult (Val op) × Db :=
  match transaction op db with
  | .ok (v, db') => (.ok v, db')
  | .error e => (.error e, db)

/-- The errors by which the database denies service, or a commit fails: the
driver's own, also where the audit log wraps it. -/
inductive DatabaseFailure : KernelError → Prop where
  | db (detail : String) : DatabaseFailure (.db detail)
  | audit (detail : String) : DatabaseFailure (.audit s!"database error: {detail}")
  | io (detail : String) : DatabaseFailure (.io detail)

/-- The answers to an operation the database denies. Inside the budget
transaction a failed charge is only logged, whatever made it fail. -/
def refuses : (op : Op) → KernelResult (Val op) → Prop
  | .consumeBudget _, x => ∃ e, DatabaseFailure e ∧ (x = .error e ∨ x = .ok (.error e))
  | _, x => ∃ e, DatabaseFailure e ∧ x = .error e

/-- The database as the store of the kernel's programs. -/
def database : Handler KernelSig Db := ⟨exec, refuses⟩

/-- An operation, as a program. -/
def call (op : Op) : Attempt KernelSig KernelError (Val op) := Prog.perform (S := KernelSig) op

end PunkgoKernel
