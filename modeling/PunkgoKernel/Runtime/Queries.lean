import PunkgoKernel.Core.Protocol
import PunkgoKernel.Runtime.Reads
import PunkgoKernel.Runtime.System

/-!
# Reads (`read_query`)

A read is answered out of hand, or from one query of the database, or by a program of the kernel
where the audit checkpoint has to be brought up to date first (`ReadPlan`). The gate that all
reads pass lets everybody through.

What the payloads show of the rows is spelled here. The derived spelling of an actor and of an
envelope shows columns that nothing else reads, and is taken as given (`Wire`), as are the
derived decoders and the answers that the configuration fixes.
-/

namespace PunkgoKernel

open Json (Value)

/-- What a read asks for. All kinds share one record; each reads the fields it needs,
and a field it cannot do without is checked when the read is planned. -/
structure ReadQuery where
  kind : String
  actorId : Option String
  holdId : Option String
  limit : Option Int
  logIndex : Option Int
  treeSize : Option Int
  oldSize : Option Int
  beforeIndex : Option Int
  afterIndex : Option Int
  requesterId : Option String
deriving DecidableEq

/-- What the daemon takes from elsewhere: the derived decoders, with the text of the error where
they fail, two derived encoders, the consistency proofs of the transparency-log package, and
what the configuration answers. -/
class Wire where
  requestEnvelope : String → Except String RequestEnvelope
  action : Value → Except String Action
  readQuery : Value → Except String ReadQuery
  actorRecord : ActorRecord → Value
  envelopeRecord : EnvelopeRecord → Value
  proveTree : Nat → Nat → (Nat → Option Hash) → Except String (List Hash)
  paths : Value
  stellarInfo : Value
  pubkeyHex : String

/-! ## Payloads -/

/-- An integer as JSON. -/
def number (i : Int) : Value := .num (.int i)

/-- A text that may be missing, as JSON; a missing one is null. -/
def optional (text : Option String) : Value := (text.map Value.str).getD .null

/-- A receipt as a client reads it: the event written for the action, its place in the
log and its hash, and what the action cost. -/
def SubmitReceipt.toJson (receipt : SubmitReceipt) : Value :=
  Json.object
    [("event_id", .str receipt.eventId),
     ("log_index", number receipt.logIndex),
     ("event_hash", .str receipt.eventHash),
     ("reserved_cost", number receipt.reservedCost),
     ("settled_cost", number receipt.settledCost),
     ("artifact_hash", optional receipt.artifactHash)]

/-- A checkpoint as a client reads it, its time spelled as text. -/
def AuditCheckpoint.toJson (cp : AuditCheckpoint) : Value :=
  Json.object
    [("tree_size", number cp.treeSize),
     ("root_hash", .str cp.rootHash),
     ("checkpoint_text", .str cp.checkpointText),
     ("created_at", .str (toString cp.createdAt))]

/-- An event as a page of the log shows it, every column of the row. -/
def EventRecord.toJson (event : EventRecord) : Value :=
  Json.object
    [("id", .str event.id),
     ("log_index", number event.logIndex),
     ("event_hash", .str event.eventHash),
     ("actor_id", .str event.actorId),
     ("action_type", .str event.actionType),
     ("target", .str event.target),
     ("payload", event.payload),
     ("payload_hash", .str event.payloadHash),
     ("artifact_hash", optional event.artifactHash),
     ("reserved_energy", number event.reservedEnergy),
     ("settled_energy", number event.settledEnergy),
     ("timestamp", .str event.timestamp)]

/-- A hold as a client reads it, with the payload on hold and, once it is resolved, the
decision and the time of it. -/
def HoldRequest.toJson (hold : HoldRequest) : Value :=
  Json.object
    [("hold_id", .str hold.holdId),
     ("envelope_id", .str hold.envelopeId),
     ("agent_id", .str hold.agentId),
     ("trigger_target", .str hold.triggerTarget),
     ("trigger_action", .str hold.triggerAction),
     ("pending_payload", hold.pendingPayload),
     ("status", .str hold.status.asStr),
     ("decision", optional (hold.decision.map HoldDecision.asStr)),
     ("instruction", optional hold.instruction),
     ("triggered_at", .str (toString hold.triggeredAt)),
     ("resolved_at", optional (hold.resolvedAt.map toString))]

/-- The payload of what a request of a client ends with. A tick answers nobody, and an action to
go on with is no end. -/
def Outcome.toJson : Outcome → Value
  | .quoted cost => Json.object [("cost", number cost)]
  | .receipt r => r.toJson
  | .checkpoint cp => cp.toJson
  | .snapshot eventCount cp =>
    Json.object
      [("event_count", number eventCount),
       ("snapshot_hash", .str cp.rootHash),
       ("generated_at", .str (toString cp.createdAt))]
  | .inclusionProof logIndex treeSize proof =>
    Json.object
      [("log_index", number logIndex),
       ("tree_size", number treeSize),
       ("proof", .arr (proof.map Value.str))]
  | .ticked _ _ => .null
  | .resubmit _ _ => .null

/-! ## Queries -/

namespace EnergyLedger

/-- The balance of an actor and what of it is reserved. An actor without a row is not
found. -/
def balanceView (actorId : String) (db : Db) : KernelResult (Int × Int) :=
  match db.energyLedger.find? actorId with
  | none => .error (.actorNotFound actorId)
  | some row => .ok (row.energyBalance, row.reservedEnergy)

end EnergyLedger

namespace EnvelopeStore

/-- The pending holds, the oldest first, of one agent if the read names it. -/
def listPendingHolds (agentId : Option String) (db : Db) : List HoldRequest :=
  byTriggeredAt (db.holdRequests.rows.filter fun h =>
    h.status = .pending ∧ agentId.all (fun id => h.agentId = id))

end EnvelopeStore

variable [Externals] [Wire]

omit [Externals] in
/-- The proof that the tree of the old size is a prefix of the tree of the new one, as
texts. The hashes are found by the proof package, which is a parameter. -/
def AuditLog.consistencyProof (oldSize newSize : Nat) (db : Db) : Except AuditError (List String) :=
  match Wire.proveTree newSize oldSize (AuditLog.reader db) with
  | .error detail => .error (.proof detail)
  | .ok path => .ok (path.map fun h => bytesToHex h.bytes)

/-! ## Kinds of reads -/

/-- What a read comes to: an answer that needs no database, one query of it, or a
program of the kernel that may write a checkpoint. -/
inductive ReadPlan where
  | answer (x : KernelResult Value)
  | look (read : Db → KernelResult Value)
  | run (r : Request)

omit [Externals] [Wire] in
/-- A field the read cannot do without: the plan goes on with it, or the read is refused
with the name of the field. -/
def ReadQuery.needs {α : Type} (query : ReadQuery) (field : String) (x : Option α)
    (plan : α → ReadPlan) : ReadPlan :=
  match x with
  | none => .answer (.error (.invalidRequest s!"{field} is required for {query.kind}"))
  | some a => plan a

omit [Externals] [Wire] in
/-- The gate that every read passes. The source's policy is all-transparent: any
requester can read any data. -/
def checkReadAccess (_actorId _queryKind : String) : KernelResult Unit := .ok ()

omit [Wire] in
/-- A page of the log, with whether there is more and the cursor to ask for it. -/
def ReadQuery.events (query : ReadQuery) (db : Db) : KernelResult Value :=
  let page := eventsRead ⟨query.actorId, query.beforeIndex, query.afterIndex, query.limit⟩ db
  .ok (Json.object
    [("events", .arr (page.items.map EventRecord.toJson)),
     ("has_more", .bool page.hasMore),
     ("next_cursor", (page.nextCursor.map number).getD .null)])

/-- The plan of each kind of read. A kind that is none of these is refused by name. -/
def readKind (now : Nat) (query : ReadQuery) : ReadPlan :=
  match query.kind with
  | "health" => .answer (.ok (Json.object [("status", .str "ok")]))
  | "actor_energy" => query.needs "actor_id" query.actorId fun actorId => .look fun db => do
    let (energyBalance, reservedEnergy) ← EnergyLedger.balanceView actorId db
    .ok (Json.object
      [("actor_id", .str actorId), ("energy_balance", number energyBalance),
       ("reserved_energy", number reservedEnergy)])
  | "events" => .look query.events
  | "stats" => .look fun db => .ok (Json.object [("event_count", number (EventLog.count db))])
  | "snapshot" => .run (.snapshot now)
  | "paths" => .answer (.ok Wire.paths)
  | "audit_checkpoint" => .run (.auditCheckpoint now)
  | "audit_inclusion_proof" => .run (.auditInclusionProof query.logIndex query.treeSize now)
  | "audit_consistency_proof" =>
    query.needs "old_size" query.oldSize fun oldSize =>
    query.needs "tree_size" query.treeSize fun treeSize => .look fun db => do
      let proof ← auditTx (AuditLog.consistencyProof (asU64 oldSize) (asU64 treeSize) db)
      .ok (Json.object
        [("old_size", number (asU64 oldSize)), ("new_size", number (asU64 treeSize)),
         ("proof", .arr (proof.map Value.str))])
  | "stellar_info" => .answer (.ok Wire.stellarInfo)
  | "envelope_info" => query.needs "actor_id" query.actorId fun actorId => .look fun db =>
    match EnvelopeStore.getActiveForActor actorId db with
    | some record => .ok (Wire.envelopeRecord record)
    | none => .ok (Json.object [("actor_id", .str actorId), ("envelope", .null)])
  | "actor_info" => query.needs "actor_id" query.actorId fun actorId => .look fun db =>
    match ActorStore.get actorId db with
    | some record => .ok (Wire.actorRecord record)
    | none => .error (.actorNotFound actorId)
  | "hold_info" => query.needs "hold_id" query.holdId fun holdId => .look fun db =>
    match EnvelopeStore.getHoldRequest holdId db with
    | some record => .ok record.toJson
    | none => .error (.invalidRequest s!"hold_request not found: {holdId}")
  | "holds_pending" => .look fun db =>
    .ok (Json.object
      [("holds", .arr ((EnvelopeStore.listPendingHolds query.actorId db).map HoldRequest.toJson))])
  | "signing_pubkey" =>
    .answer (.ok (Json.object
      [("pubkey_hex", .str Wire.pubkeyHex), ("algorithm", .str "ed25519")]))
  | other => .answer (.error (.invalidRequest s!"unsupported read query kind: {other}"))

/-- `read_query`: the gate, where a requester that is not named counts as anonymous, and
then the plan of the kind. -/
def readQuery (now : Nat) (query : ReadQuery) : ReadPlan :=
  match checkReadAccess (query.requesterId.getD "anonymous") query.kind with
  | .error e => .answer (.error e)
  | .ok () => readKind now query

end PunkgoKernel
