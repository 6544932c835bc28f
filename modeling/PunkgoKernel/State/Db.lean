import PunkgoKernel.Lib.Table
import PunkgoKernel.Core.Consent

/-!
# The tables (`store.rs`, schema)

The store is eight tables. Each is a `Table`, so the primary keys hold by
construction: a row with a taken key cannot be inserted, only refused.

The rows carry what some modelled function reads. JSON columns are carried as
the value they parse back to, and time columns, which hold the decimal text of
a number of milliseconds, as that number; where the database orders by such a
column it orders by the text (`textLe`).
-/

namespace PunkgoKernel

open Json (Value)
open Relational (Table Keyed)

/-! ## Times -/

/-- Order of two times as the database compares them: as decimal text. -/
def textLe (m n : Nat) : Prop := toString m ≤ toString n

instance : DecidableRel textLe := fun m n => inferInstanceAs (Decidable (toString m ≤ toString n))

/-- A 64-bit reading of a clock of more than 64 bits (`as_millis() as u64`). -/
def nowMillisU64 (now : Nat) : Nat := now % 2 ^ 64

/-- A time column read back as a 64-bit number, zero when it does not fit. -/
def parseU64 (n : Nat) : Nat := if n < 2 ^ 64 then n else 0

/-- A number of seconds cast to 64 bits, in milliseconds, without overflow
checks. -/
def secsToMillis (secs : Int) : Nat := (secs % 2 ^ 64).toNat * 1000 % 2 ^ 64

/-! ## Rows -/

/-- A row of `energy_ledger`: what an actor has, and how much of that is reserved. The
column is an i64; the sums here are exact, and what keeps them in range is a matter of
its own. -/
structure EnergyRow where
  actorId : String
  energyBalance : Int
  reservedEnergy : Int
deriving DecidableEq

/-- A row of `events`, the append-only log. Besides the action it has the position, the
hash and both amounts of energy. -/
structure EventRecord where
  id : String
  logIndex : Nat
  eventHash : String
  actorId : String
  actionType : String
  target : String
  payload : Value
  payloadHash : String
  artifactHash : Option String
  reservedEnergy : Int
  settledEnergy : Int
  timestamp : String
deriving DecidableEq

/-- A row of `audit_hashes`: one stored hash of the Merkle tree, at its position in the
storage. -/
structure AuditHash where
  hashIndex : Nat
  hash : Hash
deriving DecidableEq

/-- A row of `audit_checkpoints`: the root hash of the tree over the first events of the
log. -/
structure AuditCheckpoint where
  treeSize : Nat
  rootHash : String
  checkpointText : String
  createdAt : Nat
deriving DecidableEq

/-- The states of a hold request, of which pending is the only one it can leave. -/
inductive HoldStatus where
  | pending
  | approved
  | rejected
  | timedOut
deriving DecidableEq

/-- The text that the status column has. -/
def HoldStatus.asStr : HoldStatus → String
  | .pending => "pending"
  | .approved => "approved"
  | .rejected => "rejected"
  | .timedOut => "timed_out"

/-- How a hold ends. A response decides for `approve` or `reject`; the kernel
itself decides for `timedOut`. -/
inductive HoldDecision where
  | approve
  | reject
  | timedOut
deriving DecidableEq

/-- The text of a decision, as it stands in the payload of its event. -/
def HoldDecision.asStr : HoldDecision → String
  | .approve => "approve"
  | .reject => "reject"
  | .timedOut => "timed_out"

/-- The status that a decision leads to. -/
def HoldDecision.status : HoldDecision → HoldStatus
  | .approve => .approved
  | .reject => .rejected
  | .timedOut => .timedOut

/-- A row of `hold_requests`: an action that waits for a human, with the payload it is
to be submitted again with. -/
structure HoldRequest where
  holdId : String
  envelopeId : String
  agentId : String
  triggerTarget : String
  triggerAction : String
  pendingPayload : Value
  status : HoldStatus
  decision : Option HoldDecision
  instruction : Option String
  triggeredAt : Nat
  resolvedAt : Option Nat
deriving DecidableEq

/-- The energy a pending action had reserved, as its stored payload says. -/
def HoldRequest.reservedCost (hold : HoldRequest) : Int :=
  ((hold.pendingPayload.get? "reserved_cost").bind Value.asI64?).getD 0

/-- A row of `system_meta`, a store of named texts. -/
structure MetaRow where
  name : String
  value : String
deriving DecidableEq

instance : Keyed EnergyRow String := ⟨EnergyRow.actorId⟩
instance : Keyed EventRecord String := ⟨EventRecord.id⟩
instance : Keyed AuditHash Nat := ⟨AuditHash.hashIndex⟩
instance : Keyed AuditCheckpoint Nat := ⟨AuditCheckpoint.treeSize⟩
instance : Keyed ActorRecord String := ⟨ActorRecord.actorId⟩
instance : Keyed EnvelopeRecord String := ⟨EnvelopeRecord.envelopeId⟩
instance : Keyed HoldRequest String := ⟨HoldRequest.holdId⟩
instance : Keyed MetaRow String := ⟨MetaRow.name⟩

@[simp] theorem key_energyRow (r : EnergyRow) : Relational.key r = r.actorId := rfl

@[simp] theorem key_eventRecord (r : EventRecord) : Relational.key r = r.id := rfl

@[simp] theorem key_auditHash (r : AuditHash) : Relational.key r = r.hashIndex := rfl

@[simp] theorem key_actorRecord (r : ActorRecord) : Relational.key r = r.actorId := rfl

@[simp] theorem key_envelopeRecord (r : EnvelopeRecord) : Relational.key r = r.envelopeId := rfl

@[simp] theorem key_holdRequest (r : HoldRequest) : Relational.key r = r.holdId := rfl

/-- The database: its tables, each with its primary key. Columns that nothing reads are
left out. -/
structure Db where
  actors : Table ActorRecord
  energyLedger : Table EnergyRow
  events : Table EventRecord
  auditHashes : Table AuditHash
  auditCheckpoints : Table AuditCheckpoint
  envelopes : Table EnvelopeRecord
  holdRequests : Table HoldRequest
  systemMeta : Table MetaRow
deriving DecidableEq

/-- The error of an insertion whose key is taken, which the driver reports with the
column. -/
def uniqueViolation (column : String) : KernelError :=
  .db s!"UNIQUE constraint failed: {column}"

/-- From a chain of steps that succeeded, the first and the rest. -/
theorem bind_eq_ok {α β : Type} {x : KernelResult α} {f : α → KernelResult β} {b : β} :
    (x >>= f) = .ok b ↔ ∃ a, x = .ok a ∧ f a = .ok b := by
  cases x with
  | error e =>
    constructor
    · intro h
      cases h
    · rintro ⟨a, h, -⟩
      cases h
  | ok a =>
    constructor
    · intro h
      exact ⟨a, rfl, h⟩
    · rintro ⟨a', h, hf⟩
      cases h
      exact hf

end PunkgoKernel
