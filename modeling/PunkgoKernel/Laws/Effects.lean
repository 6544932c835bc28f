import Mathlib.Logic.Relation
import PunkgoKernel.Runtime.System

/-!
# What a transaction can do

Every transaction is a chain of a few kinds of writes (`Effect`), and this is
said once, for all of them (`transaction_effects`). A write that brings in a
new row says where in the operation the row comes from. A fact about the
database that each kind of write keeps is then kept by every transaction, by
every operation, and along every run.

The parts of each transaction are named too (`finalize_eq_ok` and its
siblings), for the laws that need to know which writes it was.
-/

namespace PunkgoKernel

open Json (Value)
open Relational (Table key)
open Relation (ReflTransGen)
open Resumption

/-- Two states of one actor: where it comes from and what it is stays. -/
structure SameActor (r r' : ActorRecord) : Prop where
  actorId : r'.actorId = r.actorId
  actorType : r'.actorType = r.actorType
  creatorId : r'.creatorId = r.creatorId
  lineage : r'.lineage = r.lineage
  purpose : r'.purpose = r.purpose

/-- A row is of the actor it is of. -/
theorem SameActor.refl (r : ActorRecord) : SameActor r r := ⟨rfl, rfl, rfl, rfl, rfl⟩

/-- Rows of one actor along a run. -/
theorem SameActor.trans {a b c : ActorRecord} (h : SameActor a b) (h' : SameActor b c) :
    SameActor a c where
  actorId := h'.actorId.trans h.actorId
  actorType := h'.actorType.trans h.actorType
  creatorId := h'.creatorId.trans h.creatorId
  lineage := h'.lineage.trans h.lineage
  purpose := h'.purpose.trans h.purpose

variable [Externals]

/-- A ledger row no startup check rejects: what is reserved is not negative, and not
more than the balance. -/
def EnergyRow.Sound (row : EnergyRow) : Prop :=
  0 ≤ row.reservedEnergy ∧ row.reservedEnergy ≤ row.energyBalance

/-- The row of a new hold request, pending, with the payload as it reads back from the
column. -/
def NewHoldRequest.row (req : NewHoldRequest) (now : Nat) : HoldRequest :=
  ⟨req.holdId, req.envelopeId, req.agentId, req.triggerTarget, req.triggerAction,
    reread req.pendingPayload, .pending, none, none, now, none⟩

/-- The event an operation commits, before the log places it. Four operations commit
one, and no operation commits two. -/
def Op.Commits : Op → EventRecord → Prop
  | .finalize tx, event => event = tx.event
  | .triggerHold tx, event => event = tx.event
  | .resolveHold tx, event => event = { tx.event with settledEnergy := tx.cost }
  | .expireHold tx, event => event = tx.event
  | _, _ => False

/-- The hold request an operation writes, which only a trigger does. -/
def Op.Holds : Op → HoldRequest → Prop
  | .triggerHold tx, row => row = tx.request.row tx.now
  | _, _ => False

/-- The actor an operation creates, which only a commit does. -/
def Op.Creates : Op → ActorRecord → Prop
  | .finalize tx, row => ∃ spec, tx.createActor = some spec ∧ ActorStore.NewRow spec row
  | _, _ => False

/-- The status an operation may give an actor: frozen to those a cascade lists, and
active to the one that is unfrozen. -/
def Op.SetsStatus : Op → String → ActorStatus → Prop
  | .executeFreeze _, _, status => status = .frozen
  | .executeUnfreeze targetId, actorId, status => actorId = targetId ∧ status = .active
  | _, _, _ => False

/-- The envelope an operation grants, which only a commit does. -/
def Op.Grants : Op → EnvelopeRecord → Prop
  | .finalize tx, row => ∃ envelopeId spec parent,
      tx.createEnvelope = some (envelopeId, spec, parent) ∧ row.envelopeId = envelopeId ∧
      row.actorId = spec.actorId ∧ row.budget = spec.budget ∧ row.holdOn = spec.holdOn
  | _, _ => False

/-- The hold an operation resolves, and how: a response by its decision, and a timeout
as timed out. -/
def Op.Resolves : Op → String → HoldDecision → Prop
  | .resolveHold tx, holdId, decision => holdId = tx.holdId ∧ decision = tx.decision
  | .expireHold tx, holdId, decision => holdId = tx.holdId ∧ decision = .timedOut
  | _, _, _ => False

/-- The envelope an operation charges, and how much. -/
def Op.Charges : Op → String → Int → Prop
  | .consumeBudget tx, envelopeId, amount => envelopeId = tx.envelopeId ∧ amount = tx.amount
  | _, _, _ => False

/-- The tree size an operation makes a checkpoint of, which the request has counted
before. -/
def Op.Checkpoints : Op → Nat → Prop
  | .makeCheckpoint size _, n => n = size
  | _, _ => False

/-- The kinds of writes of an operation, each to one table. Every transaction is a
sequence of these, so an invariant is proved by looking at each kind once. -/
inductive Effect (op : Op) : Db → Db → Prop where
  /-- A ledger row changes, and is not made unsound. -/
  | ledger (db : Db) (actorId : String) (row : EnergyRow) (balance reserved : Int) :
      db.energyLedger.find? actorId = some row →
      (row.Sound → 0 ≤ reserved ∧ reserved ≤ balance) →
      Effect op db { db with energyLedger := EnergyLedger.put db.energyLedger actorId balance reserved }
  /-- An actor appears, with its ledger row. -/
  | newActor (db : Db) (row : ActorRecord) (balance : Int) (ledger : Table EnergyRow)
      (actors : Table ActorRecord) :
      op.Creates row → 0 ≤ balance →
      db.energyLedger.insert? ⟨row.actorId, balance, 0⟩ = some ledger →
      db.actors.insert? row = some actors →
      Effect op db { db with energyLedger := ledger, actors := actors }
  /-- An actor's row changes, but not what it is. -/
  | actor (db : Db) (actorId : String) (f : ActorRecord → ActorRecord)
      (hf : ∀ r, key (f r) = key r) :
      (∀ r, SameActor r (f r)) →
      (∀ r, (f r).status = r.status ∨ op.SetsStatus actorId (f r).status) →
      Effect op db { db with actors := db.actors.modify actorId f hf }
  /-- An envelope is granted, unspent. -/
  | newEnvelope (db : Db) (row : EnvelopeRecord) (envelopes : Table EnvelopeRecord) :
      op.Grants row → row.budgetConsumed = 0 →
      db.envelopes.insert? row = some envelopes →
      Effect op db { db with envelopes := envelopes }
  /-- An envelope changes its status. -/
  | envelopeStatus (db : Db) (envelopeId : String) (status : EnvelopeStatus) :
      Effect op db { db with
        envelopes := db.envelopes.modify envelopeId fun r => { r with status := status } }
  /-- An envelope is charged, within its budget. -/
  | charge (db : Db) (row : EnvelopeRecord) (amount : Int) :
      op.Charges row.envelopeId amount →
      db.envelopes.find? row.envelopeId = some row →
      row.budgetConsumed + amount ≤ row.budget →
      Effect op db { db with
        envelopes := db.envelopes.modify row.envelopeId fun r =>
          { r with budgetConsumed := row.budgetConsumed + amount } }
  /-- A hold request is written, pending. -/
  | newHold (db : Db) (row : HoldRequest) (holds : Table HoldRequest) :
      op.Holds row →
      db.holdRequests.insert? row = some holds →
      Effect op db { db with holdRequests := holds }
  /-- A pending hold request is resolved. -/
  | resolveHold (db : Db) (row : HoldRequest) (decision : HoldDecision)
      (instruction : Option String) (now : Nat) :
      op.Resolves row.holdId decision →
      db.holdRequests.find? row.holdId = some row → row.status = .pending →
      Effect op db { db with
        holdRequests := db.holdRequests.modify row.holdId
          (EnvelopeStore.resolved decision instruction now) (fun _ => rfl) }
  /-- An event is appended, and its hash becomes a leaf. -/
  | commit (db : Db) (event : EventRecord) (events : Table EventRecord) (leaf : Hash)
      (nodes : List AuditHash) :
      op.Commits event →
      db.events.insert? (event.placed (nextIdx db)) = some events →
      hexToHash (event.placed (nextIdx db)).eventHash = some (.ok leaf) →
      completedNodes db.auditHashes (nextIdx db) (nextIdx db) 0 leaf = .ok nodes →
      Effect op db { db with
        events := events
        auditHashes := storeHashes db.auditHashes
          (⟨Externals.storedHashIndex 0 (nextIdx db), leaf⟩ :: nodes) }
  /-- A checkpoint is written, of the tree hash the store then gives. -/
  | checkpoint (db : Db) (cp : AuditCheckpoint) (root : Hash) :
      op.Checkpoints cp.treeSize →
      Externals.treeHash cp.treeSize (AuditLog.reader db) = .ok root →
      cp.rootHash = bytesToHex root.bytes →
      Effect op db { db with auditCheckpoints := db.auditCheckpoints.upsert cp }
  | setMeta (db : Db) (name value : String) : Effect op db (StateStore.setMeta name value db)

/-- Any number of writes of one operation, in turn. -/
abbrev Effects (op : Op) : Db → Db → Prop := ReflTransGen (Effect op)

/-! ## The parts of the transactions -/

variable {op : Op}

/-- A settlement is one write, to the row of the actor it settles for. -/
theorem settleInTx_effect {actorId : String} {reservedCost actualCost : Int} {db db' : Db}
    (h : EnergyLedger.settleInTx actorId reservedCost actualCost db = .ok db') : Effect op db db' := by
  obtain ⟨row, hrow, hr0, ha0, hres, hextra, -, hbal, rfl⟩ := EnergyLedger.settleInTx_eq_ok h
  refine .ledger db actorId row _ _ hrow ?_
  rintro ⟨h0, h1⟩
  omega

/-- Settling a reservation, where there is one. -/
theorem settleReservation_effects {reservation : Option EnergyReservation} {settledCost : Int}
    {db db' : Db} (h : settleReservation reservation settledCost db = .ok db') :
    Effects op db db' := by
  cases reservation with
  | none =>
    cases h
    exact .refl
  | some res => exact .single (settleInTx_effect h)

omit [Externals] in
/-- What the creation of an actor found and wrote: a named identifier, a balance that is
not negative, and a row in each of the two tables that had none. -/
theorem createActorRows_eq_ok {spec : CreateActorSpec} {db db' : Db}
    (h : createActorRows (some spec) db = .ok db') :
    isBlank spec.actorId = false ∧ 0 ≤ spec.energyBalance ∧
      ∃ row ledger actors, ActorStore.NewRow spec row ∧
        db.energyLedger.insert? ⟨row.actorId, spec.energyBalance, 0⟩ = some ledger ∧
        db.actors.insert? row = some actors ∧
        db' = { db with energyLedger := ledger, actors := actors } := by
  obtain ⟨db₁, hledger, hactor⟩ := bind_eq_ok.mp h
  obtain ⟨hblank, hbal, -, ledger, hins, rfl⟩ := EnergyLedger.createActorInTx_eq_ok hledger
  obtain ⟨-, row, actors, hnew, hins', rfl⟩ := ActorStore.createInTx_eq_ok hactor
  exact ⟨hblank, hbal, row, ledger, actors, hnew, hnew.actorId ▸ hins, hins', rfl⟩

/-- The rows of a new actor are writes that the commit announces. -/
theorem createActorRows_effects {tx : FinalizeTx} {db db' : Db}
    (h : createActorRows tx.createActor db = .ok db') : Effects (.finalize tx) db db' := by
  cases hcreate : tx.createActor with
  | none =>
    rw [hcreate] at h
    cases h
    exact .refl
  | some spec =>
    rw [hcreate] at h
    obtain ⟨-, hbal, row, ledger, actors, hnew, hins, hins', rfl⟩ := createActorRows_eq_ok h
    exact .single (.newActor db row _ ledger actors ⟨spec, hcreate, hnew⟩ hbal hins hins')

/-- The row of a new envelope is a write that the commit announces. -/
theorem createEnvelopeRow_effects {tx : FinalizeTx} {now : Nat} {db db' : Db}
    (h : createEnvelopeRow tx.createEnvelope now db = .ok db') : Effects (.finalize tx) db db' := by
  cases hcreate : tx.createEnvelope with
  | none =>
    rw [hcreate] at h
    cases h
    exact .refl
  | some create =>
    obtain ⟨envelopeId, spec, parentId⟩ := create
    rw [hcreate] at h
    obtain ⟨row, envelopes, hid, hactor, hbudget, hzero, hholds, hins, rfl⟩ :=
      EnvelopeStore.createInTx_eq_ok h
    exact .single (.newEnvelope db row envelopes
      ⟨envelopeId, spec, parentId, hcreate, hid, hactor, hbudget, hholds⟩ hzero hins)

/-! ### Their frames -/

omit [Externals] in
/-- A settlement of energy writes the energy ledger alone, so every other table may be
read off the database before it. -/
theorem settleInTx_frame {actorId : String} {reservedCost actualCost : Int} {db db' : Db}
    (h : EnergyLedger.settleInTx actorId reservedCost actualCost db = .ok db') :
    db' = { db with energyLedger := db'.energyLedger } := by
  obtain ⟨row, -, -, -, -, -, -, -, rfl⟩ := EnergyLedger.settleInTx_eq_ok h
  rfl

omit [Externals] in
/-- A settlement of a reservation writes the energy ledger alone, whether there is a
reservation or not. -/
theorem settleReservation_frame {reservation : Option EnergyReservation} {settledCost : Int}
    {db db' : Db} (h : settleReservation reservation settledCost db = .ok db') :
    db' = { db with energyLedger := db'.energyLedger } := by
  cases reservation with
  | none =>
    cases h
    rfl
  | some res => exact settleInTx_frame h

omit [Externals] in
/-- A settlement that depends on a condition writes the energy ledger alone, in both
cases. -/
theorem settleIf_frame {settles : Prop} [Decidable settles] {actorId : String}
    {reservedCost actualCost : Int} {db db' : Db}
    (h : settleIf settles actorId reservedCost actualCost db = .ok db') :
    db' = { db with energyLedger := db'.energyLedger } := by
  unfold settleIf at h
  split at h
  · exact settleInTx_frame h
  · cases h
    rfl

omit [Externals] in
/-- A reservation writes the energy ledger alone, and one of nothing does not even do
that. -/
theorem reserveIfPositive_frame {actorId : String} {cost : Int} {db db' : Db}
    (h : reserveIfPositive actorId cost db = .ok db') :
    db' = { db with energyLedger := db'.energyLedger } := by
  unfold reserveIfPositive at h
  split at h
  · obtain ⟨⟨res, db₁⟩, hres, heq⟩ := bind_eq_ok.mp h
    cases heq
    obtain ⟨row, -, -, -, -, rfl⟩ := EnergyLedger.reserve_eq_ok hres
    rfl
  · cases h
    rfl

omit [Externals] in
/-- A new actor is written to the energy ledger and the actors alone. -/
theorem createActorRows_frame {createActor : Option CreateActorSpec} {db db' : Db}
    (h : createActorRows createActor db = .ok db') :
    db' = { db with energyLedger := db'.energyLedger, actors := db'.actors } := by
  cases createActor with
  | none =>
    cases h
    rfl
  | some spec =>
    obtain ⟨-, -, row, ledger, actors, -, -, -, rfl⟩ := createActorRows_eq_ok h
    rfl

omit [Externals] in
/-- A new envelope is written to the envelopes alone, so the log and the ledger may be
read off the database before it. -/
theorem createEnvelopeRow_frame {createEnvelope : Option (String × EnvelopeSpec × Option String)}
    {now : Nat} {db db' : Db} (h : createEnvelopeRow createEnvelope now db = .ok db') :
    db' = { db with envelopes := db'.envelopes } := by
  cases createEnvelope with
  | none =>
    cases h
    rfl
  | some create =>
    obtain ⟨row, envelopes, -, -, -, -, -, -, rfl⟩ := EnvelopeStore.createInTx_eq_ok h
    rfl

/-- What an append and its leaf make of the database, whatever else was written
between the two. -/
structure Commits (event : EventRecord) (db : Db) (ev : EventRecord) (events : Table EventRecord)
    (hashes : Table AuditHash) : Prop where
  placed : ev = event.placed (nextIdx db)
  inserted : db.events.insert? ev = some events
  leaf : ∃ leaf nodes, hexToHash ev.eventHash = some (.ok leaf) ∧
    completedNodes db.auditHashes ev.logIndex ev.logIndex 0 leaf = .ok nodes ∧
    hashes = storeHashes db.auditHashes (⟨Externals.storedHashIndex 0 ev.logIndex, leaf⟩ :: nodes)

/-- Committing an event is one write, of the log together with the Merkle store. -/
theorem Commits.effect {event ev : EventRecord} {db : Db} {events : Table EventRecord}
    {hashes : Table AuditHash} (h : Commits event db ev events hashes) (hop : op.Commits event) :
    Effect op db { db with events := events, auditHashes := hashes } := by
  obtain ⟨rfl, hins, leaf, nodes, hhex, hnodes, rfl⟩ := h
  exact .commit db event events leaf nodes hop hins hhex hnodes

/-- The append of an event and that of its leaf, which always go together, are a commit
of that event. -/
theorem append_commits {event ev : EventRecord} {db db₁ db₂ : Db}
    (happend : EventLog.appendInTx event db = .ok (ev, db₁)) (haudit : appendAudit ev db₁ = .ok db₂) :
    ∃ events hashes, Commits event db ev events hashes ∧
      db₂ = { db with events := events, auditHashes := hashes } := by
  obtain ⟨hplaced, events, hins, rfl⟩ := EventLog.appendInTx_eq_ok happend
  obtain ⟨leaf, nodes, hhex, hnodes, rfl⟩ := appendAudit_eq_ok haudit
  exact ⟨events, _, ⟨hplaced, hins, leaf, nodes, hhex, hnodes, rfl⟩, rfl⟩

/-- The parts of a normal commit, in the order in which the transaction makes them, with
the database after each. -/
theorem finalize_eq_ok {tx : FinalizeTx} {db db' : Db} {ev : EventRecord}
    (h : finalizeEnergyAndEvent tx db = .ok (ev, db')) :
    ∃ db₁ db₂ db₃ events hashes, settleReservation tx.reservation tx.settledCost db = .ok db₁ ∧
      createActorRows tx.createActor db₁ = .ok db₂ ∧
      createEnvelopeRow tx.createEnvelope tx.envelopeNow db₂ = .ok db₃ ∧
      Commits tx.event db₃ ev events hashes ∧
      db' = { db₃ with events := events, auditHashes := hashes } := by
  obtain ⟨db₁, hsettle, h⟩ := bind_eq_ok.mp h
  obtain ⟨db₂, hactor, h⟩ := bind_eq_ok.mp h
  obtain ⟨db₃, henvelope, h⟩ := bind_eq_ok.mp h
  obtain ⟨⟨ev', db₄⟩, happend, h⟩ := bind_eq_ok.mp h
  obtain ⟨db₅, haudit, h⟩ := bind_eq_ok.mp h
  cases h
  obtain ⟨events, hashes, hcommit, rfl⟩ := append_commits happend haudit
  exact ⟨db₁, db₂, db₃, events, hashes, hsettle, hactor, henvelope, hcommit, rfl⟩

/-- The parts of a hold trigger: the reservation, the event, and the row, whose envelope
was found. -/
theorem triggerHold_eq_ok {tx : HoldTriggerTx} {db db' : Db} {ev : EventRecord}
    (h : triggerHold tx db = .ok (ev, db')) :
    ∃ db₁ events hashes holds, reserveIfPositive tx.request.agentId tx.reservedCost db = .ok db₁ ∧
      Commits tx.event db₁ ev events hashes ∧
      (db.envelopes.find? tx.request.envelopeId).isSome ∧
      db₁.holdRequests.insert? (tx.request.row tx.now) = some holds ∧
      db' = { db₁ with events := events, auditHashes := hashes, holdRequests := holds } := by
  obtain ⟨db₁, hreserve, h⟩ := bind_eq_ok.mp h
  obtain ⟨⟨ev', db₂⟩, happend, h⟩ := bind_eq_ok.mp h
  obtain ⟨db₃, hhold, h⟩ := bind_eq_ok.mp h
  obtain ⟨db₄, haudit, h⟩ := bind_eq_ok.mp h
  cases h
  obtain ⟨hplaced, events, hins, rfl⟩ := EventLog.appendInTx_eq_ok happend
  obtain ⟨hfk, holds, hins', rfl⟩ := EnvelopeStore.createHoldRequestInTx_eq_ok hhold
  obtain ⟨leaf, nodes, hhex, hnodes, rfl⟩ := appendAudit_eq_ok haudit
  have henv : db₁.envelopes = db.envelopes := by
    unfold reserveIfPositive at hreserve
    split at hreserve
    · obtain ⟨⟨res, db''⟩, hres, heq⟩ := bind_eq_ok.mp hreserve
      cases heq
      obtain ⟨row, -, -, -, -, rfl⟩ := EnergyLedger.reserve_eq_ok hres
      rfl
    · cases hreserve
      rfl
  exact ⟨db₁, events, _, holds, hreserve, ⟨hplaced, hins, leaf, nodes, hhex, hnodes, rfl⟩,
    henv ▸ hfk, hins', rfl⟩

/-- The parts of a response: the row, which was pending, the settlement that only a
rejection makes, and the event. -/
theorem resolveHold_eq_ok {tx : HoldResolveTx} {db db' : Db} {ev : EventRecord} {cost : Int}
    (h : resolveHold tx db = .ok ((ev, cost), db')) :
    ∃ db₁ db₂ events hashes, cost = tx.cost ∧
      EnvelopeStore.resolveHoldRequestInTx tx.holdId tx.decision tx.instruction tx.now db =
        .ok db₁ ∧
      settleIf (tx.decision = .reject ∧ 0 < tx.reservedCost) tx.agentId tx.reservedCost tx.cost
        db₁ = .ok db₂ ∧
      Commits { tx.event with settledEnergy := tx.cost } db₂ ev events hashes ∧
      db' = { db₂ with events := events, auditHashes := hashes } := by
  obtain ⟨db₁, hresolve, h⟩ := bind_eq_ok.mp h
  obtain ⟨db₂, hsettle, h⟩ := bind_eq_ok.mp h
  obtain ⟨⟨ev', db₃⟩, happend, h⟩ := bind_eq_ok.mp h
  obtain ⟨db₄, haudit, h⟩ := bind_eq_ok.mp h
  cases h
  obtain ⟨events, hashes, hcommit, rfl⟩ := append_commits happend haudit
  exact ⟨db₁, db₂, events, hashes, rfl, hresolve, hsettle, hcommit, rfl⟩

/-- The parts of a timeout, which settles as a rejection does. -/
theorem expireHold_eq_ok {tx : HoldExpireTx} {db db' : Db} {ev : EventRecord}
    (h : expireHold tx db = .ok (ev, db')) :
    ∃ db₁ db₂ events hashes,
      EnvelopeStore.resolveHoldRequestInTx tx.holdId .timedOut none tx.now db = .ok db₁ ∧
      settleIf (0 < tx.reservedCost) tx.agentId tx.reservedCost tx.commitmentCost db₁ =
        .ok db₂ ∧
      Commits tx.event db₂ ev events hashes ∧
      db' = { db₂ with events := events, auditHashes := hashes } := by
  obtain ⟨db₁, hresolve, h⟩ := bind_eq_ok.mp h
  obtain ⟨db₂, hsettle, h⟩ := bind_eq_ok.mp h
  obtain ⟨⟨ev', db₃⟩, happend, h⟩ := bind_eq_ok.mp h
  obtain ⟨db₄, haudit, h⟩ := bind_eq_ok.mp h
  cases h
  obtain ⟨events, hashes, hcommit, rfl⟩ := append_commits happend haudit
  exact ⟨db₁, db₂, events, hashes, hresolve, hsettle, hcommit, rfl⟩

/-! ## Every transaction is a chain of effects -/

/-- A settlement that depends on a condition is one write, or none. -/
theorem settleIf_effects {settles : Prop} [Decidable settles] {actorId : String}
    {reservedCost actualCost : Int} {db db' : Db}
    (h : settleIf settles actorId reservedCost actualCost db = .ok db') : Effects op db db' := by
  unfold settleIf at h
  split at h
  · exact .single (settleInTx_effect h)
  · cases h
    exact .refl

/-- A reservation is one write, to the row of the actor who pays. -/
theorem reserve_effect {actorId : String} {cost : Int} {db db' : Db} {res : EnergyReservation}
    (h : EnergyLedger.reserve actorId cost db = .ok (res, db')) : Effect op db db' := by
  obtain ⟨row, hrow, hpos, hav, -, rfl⟩ := EnergyLedger.reserve_eq_ok h
  refine .ledger db actorId row _ _ hrow ?_
  rintro ⟨h0, h1⟩
  omega

/-- A reservation of nothing writes nothing. -/
theorem reserveIfPositive_effects {actorId : String} {cost : Int} {db db' : Db}
    (h : reserveIfPositive actorId cost db = .ok db') : Effects op db db' := by
  unfold reserveIfPositive at h
  split at h
  · obtain ⟨⟨res, db₁⟩, hres, heq⟩ := bind_eq_ok.mp h
    cases heq
    exact .single (reserve_effect hres)
  · cases h
    exact .refl

/-- The decision of a hold is one write, of a row that was pending. -/
theorem resolveHoldRequestInTx_effect {holdId : String} {decision : HoldDecision}
    {instruction : Option String} {now : Nat} {db db' : Db}
    (h : EnvelopeStore.resolveHoldRequestInTx holdId decision instruction now db = .ok db')
    (hop : op.Resolves holdId decision) : Effect op db db' := by
  obtain ⟨row, hrow, hpend, rfl⟩ := EnvelopeStore.resolveHoldRequestInTx_eq_ok h
  obtain rfl : row.holdId = holdId := Table.key_of_find? hrow
  exact .resolveHold db row decision instruction now hop hrow hpend

/-- The writes of a commit: energy, an actor, an envelope and the event, of which all
but the last may be missing. -/
theorem finalize_effects {tx : FinalizeTx} {db db' : Db} {ev : EventRecord}
    (h : finalizeEnergyAndEvent tx db = .ok (ev, db')) : Effects (.finalize tx) db db' := by
  obtain ⟨db₁, db₂, db₃, events, hashes, hsettle, hactor, henvelope, hcommit, rfl⟩ :=
    finalize_eq_ok h
  exact (settleReservation_effects hsettle).trans <| (createActorRows_effects hactor).trans <|
    (createEnvelopeRow_effects henvelope).trans <| .single (hcommit.effect rfl)

/-- The writes of a hold trigger. -/
theorem triggerHold_effects {tx : HoldTriggerTx} {db db' : Db} {ev : EventRecord}
    (h : triggerHold tx db = .ok (ev, db')) : Effects (.triggerHold tx) db db' := by
  obtain ⟨db₁, events, hashes, holds, hreserve, hcommit, -, hins, rfl⟩ := triggerHold_eq_ok h
  have hhold : Effect (.triggerHold tx) { db₁ with events := events, auditHashes := hashes }
      { db₁ with events := events, auditHashes := hashes, holdRequests := holds } :=
    .newHold _ (tx.request.row tx.now) holds rfl hins
  exact (reserveIfPositive_effects hreserve).trans (.tail (.single (hcommit.effect rfl)) hhold)

/-- The writes of a response. -/
theorem resolveHold_effects {tx : HoldResolveTx} {db db' : Db} {ev : EventRecord} {cost : Int}
    (h : resolveHold tx db = .ok ((ev, cost), db')) : Effects (.resolveHold tx) db db' := by
  obtain ⟨db₁, db₂, events, hashes, -, hresolve, hsettle, hcommit, rfl⟩ := resolveHold_eq_ok h
  exact .head (resolveHoldRequestInTx_effect hresolve ⟨rfl, rfl⟩)
    ((settleIf_effects hsettle).tail (hcommit.effect rfl))

/-- The writes of a timeout. -/
theorem expireHold_effects {tx : HoldExpireTx} {db db' : Db} {ev : EventRecord}
    (h : expireHold tx db = .ok (ev, db')) : Effects (.expireHold tx) db db' := by
  obtain ⟨db₁, db₂, events, hashes, hresolve, hsettle, hcommit, rfl⟩ := expireHold_eq_ok h
  exact .head (resolveHoldRequestInTx_effect hresolve ⟨rfl, rfl⟩)
    ((settleIf_effects hsettle).tail (hcommit.effect rfl))

/-- The status of an envelope is one write. -/
theorem setEnvelopeStatus_effect {envelopeId : String} {status : EnvelopeStatus} {db db' : Db}
    (h : EnvelopeStore.setStatusInTx envelopeId status db = .ok db') : Effect op db db' := by
  obtain ⟨-, rfl⟩ := EnvelopeStore.setStatusInTx_eq_ok h
  exact .envelopeStatus db envelopeId status

/-- A charge within the budget is one write. -/
theorem consumeBudgetInTx_effect {envelopeId : String} {amount total : Int} {db db' : Db}
    (h : EnvelopeStore.consumeBudgetInTx envelopeId amount db = .ok (total, db'))
    (hop : op.Charges envelopeId amount) : Effect op db db' := by
  obtain ⟨row, hrow, rfl, hle, rfl⟩ := EnvelopeStore.consumeBudgetInTx_eq_ok h
  obtain rfl : row.envelopeId = envelopeId := Table.key_of_find? hrow
  exact .charge db row amount hop hrow hle

omit [Externals] in
/-- A charge that is refused changes nothing; one that is made may also halt
the envelope. -/
theorem consumeBudget_eq_ok {tx : ConsumeTx} {db db' : Db} {x : KernelResult Int}
    (h : consumeBudget tx db = .ok (x, db')) :
    ((∃ e, x = .error e) ∧ db' = db) ∨
      ∃ total db₁, x = .ok total ∧
        EnvelopeStore.consumeBudgetInTx tx.envelopeId tx.amount db = .ok (total, db₁) ∧
        (db' = db₁ ∨ EnvelopeStore.setStatusInTx tx.envelopeId .expired db₁ = .ok db') := by
  unfold consumeBudget at h
  split at h
  · next e _ =>
    cases h
    exact .inl ⟨⟨e, rfl⟩, rfl⟩
  · next total db₁ hconsume =>
    split at h
    · obtain ⟨db₂, hstatus, heq⟩ := bind_eq_ok.mp h
      cases heq
      exact .inr ⟨total, db₁, rfl, hconsume, .inr hstatus⟩
    · cases h
      exact .inr ⟨total, _, rfl, hconsume, .inl rfl⟩

/-- A charge that the budget refuses writes nothing, and still answers with a value. -/
theorem consumeBudget_effects {tx : ConsumeTx} {db db' : Db} {x : KernelResult Int}
    (h : consumeBudget tx db = .ok (x, db')) : Effects (.consumeBudget tx) db db' := by
  rcases consumeBudget_eq_ok h with ⟨-, rfl⟩ | ⟨total, db₁, -, hconsume, rfl | hstatus⟩
  · exact .refl
  · exact .single (consumeBudgetInTx_effect hconsume ⟨rfl, rfl⟩)
  · exact .head (consumeBudgetInTx_effect hconsume ⟨rfl, rfl⟩)
      (.single (setEnvelopeStatus_effect hstatus))

/-- The status of an actor is one write. -/
theorem setActorStatus_effect {actorId : String} {status : ActorStatus} {db db' : Db}
    (hop : op.SetsStatus actorId status)
    (h : ActorStore.setStatusInTx actorId status db = .ok db') : Effect op db db' := by
  obtain ⟨-, rfl⟩ := ActorStore.updateInTx_eq_ok h
  exact .actor db actorId _ _ (fun _ => ⟨rfl, rfl, rfl, rfl, rfl⟩) fun _ => .inr hop

/-- A cascade is one write for each actor on its list. By induction on the list, in its
order. -/
theorem freezeAll_effects {actorIds : List String} {db db' : Db}
    (hop : ∀ actorId, op.SetsStatus actorId .frozen)
    (h : freezeAll actorIds db = .ok db') : Effects op db db' := by
  induction actorIds generalizing db with
  | nil =>
    cases h
    exact .refl
  | cons actorId rest ih =>
    obtain ⟨db₁, hstatus, h⟩ := bind_eq_ok.mp h
    exact .head (setActorStatus_effect (hop actorId) hstatus) (ih h)

/-- Whom a freeze freezes: the target and the descendants the query finds, as the
database is when the freeze is carried out. -/
def frozenBy (targetId : String) (db : Db) : List String :=
  targetId :: (ActorStore.descendants targetId db).map (·.actorId)

omit [Externals] in
/-- A freeze that succeeds freezes the target and its descendants, in order, and hands
back whom it froze. -/
theorem executeFreeze_eq_ok {targetId : String} {frozenIds : List String} {db db' : Db}
    (h : executeFreeze targetId db = .ok (frozenIds, db')) :
    frozenIds = frozenBy targetId db ∧ freezeAll frozenIds db = .ok db' := by
  obtain ⟨frozen, htarget, h⟩ := bind_eq_ok.mp h
  obtain ⟨descendants, hlist, h⟩ := bind_eq_ok.mp h
  obtain ⟨-, -, hfound⟩ := bind_eq_ok.mp hlist
  obtain rfl := Except.ok.inj hfound
  obtain ⟨after, hrest, h⟩ := bind_eq_ok.mp h
  obtain ⟨rfl, rfl⟩ := Prod.mk.inj (Except.ok.inj h)
  exact ⟨rfl, bind_eq_ok.mpr ⟨frozen, htarget, hrest⟩⟩

/-- The share of an actor is one write. -/
theorem updateEnergyShareInTx_effect {actorId : String} {energyShare : ℚ} {db db' : Db}
    (h : ActorStore.updateEnergyShareInTx actorId energyShare db = .ok db') : Effect op db db' := by
  unfold ActorStore.updateEnergyShareInTx at h
  split at h
  · cases h
  · obtain ⟨-, rfl⟩ := ActorStore.updateInTx_eq_ok h
    exact .actor db actorId _ _ (fun _ => ⟨rfl, rfl, rfl, rfl, rfl⟩) fun _ => .inl rfl

/-- A credit is one write, to the row of the actor who gets it. -/
theorem creditEnergyInTx_effect {actorId : String} {amount : Int} {db db' : Db}
    (h : EnergyLedger.creditEnergyInTx actorId amount db = .ok db') : Effect op db db' := by
  obtain ⟨row, hrow, hpos, rfl⟩ := EnergyLedger.creditEnergyInTx_eq_ok h
  refine .ledger db actorId row _ _ hrow ?_
  rintro ⟨h0, h1⟩
  omega

/-- A tick is one credit for each actor on its list. -/
theorem creditAll_effects {allocations : List (String × Int)} {db db' : Db} {n : Nat × Int}
    (h : creditAll allocations db = .ok (n, db')) : Effects op db db' := by
  induction allocations generalizing db n with
  | nil =>
    cases h
    exact .refl
  | cons a rest ih =>
    obtain ⟨actorId, credit⟩ := a
    unfold creditAll at h
    split at h
    · exact ih h
    · obtain ⟨db₁, hcredit, h⟩ := bind_eq_ok.mp h
      obtain ⟨⟨⟨count, total⟩, db₂⟩, hrest, heq⟩ := bind_eq_ok.mp h
      cases heq
      exact .head (creditEnergyInTx_effect hcredit) (ih hrest)

omit [Externals] in
/-- A transaction without a value of its own is the change it makes. -/
theorem unitTx_eq_ok {x : KernelResult Db} {u : Unit} {db' : Db} (h : unitTx x = .ok (u, db')) :
    x = .ok db' := by
  cases x with
  | error e => cases h
  | ok db =>
    cases h
    rfl

omit [Externals] in
/-- A transaction of the audit log that succeeds is one in which the log did. -/
theorem auditTx_eq_ok {α : Type} {x : Except AuditError α} {a : α} (h : auditTx x = .ok a) :
    x = .ok a := by
  cases x with
  | error e => cases h
  | ok b =>
    cases h
    rfl

omit [Externals] in
/-- A read that may fail changes nothing, as it hands back the database it was given. -/
theorem map_read {α : Type} {x : KernelResult α} {db db' : Db} {v : α}
    (h : (x.map fun a => (a, db)) = .ok (v, db')) : db' = db := by
  cases x with
  | error e => cases h
  | ok a =>
    cases h
    rfl

omit [Externals] in
/-- A read of the audit log changes nothing, even one that may fail. -/
theorem auditTx_read {α : Type} {x : Except AuditError α} {db db' : Db} {v : α}
    (h : auditTx (x.map fun a => (a, db)) = .ok (v, db')) : db' = db := by
  cases x with
  | error e => cases h
  | ok a =>
    cases h
    rfl

/-- Every transaction that commits is a chain of effects. This is the one place where
all operations are gone through; whatever is proved of effects holds of them all. -/
theorem transaction_effects {op : Op} {db db' : Db} {v : Val op}
    (h : transaction op db = .ok (v, db')) : Effects op db db' := by
  cases op with
  | setEnvelopeStatus => exact .single (setEnvelopeStatus_effect (unitTx_eq_ok h))
  | reserve => exact .single (reserve_effect h)
  | triggerHold => exact triggerHold_effects h
  | resolveHold => exact resolveHold_effects h
  | expireHold => exact expireHold_effects h
  | finalize => exact finalize_effects h
  | setPolicyVersion version =>
    cases h
    exact .single (.setMeta db "policy_version" version)
  | consumeBudget => exact consumeBudget_effects h
  | executeFreeze => exact freezeAll_effects (fun _ => rfl) (executeFreeze_eq_ok h).2
  | executeUnfreeze => exact .single (setActorStatus_effect ⟨rfl, rfl⟩ (unitTx_eq_ok h))
  | executeUpdateEnergyShare => exact .single (updateEnergyShareInTx_effect (unitTx_eq_ok h))
  | creditAll => exact creditAll_effects h
  | makeCheckpoint treeSize now =>
    obtain ⟨root, hroot, rfl, rfl⟩ := AuditLog.makeCheckpoint_eq_ok (auditTx_eq_ok h)
    exact .single (.checkpoint db _ root rfl hroot rfl)
  | nextSequence => rw [map_read h]
  | latestCheckpoint | inclusionProof =>
    rw [auditTx_read h]
  | _ =>
    cases h
    exact .refl

/-- An operation answers and commits, or it fails and changes nothing. Every proof about
a step begins with this case split. -/
theorem exec_cases (op : Op) (db : Db) :
    (∃ v db', transaction op db = .ok (v, db') ∧ exec op db = (.ok v, db')) ∨
      ∃ e, transaction op db = .error e ∧ exec op db = (.error e, db) := by
  unfold exec
  cases h : transaction op db with
  | ok r => exact .inl ⟨r.1, r.2, rfl, rfl⟩
  | error e => exact .inr ⟨e, rfl, rfl⟩

/-- Performing an operation is a chain of effects, which is empty where it fails. -/
theorem exec_effects (op : Op) (db : Db) : Effects op db (exec op db).2 := by
  rcases exec_cases op db with ⟨v, db', h, hexec⟩ | ⟨e, -, hexec⟩
  · rw [hexec]
    exact transaction_effects h
  · rw [hexec]

/-- What every effect keeps, every chain of effects keeps, and so every operation
does. -/
theorem Effects.keep {P : Db → Prop} (step : ∀ {a b}, Effect op a b → P a → P b) {db db' : Db}
    (h : Effects op db db') (hP : P db) : P db' := by
  induction h with
  | refl => exact hP
  | tail _ hstep ih => exact step hstep ih

/-- What relates the ends of every effect relates the ends of every chain, for a
relation that is reflexive and transitive. -/
theorem Effects.relate {R : Db → Db → Prop} (refl : ∀ a, R a a)
    (trans : ∀ {a b c}, R a b → R b c → R a c) (step : ∀ {a b}, Effect op a b → R a b)
    {db db' : Db} (h : Effects op db db') : R db db' := by
  induction h with
  | refl => exact refl _
  | tail _ hstep ih => exact trans ih (step hstep)

/-! ## Along every run -/

/-- No effect removes what a fresh store is seeded with. -/
theorem StateStore.Seeded.effect {db db' : Db} (h : Effect op db db') (hseed : Seeded db) :
    Seeded db' := by
  obtain ⟨hmeta, hledger, hactor⟩ := hseed
  cases h with
  | ledger => exact ⟨hmeta, (EnergyLedger.isSome_find?_put _ _ _ _ _).mpr hledger, hactor⟩
  | newActor _ _ _ _ _ _ hins hins' =>
    exact ⟨hmeta, (Table.isSome_find?_insert hins _).mpr (.inr hledger),
      (Table.isSome_find?_insert hins' _).mpr (.inr hactor)⟩
  | actor _ _ hf => exact ⟨hmeta, hledger, (Table.isSome_find?_modify _ _ _ _ hf).mpr hactor⟩
  | setMeta name value =>
    refine ⟨?_, hledger, hactor⟩
    show ((db.systemMeta.upsert ⟨name, value⟩).find? "schema_version").isSome
    rw [Table.find?_upsert]
    split
    · rfl
    · exact hmeta
  | _ => exact ⟨hmeta, hledger, hactor⟩

omit [Externals] in
/-- A restart is refused or changes nothing: what it would seed is there already. -/
theorem bootstrap_eq {db db' : Db} (hseed : StateStore.Seeded db)
    (h : StateStore.bootstrap db = some db') : db' = db := by
  unfold StateStore.bootstrap at h
  rw [hseed.seedDefaults_eq] at h
  split at h
  · cases h
    rfl
  · cases h

variable {tr : List KernelTransition} {pool : KernelPool}

/-- Every store that a run reaches is seeded. -/
theorem KernelRun.seeded (h : KernelRun tr pool) : StateStore.Seeded pool.store := by
  refine Run.store_invariant StateStore.seeded_genesis ?_ ?_ h
  · intro op db hseed
    exact (exec_effects op db).keep StateStore.Seeded.effect hseed
  · intro db db' hboot hseed
    exact bootstrap_eq hseed hboot ▸ hseed

/-- What a first start has and every effect keeps, every reachable database
has: under any interleaving, with refusals, cut-off requests and restarts. -/
theorem KernelRun.keep {P : Db → Prop} (start : P StateStore.genesis)
    (step : ∀ {op a b}, Effect op a b → P a → P b) (h : KernelRun tr pool) : P pool.store := by
  have hboth : StateStore.Seeded pool.store ∧ P pool.store := by
    refine Run.store_invariant (I := fun db => StateStore.Seeded db ∧ P db)
      ⟨StateStore.seeded_genesis, start⟩ ?_ ?_ h
    · intro op db hdb
      exact ⟨(exec_effects op db).keep StateStore.Seeded.effect hdb.1,
        (exec_effects op db).keep step hdb.2⟩
    · intro db db' hboot hdb
      exact bootstrap_eq hdb.1 hboot ▸ hdb
  exact hboth.2

end PunkgoKernel
