import Mathlib.Data.List.Sort
import PunkgoKernel.State.Db

/-!
# Envelopes and hold requests (`envelope_store.rs`)

The active envelope of an actor is the one created last, by the text of its
creation time; among equals the first inserted. A hold request names the
envelope it was made under, and the foreign key is enforced.
-/

namespace PunkgoKernel

open Json (Value)
open Relational (Table key)

/-! ## JSON columns -/

mutual

/-- A JSON value written out and read back: the same value, but for floats,
which the reader may take for a neighbour. -/
def reread [Externals] : Value → Value
  | .num (.float f) => .num (.float (Externals.rereadFloat f))
  | .arr items => .arr (rereadItems items)
  | .obj fields => .obj (rereadFields fields)
  | v => v

/-- The items of an array after they were written out and read back. -/
def rereadItems [Externals] : List Value → List Value
  | [] => []
  | v :: rest => reread v :: rereadItems rest

/-- The fields of an object after they were written out and read back, in their
order. -/
def rereadFields [Externals] : List (String × Value) → List (String × Value)
  | [] => []
  | (k, v) :: rest => (k, reread v) :: rereadFields rest

end

section Reread

variable [Externals]

/-- Reading back keeps the names of fields, so a field is found where it was. -/
theorem find?_rereadFields (fields : List (String × Value)) (k : String) :
    (rereadFields fields).find? (·.1 = k) =
      (fields.find? (·.1 = k)).map fun f => (f.1, reread f.2) := by
  induction fields with
  | nil => rfl
  | cons f rest ih =>
    obtain ⟨j, v⟩ := f
    rw [rereadFields]
    by_cases h : j = k
    · rw [List.find?_cons_of_pos (by simpa using h), List.find?_cons_of_pos (by simpa using h)]
      rfl
    · rw [List.find?_cons_of_neg (by simpa using h), List.find?_cons_of_neg (by simpa using h), ih]

/-- Reading back keeps every field, each read back. Floats are all that it may
change. -/
@[simp] theorem get?_reread (v : Value) (k : String) :
    (reread v).get? k = (v.get? k).map reread := by
  cases v with
  | obj fields =>
    simp only [reread, Value.get?, find?_rereadFields, Option.map_map]
    rfl
  | num n => cases n <;> rfl
  | null => rfl
  | bool b => rfl
  | str s => rfl
  | arr items => rfl

/-- An integer is read back as itself. -/
@[simp] theorem asI64?_reread (v : Value) : (reread v).asI64? = v.asI64? := by
  cases v with
  | num n => cases n <;> rfl
  | _ => rfl

/-- A string is read back as itself. -/
@[simp] theorem asStr?_reread (v : Value) : (reread v).asStr? = v.asStr? := by
  cases v with
  | num n => cases n <;> rfl
  | _ => rfl

end Reread

/-- The data of a new hold request (`NewHoldRequest`): what the trigger knows of the
action it puts on hold. -/
structure NewHoldRequest where
  holdId : String
  envelopeId : String
  agentId : String
  triggerTarget : String
  triggerAction : String
  pendingPayload : Value
deriving DecidableEq

namespace EnvelopeStore

/-! ## Envelopes -/

/-- Inserts a new envelope, active and unspent. The identifier is the primary key, so a
second insertion under it is refused. -/
def createInTx (envelopeId : String) (spec : EnvelopeSpec) (parentEnvelopeId : Option String)
    (now : Nat) (db : Db) : KernelResult Db :=
  let expiresAt := spec.durationSecs.map fun d =>
    (parseU64 now + secsToMillis d) % 2 ^ 64
  match db.envelopes.insert?
    { envelopeId := envelopeId
      actorId := spec.actorId
      grantorId := spec.grantorId
      parentEnvelopeId := parentEnvelopeId
      budget := spec.budget
      budgetConsumed := 0
      targets := spec.targets
      actions := spec.actions
      durationSecs := spec.durationSecs
      reportEvery := spec.reportEvery
      holdOn := spec.holdOn
      holdTimeoutSecs := spec.holdTimeoutSecs
      status := .active
      createdAt := now
      expiresAt := expiresAt } with
  | none => .error (uniqueViolation "envelopes.envelope_id")
  | some envelopes => .ok { db with envelopes := envelopes }

/-- `ORDER BY created_at DESC LIMIT 1`: a later row wins only if its time is
greater. -/
def latest : List EnvelopeRecord → Option EnvelopeRecord
  | [] => none
  | e :: rest =>
    match latest rest with
    | none => some e
    | some e' => if textLe e'.createdAt e.createdAt then some e else some e'

/-- The active envelope of an actor: of its active rows the one created last. -/
def getActiveForActor (actorId : String) (db : Db) : Option EnvelopeRecord :=
  latest (db.envelopes.rows.filter fun e => e.actorId = actorId ∧ e.status = .active)

/-- An envelope by its identifier, whatever its status. -/
def get (envelopeId : String) (db : Db) : Option EnvelopeRecord := db.envelopes.find? envelopeId

/-- Charges an amount to an envelope, up to its budget. One that would exceed it is
refused, and the total after the charge is handed back. -/
def consumeBudgetInTx (envelopeId : String) (amount : Int) (db : Db) : KernelResult (Int × Db) :=
  match db.envelopes.find? envelopeId with
  | none => .error (.policyViolation s!"envelope not found: {envelopeId}")
  | some row =>
    let newConsumed := row.budgetConsumed + amount
    if newConsumed > row.budget then
      .error (.authorizationRequired
        s!"envelope {envelopeId} budget exceeded: budget={row.budget}, already_consumed={row.budgetConsumed}, requested={amount}")
    else .ok (newConsumed,
      { db with envelopes := db.envelopes.modify envelopeId fun r =>
          { r with budgetConsumed := newConsumed } })

/-- Sets the status of an envelope that exists. -/
def setStatusInTx (envelopeId : String) (status : EnvelopeStatus) (db : Db) : KernelResult Db :=
  match db.envelopes.find? envelopeId with
  | none => .error (.policyViolation s!"envelope not found: {envelopeId}")
  | some _ => .ok
      { db with envelopes := db.envelopes.modify envelopeId fun r => { r with status := status } }

/-! ## Hold requests -/

/-- A hold request by its identifier, whatever its status. -/
def getHoldRequest (holdId : String) (db : Db) : Option HoldRequest := db.holdRequests.find? holdId

/-- `ORDER BY triggered_at ASC`, where rows of one time keep the order in which they
were inserted. -/
def byTriggeredAt (holds : List HoldRequest) : List HoldRequest :=
  holds.insertionSort fun a b => textLe a.triggeredAt b.triggeredAt

/-- The pending holds under an envelope, the oldest first. It is read once, and settled
one by one in transactions of their own. -/
def listPendingHoldsForEnvelope (envelopeId : String) (db : Db) : List HoldRequest :=
  byTriggeredAt (db.holdRequests.rows.filter fun h =>
    h.status = .pending ∧ h.envelopeId = envelopeId)

/-- Writes a pending hold request, with its payload as text that reads back as `reread`.
The envelope it names has to exist, as a foreign key asks. -/
def createHoldRequestInTx [Externals] (req : NewHoldRequest) (now : Nat) (db : Db) :
    KernelResult Db :=
  match db.envelopes.find? req.envelopeId with
  | none => .error (.db "FOREIGN KEY constraint failed")
  | some _ =>
    match db.holdRequests.insert?
      { holdId := req.holdId
        envelopeId := req.envelopeId
        agentId := req.agentId
        triggerTarget := req.triggerTarget
        triggerAction := req.triggerAction
        pendingPayload := reread req.pendingPayload
        status := .pending
        decision := none
        instruction := none
        triggeredAt := now
        resolvedAt := none } with
    | none => .error (uniqueViolation "hold_requests.hold_id")
    | some holds => .ok { db with holdRequests := holds }

/-- Resolves a pending hold request; one that is not pending is refused. The condition
is in the UPDATE itself, so of two who resolve one hold only the first succeeds. -/
def resolveHoldRequestInTx (holdId : String) (decision : HoldDecision)
    (instruction : Option String) (now : Nat) (db : Db) : KernelResult Db :=
  match db.holdRequests.find? holdId with
  | none => .error (.policyViolation s!"hold_request {holdId} not found or already resolved")
  | some row =>
    if row.status ≠ .pending then
      .error (.policyViolation s!"hold_request {holdId} not found or already resolved")
    else .ok
      { db with holdRequests := db.holdRequests.modify holdId fun r =>
          { r with
            status := decision.status
            decision := some decision
            instruction := instruction
            resolvedAt := some now } }

/-! ## What each write does -/

/-- What an insertion that goes through writes, in the fields that the budget depends
on. -/
theorem createInTx_eq_ok {envelopeId : String} {spec : EnvelopeSpec} {parent : Option String}
    {now : Nat} {db db' : Db} (h : createInTx envelopeId spec parent now db = .ok db') :
    ∃ row envelopes, row.envelopeId = envelopeId ∧ row.actorId = spec.actorId ∧
      row.budget = spec.budget ∧ row.budgetConsumed = 0 ∧ row.holdOn = spec.holdOn ∧
      db.envelopes.insert? row = some envelopes ∧ db' = { db with envelopes := envelopes } := by
  unfold createInTx at h
  simp only at h
  split at h
  · cases h
  · next envelopes hins =>
    cases h
    exact ⟨_, envelopes, rfl, rfl, rfl, rfl, rfl, hins, rfl⟩

/-- The row of a new envelope, in full, as a lookup finds it after the insertion. -/
theorem createInTx_find {envelopeId : String} {spec : EnvelopeSpec} {parent : Option String}
    {now : Nat} {db db' : Db} (h : createInTx envelopeId spec parent now db = .ok db') :
    ∃ row, db'.envelopes.find? envelopeId = some row ∧ row.envelopeId = envelopeId ∧
      row.parentEnvelopeId = parent ∧ row.targets = spec.targets ∧ row.actions = spec.actions ∧
      row.budget = spec.budget ∧ row.budgetConsumed = 0 ∧ row.holdOn = spec.holdOn ∧
      row.expiresAt = spec.durationSecs.map fun d => (parseU64 now + secsToMillis d) % 2 ^ 64 := by
  unfold createInTx at h
  simp only at h
  split at h
  · cases h
  · next envelopes hins =>
    cases h
    exact ⟨_, (Table.find?_insert hins envelopeId).trans (if_pos rfl), rfl, rfl, rfl, rfl, rfl, rfl,
      rfl, rfl⟩

/-- What a charge that goes through found and wrote: there was room for it in the
budget, and only the consumption of that one row has changed. -/
theorem consumeBudgetInTx_eq_ok {envelopeId : String} {amount total : Int} {db db' : Db}
    (h : consumeBudgetInTx envelopeId amount db = .ok (total, db')) :
    ∃ row, db.envelopes.find? envelopeId = some row ∧ total = row.budgetConsumed + amount ∧
      row.budgetConsumed + amount ≤ row.budget ∧
      db' = { db with
        envelopes := db.envelopes.modify envelopeId fun r => { r with budgetConsumed := total } } := by
  unfold consumeBudgetInTx at h
  split at h
  · cases h
  next row hrow =>
  simp only at h
  split at h
  · cases h
  next hle =>
  cases h
  exact ⟨row, hrow, rfl, by omega, rfl⟩

/-- What a change of status found and wrote. -/
theorem setStatusInTx_eq_ok {envelopeId : String} {status : EnvelopeStatus} {db db' : Db}
    (h : setStatusInTx envelopeId status db = .ok db') :
    (db.envelopes.find? envelopeId).isSome ∧
      db' = { db with
        envelopes := db.envelopes.modify envelopeId fun r => { r with status := status } } := by
  unfold setStatusInTx at h
  split at h
  · cases h
  · next row hrow =>
    cases h
    exact ⟨by rw [hrow]; rfl, rfl⟩

/-- What the insertion of a hold request found and wrote, with the row in full. -/
theorem createHoldRequestInTx_eq_ok [Externals] {req : NewHoldRequest} {now : Nat} {db db' : Db}
    (h : createHoldRequestInTx req now db = .ok db') :
    (db.envelopes.find? req.envelopeId).isSome ∧
      ∃ holds, db.holdRequests.insert?
          ⟨req.holdId, req.envelopeId, req.agentId, req.triggerTarget, req.triggerAction,
            reread req.pendingPayload, .pending, none, none, now, none⟩ = some holds ∧
        db' = { db with holdRequests := holds } := by
  unfold createHoldRequestInTx at h
  split at h
  · cases h
  next env henv =>
  split at h
  · cases h
  next holds hins =>
  cases h
  exact ⟨by rw [henv]; rfl, holds, hins, rfl⟩

/-- What resolving makes of a hold's row: its status follows the decision, and the
instruction and the time are noted. -/
def resolved (decision : HoldDecision) (instruction : Option String) (now : Nat)
    (r : HoldRequest) : HoldRequest :=
  { r with
    status := decision.status
    decision := some decision
    instruction := instruction
    resolvedAt := some now }

/-- After it is resolved the hold is found, as resolved. -/
theorem find?_resolved {holds : Table HoldRequest} {holdId : String} {row : HoldRequest}
    (hrow : holds.find? holdId = some row) (decision : HoldDecision)
    (instruction : Option String) (now : Nat) :
    (holds.modify holdId (resolved decision instruction now) (fun _ => rfl)).find? holdId =
      some (resolved decision instruction now row) := by
  have hkey : ∀ r, key (resolved decision instruction now r) = key r := fun _ => rfl
  have hfind := Table.find?_modify holds holdId holdId _ hkey
  rw [if_pos rfl, hrow, Option.map_some] at hfind
  exact hfind

/-- A hold that was resolved was there, and pending; and only its row has changed. -/
theorem resolveHoldRequestInTx_eq_ok {holdId : String} {decision : HoldDecision}
    {instruction : Option String} {now : Nat} {db db' : Db}
    (h : resolveHoldRequestInTx holdId decision instruction now db = .ok db') :
    ∃ row, db.holdRequests.find? holdId = some row ∧ row.status = .pending ∧
      db' = { db with
        holdRequests :=
          db.holdRequests.modify holdId (resolved decision instruction now) (fun _ => rfl) } := by
  unfold resolveHoldRequestInTx at h
  split at h
  · cases h
  next row hrow =>
  split at h
  · cases h
  next hpend =>
  cases h
  exact ⟨row, hrow, not_not.mp hpend, rfl⟩

/-- The active envelope of an actor is one of its active rows, as picking the latest
invents none. -/
theorem latest_mem {rows : List EnvelopeRecord} {e : EnvelopeRecord} (h : latest rows = some e) :
    e ∈ rows := by
  induction rows generalizing e with
  | nil => cases h
  | cons x rest ih =>
    unfold latest at h
    split at h
    · cases h
      exact List.mem_cons_self
    · next e' he' =>
      split at h
      · cases h
        exact List.mem_cons_self
      · cases h
        exact List.mem_cons_of_mem _ (ih he')

/-- What the lookup of the active envelope finds: a row of the table, of this actor, and
active. -/
theorem getActiveForActor_some {actorId : String} {db : Db} {e : EnvelopeRecord}
    (h : getActiveForActor actorId db = some e) :
    db.envelopes.find? e.envelopeId = some e ∧ e.actorId = actorId ∧ e.status = .active := by
  have hmem := latest_mem h
  rw [List.mem_filter] at hmem
  have hprops : e.actorId = actorId ∧ e.status = .active := by simpa using hmem.2
  exact ⟨Table.find?_of_mem hmem.1, hprops⟩

/-- What is listed: the pending holds under this envelope, all of them and no others. -/
theorem mem_listPendingHolds {envelopeId : String} {db : Db} {hold : HoldRequest} :
    hold ∈ listPendingHoldsForEnvelope envelopeId db ↔
      hold ∈ db.holdRequests.rows ∧ hold.status = .pending ∧ hold.envelopeId = envelopeId := by
  unfold listPendingHoldsForEnvelope byTriggeredAt
  rw [(List.perm_insertionSort _ _).mem_iff, List.mem_filter]
  simp

end EnvelopeStore

end PunkgoKernel
