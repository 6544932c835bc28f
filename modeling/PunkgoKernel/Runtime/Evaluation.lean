import PunkgoKernel.Runtime.Reference

/-!
# Evaluating the kernel

The kernel writes an event's hash as text and reads it back for the Merkle
store, so running it computes every digest. The text is read back as what was
written (`hexToHash_bytesToHex`), so a digest may as well be passed on unread:
`lazyDatabase` does that, and is the database (`lazyDatabase_eq`). A schedule of
the kernel is evaluated over it.
-/

namespace PunkgoKernel

open Resumption

variable [Externals]

/-- The leaf of an event, stored without its spelling: the digest goes to the Merkle
store as it is, and is never written out as text. -/
def appendLeaf (event : EventRecord) (db : Db) : KernelResult Db :=
  let leaf := Externals.sha256 (eventHashInput event)
  match completedNodes db.auditHashes event.logIndex event.logIndex 0 leaf with
  | .ok nodes => .ok
      { db with
        auditHashes := storeHashes db.auditHashes
          (⟨Externals.storedHashIndex 0 event.logIndex, leaf⟩ :: nodes) }
  | .error e => .error (.audit e.toString)

/-- For an event that has its own hash this is the append of the code, since what
`bytesToHex` writes is read back as the digest. -/
theorem appendAudit_eq_appendLeaf {event : EventRecord} (h : event.eventHash = computeEventHash event)
    (db : Db) : appendAudit event db = appendLeaf event db := by
  unfold appendAudit AuditLog.appendLeafInTx appendLeaf
  rw [h, computeEventHash, hexToHash_bytesToHex]
  simp only
  cases completedNodes db.auditHashes event.logIndex event.logIndex 0
    (Externals.sha256 (eventHashInput event)) <;> rfl

/-- The event log gives every event its hash when it appends it, which is what the
shortcut for the leaf needs to know. -/
theorem appendInTx_hashed {draft event : EventRecord} {db db' : Db}
    (h : EventLog.appendInTx draft db = .ok (event, db')) :
    event.eventHash = computeEventHash event := by
  obtain ⟨rfl, -⟩ := EventLog.appendInTx_eq_ok h
  rfl

/-- An append with what follows it, up to the leaf of the event: continuations that
agree on events with their own hash may be exchanged. -/
theorem append_bind_congr {α : Type} {draft : EventRecord} {db : Db}
    {f g : EventRecord × Db → KernelResult α}
    (h : ∀ event db', event.eventHash = computeEventHash event → f (event, db') = g (event, db')) :
    (EventLog.appendInTx draft db >>= f) = (EventLog.appendInTx draft db >>= g) := by
  cases hap : EventLog.appendInTx draft db with
  | error e => rfl
  | ok r => exact h r.1 r.2 (appendInTx_hashed hap)

/-! ## The commits -/

/-- The commit of an action, with the digest passed on unread. -/
def lazyFinalize (tx : FinalizeTx) (db : Db) : KernelResult (EventRecord × Db) := do
  let db ← settleReservation tx.reservation tx.settledCost db
  let db ← createActorRows tx.createActor db
  let db ← createEnvelopeRow tx.createEnvelope tx.envelopeNow db
  let (event, db) ← EventLog.appendInTx tx.event db
  let db ← appendLeaf event db
  .ok (event, db)

/-- The transaction of a hold trigger, with the digest passed on unread. -/
def lazyTriggerHold (tx : HoldTriggerTx) (db : Db) : KernelResult (EventRecord × Db) := do
  let db ← reserveIfPositive tx.request.agentId tx.reservedCost db
  let (event, db) ← EventLog.appendInTx tx.event db
  let db ← EnvelopeStore.createHoldRequestInTx tx.request tx.now db
  let db ← appendLeaf event db
  .ok (event, db)

/-- The transaction of a hold response, with the digest passed on unread. -/
def lazyResolveHold (tx : HoldResolveTx) (db : Db) : KernelResult ((EventRecord × Int) × Db) := do
  let db ← EnvelopeStore.resolveHoldRequestInTx tx.holdId tx.decision tx.instruction tx.now db
  let db ← settleIf (tx.decision = .reject ∧ 0 < tx.reservedCost)
    tx.agentId tx.reservedCost tx.cost db
  let (event, db) ← EventLog.appendInTx { tx.event with settledEnergy := tx.cost } db
  let db ← appendLeaf event db
  .ok ((event, tx.cost), db)

/-- The transaction of a timeout, with the digest passed on unread. -/
def lazyExpireHold (tx : HoldExpireTx) (db : Db) : KernelResult (EventRecord × Db) := do
  let db ← EnvelopeStore.resolveHoldRequestInTx tx.holdId .timedOut none tx.now db
  let db ← settleIf (0 < tx.reservedCost) tx.agentId tx.reservedCost tx.commitmentCost db
  let (event, db) ← EventLog.appendInTx tx.event db
  let db ← appendLeaf event db
  .ok (event, db)

/-- The four transactions that append an event have their shortcut; every other one is
the transaction itself. -/
def lazyTransaction : (op : Op) → Db → KernelResult (Val op × Db)
  | .finalize tx, db => lazyFinalize tx db
  | .triggerHold tx, db => lazyTriggerHold tx db
  | .resolveHold tx, db => lazyResolveHold tx db
  | .expireHold tx, db => lazyExpireHold tx db
  | op, db => transaction op db

omit [Externals] in
/-- Results are followed by equal continuations equally. -/
theorem bind_congr_right {α β : Type} {x : KernelResult α} {f g : α → KernelResult β}
    (h : ∀ a, f a = g a) : (x >>= f) = (x >>= g) := by
  cases x with
  | error e => rfl
  | ok a => exact h a

/-- The shortcuts compute what the transactions do. In each of the four the append
stands before the leaf, so the leaf is of an event that has its own hash. -/
theorem lazyTransaction_eq (op : Op) (db : Db) : lazyTransaction op db = transaction op db := by
  have hleaf : ∀ {α : Type} (f : EventRecord → Db → KernelResult α) (event : EventRecord) (db : Db),
      event.eventHash = computeEventHash event →
      (appendLeaf event db >>= f event) = (appendAudit event db >>= f event) := by
    intro α f event db hashed
    rw [appendAudit_eq_appendLeaf hashed]
  cases op with
  | finalize tx =>
    refine bind_congr_right fun _ => bind_congr_right fun _ => bind_congr_right fun _ => ?_
    exact append_bind_congr fun event db' hashed => hleaf (fun ev db => .ok (ev, db)) event db' hashed
  | triggerHold tx =>
    refine bind_congr_right fun _ => append_bind_congr fun event db' hashed => ?_
    exact bind_congr_right fun db'' => hleaf (fun ev db => .ok (ev, db)) event db'' hashed
  | resolveHold tx =>
    refine bind_congr_right fun _ => bind_congr_right fun _ => ?_
    exact append_bind_congr fun event db' hashed =>
      hleaf (fun ev db => .ok ((ev, tx.cost), db)) event db' hashed
  | expireHold tx =>
    refine bind_congr_right fun _ => bind_congr_right fun _ => ?_
    exact append_bind_congr fun event db' hashed => hleaf (fun ev db => .ok (ev, db)) event db' hashed
  | _ => rfl

/-! ## The system -/

/-- What the database answers, over the shortcuts: a transaction that fails leaves the
database as it was. -/
def lazyExec (op : Op) (db : Db) : KernelResult (Val op) × Db :=
  match lazyTransaction op db with
  | .ok (v, db') => (.ok v, db')
  | .error e => (.error e, db)

/-- The database over the shortcuts, which refuses what the database refuses. -/
def lazyDatabase : Handler KernelSig Db := ⟨lazyExec, refuses⟩

/-- It is the database, so a run that is evaluated over it is a run of the kernel. -/
theorem lazyDatabase_eq : lazyDatabase = database := by
  have hexec : lazyExec = exec := by
    funext op db
    have hsame := lazyTransaction_eq op db
    cases htx : transaction op db with
    | error e => simp only [lazyExec, exec, hsame, htx]
    | ok r => simp only [lazyExec, exec, hsame, htx]
  unfold lazyDatabase database
  rw [hexec]

/-- The kernel over the shortcuts. -/
def lazySystem : System KernelSig (KernelResult Outcome) Db Request :=
  { kernelSystem with handler := lazyDatabase }

/-- It is the kernel, as its handler is the database and nothing else differs. -/
theorem lazySystem_eq : lazySystem = kernelSystem := by
  unfold lazySystem
  rw [lazyDatabase_eq]
  rfl

omit [Externals] in
/-- The run of a schedule, to be evaluated. A schedule that is looked at in several ways
is best looked at in one evaluation. -/
def lazyPlayed (turns : List (Turn Request)) : Played KernelSig (KernelResult Outcome) Db Request :=
  letI := reference
  played lazySystem StateStore.genesis turns

omit [Externals] in
/-- The run of a schedule may be evaluated over the shortcuts. Witnesses rewrite with
this and leave the rest to `decide`. -/
theorem kernelPlayed_eq (turns : List (Turn Request)) : kernelPlayed turns = lazyPlayed turns := by
  exact congrArg (fun Y => played Y StateStore.genesis turns) (@lazySystem_eq reference).symm

/-! ## One request -/

omit [Externals] in
/-- The receipt that a submit ends with, if it ends with one. -/
def receiptOf : KernelResult Outcome → Option SubmitReceipt
  | .ok (.receipt r) => some r
  | _ => none

omit [Externals] in
/-- The answer to a program and the database it leaves, to be evaluated. Nobody else is
in the way, and the database denies nothing. -/
def lazyRun {α : Type} (p : KernelProg α) (db : Db) : KernelResult α × Db :=
  letI := reference
  Attempt.run lazyDatabase p db

omit [Externals] in
/-- What is evaluated so is one of the executions that the kernel's database admits,
which leaves room for denials as well. -/
theorem executes_lazyRun {α : Type} (p : KernelProg α) (db : Db) :
    Attempt.Executes (@database reference) p db (lazyRun p db).1 (lazyRun p db).2 := by
  rw [← @lazyDatabase_eq reference]
  exact Prog.executes_run _ p db

omit [Externals] in
/-- The same with up to `n` tail calls, as an approved hold has its pending action
submitted by the request that approved it. -/
def lazyServe : (n : Nat) → KernelProg Outcome → Db → KernelResult Outcome × Db
  | 0, p, db => lazyRun p db
  | n + 1, p, db =>
    match @again reference (lazyRun p db).1 with
    | some p' => lazyServe n p' (lazyRun p db).2
    | none => lazyRun p db

omit [Externals] in
/-- A program that is evaluated to an answer, and not to a tail call, completes
with it. -/
theorem completes_lazyServe {n : Nat} {p : KernelProg Outcome} {db : Db}
    (h : @again reference (lazyServe n p db).1 = none) :
    letI := reference
    Completes kernelSystem p db (lazyServe n p db).1 (lazyServe n p db).2 := by
  induction n generalizing p db with
  | zero => exact .done (executes_lazyRun p db) h
  | succ n ih =>
    cases hagain : @again reference (lazyRun p db).1 with
    | none =>
      have hserve : lazyServe (n + 1) p db = lazyRun p db := by
        rw [lazyServe, hagain]
      rw [hserve] at h ⊢
      exact .done (executes_lazyRun p db) h
    | some p' =>
      have hserve : lazyServe (n + 1) p db = lazyServe n p' (lazyRun p db).2 := by
        rw [lazyServe, hagain]
      rw [hserve] at h ⊢
      exact .again (executes_lazyRun p db) hagain (ih h)

omit [Externals] in
/-- A submit that is evaluated to a receipt completes with it. -/
theorem completes_of_receipt {n : Nat} {p : KernelProg Outcome} {db : Db} {receipt : SubmitReceipt}
    (h : receiptOf (lazyServe n p db).1 = some receipt) :
    letI := reference
    Completes kernelSystem p db (.ok (.receipt receipt)) (lazyServe n p db).2 := by
  have hserve : (lazyServe n p db).1 = .ok (.receipt receipt) := by
    unfold receiptOf at h
    split at h
    · next r hr =>
      cases h
      exact hr
    · cases h
  have hcompletes := @completes_lazyServe n p db (by rw [hserve]; rfl)
  rwa [hserve] at hcompletes

omit [Externals] in
/-- The error that a request fails with, if it fails. -/
def errorOf : KernelResult Outcome → Option KernelError
  | .error e => some e
  | .ok _ => none

omit [Externals] in
/-- A submit that is evaluated to an error completes with it, as an error is never a
tail call. -/
theorem completes_of_error {n : Nat} {p : KernelProg Outcome} {db : Db} {e : KernelError}
    (h : errorOf (lazyServe n p db).1 = some e) :
    letI := reference
    Completes kernelSystem p db (.error e) (lazyServe n p db).2 := by
  have hserve : (lazyServe n p db).1 = .error e := by
    unfold errorOf at h
    split at h
    · next e' he' =>
      cases h
      exact he'
    · cases h
  have hcompletes := @completes_lazyServe n p db (by rw [hserve]; rfl)
  rwa [hserve] at hcompletes

end PunkgoKernel
