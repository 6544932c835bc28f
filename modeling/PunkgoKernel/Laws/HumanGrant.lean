import PunkgoKernel.Laws.Failure
import PunkgoKernel.Runtime.Evaluation

/-!
# The grants of a human

A human needs no envelope, but may have one: an envelope names whoever the
grantor names. Two databases that differ in such envelopes only
(`SameBut`) answer a request for a new envelope alike up to one place, where the
request is compared with the envelope the grantor itself has, whoever the
grantor is (`human_grant_iff`).
-/

namespace PunkgoKernel

open Relational (Table key)
open Resumption

/-! ## Databases that differ in envelopes -/

/-- The database with other envelopes, everything else as it is. -/
def Db.withEnvelopes (db : Db) (envelopes : Table EnvelopeRecord) : Db :=
  { db with envelopes := envelopes }

/-- The two differ only in envelopes of the actor. -/
structure SameBut (actorId : String) (a b : Db) : Prop where
  rest : b = a.withEnvelopes b.envelopes
  others : b.envelopes.rows.filter (fun e => e.actorId ≠ actorId) =
    a.envelopes.rows.filter (fun e => e.actorId ≠ actorId)

/-- The ledger does not look at the envelopes. -/
theorem reserve_withEnvelopes (actorId : String) (cost : Int) (db : Db)
    (envelopes : Table EnvelopeRecord) :
    EnergyLedger.reserve actorId cost (db.withEnvelopes envelopes) =
      (EnergyLedger.reserve actorId cost db).map fun r => (r.1, r.2.withEnvelopes envelopes) := by
  unfold EnergyLedger.reserve
  by_cases hcost : cost ≤ 0
  · simp [hcost, Except.map]
  simp only [hcost, if_false]
  have hledger : (db.withEnvelopes envelopes).energyLedger = db.energyLedger := rfl
  rw [hledger]
  cases db.energyLedger.find? actorId with
  | none => rfl
  | some row =>
    simp only
    split
    · rfl
    · rfl

/-- A settlement does not look at the envelopes. -/
theorem settleReservation_withEnvelopes (reservation : Option EnergyReservation) (cost : Int)
    (db : Db) (envelopes : Table EnvelopeRecord) :
    settleReservation reservation cost (db.withEnvelopes envelopes) =
      (settleReservation reservation cost db).map (·.withEnvelopes envelopes) := by
  cases reservation with
  | none => rfl
  | some res =>
    show EnergyLedger.settleInTx _ _ _ _ = (EnergyLedger.settleInTx _ _ _ _).map _
    unfold EnergyLedger.settleInTx
    split
    · rfl
    have hledger : (db.withEnvelopes envelopes).energyLedger = db.energyLedger := rfl
    rw [hledger]
    cases db.energyLedger.find? res.actorId with
    | none => rfl
    | some row =>
      simp only
      repeat' split
      all_goals rfl

variable [Externals]

/-- The log does not look at the envelopes. -/
theorem appendInTx_withEnvelopes (event : EventRecord) (db : Db)
    (envelopes : Table EnvelopeRecord) :
    EventLog.appendInTx event (db.withEnvelopes envelopes) =
      (EventLog.appendInTx event db).map fun r => (r.1, r.2.withEnvelopes envelopes) := by
  have hidx : nextIdx (db.withEnvelopes envelopes) = nextIdx db := rfl
  have hevents : (db.withEnvelopes envelopes).events = db.events := rfl
  unfold EventLog.appendInTx
  simp only [hidx, hevents]
  split
  · rfl
  · rfl

/-- The audit log does not look at the envelopes. -/
theorem appendAudit_withEnvelopes (event : EventRecord) (db : Db)
    (envelopes : Table EnvelopeRecord) :
    appendAudit event (db.withEnvelopes envelopes) =
      (appendAudit event db).map (·.withEnvelopes envelopes) := by
  unfold appendAudit AuditLog.appendLeafInTx
  rcases hexToHash event.eventHash with _ | (e | leaf)
  · rfl
  · rfl
  · simp only
    have hhashes : (db.withEnvelopes envelopes).auditHashes = db.auditHashes := rfl
    rw [hhashes]
    cases completedNodes db.auditHashes event.logIndex event.logIndex 0 leaf with
    | error e => rfl
    | ok nodes => rfl

/-- An event with its leaf, at the end of the log. -/
theorem appendBoth_withEnvelopes (event : EventRecord) (db : Db)
    (envelopes : Table EnvelopeRecord) :
    (EventLog.appendInTx event (db.withEnvelopes envelopes) >>= fun r =>
        appendAudit r.1 r.2 >>= fun db => (.ok (r.1, db) : KernelResult (EventRecord × Db))) =
      (EventLog.appendInTx event db >>= fun r => appendAudit r.1 r.2 >>= fun db => .ok (r.1, db)).map
        fun r => (r.1, r.2.withEnvelopes envelopes) := by
  rw [appendInTx_withEnvelopes]
  cases EventLog.appendInTx event db with
  | error e => rfl
  | ok r =>
    show (appendAudit r.1 (r.2.withEnvelopes envelopes) >>= fun db => .ok (r.1, db)) =
      Except.map _ (appendAudit r.1 r.2 >>= fun db => .ok (r.1, db))
    rw [appendAudit_withEnvelopes]
    cases appendAudit r.1 r.2 with
    | error e => rfl
    | ok db' => rfl

/-! ## The commit of a grant -/

omit [Externals] in
/-- What was granted, without what it was granted under. -/
def EnvelopeRecord.spec (e : EnvelopeRecord) : EnvelopeSpec where
  actorId := e.actorId
  grantorId := e.grantorId
  budget := e.budget
  targets := e.targets
  actions := e.actions
  durationSecs := e.durationSecs
  reportEvery := e.reportEvery
  holdOn := e.holdOn
  holdTimeoutSecs := e.holdTimeoutSecs

omit [Externals] in
/-- What an envelope of the database was granted for. -/
def grantedSpec (envelopeId : String) (db : Db) : Option EnvelopeSpec :=
  (EnvelopeStore.get envelopeId db).map EnvelopeRecord.spec

omit [Externals] in
/-- A new row goes with the envelopes there are, whatever the rest of the
database says. -/
theorem createInTx_withEnvelopes {envelopeId : String} (spec : EnvelopeSpec)
    (parentId : Option String) (now : Nat) {envelopes : Table EnvelopeRecord}
    (hfresh : envelopes.find? envelopeId = none) :
    ∃ envelopes', (envelopes'.find? envelopeId).map EnvelopeRecord.spec = some spec ∧
      ∀ db : Db, EnvelopeStore.createInTx envelopeId spec parentId now (db.withEnvelopes envelopes) =
        .ok (db.withEnvelopes envelopes') := by
  obtain ⟨envelopes', hins⟩ := Table.insert?_of_find?_none (t := envelopes)
    (r := ({ envelopeId := envelopeId
             actorId := spec.actorId
             grantorId := spec.grantorId
             parentEnvelopeId := parentId
             budget := spec.budget
             budgetConsumed := 0
             targets := spec.targets
             actions := spec.actions
             durationSecs := spec.durationSecs
             reportEvery := spec.reportEvery
             holdOn := spec.holdOn
             holdTimeoutSecs := spec.holdTimeoutSecs
             status := .active
             createdAt := now
             expiresAt := spec.durationSecs.map fun d =>
               (parseU64 now + secsToMillis d) % 2 ^ 64 } : EnvelopeRecord)) hfresh
  refine ⟨envelopes', ?_, ?_⟩
  · rw [Table.find?_insert hins, key_envelopeRecord, if_pos rfl]
    rfl
  · intro db
    unfold EnvelopeStore.createInTx
    simp only
    have hrows : (db.withEnvelopes envelopes).envelopes = envelopes := rfl
    rw [hrows, hins]
    rfl

/-- A grant commits like an action that creates nothing, but for the new row. -/
theorem finalize_grant {tx : FinalizeTx} {envelopeId : String} {spec : EnvelopeSpec}
    {parentId : Option String} (hactor : tx.createActor = none)
    (hgrant : tx.createEnvelope = some (envelopeId, spec, parentId))
    {envelopes envelopes' : Table EnvelopeRecord}
    (hcreate : ∀ db : Db, EnvelopeStore.createInTx envelopeId spec parentId tx.envelopeNow
      (db.withEnvelopes envelopes) = .ok (db.withEnvelopes envelopes')) (db : Db) :
    finalizeEnergyAndEvent tx (db.withEnvelopes envelopes) =
      (finalizeEnergyAndEvent { tx with createEnvelope := none } db).map
        fun r => (r.1, r.2.withEnvelopes envelopes') := by
  unfold finalizeEnergyAndEvent
  rw [hactor, hgrant, settleReservation_withEnvelopes]
  cases settleReservation tx.reservation tx.settledCost db with
  | error e => rfl
  | ok db₁ =>
    show (EnvelopeStore.createInTx envelopeId spec parentId tx.envelopeNow
      (db₁.withEnvelopes envelopes) >>= fun db => EventLog.appendInTx tx.event db >>= fun r =>
        appendAudit r.1 r.2 >>= fun db => .ok (r.1, db)) = _
    rw [hcreate]
    exact appendBoth_withEnvelopes tx.event db₁ envelopes'

/-- A commit that creates no actor keeps the actors. -/
theorem finalize_actors {tx : FinalizeTx} {db db' : Db} {event : EventRecord}
    (hactor : tx.createActor = none) (hgrant : tx.createEnvelope = none)
    (h : finalizeEnergyAndEvent tx db = .ok (event, db')) : db'.actors = db.actors := by
  unfold finalizeEnergyAndEvent at h
  rw [hactor, hgrant] at h
  obtain ⟨db₁, hsettle, h₁⟩ := bind_eq_ok.mp h
  have hsettled : db₁.actors = db.actors := by
    cases hres : tx.reservation with
    | none =>
      rw [hres] at hsettle
      cases hsettle
      rfl
    | some res =>
      rw [hres] at hsettle
      obtain ⟨row, -, -, -, -, -, -, -, rfl⟩ := EnergyLedger.settleInTx_eq_ok hsettle
      rfl
  obtain ⟨db₂, hcreated, h₂⟩ := bind_eq_ok.mp h₁
  cases hcreated
  obtain ⟨db₃, hgranted, h₃⟩ := bind_eq_ok.mp h₂
  cases hgranted
  obtain ⟨⟨ev, db₄⟩, happend, h₄⟩ := bind_eq_ok.mp h₃
  obtain ⟨-, events, -, rfl⟩ := EventLog.appendInTx_eq_ok happend
  obtain ⟨db₅, haudit, h₅⟩ := bind_eq_ok.mp h₄
  obtain ⟨leaf, nodes, -, -, rfl⟩ := appendAudit_eq_ok haudit
  cases h₅
  exact hsettled

/-! ## The payment of a grant -/

/-- The request of an actor for a new envelope. -/
structure GrantRequest (actorId : String) (action : Action) : Prop where
  by_actor : action.actorId = actorId
  create : action.actionType = .create
  target : action.target = "ledger/envelope"

omit [Externals] in
/-- A request for an envelope is no lifecycle operation. -/
theorem GrantRequest.lifecycleOp? {H : String} {action : Action} (h : GrantRequest H action) :
    PunkgoKernel.lifecycleOp? action = none := by
  unfold PunkgoKernel.lifecycleOp?
  rw [h.create]
  rfl

omit [Externals] in
/-- A request for an envelope is no response to a hold. -/
theorem GrantRequest.holdResponse? {H : String} {action : Action} (h : GrantRequest H action) :
    PunkgoKernel.holdResponse? action = none := by
  unfold PunkgoKernel.holdResponse?
  rw [h.create]
  rfl

omit [Externals] in
/-- A request for an envelope has no artifact. -/
theorem GrantRequest.artifactHashOf {H : String} {action : Action} (h : GrantRequest H action) :
    PunkgoKernel.artifactHashOf action = .ok none := by
  unfold PunkgoKernel.artifactHashOf
  rw [h.create]
  rfl

/-- Calling an operation performs it. -/
theorem run_call (op : Op) (db : Db) : Attempt.run database (call op) db = exec op db := rfl

/-- A commit that fails ends the request with its error and leaves the store; one that
succeeds goes on with the event. -/
theorem run_finalize (tx : FinalizeTx) (f : EventRecord → KernelProg Outcome) (db : Db) :
    Attempt.run database (call (.finalize tx) >>= f) db =
      match finalizeEnergyAndEvent tx db with
      | .ok (event, db') => Attempt.run database (f event) db'
      | .error e => (.error e, db) := by
  refine (Attempt.run_bind database (call (.finalize tx)) f db).trans ?_
  rw [run_call]
  simp only [exec, transaction]
  cases finalizeEnergyAndEvent tx db with
  | error e => rfl
  | ok r => rfl

/-- After a grant nothing is charged to a human. -/
theorem run_afterCommit {H : String} {action : Action} (hrequest : GrantRequest H action)
    {actor : ActorRecord} {db : Db} (hactor : db.actors.find? H = some actor)
    (hhuman : actor.actorType = .human) (cost : Int) (artifactHash : Option String)
    (event : EventRecord) :
    Attempt.run database (afterCommit action cost artifactHash event) db =
      (.ok (.receipt ⟨event.id, event.logIndex, event.eventHash, cost, cost, artifactHash⟩), db) := by
  have hpolicy : parsePolicyVersion action = none := by
    unfold parsePolicyVersion
    rw [hrequest.target, if_pos (.inr (by decide))]
  have hcharge : Attempt.run database (chargeEnvelope action cost) db = (.ok (), db) := by
    unfold chargeEnvelope
    split
    · have hread : exec (.getActor action.actorId) db = (.ok (some actor), db) := by
        rw [hrequest.by_actor, ← hactor]
        rfl
      have hoc : Attempt.run database (Attempt.outcome (call (.getActor action.actorId))) db =
          (.ok (.ok (some actor)), db) := by
        show (Except.ok (exec (.getActor action.actorId) db).1, (exec (.getActor action.actorId) db).2) = _
        rw [hread]
      rw [Attempt.run_bind_ok _ hoc]
      simp only [hhuman, reduceCtorEq, if_false]
      rfl
    · rfl
  unfold afterCommit
  rw [hpolicy, hrequest.lifecycleOp?]
  show Attempt.run database (chargeEnvelope action cost >>= fun _ => _) db = _
  rw [Attempt.run_bind_ok _ hcharge]
  rfl

/-- Quoting and reserving do not look at the envelopes. -/
theorem run_quoteAndReserve (action : Action) (db : Db) (envelopes : Table EnvelopeRecord) :
    Attempt.run database (quoteAndReserve action) (db.withEnvelopes envelopes) =
      ((Attempt.run database (quoteAndReserve action) db).1,
        (Attempt.run database (quoteAndReserve action) db).2.withEnvelopes envelopes) := by
  unfold quoteAndReserve
  cases holdReservedCost action.payload with
  | some reserved => rfl
  | none =>
    simp only
    split
    · rw [Attempt.run_bind, Attempt.run_bind, run_call, run_call]
      simp only [exec, transaction, reserve_withEnvelopes]
      cases EnergyLedger.reserve action.actorId (quoteCost action) db with
      | error e => rfl
      | ok r => rfl
    · rfl

/-- Quoting and reserving leave the actors alone. -/
theorem run_quoteAndReserve_actors (action : Action) (db : Db) :
    (Attempt.run database (quoteAndReserve action) db).2.actors = db.actors := by
  unfold quoteAndReserve
  cases holdReservedCost action.payload with
  | some reserved => rfl
  | none =>
    simp only
    split
    · rw [Attempt.run_bind, run_call]
      simp only [exec, transaction]
      cases hres : EnergyLedger.reserve action.actorId (quoteCost action) db with
      | error e => rfl
      | ok r =>
        obtain ⟨row, -, -, -, -, hdb⟩ := @EnergyLedger.reserve_eq_ok _ _ _ r.2 r.1 hres
        show r.2.actors = db.actors
        rw [hdb]
    · rfl

/-- A human's grant is paid like an action that creates nothing. What the
envelopes say has no part in it. -/
theorem run_payAndCommit_grant {H : String} {env : Env} {action : Action}
    (hrequest : GrantRequest H action) {spec : EnvelopeSpec} {parentId : Option String}
    {envelopes envelopes' : Table EnvelopeRecord}
    (hcreate : ∀ db : Db, EnvelopeStore.createInTx (env.uuid .envelope) spec parentId
      (env.clock .envelope) (db.withEnvelopes envelopes) = .ok (db.withEnvelopes envelopes'))
    {actor : ActorRecord} {db : Db} (hactor : db.actors.find? H = some actor)
    (hhuman : actor.actorType = .human) {r : KernelResult Outcome} {db' : Db}
    (h : Attempt.run database (payAndCommit env action ⟨none, none, none⟩) db = (r, db')) :
    ∃ rest : Table EnvelopeRecord,
      Attempt.run database
        (payAndCommit env action ⟨none, none, some (env.uuid .envelope, spec, parentId)⟩)
        (db.withEnvelopes envelopes) = (r, db'.withEnvelopes rest) ∧
      rest = (match r with | .ok _ => envelopes' | .error _ => envelopes) := by
  refine ⟨_, ?_, rfl⟩
  unfold payAndCommit at h ⊢
  rw [Attempt.run_bind] at h ⊢
  rw [run_quoteAndReserve]
  have hactors := run_quoteAndReserve_actors action db
  rcases hquote : Attempt.run database (quoteAndReserve action) db with ⟨_ | ⟨cost, reservation⟩, db₁⟩
  · rw [hquote] at h
    cases h
    rfl
  rw [hquote] at h hactors
  simp only [hrequest.artifactHashOf] at h ⊢
  have hplain : Attempt.run database
      (call (.finalize (finalizeTx env action ⟨none, none, none⟩ cost reservation none)) >>=
        afterCommit action cost none) db₁ = (r, db') := h
  show Attempt.run database
      (call (.finalize (finalizeTx env action
        ⟨none, none, some (env.uuid .envelope, spec, parentId)⟩ cost reservation none)) >>=
        afterCommit action cost none) (db₁.withEnvelopes envelopes) = _
  have hgrant := @finalize_grant _ (finalizeTx env action
    ⟨none, none, some (env.uuid .envelope, spec, parentId)⟩ cost reservation none) _ _ _ rfl rfl
    _ _ hcreate db₁
  rw [run_finalize] at hplain ⊢
  rw [hgrant]
  have hsame : { finalizeTx env action ⟨none, none, some (env.uuid .envelope, spec, parentId)⟩ cost
      reservation none with createEnvelope := none } =
      finalizeTx env action ⟨none, none, none⟩ cost reservation none := rfl
  rw [hsame]
  cases hcommit : finalizeEnergyAndEvent
      (finalizeTx env action ⟨none, none, none⟩ cost reservation none) db₁ with
  | error e =>
    rw [hcommit] at hplain
    cases hplain
    rfl
  | ok committed =>
    obtain ⟨event, db₂⟩ := committed
    rw [hcommit] at hplain
    have hrow : db₂.actors.find? H = some actor := by
      rw [finalize_actors rfl rfl hcommit, hactors, hactor]
    simp only [Except.map] at hplain ⊢
    rw [run_afterCommit hrequest hrow hhuman] at hplain
    rw [@run_afterCommit _ _ _ hrequest _ (db₂.withEnvelopes envelopes') hrow hhuman]
    cases hplain
    rfl

/-! ## The checks of a grant -/

omit [Externals] in
/-- The envelopes once the latest of an actor's was used: past its deadline it
is marked. -/
def lapsedEnvelopes (env : Env) (actorId : String) (db : Db) : Table EnvelopeRecord :=
  match EnvelopeStore.getActiveForActor actorId db with
  | some e =>
    if isEnvelopeExpired e (nowMillisU64 (env.clock .envelopeExpiry)) then
      db.envelopes.modify e.envelopeId fun r => { r with status := .expired }
    else db.envelopes
  | none => db.envelopes

omit [Externals] in
/-- The envelope a grant is compared with: the latest active one of the grantor,
after the one that was the latest has lapsed. -/
def standingEnvelope (env : Env) (actorId : String) (db : Db) : Option EnvelopeRecord :=
  EnvelopeStore.getActiveForActor actorId (db.withEnvelopes (lapsedEnvelopes env actorId db))

/-- The checks on the actor's row. -/
def rowChecks (action : Action) (actor : ActorRecord) : KernelResult Unit := do
  checkFrozen actor action
  checkWritableBoundary actor action.target action.actionType

/-- The checks that do not look at any envelope. -/
def grantChecks (action : Action) (actor : ActorRecord) : KernelResult EnvelopeSpec := do
  validateAction action
  rowChecks action actor
  parseEnvelopeFields action

/-- The comparison with the standing envelope, if there is one. -/
def reductionCheck (spec : EnvelopeSpec) : Option EnvelopeRecord → KernelResult Unit
  | some parent => validateEnvelopeReduction parent spec
  | none => .ok ()

omit [Externals] in
/-- Marking an envelope brings none in and takes none away. -/
theorem lapsedEnvelopes_find (env : Env) (actorId : String) (db : Db) (envelopeId : String) :
    (lapsedEnvelopes env actorId db).find? envelopeId = none ↔
      db.envelopes.find? envelopeId = none := by
  have hsame : ((lapsedEnvelopes env actorId db).find? envelopeId).isSome ↔
      (db.envelopes.find? envelopeId).isSome := by
    unfold lapsedEnvelopes
    split
    · split
      · rw [Table.isSome_find?_modify]
      · rfl
    · rfl
  rw [← Option.not_isSome_iff_eq_none, hsame, Option.not_isSome_iff_eq_none]

/-- A human's changes need no envelope, but the one there is may lapse. -/
theorem run_authorizeStateChange_human {env : Env} {action : Action} {actor : ActorRecord} (db : Db)
    (hhuman : actor.actorType = .human) :
    Attempt.run database (authorizeStateChange env action actor) db =
      (.ok none, db.withEnvelopes (lapsedEnvelopes env action.actorId db)) := by
  have hmode : ∀ envelope, checkAuthorization actor envelope = .ok .manInTheLoop := by
    intro envelope
    unfold checkAuthorization determineAuthorizationMode
    rw [hhuman]
  have hexpire : Attempt.run database
      (expireEnvelope env (EnvelopeStore.getActiveForActor action.actorId db)) db =
      (.ok ((EnvelopeStore.getActiveForActor action.actorId db).filter fun e =>
        !isEnvelopeExpired e (nowMillisU64 (env.clock .envelopeExpiry))),
        db.withEnvelopes (lapsedEnvelopes env action.actorId db)) := by
    unfold lapsedEnvelopes
    cases hactive : EnvelopeStore.getActiveForActor action.actorId db with
    | none => rfl
    | some e =>
      obtain ⟨hrow, -, -⟩ := EnvelopeStore.getActiveForActor_some hactive
      by_cases hexpired : isEnvelopeExpired e (nowMillisU64 (env.clock .envelopeExpiry))
      · have hstatus : Attempt.run database (call (.setEnvelopeStatus e.envelopeId .expired)) db =
            (.ok (), db.withEnvelopes
              (db.envelopes.modify e.envelopeId fun r => { r with status := .expired })) := by
          rw [run_call]
          simp only [exec, transaction, EnvelopeStore.setStatusInTx, hrow]
          rfl
        simp only [expireEnvelope, hexpired, if_true, Option.filter, Bool.not_true]
        exact (Attempt.run_bind_ok database hstatus).trans rfl
      · simp only [expireEnvelope, hexpired, Option.filter, Bool.false_eq_true, if_false]
        rfl
  unfold authorizeStateChange
  have hread : Attempt.run database (call (.getActiveForActor action.actorId)) db =
      (.ok (EnvelopeStore.getActiveForActor action.actorId db), db) := rfl
  refine (Attempt.run_bind_ok database hread).trans ?_
  refine (Attempt.run_bind_ok database hexpire).trans ?_
  rw [hmode]
  rfl

/-- The checks of a human's row. -/
theorem run_authorizeActor_human {H : String} {env : Env} {action : Action}
    (hrequest : GrantRequest H action) {actor : ActorRecord} {db : Db}
    (hactor : db.actors.find? H = some actor) (hhuman : actor.actorType = .human) :
    Attempt.run database (authorizeActor env action) db =
      match rowChecks action actor with
      | .error e => (.error e, db)
      | .ok () => (.ok none, db.withEnvelopes (lapsedEnvelopes env H db)) := by
  have hread : Attempt.run database (call (.getActor action.actorId)) db = (.ok (some actor), db) := by
    rw [hrequest.by_actor, ← hactor]
    rfl
  unfold authorizeActor
  refine (Attempt.run_bind_ok database hread).trans ?_
  show Attempt.run database (authorize env action actor) db = _
  unfold authorize rowChecks
  cases hfrozen : checkFrozen actor action with
  | error e => rfl
  | ok u =>
    cases hwritable : checkWritableBoundary actor action.target action.actionType with
    | error e => rfl
    | ok u' =>
      have hlineage : checkLineage action actor = pure () := by
        unfold checkLineage
        rw [hhuman, if_neg (fun h => by cases h.1)]
      have hchanging : action.actionType.isStateChanging = true := by
        rw [hrequest.create]
        rfl
      rw [hlineage, hchanging]
      have hrun := @run_authorizeStateChange_human _ env action _ db hhuman
      rw [hrequest.by_actor] at hrun
      exact hrun

/-- What the checks of a human's grant decide, and what has lapsed by then. -/
theorem run_preflight_grant {H : String} {env : Env} {action : Action}
    (hrequest : GrantRequest H action) {actor : ActorRecord} {db : Db}
    (hactor : db.actors.find? H = some actor) (hhuman : actor.actorType = .human) :
    ∃ rest, (rest = db.envelopes ∨ rest = lapsedEnvelopes env H db) ∧
      Attempt.run database (preflight env action) db =
        ((do
          let spec ← grantChecks action actor
          reductionCheck spec (standingEnvelope env H db)
          .ok ⟨none, none, some (env.uuid .envelope, spec,
            (standingEnvelope env H db).map EnvelopeRecord.envelopeId)⟩),
        db.withEnvelopes rest) := by
  have hknown : Attempt.run database (requireActor action.actorId) db = (.ok (), db) := by
    have hexists : Attempt.run database (call (.actorExists action.actorId)) db = (.ok true, db) := by
      rw [run_call]
      simp only [exec, transaction, StateStore.actorExists]
      rw [hrequest.by_actor, hactor]
      rfl
    exact (Attempt.run_bind_ok database hexists).trans rfl
  have hauth := @run_authorizeActor_human _ _ env _ hrequest _ _ hactor hhuman
  unfold preflight grantChecks
  cases hvalid : validateAction action with
  | error e => exact ⟨db.envelopes, .inl rfl, rfl⟩
  | ok u =>
  show ∃ rest, _ ∧ Attempt.run database (requireActor action.actorId >>= fun _ => _) db = _
  rw [Attempt.run_bind_ok database hknown]
  cases hrow : rowChecks action actor with
  | error e =>
    rw [hrow] at hauth
    refine ⟨db.envelopes, .inl rfl, ?_⟩
    rw [Attempt.run_bind_error database hauth]
    rfl
  | ok u' =>
  rw [hrow] at hauth
  refine ⟨_, .inr rfl, ?_⟩
  rw [Attempt.run_bind_ok database hauth]
  have hactorSpec : parseCreateActorSpec action = pure none := by
    unfold parseCreateActorSpec
    rw [if_pos (.inr (by rw [hrequest.target]; decide))]
  have henvelopeSpec : parseCreateEnvelopeSpec env action = (do
      let spec ← check (parseEnvelopeFields action)
      let grantorEnvelope ← call (.getActiveForActor action.actorId)
      let parentId ← check (parentEnvelope spec grantorEnvelope)
      pure (some (env.uuid .envelope, spec, parentId))) := by
    unfold parseCreateEnvelopeSpec
    rw [if_neg (by rw [hrequest.create, hrequest.target]; decide)]
  rw [hrequest.lifecycleOp?, hactorSpec, henvelopeSpec]
  cases hspec : parseEnvelopeFields action with
  | error e => rfl
  | ok spec =>
  have hstanding : Attempt.run database (call (.getActiveForActor action.actorId))
      (db.withEnvelopes (lapsedEnvelopes env H db)) =
      (.ok (standingEnvelope env H db), db.withEnvelopes (lapsedEnvelopes env H db)) := by
    rw [hrequest.by_actor]
    rfl
  show Attempt.run database ((call (.getActiveForActor action.actorId) >>= fun grantorEnvelope =>
    check (parentEnvelope spec grantorEnvelope) >>= fun parentId =>
      pure (some (env.uuid .envelope, spec, parentId))) >>= fun createEnvelope =>
        (pure (⟨none, none, createEnvelope⟩ : Ready) : KernelProg Ready)) _ =
    ((reductionCheck spec (standingEnvelope env H db) >>= fun _ => .ok ⟨none, none,
      some (env.uuid .envelope, spec,
        (standingEnvelope env H db).map EnvelopeRecord.envelopeId)⟩), _)
  rw [Attempt.bind_assoc, Attempt.run_bind_ok database hstanding]
  -- a grant with no envelope to be compared with has no parent
  cases standingEnvelope env H db with
  | none => rfl
  | some parent =>
    simp only [parentEnvelope, reductionCheck]
    cases validateEnvelopeReduction parent spec with
    | error e => rfl
    | ok u => rfl

/-! ## Who refuses a grant -/

omit [Externals] in
/-- The error of an envelope that does not cover what is asked. -/
def Unauthorized (e : KernelError) : Prop := ∃ detail, e = .authorizationRequired detail

omit [Externals] in
/-- A failure of the database is no refusal of an envelope. -/
theorem not_unauthorized_database {e : KernelError} (h : DatabaseFailure e) : ¬ Unauthorized e := by
  rintro ⟨detail, rfl⟩
  cases h

/-- Where the actions of a grant go beyond the parent's, the refusal says so. -/
theorem reduceActions_unauthorized {parent : EnvelopeRecord} {actions : List String} {e : KernelError}
    (h : reduceActions parent actions = .error e) : Unauthorized e := by
  induction actions with
  | nil => cases h
  | cons a rest ih =>
    unfold reduceActions at h
    split at h
    · exact ih h
    · cases h
      exact ⟨_, rfl⟩

/-- Where the targets of a grant go beyond the parent's, the refusal says so. -/
theorem reduceTargets_unauthorized {parent : EnvelopeRecord} {targets : List String} {e : KernelError}
    (h : reduceTargets parent targets = .error e) : Unauthorized e := by
  induction targets with
  | nil => cases h
  | cons t rest ih =>
    unfold reduceTargets at h
    split at h
    · exact ih h
    · cases h
      exact ⟨_, rfl⟩

/-- The comparison with a standing envelope refuses a grant in no other way. -/
theorem reductionCheck_unauthorized {spec : EnvelopeSpec} {standing : Option EnvelopeRecord}
    {e : KernelError} (h : reductionCheck spec standing = .error e) : Unauthorized e := by
  cases standing with
  | none => cases h
  | some parent =>
    simp only [reductionCheck, validateEnvelopeReduction] at h
    split at h
    · cases h
      exact ⟨_, rfl⟩
    · rcases bind_eq_error.mp h with hactions | ⟨u, -, htargets⟩
      · exact reduceActions_unauthorized hactions
      · exact reduceTargets_unauthorized htargets

omit [Externals] in
/-- A reservation that fails is no refusal of an envelope. -/
theorem reserve_authorized {actorId : String} {cost : Int} {db : Db} {e : KernelError}
    (h : EnergyLedger.reserve actorId cost db = .error e) : ¬ Unauthorized e := by
  rintro ⟨detail, rfl⟩
  unfold EnergyLedger.reserve at h
  split at h
  · cases h
  split at h
  · cases h
  simp only at h
  split at h
  · cases h
  · cases h

omit [Externals] in
/-- A settlement that fails is no refusal of an envelope. -/
theorem settleReservation_authorized {reservation : Option EnergyReservation} {cost : Int} {db : Db}
    {e : KernelError} (h : settleReservation reservation cost db = .error e) : ¬ Unauthorized e := by
  rintro ⟨detail, rfl⟩
  cases reservation with
  | none => cases h
  | some res =>
    simp only [settleReservation, EnergyLedger.settleInTx] at h
    split at h
    · cases h
    split at h
    · cases h
    split at h
    · cases h
    split at h
    · cases h
    split at h
    · cases h
    · cases h

/-- A commit that creates no actor is not refused for want of an envelope. -/
theorem finalize_authorized {tx : FinalizeTx} {db : Db} {e : KernelError}
    (hactor : tx.createActor = none) (h : finalizeEnergyAndEvent tx db = .error e) :
    ¬ Unauthorized e := by
  rcases bind_eq_error.mp h with hsettle | ⟨db₁, -, h₁⟩
  · exact settleReservation_authorized hsettle
  rw [hactor] at h₁
  rcases bind_eq_error.mp h₁ with hcreate | ⟨db₂, -, h₂⟩
  · cases hcreate
  rcases bind_eq_error.mp h₂ with hgrant | ⟨db₃, -, h₃⟩
  · exact not_unauthorized_database (createEnvelopeRow_error hgrant)
  rcases bind_eq_error.mp h₃ with happend | ⟨⟨event, db₄⟩, -, h₄⟩
  · exact not_unauthorized_database (appendInTx_error happend)
  rcases bind_eq_error.mp h₄ with haudit | ⟨db₅, -, h₅⟩
  · rintro ⟨detail, rfl⟩
    unfold appendAudit at haudit
    split at haudit
    · cases haudit
    · cases haudit
  · cases h₅

/-- Once the checks are passed, nothing is refused for want of an envelope. -/
theorem payAndCommit_authorized {H : String} {env : Env} {action : Action}
    (hrequest : GrantRequest H action) {db db' : Db} {e : KernelError}
    (h : Attempt.Executes database (payAndCommit env action ⟨none, none, none⟩) db (.error e) db') :
    ¬ Unauthorized e := by
  by_cases hserved : DatabaseFailure e
  · exact not_unauthorized_database hserved
  rcases Attempt.executes_bind.mp h with ⟨⟨cost, reservation⟩, db₁, -, h₁⟩ | ⟨e', he', hquote⟩
  swap
  · cases he'
    unfold quoteAndReserve at hquote
    split at hquote
    · cases hquote.1
    have hpos : (0 : Int) < quoteCost action := by exact_mod_cast quoteCost_pos action
    rw [if_pos hpos] at hquote
    rcases Attempt.executes_bind.mp hquote with ⟨res, db₁, -, herr, -⟩ | ⟨e', he', hcall⟩
    · cases herr
    · cases he'
      exact reserve_authorized (executes_call_failed (fun _ hop => by cases hop) hserved hcall)
  simp only [hrequest.artifactHashOf] at h₁
  rcases Attempt.executes_bind.mp h₁ with ⟨artifactHash, db₂, -, h₂⟩ | ⟨e', -, hartifact, -⟩
  swap
  · cases hartifact
  rcases Attempt.executes_bind.mp h₂ with ⟨event, db₃, -, h₃⟩ | ⟨e', he', hcall⟩
  · rcases afterCommit_answer h₃ with hok | ⟨e', hfailure, herr⟩
    · cases hok
    · cases herr
      exact absurd hfailure hserved
  · cases he'
    exact finalize_authorized rfl
      (executes_call_failed (fun _ hop => by cases hop) hserved hcall)

/-! ## What comes of a grant -/

/-- What is granted and what is answered, when the standing envelope and the
payment are given. -/
def grantOutcome (action : Action) (actor : ActorRecord) (standing : Option EnvelopeRecord)
    (paid : KernelResult Outcome) : KernelResult (EnvelopeSpec × Outcome) := do
  let spec ← grantChecks action actor
  reductionCheck spec standing
  let outcome ← paid
  .ok (spec, outcome)

/-- The answer to a human's request for an envelope, and what it granted. All
that these owe to the envelopes there are is the standing one. -/
theorem run_submit_grant {H : String} {envs : Nat → Env} {action : Action}
    (hrequest : GrantRequest H action) {actor : ActorRecord} {base : Db}
    (hactor : base.actors.find? H = some actor) (hhuman : actor.actorType = .human)
    {envelopes : Table EnvelopeRecord} (hfresh : envelopes.find? ((envs 0).uuid .envelope) = none)
    {out : KernelResult (EnvelopeSpec × Outcome)}
    (hout : out = grantOutcome action actor
      (standingEnvelope (envs 0) H (base.withEnvelopes envelopes))
      (Attempt.run database (payAndCommit (envs 0) action ⟨none, none, none⟩) base).1) :
    ∃ db', Attempt.run database (submitAction envs action) (base.withEnvelopes envelopes) =
        (out.map Prod.snd, db') ∧
      grantedSpec ((envs 0).uuid .envelope) db' = out.toOption.map Prod.fst := by
  subst hout
  obtain ⟨rest, hrest, hpreflight⟩ := @run_preflight_grant _ _ (envs 0) _ hrequest _
    (base.withEnvelopes envelopes) hactor hhuman
  have hfresh' : rest.find? ((envs 0).uuid .envelope) = none := by
    rcases hrest with rfl | rfl
    · exact hfresh
    · exact (lapsedEnvelopes_find _ _ _ _).mpr hfresh
  have hnone : ∀ db : Db, grantedSpec ((envs 0).uuid .envelope) (db.withEnvelopes rest) = none := by
    intro db
    show (rest.find? _).map EnvelopeRecord.spec = none
    rw [hfresh']
    rfl
  rw [submitAction_eq envs hrequest.holdResponse?]
  unfold grantOutcome
  generalize standingEnvelope (envs 0) H (base.withEnvelopes envelopes) = standing at hpreflight ⊢
  cases hchecks : grantChecks action actor with
  | error e =>
    rw [hchecks] at hpreflight
    exact ⟨base.withEnvelopes rest, Attempt.run_bind_error database hpreflight, hnone base⟩
  | ok spec =>
  rw [hchecks] at hpreflight
  have hready : Attempt.run database (preflight (envs 0) action) (base.withEnvelopes envelopes) =
      (reductionCheck spec standing >>= fun _ => .ok ⟨none, none, some ((envs 0).uuid .envelope,
        spec, standing.map EnvelopeRecord.envelopeId)⟩, base.withEnvelopes rest) := hpreflight
  show ∃ db', _ = (Except.map Prod.snd (reductionCheck spec standing >>= fun _ => _), db') ∧ _ =
    Option.map Prod.fst (reductionCheck spec standing >>= fun _ => _).toOption
  cases hreduce : reductionCheck spec standing with
  | error e =>
    rw [hreduce] at hready
    exact ⟨base.withEnvelopes rest, Attempt.run_bind_error database hready, hnone base⟩
  | ok u =>
  rw [hreduce] at hready
  rw [Attempt.run_bind_ok database hready]
  -- the payment is the same whatever the envelopes
  obtain ⟨envelopes', hspec, hcreate⟩ := createInTx_withEnvelopes spec
    (standing.map EnvelopeRecord.envelopeId) ((envs 0).clock .envelope) hfresh'
  rcases hpaid : Attempt.run database (payAndCommit (envs 0) action ⟨none, none, none⟩) base with
    ⟨r, db'⟩
  obtain ⟨after, hrun, hafter⟩ := run_payAndCommit_grant hrequest hcreate hactor hhuman hpaid
  rw [hrun]
  cases r with
  | error e =>
    subst hafter
    exact ⟨_, rfl, hnone db'⟩
  | ok outcome =>
    subst hafter
    exact ⟨_, rfl, hspec⟩

omit [Externals] in
/-- The two answer alike, and what they granted, if anything, is the same. -/
structure GrantedAlike (env : Env) (a b : KernelResult Outcome × Db) : Prop where
  answer : a.1 = b.1
  granted : grantedSpec (env.uuid .envelope) a.2 = grantedSpec (env.uuid .envelope) b.2

/-- A refusal for want of an envelope is the comparison's. -/
theorem reductionCheck_of_answer {spec : EnvelopeSpec} {a b : Option EnvelopeRecord}
    {paid : KernelResult Outcome} (hpaid : ∀ e, paid = .error e → ¬ Unauthorized e) {e : KernelError}
    (ha : reductionCheck spec a = .error e)
    (h : ((reductionCheck spec a >>= fun _ => paid >>= fun o => .ok (spec, o)).map Prod.snd :
        KernelResult Outcome) =
      (reductionCheck spec b >>= fun _ => paid >>= fun o => .ok (spec, o)).map Prod.snd) :
    reductionCheck spec b = .error e := by
  rw [ha] at h
  cases hb : reductionCheck spec b with
  | error e' =>
    rw [hb] at h
    cases h
    rfl
  | ok u =>
    rw [hb] at h
    cases hp : paid with
    | error e' =>
      rw [hp] at h
      cases h
      exact absurd (reductionCheck_unauthorized ha) (hpaid e hp)
    | ok outcome =>
      rw [hp] at h
      cases h

/-- A grant comes to the same under two standing envelopes exactly where both or neither
refuse it, since what it costs and what is paid owe nothing to them. -/
theorem grantOutcome_alike_iff (action : Action) (actor : ActorRecord) (a b : Option EnvelopeRecord)
    {paid : KernelResult Outcome} (hpaid : ∀ e, paid = .error e → ¬ Unauthorized e) :
    ((grantOutcome action actor a paid).map Prod.snd = (grantOutcome action actor b paid).map Prod.snd ∧
      (grantOutcome action actor a paid).toOption.map Prod.fst =
        (grantOutcome action actor b paid).toOption.map Prod.fst) ↔
      ∀ spec, grantChecks action actor = .ok spec → reductionCheck spec a = reductionCheck spec b := by
  constructor
  · rintro ⟨h, -⟩ spec hspec
    unfold grantOutcome at h
    rw [hspec] at h
    cases ha : reductionCheck spec a with
    | error e => exact (reductionCheck_of_answer hpaid ha h).symm
    | ok u =>
      cases hb : reductionCheck spec b with
      | error e =>
        have herr := reductionCheck_of_answer hpaid hb h.symm
        rw [ha] at herr
        cases herr
      | ok u' => rfl
  · intro h
    have hsame : grantOutcome action actor a paid = grantOutcome action actor b paid := by
      unfold grantOutcome
      cases hspec : grantChecks action actor with
      | error e => rfl
      | ok spec =>
        show (reductionCheck spec a >>= fun _ => _) = (reductionCheck spec b >>= fun _ => _)
        rw [h spec hspec]
    rw [hsame]
    exact ⟨rfl, rfl⟩

/-- A human's request for an envelope comes to the same in two databases that
differ in envelopes of the human, if and only if it passes the comparison with
the standing envelope of the one as it passes that of the other. -/
theorem human_grant_iff {H : String} {s₁ s₂ : Db} (hsame : SameBut H s₁ s₂) {actor : ActorRecord}
    (hactor : s₁.actors.find? H = some actor) (hhuman : actor.actorType = .human)
    {envs : Nat → Env} {action : Action} (hrequest : GrantRequest H action)
    (hfresh₁ : s₁.envelopes.find? ((envs 0).uuid .envelope) = none)
    (hfresh₂ : s₂.envelopes.find? ((envs 0).uuid .envelope) = none) :
    GrantedAlike (envs 0) (Attempt.run database (submitAction envs action) s₁)
        (Attempt.run database (submitAction envs action) s₂) ↔
      ∀ spec, grantChecks action actor = .ok spec →
        reductionCheck spec (standingEnvelope (envs 0) H s₁) =
          reductionCheck spec (standingEnvelope (envs 0) H s₂) := by
  obtain ⟨db₁, hrun₁, hgranted₁⟩ := @run_submit_grant _ _ envs action hrequest _ s₁
    hactor hhuman s₁.envelopes hfresh₁ _ rfl
  obtain ⟨db₂, hrun₂, hgranted₂⟩ := @run_submit_grant _ _ envs action hrequest _ s₁
    hactor hhuman s₂.envelopes hfresh₂ _ rfl
  rw [← hsame.rest] at hrun₂ hgranted₂
  have hpaid : ∀ e, (Attempt.run database (payAndCommit (envs 0) action ⟨none, none, none⟩) s₁).1 =
      .error e → ¬ Unauthorized e := by
    intro e he
    have hexecutes := Prog.executes_run database (payAndCommit (envs 0) action ⟨none, none, none⟩) s₁
    have hexecutes' : Attempt.Executes database (payAndCommit (envs 0) action ⟨none, none, none⟩) s₁
        (.error e) _ := he ▸ hexecutes
    exact payAndCommit_authorized hrequest hexecutes'
  have hiff := grantOutcome_alike_iff action actor (standingEnvelope (envs 0) H s₁)
    (standingEnvelope (envs 0) H s₂) hpaid
  have hrun₁' : Attempt.run database (submitAction envs action) s₁ = _ := hrun₁
  refine Iff.trans ?_ hiff
  constructor
  · rintro ⟨hanswer, hgranted⟩
    rw [hrun₁', hrun₂] at hanswer hgranted
    rw [hgranted₁, hgranted₂] at hgranted
    exact ⟨hanswer, hgranted⟩
  · rintro ⟨hanswer, hgranted⟩
    refine ⟨?_, ?_⟩
    · rw [hrun₁', hrun₂]
      exact hanswer
    · rw [hrun₁', hrun₂, hgranted₁, hgranted₂]
      exact hgranted

/-! ## A human held to an envelope -/

/-- Root grants itself two envelopes, of ten seconds and then of five. -/
def ownEnvelopes : List (Turn Request) :=
  alone 30 (grantEnvelope 0 "root" 100 [("duration_secs", .num (.int 10))]) ++
    alone 30 (grantEnvelope 1 "root" 50 [("duration_secs", .num (.int 5))])

/-- Root then asks for an envelope without a budget, which is refused; the second
envelope has lapsed by then. -/
def ownEnvelopesUsed : List (Turn Request) :=
  ownEnvelopes ++
    alone 30 (submitAt 9 "root" .create "ledger/envelope" (Json.object [("actor_id", .str "agent-1")]))

/-- Root's request for an envelope of a certain budget. -/
def rootGrant (budget : Int) : Action where
  actorId := "root"
  actionType := .create
  target := "ledger/envelope"
  payload := Json.object
    [("actor_id", .str "agent-1"),
     ("budget", .num (.int budget)),
     ("targets", .arr [.str "**"]),
     ("actions", .arr [.str "mutate"])]
  timestamp := none

/-- The operations that change envelopes alone, or nothing. -/
def Op.keepsRest : Op → Bool
  | .setEnvelopeStatus .. => true
  | op => op.isRead

/-- An operation that changes envelopes alone leaves the rest of the database. -/
theorem exec_keepsRest {op : Op} (h : op.keepsRest = true) (db : Db) :
    (exec op db).2 = db.withEnvelopes (exec op db).2.envelopes := by
  have hread : op.isRead = true → (exec op db).2 = db.withEnvelopes (exec op db).2.envelopes := by
    intro hop
    rw [exec_read hop]
    rfl
  cases op with
  | setEnvelopeStatus envelopeId status =>
    rcases exec_cases (.setEnvelopeStatus envelopeId status) db with
      ⟨v, db', htx, hexec⟩ | ⟨e, -, hexec⟩
    · rw [hexec]
      obtain ⟨-, rfl⟩ := EnvelopeStore.setStatusInTx_eq_ok (unitTx_eq_ok htx)
      rfl
    · rw [hexec]
      rfl
  | _ => exact hread h

omit [Externals] in
/-- The steps that change envelopes alone, or nothing. -/
def stepKeepsRest (t : KernelTransition) : Bool :=
  match t.label with
  | .act _ d => d.op.keepsRest
  | .restart => false
  | _ => true

/-- A step that changes envelopes alone leaves the rest of the database. -/
theorem step_keepsRest {pool pool' : KernelPool} {l : Label KernelSig (KernelResult Outcome) Request}
    (hs : Step kernelSystem pool l pool') (h : stepKeepsRest ⟨pool, l⟩ = true) :
    pool'.store = pool.store.withEnvelopes pool'.store.envelopes := by
  cases hs with
  | act store before after id op k past => exact exec_keepsRest h store
  | restart => cases h
  | _ => rfl

/-- A schedule whose further steps change envelopes alone. -/
theorem play_keepsRest (turns : List (Turn Request))
    (p : Played KernelSig (KernelResult Outcome) Db Request) :
    ∃ newer, (play kernelSystem turns p).trace = newer ++ p.trace ∧
      (newer.all stepKeepsRest = true → (play kernelSystem turns p).pool.store =
        p.pool.store.withEnvelopes (play kernelSystem turns p).pool.store.envelopes) := by
  induction turns generalizing p with
  | nil => exact ⟨[], rfl, fun _ => rfl⟩
  | cons turn rest ih =>
    unfold play
    split
    · next l pool' htake =>
      obtain ⟨newer, htrace, hrest⟩ := ih ⟨⟨p.pool, l⟩ :: p.trace, pool'⟩
      refine ⟨newer ++ [⟨p.pool, l⟩], by rw [htrace, List.append_assoc]; rfl, ?_⟩
      intro hall
      rw [List.all_append, Bool.and_eq_true] at hall
      have hstep := step_keepsRest (step_take htake) (by simpa using hall.2)
      rw [hrest hall.1, hstep]
      rfl
    · exact ih p

omit [Externals] in
/-- A longer schedule goes on from where a shorter one left the kernel. -/
theorem kernelPlayed_append (turns more : List (Turn Request)) :
    kernelPlayed (turns ++ more) = play (@kernelSystem reference) more (kernelPlayed turns) :=
  @play_append _ _ _ _ (@kernelSystem reference) turns more _

omit [Externals] in
/-- The two schedules leave databases that differ in root's envelopes alone. -/
theorem ownEnvelopes_same :
    SameBut "root" (kernelPlayed ownEnvelopes).pool.store (kernelPlayed ownEnvelopesUsed).pool.store where
  rest := by
    have hkeeps : ((kernelPlayed ownEnvelopesUsed).trace.take
        ((kernelPlayed ownEnvelopesUsed).trace.length - (kernelPlayed ownEnvelopes).trace.length)).all
          stepKeepsRest = true := by
      rw [kernelPlayed_eq, kernelPlayed_eq]
      decide +kernel
    have hplay := kernelPlayed_append ownEnvelopes (alone 30 (submitAt 9 "root" .create
      "ledger/envelope" (Json.object [("actor_id", .str "agent-1")])))
    rw [show ownEnvelopes ++ _ = ownEnvelopesUsed from rfl] at hplay
    rw [hplay] at hkeeps ⊢
    obtain ⟨newer, htrace, hrest⟩ := @play_keepsRest reference _ (kernelPlayed ownEnvelopes)
    rw [htrace, List.length_append, Nat.add_sub_cancel, List.take_left] at hkeeps
    exact hrest hkeeps
  others := by
    rw [kernelPlayed_eq, kernelPlayed_eq]
    decide +kernel

omit [Externals] in
/-- Root is there at the end of the schedule, and is a human. -/
theorem ownEnvelopes_root :
    ∃ actor, (kernelPlayed ownEnvelopes).pool.store.actors.find? "root" = some actor ∧
      actor.actorType = .human := by
  have hroot : ((kernelPlayed ownEnvelopes).pool.store.actors.find? "root").map (·.actorType) =
      some .human := by
    rw [kernelPlayed_eq]
    decide +kernel
  obtain ⟨actor, hactor, htype⟩ := Option.map_eq_some_iff.mp hroot
  exact ⟨actor, hactor, htype⟩

omit [Externals] in
/-- Neither schedule has used the id of the next envelope. -/
theorem ownEnvelopes_fresh :
    (kernelPlayed ownEnvelopes).pool.store.envelopes.find? ((envAt 19).uuid .envelope) = none ∧
      (kernelPlayed ownEnvelopesUsed).pool.store.envelopes.find? ((envAt 19).uuid .envelope) =
        none := by
  rw [kernelPlayed_eq, kernelPlayed_eq]
  decide +kernel

omit [Externals] in
/-- A request within the first envelope comes to the same, whether the second
has lapsed or not. -/
theorem rootGrant_alike :
    letI := reference
    GrantedAlike (envAt 19)
      (Attempt.run database (submitAction (fun k => envAt (19 + k)) (rootGrant 80))
        (kernelPlayed ownEnvelopes).pool.store)
      (Attempt.run database (submitAction (fun k => envAt (19 + k)) (rootGrant 80))
        (kernelPlayed ownEnvelopesUsed).pool.store) := by
  obtain ⟨actor, hactor, hhuman⟩ := ownEnvelopes_root
  have hwithin : ∀ spec, @grantChecks reference (rootGrant 80) actor = .ok spec →
      @reductionCheck reference spec
          (standingEnvelope (envAt 19) "root" (kernelPlayed ownEnvelopes).pool.store) =
        @reductionCheck reference spec
          (standingEnvelope (envAt 19) "root" (kernelPlayed ownEnvelopesUsed).pool.store) := by
    intro spec hspec
    obtain ⟨u, -, hrow⟩ := bind_eq_ok.mp hspec
    obtain ⟨u', -, hparse⟩ := bind_eq_ok.mp hrow
    have hspec' : @parseEnvelopeFields reference (rootGrant 80) = .ok
        ⟨"agent-1", "root", 80, ["**"], ["mutate"], none, none, [], none⟩ := by decide
    rw [hspec'] at hparse
    cases hparse
    rw [kernelPlayed_eq, kernelPlayed_eq]
    decide +kernel
  have hiff := @human_grant_iff reference "root" _ _ ownEnvelopes_same actor hactor hhuman
    (fun k => envAt (19 + k)) (rootGrant 80) ⟨rfl, rfl, rfl⟩ ownEnvelopes_fresh.1
    ownEnvelopes_fresh.2
  exact hiff.mpr hwithin

omit [Externals] in
/-- A human is refused a grant in one database and given it in the other, where
one of the human's own envelopes has lapsed already. -/
theorem rootGrant_refused :
    letI := reference
    ¬ ∀ tr₁ pool₁ tr₂ pool₂ H actor (envs : Nat → Env) (action : Action),
      KernelRun tr₁ pool₁ → KernelRun tr₂ pool₂ → SameBut H pool₁.store pool₂.store →
      pool₁.store.actors.find? H = some actor → actor.actorType = .human →
      GrantRequest H action →
      pool₁.store.envelopes.find? ((envs 0).uuid .envelope) = none →
      pool₂.store.envelopes.find? ((envs 0).uuid .envelope) = none →
      GrantedAlike (envs 0) (Attempt.run database (submitAction envs action) pool₁.store)
        (Attempt.run database (submitAction envs action) pool₂.store) := by
  intro hclaim
  obtain ⟨actor, hactor, hhuman⟩ := ownEnvelopes_root
  have halike := hclaim _ _ _ _ "root" actor (fun k => envAt (19 + k)) (rootGrant 200)
    (kernelRun_played ownEnvelopes) (kernelRun_played ownEnvelopesUsed) ownEnvelopes_same hactor
    hhuman ⟨rfl, rfl, rfl⟩ ownEnvelopes_fresh.1 ownEnvelopes_fresh.2
  have hanswer := halike.answer
  rw [← @lazyDatabase_eq reference] at hanswer
  have hrefused : (lazyRun (@submitAction reference (fun k => envAt (19 + k)) (rootGrant 200))
      (kernelPlayed ownEnvelopes).pool.store).1.isOk = false := by
    rw [kernelPlayed_eq]
    decide +kernel
  have hgiven : (lazyRun (@submitAction reference (fun k => envAt (19 + k)) (rootGrant 200))
      (kernelPlayed ownEnvelopesUsed).pool.store).1.isOk = true := by
    rw [kernelPlayed_eq]
    decide +kernel
  have hsame : (lazyRun (@submitAction reference (fun k => envAt (19 + k)) (rootGrant 200))
        (kernelPlayed ownEnvelopes).pool.store).1 =
      (lazyRun (@submitAction reference (fun k => envAt (19 + k)) (rootGrant 200))
        (kernelPlayed ownEnvelopesUsed).pool.store).1 := hanswer
  rw [hsame, hgiven] at hrefused
  cases hrefused

end PunkgoKernel
