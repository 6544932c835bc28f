import PunkgoKernel.Laws.Failure
import PunkgoKernel.Laws.Response

/-!
# Approving a hold

An approval is two passes: the human's response resolves the hold and commits,
and then the pending action is submitted like any other. If the first pass is
refused, the hold is still pending. If it is not, the hold is approved for good,
and whether the action follows is up to the checks of the second pass, which can
refuse it for every reason a submit is refused for. `approve_all_or_nothing_iff`
says exactly when an approval is all or nothing.
-/

namespace PunkgoKernel

open Json (Value)
open Relational (Table key)
open Resumption

variable [Externals]

/-! ## What lasts through a request -/

omit [Externals] in
theorem uses_any {A : Type} (p : Prog KernelSig A) : p.Uses fun _ => True := by
  induction p with
  | ret a => trivial
  | vis op k ih => exact ⟨trivial, ih⟩

/-- Whatever a program does, the database it leaves is a later one. -/
theorem executes_later {A : Type} {p : Prog KernelSig A} {db db' : Db} {a : A}
    (h : p.Executes database db a db') : Later db db' :=
  Prog.Uses.relates (uses_any p) Later.refl Later.trans (fun op db _ => exec_later op db) h

theorem completes_later {p : KernelProg Outcome} {db db' : Db} {answer : KernelResult Outcome}
    (h : Completes kernelSystem p db answer db') : Later db db' := by
  induction h with
  | done hexec _ => exact executes_later hexec
  | again hexec _ _ ih => exact (executes_later hexec).trans ih

/-! ## The first pass -/

/-- The hold has not timed out by the clock of the response. -/
def InTime (env : Env) (hold : HoldRequest) (db : Db) : Prop :=
  ∀ envelope timeoutSecs, db.envelopes.find? hold.envelopeId = some envelope →
    envelope.holdTimeoutSecs = some timeoutSecs → 0 < timeoutSecs →
    timedOut (nowMillisU64 (env.clock .responseTimeout)) hold.triggeredAt timeoutSecs = false

/-- A deadline of an envelope does not depend on what lapses. -/
theorem InTime.lapsed {env : Env} {actorId : String} {hold : HoldRequest} {db db' : Db}
    (hintime : InTime env hold db) (h : Lapsed env actorId db db') : InTime env hold db' := by
  induction h with
  | refl => exact hintime
  | tail _ hstep ih =>
    intro envelope timeoutSecs hfind
    cases hstep with
    | envelope e =>
      obtain ⟨row, hrow, rfl | rfl⟩ :=
        Table.find?_of_modify (f := fun r : EnvelopeRecord => { r with status := .expired })
          (fun _ => rfl) hfind
      · exact ih _ timeoutSecs hrow
      · exact fun htimeout hpos => ih row timeoutSecs hrow htimeout hpos
    | hold _ e secs hold' round event _ _ _ _ _ _ _ _ hexpire =>
      have htx : transaction (.expireHold (expireTx env round hold')) _ = .ok (event, _) := hexpire
      rw [(keepsGrants_frame (by rfl) htx).2] at hfind
      exact ih envelope timeoutSecs hfind

theorem refuseTimedOut_intime {env : Env} {hold : HoldRequest} {db db' : Db}
    {r : KernelResult Unit} (hintime : InTime env hold db)
    (h : Attempt.Executes database (refuseTimedOut env hold) db r db') :
    r = .ok () ∧ db' = db := by
  rcases Attempt.executes_bind.mp h with ⟨found, db₀, hcall, h₁⟩ | ⟨e, -, houtcome⟩
  swap
  · obtain ⟨x, hx, -⟩ := Attempt.executes_outcome.mp houtcome
    cases hx
  obtain ⟨x, hx, hread⟩ := Attempt.executes_outcome.mp hcall
  cases hx
  have hreading : Reading (call (.getEnvelope hold.envelopeId)) := reading_call rfl
  obtain rfl := hreading.executes hread
  split at h₁
  swap
  · exact h₁
  next envelope =>
  split at h₁
  swap
  · exact h₁
  next timeoutSecs htimeout =>
  split at h₁
  swap
  · exact h₁
  next hlate =>
  have htx := executes_call_ok (fun _ hop => by cases hop) hread
  have hfind : (EnvelopeStore.get hold.envelopeId db₀, db₀) = (some envelope, db₀) :=
    Except.ok.inj htx
  have hearly := hintime envelope timeoutSecs (congrArg Prod.fst hfind) htimeout hlate.1
  rw [hearly] at hlate
  cases hlate.2

/-- The resolution of a pending hold is refused by the database only, if a
rejection finds the energy still reserved. -/
theorem resolveHold_error {tx : HoldResolveTx} {db : Db} {e : KernelError} {hold : HoldRequest}
    (haligned : LogAligned db) (hsafe : LedgerSafe db)
    (hrow : db.holdRequests.find? tx.holdId = some hold) (hpending : hold.status = .pending)
    (hbacked : tx.decision = .reject → tx.reservedCost ≤ db.reserved tx.agentId)
    (h : resolveHold tx db = .error e) : DatabaseFailure e := by
  rcases bind_eq_error.mp h with hresolve | ⟨db₁, hresolve, h₁⟩
  · unfold EnvelopeStore.resolveHoldRequestInTx at hresolve
    simp only [hrow, hpending, ne_eq, not_true_eq_false, if_false] at hresolve
    cases hresolve
  have hsafe₁ : LedgerSafe db₁ ∧ db₁.reserved tx.agentId = db.reserved tx.agentId ∧
      db₁.events = db.events ∧ db₁.auditHashes = db.auditHashes := by
    obtain ⟨_, -, -, rfl⟩ := EnvelopeStore.resolveHoldRequestInTx_eq_ok hresolve
    exact ⟨⟨hsafe.sameIds, hsafe.sound⟩, rfl, rfl, rfl⟩
  rcases bind_eq_error.mp h₁ with hsettle | ⟨db₂, hsettle, h₂⟩
  · unfold settleIf at hsettle
    split at hsettle
    · next hsettles =>
      have hcost : tx.cost = commitmentCost tx.reservedCost := if_pos hsettles
      obtain ⟨db', hsettled⟩ := settle_backed hsafe₁.1 hsettles.2
        (commitmentCost_nonneg tx.reservedCost) (commitmentCost_le hsettles.2)
        (hsafe₁.2.1 ▸ hbacked hsettles.1)
      rw [hcost, hsettled] at hsettle
      cases hsettle
    · cases hsettle
  have hsame : db₂.events = db.events ∧ db₂.auditHashes = db.auditHashes := by
    unfold settleIf at hsettle
    split at hsettle
    · obtain ⟨_, -, -, -, -, -, -, -, rfl⟩ := EnergyLedger.settleInTx_eq_ok hsettle
      exact hsafe₁.2.2
    · cases hsettle
      exact hsafe₁.2.2
  exact logged_error (fun event db => ((event, tx.cost), db)) (haligned.congr hsame.1 hsame.2) h₂

/-- An approval leaves every actor's energy alone. -/
theorem resolveHold_approve {tx : HoldResolveTx} {db db' : Db} {answer : EventRecord × Int}
    {hold : HoldRequest} (hrow : db.holdRequests.find? tx.holdId = some hold)
    (happrove : tx.decision = .approve) (h : resolveHold tx db = .ok (answer, db')) :
    db'.energyLedger = db.energyLedger ∧
      ∃ hold', db'.holdRequests.find? tx.holdId = some hold' ∧ hold'.status = .approved := by
  obtain ⟨db₁, db₂, events, hashes, -, hresolve, hsettle, -, rfl⟩ := resolveHold_eq_ok h
  obtain ⟨_, -, -, rfl⟩ := EnvelopeStore.resolveHoldRequestInTx_eq_ok hresolve
  have hunsettled : ¬ (tx.decision = .reject ∧ 0 < tx.reservedCost) := by
    rw [happrove]
    rintro ⟨h, -⟩
    cases h
  unfold settleIf at hsettle
  rw [if_neg hunsettled] at hsettle
  cases hsettle
  refine ⟨rfl, _, EnvelopeStore.find?_resolved hrow _ _ _, ?_⟩
  show tx.decision.status = .approved
  rw [happrove]
  rfl

/-- A human's response to a pending hold that has not timed out gets to its
transaction, unless the database denies service. -/
theorem executeHoldResponse_pending {envs : Nat → Env} {action : Action} {holdId : String}
    {decision : HoldDecision} {instruction : Option String} {db db' : Db}
    {r : KernelResult Outcome} {caller : ActorRecord} {hold : HoldRequest}
    (hcaller : db.actors.find? action.actorId = some caller) (hhuman : caller.actorType = .human)
    (hrow : db.holdRequests.find? holdId = some hold) (hpending : hold.status = .pending)
    (hintime : InTime (envs 0) hold db)
    (h : Attempt.Executes database
      (executeHoldResponse envs action holdId decision instruction) db r db') :
    (∃ e, DatabaseFailure e ∧ r = .error e) ∨
      (∃ e, resolveHold (holdResolveTx (envs 0) action holdId decision instruction hold) db =
          .error e ∧ r = .error e) ∨
      ∃ event commitment,
        resolveHold (holdResolveTx (envs 0) action holdId decision instruction hold) db =
          .ok ((event, commitment), db') ∧
        r = .ok (responseOutcome envs decision instruction hold event commitment) := by
  have hreads : Attempt.run database (findActor action.actorId) db = (.ok caller, db) ∧
      Attempt.run database (findHold holdId) db = (.ok hold, db) := by
    constructor
    · show Prog.run database (Prog.bind _ _) db = _
      simp [Prog.run_bind, call, Prog.perform, Prog.run, database, exec, transaction,
        ActorStore.get, hcaller]
      rfl
    · show Prog.run database (Prog.bind _ _) db = _
      simp [Prog.run_bind, call, Prog.perform, Prog.run, database, exec, transaction,
        EnvelopeStore.getHoldRequest, hrow]
      rfl
  unfold executeHoldResponse at h
  rcases Attempt.executes_bind.mp h with ⟨caller', db₀, hfind, h₁⟩ | ⟨e, rfl, hfind⟩
  swap
  · rcases (reading_findActor _).strict.executes hfind with hrun | ⟨e', he', herr⟩
    · rw [hreads.1] at hrun
      cases hrun
    · cases herr
      exact .inl ⟨e, he', rfl⟩
  obtain ⟨hcaller', rfl⟩ := findActor_ok hfind
  obtain rfl : caller' = caller := Option.some.inj (hcaller'.symm.trans hcaller)
  rcases Attempt.executes_bind.mp h₁ with ⟨u, db₁, ⟨-, rfl⟩, h₂⟩ | ⟨e, -, herr, -⟩
  swap
  · unfold requireHuman at herr
    rw [if_neg (not_not.mpr hhuman)] at herr
    cases herr
  rcases Attempt.executes_bind.mp h₂ with ⟨hold', db₂, hfound, h₃⟩ | ⟨e, rfl, hfound⟩
  swap
  · rcases (reading_findHold _).strict.executes hfound with hrun | ⟨e', he', herr⟩
    · rw [hreads.2] at hrun
      cases hrun
    · cases herr
      exact .inl ⟨e, he', rfl⟩
  obtain ⟨hrow', rfl⟩ := findHold_ok hfound
  obtain rfl : hold' = hold := Option.some.inj (hrow'.symm.trans hrow)
  rcases Attempt.executes_bind.mp h₃ with ⟨u, db₃, ⟨-, rfl⟩, h₄⟩ | ⟨e, -, herr, -⟩
  swap
  · unfold requirePending at herr
    rw [if_neg (not_not.mpr hpending)] at herr
    cases herr
  rcases Attempt.executes_bind.mp h₄ with ⟨u, db₄, hlate, h₅⟩ | ⟨e, -, hlate⟩
  swap
  · cases (refuseTimedOut_intime hintime hlate).1
  obtain ⟨-, rfl⟩ := refuseTimedOut_intime hintime hlate
  rcases Attempt.executes_bind.mp h₅ with ⟨⟨event, commitment⟩, db₅, hcall, h₆⟩ | ⟨e, rfl, hcall⟩
  · have htx := executes_call_ok (fun _ hop => by cases hop) hcall
    have hanswer : r = .ok (responseOutcome envs decision instruction hold' event commitment) ∧
        db' = db₅ := by
      unfold responseOutcome
      simp only at h₆
      split at h₆
      · rwa [if_pos ‹_›]
      · rwa [if_neg ‹_›]
    obtain ⟨rfl, rfl⟩ := hanswer
    exact .inr (.inr ⟨event, commitment, htx, rfl⟩)
  · by_cases hserved : DatabaseFailure e
    · exact .inl ⟨e, hserved, rfl⟩
    exact .inr (.inl ⟨e, executes_call_failed (fun _ hop => by cases hop) hserved hcall, rfl⟩)

/-- An approval of such a hold resolves it. -/
theorem executeHoldResponse_intime {envs : Nat → Env} {action : Action} {holdId : String}
    {instruction : Option String} {db db' : Db} {r : KernelResult Outcome} {caller : ActorRecord}
    {hold : HoldRequest} (haligned : LogAligned db) (hsafe : LedgerSafe db)
    (hcaller : db.actors.find? action.actorId = some caller) (hhuman : caller.actorType = .human)
    (hrow : db.holdRequests.find? holdId = some hold) (hpending : hold.status = .pending)
    (hintime : InTime (envs 0) hold db)
    (h : Attempt.Executes database
      (executeHoldResponse envs action holdId .approve instruction) db r db') :
    (∃ e, DatabaseFailure e ∧ r = .error e) ∨
      ∃ answer, resolveHold (holdResolveTx (envs 0) action holdId .approve instruction hold) db =
          .ok (answer, db') ∧
        r = .ok (.resubmit (fun n => envs (n + 1)) (pendingAction hold instruction)) := by
  rcases executeHoldResponse_pending hcaller hhuman hrow hpending hintime h with
    hdenied | ⟨e, htx, rfl⟩ | ⟨event, commitment, htx, rfl⟩
  · exact .inl hdenied
  · exact .inl ⟨e, resolveHold_error haligned hsafe hrow hpending (fun h => by cases h) htx, rfl⟩
  · exact .inr ⟨(event, commitment), htx, congrArg Except.ok (if_pos rfl)⟩

/-! ## The second pass -/

/-- The pending action of a hold is committed for what the hold reserved. -/
structure Settles (action : Action) (cost : Int) (db db' : Db) (receipt : SubmitReceipt) : Prop where
  committed : ∃ event, db'.events.find? receipt.eventId = some event ∧ event ∉ db.events.rows ∧
    event.actorId = action.actorId ∧ event.actionType = action.actionType.asStr ∧
    event.target = action.target ∧ event.payload = action.payload
  balance : db'.balance action.actorId = db.balance action.actorId - cost
  reserved : db'.reserved action.actorId = db.reserved action.actorId - cost

/-- The pending action of a hold passes its second submit: it is no response
itself, its checks pass and nothing of the agent's energy lapses in them, its
payload is complete, the energy is still reserved, and the ledger takes the actor
it creates. -/
def GoesThrough (env : Env) (action : Action) (cost : Int) (db : Db) : Prop :=
  holdResponse? action = none ∧
    ∃ ready db₁, Attempt.run database (preflight env action) db = (.ok ready, db₁) ∧
      (db₁.balance action.actorId = db.balance action.actorId ∧
        db₁.reserved action.actorId = db.reserved action.actorId) ∧
      (∃ artifactHash, artifactHashOf action = .ok artifactHash) ∧
      cost ≤ db.reserved action.actorId ∧ ¬ CreationRefused ready.createActor db₁

omit [Externals] in
/-- A new actor the ledger took was not refused. -/
theorem not_creationRefused {createActor : Option CreateActorSpec} {db db' : Db}
    (h : createActorRows createActor db = .ok db') : ¬ CreationRefused createActor db := by
  intro hrefused
  obtain ⟨e, herr⟩ := createActorRows_refused hrefused
  rw [h] at herr
  cases herr

omit [Externals] in
theorem isSome_find?_settled {actorId : String} {reservedCost actualCost : Int} {db db' : Db}
    (h : EnergyLedger.settleInTx actorId reservedCost actualCost db = .ok db') (x : String) :
    (db'.energyLedger.find? x).isSome ↔ (db.energyLedger.find? x).isSome := by
  obtain ⟨row, -, -, -, -, -, -, -, rfl⟩ := EnergyLedger.settleInTx_eq_ok h
  exact EnergyLedger.isSome_find?_put _ _ _ _ x

/-- A second pass that ends with an answer has settled what its hold reserved. -/
theorem secondPass_ok {envs : Nat → Env} {action : Action} {cost : Int} {db db' : Db}
    {outcome : Outcome} (hclaim : holdReservedCost action.payload = some cost) (hpos : 0 < cost)
    (hresponse : holdResponse? action = none)
    (h : Completes kernelSystem (submitAction envs action) db (.ok outcome) db') :
    ∃ receipt ready db₁, outcome = .receipt receipt ∧
      Attempt.run database (preflight (envs 0) action) db = (.ok ready, db₁) ∧
      Settles action cost db₁ db' receipt ∧ db.events.rows <+: db₁.events.rows ∧
      (∃ artifactHash, artifactHashOf action = .ok artifactHash) ∧
      cost ≤ db₁.reserved action.actorId ∧ ¬ CreationRefused ready.createActor db₁ := by
  obtain ⟨ready, db₁, hpre, hpay⟩ := submit_receipt hresponse h
  have hready : Attempt.run database (preflight (envs 0) action) db = (.ok ready, db₁) := by
    rcases (strict_preflight (envs 0) action).executes hpre with hready | ⟨e', -, herr⟩
    · exact hready
    · cases herr
  have hlapsed := (preflight_checked hpre).lapsed (not_onHold_ok _)
  obtain ⟨cost', reservation, artifactHash, event, db₂, db₃, hreserve, hartifact, hfinal, hbooks,
    rfl⟩ := payAndCommit_ok hpay
  rcases quoteAndReserve_ok hreserve with ⟨hclaim', rfl, rfl⟩ | ⟨hnone, -⟩
  swap
  · rw [hclaim] at hnone
    cases hnone
  obtain rfl : cost' = cost := Option.some.inj (hclaim'.symm.trans hclaim)
  have hres : (finalizeTx (envs 0) action ready cost'
      (if 0 < cost' then some ⟨action.actorId, cost'⟩ else none) artifactHash).reservation =
        some ⟨action.actorId, cost'⟩ := if_pos hpos
  obtain ⟨hbalance, hreserved, -⟩ := finalize_energy hfinal hres (finalize_row hfinal hres)
  obtain ⟨hbalance', hreserved'⟩ := hbooks.energy action.actorId
  obtain ⟨hfind, hnew⟩ := finalize_new hfinal
  obtain ⟨idx, hplaced⟩ := finalize_event hfinal
  obtain ⟨dbs, dba, _, _, _, hsettle, hactor, -⟩ := finalize_eq_ok hfinal
  rw [hres] at hsettle
  obtain ⟨row, hrow, -, -, henough, -⟩ := EnergyLedger.settleInTx_eq_ok hsettle
  unfold amountFor at hbalance hreserved
  rw [if_pos rfl] at hbalance hreserved
  refine ⟨_, ready, db₂, rfl, hready, ⟨?_, ?_, ?_⟩, hlapsed.events, ⟨artifactHash, hartifact⟩, ?_, ?_⟩
  · refine ⟨event, hbooks.events ▸ hfind, hnew, ?_⟩
    rw [hplaced]
    exact ⟨rfl, rfl, rfl, rfl⟩
  · rw [hbalance', hbalance]
    rfl
  · rw [hreserved', hreserved]
  · unfold Db.reserved
    rw [hrow]
    exact henough
  · intro hrefused
    exact not_creationRefused hactor (hrefused.congr fun x => (isSome_find?_settled hsettle x).symm)

/-- A second pass that fails without the database was not to go through. -/
theorem secondPass_error (hdistinct : DistinctPositions) {envs : Nat → Env} {action : Action}
    {cost : Int} {db db' : Db} {e : KernelError} (haligned : LogAligned db) (hsafe : LedgerSafe db)
    (hclaim : holdReservedCost action.payload = some cost) (hpos : 0 < cost)
    (hserved : ¬ DatabaseFailure e)
    (h : Completes kernelSystem (submitAction envs action) db (.error e) db') :
    ¬ GoesThrough (envs 0) action cost db := by
  rintro ⟨hresponse, ready, db₁, hready, ⟨hbalance, hreserved⟩, ⟨artifactHash, hartifact⟩, henough,
    hcreates⟩
  rcases Attempt.executes_bind.mp (submit_executes hresponse h) with
    ⟨ready', db₂, hpre, hpay⟩ | ⟨e', he', hpre⟩
  swap
  · cases he'
    rcases (strict_preflight (envs 0) action).executes hpre with hrefused | ⟨e', he', herr⟩
    · rw [hready] at hrefused
      cases hrefused
    · cases herr
      exact hserved he'
  obtain ⟨rfl, rfl⟩ : ready' = ready ∧ db₂ = db₁ := by
    rcases (strict_preflight (envs 0) action).executes hpre with hready' | ⟨e', -, herr⟩
    · rw [hready] at hready'
      cases hready'
      exact ⟨rfl, rfl⟩
    · cases herr
  have hlapsed := (preflight_checked hpre).lapsed (not_onHold_ok _)
  have hsafe₁ := hlapsed.keep LedgerSafe.effect hsafe
  have haligned₁ := hlapsed.keep (LogAligned.effect hdistinct) haligned
  -- the sentinel stands for the reservation, so nothing is paid before the commit
  rcases Attempt.executes_bind.mp hpay with ⟨⟨cost', reservation⟩, db₃, hreserve, h₁⟩ | ⟨e', -, hreserve⟩
  swap
  · unfold quoteAndReserve at hreserve
    rw [hclaim] at hreserve
    cases hreserve.1
  rcases quoteAndReserve_ok hreserve with ⟨hclaim', rfl, rfl⟩ | ⟨hnone, -⟩
  swap
  · rw [hclaim] at hnone
    cases hnone
  obtain rfl : cost' = cost := Option.some.inj (hclaim'.symm.trans hclaim)
  rcases Attempt.executes_bind.mp h₁ with ⟨artifactHash', db₄, ⟨-, rfl⟩, h₂⟩ | ⟨e', -, herr, -⟩
  swap
  · rw [hartifact] at herr
    cases herr
  rcases Attempt.executes_bind.mp h₂ with ⟨event, db₅, -, h₃⟩ | ⟨e', he', hcall⟩
  · rcases afterCommit_answer h₃ with hok | ⟨e', hfailure, herr⟩
    · cases hok
    · cases herr
      exact hserved hfailure
  cases he'
  have hfinal : finalizeEnergyAndEvent _ db₄ = .error e :=
    executes_call_failed (fun _ hop => by cases hop) hserved hcall
  have hres : (finalizeTx (envs 0) action ready' cost'
      (if 0 < cost' then some ⟨action.actorId, cost'⟩ else none) artifactHash').reservation =
        some ⟨action.actorId, cost'⟩ := if_pos hpos
  obtain ⟨db₆, hsettle⟩ := settle_backed hsafe₁ hpos hpos.le le_rfl (hreserved ▸ henough)
  rcases finalize_error hdistinct haligned₁ hsafe₁ hfinal hserved with herr | ⟨db₇, hsettled, hrefused⟩
  · rw [hres] at herr
    have hfails : EnergyLedger.settleInTx action.actorId cost' cost' db₄ = .error e := herr
    rw [hsettle] at hfails
    cases hfails
  · rw [hres] at hsettled
    exact hcreates (hrefused.congr fun x => isSome_find?_settled hsettled x)

/-! ## All or nothing -/

/-- The hold is approved, and its pending action is committed and paid with what
was reserved for it. -/
structure Approves (hold : HoldRequest) (instruction : Option String) (db db' : Db)
    (receipt : SubmitReceipt) : Prop where
  approved : ∃ hold', db'.holdRequests.find? hold.holdId = some hold' ∧ hold'.status = .approved
  settles : Settles (pendingAction hold instruction) hold.reservedCost db db' receipt

/-- The approval went through, or it failed and the hold is as it was, with its
reservation. -/
def AllOrNothing (hold : HoldRequest) (instruction : Option String) (db : Db)
    (answer : KernelResult Outcome) (db' : Db) : Prop :=
  (∃ receipt, answer = .ok (.receipt receipt) ∧ Approves hold instruction db db' receipt) ∨
  (∃ e, answer = .error e ∧ db'.holdRequests.find? hold.holdId = some hold ∧
    db'.reserved hold.agentId = db.reserved hold.agentId)

/-- The approval is refused before it resolves the hold, or its second pass goes
through. -/
def ApprovalHolds (envs : Nat → Env) (action : Action) (hold : HoldRequest)
    (instruction : Option String) (db : Db) : Prop :=
  (∃ e db₁, Attempt.run database (responseChecks (envs 0) action) db = (.error e, db₁)) ∨
  (∃ auth db₁ answer db₂,
    Attempt.run database (responseChecks (envs 0) action) db = (.ok auth, db₁) ∧
    resolveHold (holdResolveTx (envs 0) action hold.holdId .approve instruction hold) db₁ =
      .ok (answer, db₂) ∧
    GoesThrough (envs 1) (pendingAction hold instruction) hold.reservedCost db₂)

/-- The second pass of an approval, on the database in which the hold is
approved. -/
theorem secondPass_iff (hdistinct : DistinctPositions) {envs : Nat → Env} {hold : HoldRequest}
    {instruction : Option String} {db db₂ db' : Db} {answer : KernelResult Outcome}
    (haligned : LogAligned db₂) (hsafe : LedgerSafe db₂) (hwf : hold.WellFormed)
    (hevents : db.events.rows <+: db₂.events.rows) (hledger : db₂.energyLedger = db.energyLedger)
    (hagent : ∃ agent, db₂.actors.find? hold.agentId = some agent ∧ agent.actorType = .agent)
    (happroved : ∃ hold', db₂.holdRequests.find? hold.holdId = some hold' ∧
      hold'.status = .approved)
    (hpending : hold.status = .pending) (hserved : ∀ e, answer = .error e → ¬ DatabaseFailure e)
    (h : Completes kernelSystem (submitAction envs (pendingAction hold instruction)) db₂ answer db') :
    AllOrNothing hold instruction db answer db' ↔
      GoesThrough (envs 0) (pendingAction hold instruction) hold.reservedCost db₂ := by
  obtain ⟨hpos, hlt⟩ := hwf.reservedCost
  have hclaim : holdReservedCost (pendingAction hold instruction).payload = some hold.reservedCost :=
    holdReservedCost_approvedPayload _ hpos hlt instruction
  -- the hold stays approved, so a failure cannot be the second half of the law
  obtain ⟨hold₂, hrow₂, hstatus₂⟩ := happroved
  obtain ⟨hold', hrow', -, hkept⟩ := (completes_later h).holds _ _ hrow₂
  have hstatus' : hold'.status = .approved := (hkept (by rw [hstatus₂]; decide)).trans hstatus₂
  have hgone : db'.holdRequests.find? hold.holdId ≠ some hold := by
    intro hsame
    rw [hrow'] at hsame
    cases hsame
    rw [hpending] at hstatus'
    cases hstatus'
  have hbalance : db₂.balance hold.agentId = db.balance hold.agentId ∧
      db₂.reserved hold.agentId = db.reserved hold.agentId := by
    unfold Db.balance Db.reserved
    rw [hledger]
    exact ⟨rfl, rfl⟩
  cases answer with
  | error e =>
    refine iff_of_false ?_ ?_
    · rintro (⟨receipt, hok, -⟩ | ⟨e', -, hsame, -⟩)
      · cases hok
      · exact hgone hsame
    · exact secondPass_error hdistinct haligned hsafe hclaim hpos (hserved e rfl) h
  | ok outcome =>
    cases hresponse : holdResponse? (pendingAction hold instruction) with
    | some response =>
      -- a response of the agent's own does not end with an answer
      exfalso
      obtain ⟨holdId', decision', instruction'⟩ := response
      have hrefused : ∀ {r : KernelResult Outcome} {db'' : Db}, Attempt.Executes database
          (submitAction envs (pendingAction hold instruction)) db₂ r db'' → ∃ e, r = .error e := by
        intro r db'' hexec
        rcases submit_response hresponse hexec with ⟨e, rfl, -⟩ | ⟨auth, db₃, hchecks, hanswer⟩
        · exact ⟨e, rfl⟩
        have hlapsed := (responseChecks_checked hchecks).lapsed (not_onHold_ok _)
        obtain ⟨e, rfl, -⟩ := response_refused (by
          intro caller hcaller hhuman
          obtain ⟨agent, hfound, htype⟩ := hagent
          rw [hlapsed.actors] at hcaller
          obtain rfl := Option.some.inj (hfound.symm.trans hcaller)
          rw [hhuman] at htype
          cases htype) hanswer
        exact ⟨e, rfl⟩
      cases h with
      | done hexec _ =>
        obtain ⟨e, herr⟩ := hrefused hexec
        cases herr
      | again hexec hagain _ =>
        obtain ⟨e, rfl⟩ := hrefused hexec
        cases hagain
    | none =>
      obtain ⟨receipt, ready, db₃, rfl, hready, hsettles, hextends, hartifact, henough, hcreates⟩ :=
        secondPass_ok hclaim hpos hresponse h
      constructor
      · rintro (⟨receipt', hok, happroves⟩ | ⟨e, herr, -⟩)
        swap
        · cases herr
        cases hok
        have hpaid := happroves.settles.balance.symm.trans hsettles.balance
        have hreleased := happroves.settles.reserved.symm.trans hsettles.reserved
        rw [show (pendingAction hold instruction).actorId = hold.agentId from rfl] at hpaid hreleased
        rw [show (pendingAction hold instruction).actorId = hold.agentId from rfl] at henough
        refine ⟨hresponse, ready, db₃, hready, ⟨?_, ?_⟩, hartifact, ?_, hcreates⟩
        · show db₃.balance hold.agentId = db₂.balance hold.agentId
          omega
        · show db₃.reserved hold.agentId = db₂.reserved hold.agentId
          omega
        · show hold.reservedCost ≤ db₂.reserved hold.agentId
          omega
      · rintro ⟨-, ready', db₄, hready', ⟨hbalance', hreserved'⟩, -⟩
        rw [hready] at hready'
        cases hready'
        obtain ⟨event, hfind, hnew, hevent⟩ := hsettles.committed
        refine .inl ⟨receipt, rfl, ⟨hold', hrow', hstatus'⟩, ?_⟩
        refine ⟨⟨event, hfind, ?_, hevent⟩, ?_, ?_⟩
        · intro hmem
          exact hnew (hextends.subset (hevents.subset hmem))
        · rw [hsettles.balance, hbalance']
          exact congrArg (· - _) hbalance.1
        · rw [hsettles.reserved, hreserved']
          exact congrArg (· - _) hbalance.2

/-- A human's approval of a pending hold that has not timed out is all or nothing
exactly when it is refused before it resolves the hold or its second pass goes
through. -/
theorem approve_all_or_nothing_iff (hdistinct : DistinctPositions) {pool : KernelPool}
    (hreach : Reachable kernelSystem StateStore.genesis pool) {envs : Nat → Env} {action : Action}
    {holdId : String} {instruction : Option String} {hold : HoldRequest} {caller : ActorRecord}
    {answer : KernelResult Outcome} {db' : Db}
    (hresponse : holdResponse? action = some (holdId, .approve, instruction))
    (hcaller : pool.store.actors.find? action.actorId = some caller)
    (hhuman : caller.actorType = .human)
    (hrow : pool.store.holdRequests.find? holdId = some hold) (hpending : hold.status = .pending)
    (hintime : InTime (envs 0) hold pool.store)
    (hserved : ∀ e, answer = .error e → ¬ DatabaseFailure e)
    (h : Completes kernelSystem (submitAction envs action) pool.store answer db') :
    AllOrNothing hold instruction pool.store answer db' ↔
      ApprovalHolds envs action hold instruction pool.store := by
  obtain ⟨tr, hrun⟩ := hreach
  obtain ⟨hsound, -⟩ := KernelRun.keeps hrun
  have howned := KernelRun.holdsOwned hrun
  have haligned : LogAligned pool.store :=
    KernelRun.keep logAligned_genesis (LogAligned.effect hdistinct) hrun
  have hsafe : LedgerSafe pool.store := KernelRun.keep ledgerSafe_genesis LedgerSafe.effect hrun
  have hid : hold.holdId = holdId := Table.key_of_find? hrow
  -- an envelope of the human's may lapse, and nothing of the hold
  have hfirst : ∀ {r : KernelResult Outcome} {db₂ : Db},
      Attempt.Executes database (submitAction envs action) pool.store r db₂ →
      (∃ e, r = .error e ∧ DatabaseFailure e) ∨
      (∃ e, r = .error e ∧ SameBooks pool.store db₂ ∧
        Attempt.run database (responseChecks (envs 0) action) pool.store = (.error e, db₂)) ∨
      ∃ auth db₁ answer, SameBooks pool.store db₁ ∧ Lapsed (envs 0) action.actorId pool.store db₁ ∧
        Attempt.run database (responseChecks (envs 0) action) pool.store = (.ok auth, db₁) ∧
        resolveHold (holdResolveTx (envs 0) action hold.holdId .approve instruction hold) db₁ =
          .ok (answer, db₂) ∧
        r = .ok (.resubmit (fun n => envs (n + 1)) (pendingAction hold instruction)) := by
    intro r db₂ hexec
    rcases submit_response hresponse hexec with ⟨e, rfl, hchecks⟩ | ⟨auth, db₁, hchecks, hanswer⟩
    · obtain ⟨-, hbooks⟩ :=
        (responseChecks_checked hchecks).human hsound howned hcaller hhuman
      rcases (strict_responseChecks (envs 0) action).executes hchecks with hchecked | ⟨e', he', herr⟩
      · exact .inr (.inl ⟨e, rfl, hbooks, hchecked⟩)
      · cases herr
        exact .inl ⟨e, rfl, he'⟩
    · obtain ⟨hlapsed, hbooks⟩ :=
        (responseChecks_checked hchecks).human hsound howned hcaller hhuman
      have hchecked : Attempt.run database (responseChecks (envs 0) action) pool.store =
          (.ok auth, db₁) := by
        rcases (strict_responseChecks (envs 0) action).executes hchecks with hchecked | ⟨e', -, herr⟩
        · exact hchecked
        · cases herr
      have hcaller₁ : db₁.actors.find? action.actorId = some caller := by
        rw [hlapsed.actors, hcaller]
      have hrow₁ : db₁.holdRequests.find? holdId = some hold := by
        rw [hbooks.holds, hrow]
      have hintime₁ : InTime (envs 0) hold db₁ := hintime.lapsed hlapsed
      rcases executeHoldResponse_intime (hlapsed.keep (LogAligned.effect hdistinct) haligned)
        (hlapsed.keep LedgerSafe.effect hsafe) hcaller₁ hhuman hrow₁ hpending hintime₁ hanswer with ⟨e, hfailure, rfl⟩ | ⟨answer, htx, rfl⟩
      · exact .inl ⟨e, rfl, hfailure⟩
      · rw [← hid] at htx
        exact .inr (.inr ⟨auth, db₁, answer, hbooks, hlapsed, hchecked, htx, rfl⟩)
  cases h with
  | done hexec hnone =>
    rcases hfirst hexec with ⟨e, rfl, hfailure⟩ | ⟨e, rfl, hbooks, hchecked⟩ |
      ⟨auth, db₁, answer, -, -, -, -, rfl⟩
    · exact absurd hfailure (hserved e rfl)
    · refine iff_of_true (.inr ⟨e, rfl, ?_, (hbooks.energy hold.agentId).2⟩) (.inl ⟨e, db', hchecked⟩)
      rw [hbooks.holds, hid, hrow]
    · cases hnone
  | again hexec hagain hrest =>
    rcases hfirst hexec with ⟨e, rfl, -⟩ | ⟨e, rfl, -⟩ |
      ⟨auth, db₁, answer, hbooks, hlapsed, hchecked, htx, rfl⟩
    · cases hagain
    · cases hagain
    cases hagain
    have hrow₁ : db₁.holdRequests.find? hold.holdId = some hold := by
      rw [hbooks.holds, hid, hrow]
    obtain ⟨hledger, happroved⟩ := resolveHold_approve hrow₁ rfl htx
    have heffects := resolveHold_effects htx
    obtain ⟨hwf, hagent⟩ := hsound holdId hold hrow
    have hiff := @secondPass_iff _ hdistinct _ _ _ pool.store _ _ _
      (heffects.keep (LogAligned.effect hdistinct)
        (hlapsed.keep (LogAligned.effect hdistinct) haligned))
      (heffects.keep LedgerSafe.effect (hlapsed.keep LedgerSafe.effect hsafe)) hwf
      (hlapsed.events.trans heffects.later.events) (hledger.trans hbooks.ledger)
      (agent_later heffects.later (by rw [hlapsed.actors]; exact hagent)) happroved hpending hserved
      hrest
    rw [hiff]
    constructor
    · intro hgoes
      exact .inr ⟨auth, db₁, answer, _, hchecked, htx, hgoes⟩
    · rintro (⟨e, db₃, hrefused⟩ | ⟨auth', db₃, answer', db₄, hchecked', htx', hgoes⟩)
      · rw [hchecked] at hrefused
        cases hrefused
      · rw [hchecked] at hchecked'
        cases hchecked'
        rw [htx] at htx'
        cases htx'
        exact hgoes

/-! ## Two approvals -/

/-- Root approves the hold of `agentOnHold`. -/
def rootApproves : Action :=
  ⟨"root", .mutate, "ledger/hold/hold-2", .obj [("decision", .str "approve")], none⟩

/-- An agent's change is put on hold, and then root freezes the agent. -/
def frozenOnHold : List (Turn Request) :=
  agentOnHold ++ alone 30 (submitAt 3 "root" .mutate "actor/agent-1" (.obj [("op", .str "freeze")]))

/-- The hold of a database waits for its answer, under an envelope without a
timeout. -/
def waits (db : Db) : Bool :=
  match db.holdRequests.find? "hold-2", db.actors.find? "root" with
  | some hold, some root => hold.status = .pending && root.actorType = .human &&
      (db.envelopes.find? hold.envelopeId).all fun e => e.holdTimeoutSecs.isNone
  | _, _ => false

omit [Externals] in
theorem waits_sound {db : Db} (h : waits db = true) (env : Env) :
    ∃ hold caller, db.holdRequests.find? "hold-2" = some hold ∧ hold.status = .pending ∧
      db.actors.find? rootApproves.actorId = some caller ∧ caller.actorType = .human ∧
      InTime env hold db := by
  unfold waits at h
  split at h
  swap
  · cases h
  next hold root hhold hroot =>
  simp only [Bool.and_eq_true, decide_eq_true_eq] at h
  refine ⟨hold, root, hhold, h.1.1, hroot, h.1.2, ?_⟩
  intro envelope timeoutSecs hfind htimeout
  have hnone := h.2
  rw [hfind] at hnone
  simp [htimeout] at hnone

omit [Externals] in
/-- An approval that goes through: the hold is resolved, and the action that was held is
committed and paid. -/
theorem rootApproves_all_or_nothing :
    letI := reference
    ∃ hold receipt db', (kernelPlayed agentOnHold).pool.store.holdRequests.find? "hold-2" = some hold ∧
      Completes kernelSystem (submitAction (fun k => envAt (3 + k)) rootApproves)
        (kernelPlayed agentOnHold).pool.store (.ok (.receipt receipt)) db' ∧
      (AllOrNothing hold none (kernelPlayed agentOnHold).pool.store (.ok (.receipt receipt)) db' ↔
        ApprovalHolds (fun k => envAt (3 + k)) rootApproves hold none
          (kernelPlayed agentOnHold).pool.store) := by
  have hplayed : (receiptOf (lazyServe 1 (@submitAction reference (fun k => envAt (3 + k)) rootApproves)
        (kernelPlayed agentOnHold).pool.store).1).isSome = true ∧
      waits (kernelPlayed agentOnHold).pool.store = true := by
    rw [kernelPlayed_eq]
    decide +kernel
  obtain ⟨hsome, hwaits⟩ := hplayed
  obtain ⟨receipt, hreceipt⟩ := Option.isSome_iff_exists.mp hsome
  obtain ⟨hold, caller, hrow, hpending, hcaller, hhuman, hintime⟩ := waits_sound hwaits (envAt 3)
  have hcompletes := completes_of_receipt hreceipt
  refine ⟨hold, receipt, _, hrow, hcompletes, ?_⟩
  exact @approve_all_or_nothing_iff reference distinctPositions_reference _
    ⟨_, kernelRun_played agentOnHold⟩ _ _ _ _ _ _ _ _ (by decide) hcaller hhuman hrow hpending
    hintime (fun e h => by cases h) hcompletes

omit [Externals] in
/-- An approval whose action is refused: the agent was frozen in the meantime, and the
hold is approved all the same. -/
theorem frozenOnHold_approved_for_nothing :
    letI := reference
    ¬ ∀ pool, Reachable kernelSystem StateStore.genesis pool →
      ∀ envs action holdId instruction hold caller answer db',
      holdResponse? action = some (holdId, .approve, instruction) →
      pool.store.actors.find? action.actorId = some caller → caller.actorType = .human →
      pool.store.holdRequests.find? holdId = some hold → hold.status = .pending →
      InTime (envs 0) hold pool.store → (∀ e, answer = .error e → ¬ DatabaseFailure e) →
      Completes kernelSystem (submitAction envs action) pool.store answer db' →
      AllOrNothing hold instruction pool.store answer db' := by
  intro hclaim
  have hplayed : (errorOf (lazyServe 1 (@submitAction reference (fun k => envAt (4 + k)) rootApproves)
        (kernelPlayed frozenOnHold).pool.store).1).map (fun e => match e with
          | .actorFrozen _ => true
          | _ => false) = some true ∧
      waits (kernelPlayed frozenOnHold).pool.store = true ∧
      ((lazyServe 1 (@submitAction reference (fun k => envAt (4 + k)) rootApproves)
        (kernelPlayed frozenOnHold).pool.store).2.holdRequests.find? "hold-2").map
          HoldRequest.status = some .approved := by
    rw [kernelPlayed_eq]
    decide +kernel
  obtain ⟨herror, hwaits, happroved⟩ := hplayed
  obtain ⟨e, he, hkind⟩ := Option.map_eq_some_iff.mp herror
  obtain ⟨hold, caller, hrow, hpending, hcaller, hhuman, hintime⟩ := waits_sound hwaits (envAt 4)
  have hholds := hclaim _ ⟨_, kernelRun_played frozenOnHold⟩ (fun k => envAt (4 + k)) rootApproves
    "hold-2" none hold caller _ _ (by decide) hcaller hhuman hrow hpending hintime
    (fun e' h => by cases h; exact fun hfailure => by cases hfailure <;> cases hkind)
    (completes_of_error he)
  rcases hholds with ⟨receipt, hok, -⟩ | ⟨e', -, hkept, -⟩
  · cases hok
  · have hid : hold.holdId = "hold-2" := Table.key_of_find? hrow
    rw [hid] at hkept
    rw [hkept, Option.map_some, hpending] at happroved
    cases happroved

end PunkgoKernel
