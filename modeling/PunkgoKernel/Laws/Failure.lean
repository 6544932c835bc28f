import PunkgoKernel.Laws.Payment

/-!
# A submit that fails

A submit that is no hold response and is not put on hold can fail before its
reservation, at it, or after it. Before it only what lapses has changed, and a
reservation that is refused changes nothing. What fails after it leaves the
reservation behind: an execute whose payload is incomplete, and the creation of
an actor the ledger refuses (`submit_fails_clean_iff`). Nothing else fails after
it but the database: a settlement of what was just reserved goes through, and a
new leaf always finds the nodes it needs.
-/

namespace PunkgoKernel

open Json (Value)
open Relational (Table key)
open Resumption

theorem bind_eq_error {α β : Type} {x : KernelResult α} {f : α → KernelResult β} {e : KernelError} :
    (x >>= f) = .error e ↔ x = .error e ∨ ∃ a, x = .ok a ∧ f a = .error e := by
  cases x with
  | error e' =>
    constructor
    · intro h
      cases h
      exact .inl rfl
    · rintro (h | ⟨a, h, -⟩)
      · cases h
        rfl
      · cases h
  | ok a =>
    constructor
    · intro h
      exact .inr ⟨a, rfl, h⟩
    · rintro (h | ⟨a', h, hf⟩)
      · cases h
      · cases h
        exact hf

/-! ## The texts of errors -/

/-- Of two endings of one text, one ends the other. -/
theorem ends_alike {a b c d : String} (h : a ++ b = c ++ d) :
    b.toList <:+ d.toList ∨ d.toList <:+ b.toList := by
  have hchars : a.toList ++ b.toList = c.toList ++ d.toList := by
    rw [← String.toList_append, ← String.toList_append, h]
  exact List.suffix_or_suffix_of_suffix ⟨a.toList, hchars⟩ ⟨c.toList, rfl⟩

/-- Of two beginnings of one text, one begins the other. -/
theorem begin_alike {a b c d : String} (h : a ++ b = c ++ d) :
    a.toList <+: c.toList ∨ c.toList <+: a.toList := by
  have hchars : a.toList ++ b.toList = c.toList ++ d.toList := by
    rw [← String.toList_append, ← String.toList_append, h]
  exact List.prefix_or_prefix_of_prefix ⟨b.toList, hchars⟩ ⟨d.toList, rfl⟩

/-! ## What the parts of a commit refuse -/

theorem databaseFailure_unique (column : String) : DatabaseFailure (uniqueViolation column) :=
  .db _

/-- The ledger refuses to create the actor that was asked for. -/
def CreationRefused (createActor : Option CreateActorSpec) (db : Db) : Prop :=
  ∃ spec, createActor = some spec ∧
    (isBlank spec.actorId = true ∨ spec.energyBalance < 0 ∨
      (db.energyLedger.find? spec.actorId).isSome)

theorem createActorInTx_eq_error {actorId : String} {energyBalance : Int} {db : Db} :
    (∃ e, EnergyLedger.createActorInTx actorId energyBalance db = .error e) ↔
      isBlank actorId = true ∨ energyBalance < 0 ∨ (db.energyLedger.find? actorId).isSome := by
  unfold EnergyLedger.createActorInTx
  by_cases hblank : isBlank actorId = true
  · simp [hblank]
  · by_cases hneg : energyBalance < 0
    · simp [hblank, hneg]
    · cases hfind : db.energyLedger.find? actorId with
      | some row => simp [hblank, hneg]
      | none =>
        have hins := Table.insert?_of_find?_none (t := db.energyLedger)
          (r := (⟨actorId, energyBalance, 0⟩ : EnergyRow)) hfind
        obtain ⟨ledger, hledger⟩ := hins
        simp [hblank, hneg, hledger]

theorem createActorRows_refused {createActor : Option CreateActorSpec} {db : Db}
    (h : CreationRefused createActor db) : ∃ e, createActorRows createActor db = .error e := by
  obtain ⟨spec, rfl, hrefused⟩ := h
  obtain ⟨e, he⟩ := createActorInTx_eq_error.mpr hrefused
  exact ⟨e, bind_eq_error.mpr (.inl he)⟩

/-- Where actors and ledger rows go together, only the ledger refuses to create
an actor. -/
theorem createActorRows_error {createActor : Option CreateActorSpec} {db : Db} {e : KernelError}
    (hsafe : LedgerSafe db) (h : createActorRows createActor db = .error e)
    (hserved : ¬ DatabaseFailure e) : CreationRefused createActor db := by
  cases createActor with
  | none => cases h
  | some spec =>
    rcases bind_eq_error.mp h with hledger | ⟨db₁, hledger, hactor⟩
    · exact ⟨spec, rfl, createActorInTx_eq_error.mp ⟨e, hledger⟩⟩
    · obtain ⟨hblank, -, hnone, ledger, -, rfl⟩ := EnergyLedger.createActorInTx_eq_ok hledger
      have hnew : db.actors.find? spec.actorId = none := by
        have hids := hsafe.sameIds spec.actorId
        rw [hnone] at hids
        exact Option.not_isSome_iff_eq_none.mp fun hsome => by simpa using hids.mp hsome
      unfold ActorStore.createInTx at hactor
      simp only [hblank, hnew, Bool.false_eq_true, if_false] at hactor
      split at hactor
      · cases hactor
        exact absurd (databaseFailure_unique _) hserved
      · cases hactor

theorem createEnvelopeRow_error {createEnvelope : Option (String × EnvelopeSpec × Option String)}
    {now : Nat} {db : Db} {e : KernelError} (h : createEnvelopeRow createEnvelope now db = .error e) :
    DatabaseFailure e := by
  cases createEnvelope with
  | none => cases h
  | some create =>
    obtain ⟨envelopeId, spec, parentId⟩ := create
    simp only [createEnvelopeRow, EnvelopeStore.createInTx] at h
    split at h
    · cases h
      exact databaseFailure_unique _
    · cases h

/-- The texts of the policy a settlement can violate. -/
theorem settleInTx_violation {actorId : String} {reservedCost cost : Int} {db : Db} {text : String}
    (h : EnergyLedger.settleInTx actorId reservedCost cost db = .error (.policyViolation text)) :
    text = "settle values cannot be negative" ∨
      ∃ rest, text = "reserved mismatch for actor " ++ rest := by
  unfold EnergyLedger.settleInTx at h
  split at h
  · cases h
    exact .inl rfl
  split at h
  · cases h
  simp only at h
  split at h
  · cases h
    simp only [String.append_assoc]
    exact .inr ⟨_, rfl⟩
  split at h
  · cases h
  split at h <;> cases h

/-- The settlement of a reservation that is there goes through, if it takes no
more than was reserved. -/
theorem settle_backed {actorId : String} {reservedCost cost : Int} {db : Db} (hsafe : LedgerSafe db)
    (hpos : 0 < reservedCost) (hcost : 0 ≤ cost) (hle : cost ≤ reservedCost)
    (hbacked : reservedCost ≤ db.reserved actorId) :
    ∃ db', EnergyLedger.settleInTx actorId reservedCost cost db = .ok db' := by
  unfold Db.reserved at hbacked
  cases hrow : db.energyLedger.find? actorId with
  | none =>
    rw [hrow] at hbacked
    simp at hbacked
    omega
  | some row =>
    rw [hrow] at hbacked
    have hreserved : reservedCost ≤ row.reservedEnergy := hbacked
    obtain ⟨-, hcovered⟩ := hsafe.sound actorId row hrow
    unfold EnergyLedger.settleInTx
    rw [if_neg (by omega), hrow]
    simp only
    rw [if_neg (by omega), if_neg (by omega), if_neg (by omega)]
    exact ⟨_, rfl⟩

/-- What the rejection of a hold costs is at most what it reserved. -/
theorem commitmentCost_le {reservedCost : Int} (h : 0 < reservedCost) :
    commitmentCost reservedCost ≤ reservedCost := by
  have hfifth := Float64.ceilFifth_le reservedCost.toNat
  unfold commitmentCost
  omega

variable [Externals]

/-- An append fails only in the database. -/
theorem appendInTx_error {event : EventRecord} {db : Db} {e : KernelError}
    (h : EventLog.appendInTx event db = .error e) : DatabaseFailure e := by
  unfold EventLog.appendInTx at h
  simp only at h
  split at h
  · cases h
    exact databaseFailure_unique _
  · cases h

/-- The leaf of an appended event can be stored. -/
theorem appendAudit_total {draft event : EventRecord} {db db' : Db} (haligned : LogAligned db)
    (h : EventLog.appendInTx draft db = .ok (event, db')) (e : KernelError) :
    appendAudit event db' ≠ .error e := by
  obtain ⟨rfl, events, -, rfl⟩ := EventLog.appendInTx_eq_ok h
  have hfull : ∀ level k, (k + 1) * 2 ^ level ≤ nextIdx db →
      (db.auditHashes.find? (Externals.storedHashIndex level k)).isSome := by
    rw [haligned.nextIdx_eq]
    exact haligned.full
  have hnodes := completedNodes_total hfull (nextIdx db) 0
  intro herr
  rw [appendAudit_eq_appendLeaf rfl] at herr
  unfold appendLeaf at herr
  simp only at herr
  obtain ⟨nodes, hok⟩ := hnodes (Externals.sha256 (eventHashInput (draft.placed (nextIdx db))))
  have hok' : completedNodes db.auditHashes (draft.placed (nextIdx db)).logIndex
      (draft.placed (nextIdx db)).logIndex 0
      (Externals.sha256 (eventHashInput (draft.placed (nextIdx db)))) = .ok nodes := hok
  rw [hok'] at herr
  cases herr

/-- What ends every commit, the event and its leaf, fails only in the database. -/
theorem logged_error {α : Type} {draft : EventRecord} {db : Db} {e : KernelError}
    (answer : EventRecord → Db → α) (haligned : LogAligned db)
    (h : (do
      let (event, db) ← EventLog.appendInTx draft db
      let db ← appendAudit event db
      .ok (answer event db) : KernelResult α) = .error e) : DatabaseFailure e := by
  rcases bind_eq_error.mp h with happend | ⟨⟨event, db₁⟩, happend, h₁⟩
  · exact appendInTx_error happend
  rcases bind_eq_error.mp h₁ with haudit | ⟨db₂, -, h₂⟩
  · exact absurd haudit (appendAudit_total haligned happend e)
  · cases h₂

/-- A commit that the database serves fails at the settlement, or at the
creation of an actor. -/
theorem finalize_error (hdistinct : DistinctPositions) {tx : FinalizeTx} {db : Db} {e : KernelError}
    (haligned : LogAligned db) (hsafe : LedgerSafe db)
    (h : finalizeEnergyAndEvent tx db = .error e) (hserved : ¬ DatabaseFailure e) :
    settleReservation tx.reservation tx.settledCost db = .error e ∨
      ∃ db₁, settleReservation tx.reservation tx.settledCost db = .ok db₁ ∧
        CreationRefused tx.createActor db₁ := by
  rcases bind_eq_error.mp h with hsettle | ⟨db₁, hsettle, h₁⟩
  · exact .inl hsettle
  refine .inr ⟨db₁, hsettle, ?_⟩
  have hsettles : Effects (.finalize tx) db db₁ := settleReservation_effects hsettle
  rcases bind_eq_error.mp h₁ with hactor | ⟨db₂, hactor, h₂⟩
  · exact createActorRows_error (hsettles.keep LedgerSafe.effect hsafe) hactor hserved
  have hcreates : Effects (.finalize tx) db db₂ := hsettles.trans (createActorRows_effects hactor)
  rcases bind_eq_error.mp h₂ with henvelope | ⟨db₃, henvelope, h₃⟩
  · exact absurd (createEnvelopeRow_error henvelope) hserved
  have hgrants : Effects (.finalize tx) db db₃ :=
    hcreates.trans (createEnvelopeRow_effects henvelope)
  exact absurd (logged_error Prod.mk (hgrants.keep (LogAligned.effect hdistinct) haligned) h₃) hserved

/-- A call that fails without the database is refused by its transaction. -/
theorem executes_call_failed {op : Op} (hop : ∀ tx, op ≠ .consumeBudget tx) {db db' : Db}
    {e : KernelError} (hserved : ¬ DatabaseFailure e)
    (h : Attempt.Executes database (call op) db (.error e) db') : transaction op db = .error e := by
  rcases executes_call.mp h with ⟨herr, -⟩ | ⟨hrefused, -⟩
  · rcases exec_cases op db with ⟨v, db₁, -, hexec⟩ | ⟨e', htx, hexec⟩
    · rw [hexec] at herr
      cases herr
    · rw [hexec] at herr
      cases herr
      exact htx
  · cases op with
    | consumeBudget tx => exact absurd rfl (hop tx)
    | _ =>
      obtain ⟨e', he', herr⟩ := hrefused
      cases herr
      exact absurd he' hserved

/-- A reservation that fails without the database: the actor cannot pay. -/
theorem quoteAndReserve_error {action : Action} {db db' : Db} {e : KernelError}
    (hserved : ¬ DatabaseFailure e)
    (h : Attempt.Executes database (quoteAndReserve action) db (.error e) db') :
    db' = db ∧ (holdReservedCost action.payload ≠ none ∨
      ∀ row, db.energyLedger.find? action.actorId = some row →
        row.energyBalance - row.reservedEnergy < quoteCost action) := by
  unfold quoteAndReserve at h
  split at h
  · cases h.1
  · have hpos : (0 : Int) < quoteCost action := by exact_mod_cast quoteCost_pos action
    rw [if_pos hpos] at h
    rcases Attempt.executes_bind.mp h with ⟨res, db₁, -, herr, -⟩ | ⟨e', he', hcall⟩
    · cases herr
    cases he'
    refine ⟨executes_call_error hcall, .inr ?_⟩
    intro row hrow
    have htx : EnergyLedger.reserve action.actorId (quoteCost action) db = .error e :=
      executes_call_failed (fun _ hop => by cases hop) hserved hcall
    by_contra henough
    unfold EnergyLedger.reserve at htx
    rw [if_neg (by omega), hrow] at htx
    simp only at htx
    rw [if_neg henough] at htx
    cases htx

/-! ## What a reservation leaves behind -/

omit [Externals] in
/-- What was just reserved can be settled. -/
theorem settle_reserved {actorId : String} {cost : Int} {db db' : Db} {res : EnergyReservation}
    (hsafe : LedgerSafe db) (h : EnergyLedger.reserve actorId cost db = .ok (res, db')) :
    ∃ db₁, EnergyLedger.settleInTx actorId cost cost db' = .ok db₁ := by
  obtain ⟨row, hrow, hpos, havailable, -, rfl⟩ := EnergyLedger.reserve_eq_ok h
  obtain ⟨hreserved, -⟩ := hsafe.sound actorId row hrow
  have hfind := EnergyLedger.find?_put hrow row.energyBalance (row.reservedEnergy + cost) actorId
  rw [if_pos rfl] at hfind
  unfold EnergyLedger.settleInTx
  rw [if_neg (by omega), hfind]
  simp only
  rw [if_neg (by omega), if_neg (by omega), if_neg (by omega)]
  exact ⟨_, rfl⟩

omit [Externals] in
/-- A ledger that refuses an actor refuses it whatever the other rows say. -/
theorem CreationRefused.congr {createActor : Option CreateActorSpec} {db db' : Db}
    (hids : ∀ x, (db'.energyLedger.find? x).isSome ↔ (db.energyLedger.find? x).isSome)
    (h : CreationRefused createActor db') : CreationRefused createActor db := by
  obtain ⟨spec, hspec, hrefused⟩ := h
  rw [hids] at hrefused
  exact ⟨spec, hspec, hrefused⟩

/-- The submit reserves its quote and then fails: the checks pass, the actor can
pay, and the execute payload is incomplete or the ledger refuses the actor to be
created. -/
def StrandsReservation (env : Env) (action : Action) (db : Db) : Prop :=
  ∃ ready db₁, Attempt.run database (preflight env action) db = (.ok ready, db₁) ∧
    holdReservedCost action.payload = none ∧
    (∃ row, db₁.energyLedger.find? action.actorId = some row ∧
      (quoteCost action : Int) ≤ row.energyBalance - row.reservedEnergy) ∧
    ((∃ e, artifactHashOf action = .error e) ∨ CreationRefused ready.createActor db₁)

/-- A payment that fails without the database: it changed nothing and there was
nothing to pay with, or it left its reservation behind. -/
theorem payAndCommit_error (hdistinct : DistinctPositions) {env : Env} {action : Action}
    {ready : Ready} {db db' : Db} {e : KernelError} (haligned : LogAligned db)
    (hsafe : LedgerSafe db) (hserved : ¬ DatabaseFailure e)
    (h : Attempt.Executes database (payAndCommit env action ready) db (.error e) db') :
    (db' = db ∧ (holdReservedCost action.payload ≠ none ∨
      ∀ row, db.energyLedger.find? action.actorId = some row →
        row.energyBalance - row.reservedEnergy < quoteCost action)) ∨
    (holdReservedCost action.payload = none ∧
      (∃ res, EnergyLedger.reserve action.actorId (quoteCost action) db = .ok (res, db')) ∧
      ((∃ e, artifactHashOf action = .error e) ∨ CreationRefused ready.createActor db)) := by
  rcases Attempt.executes_bind.mp h with ⟨⟨cost, reservation⟩, db₁, hreserve, h₁⟩ | ⟨e', he', hreserve⟩
  swap
  · cases he'
    exact .inl (quoteAndReserve_error hserved hreserve)
  -- after the reservation, nothing but the commit writes
  have hrest : db' = db₁ ∧ ((∃ e, artifactHashOf action = .error e) ∨
      ∃ artifactHash, finalizeEnergyAndEvent
        (finalizeTx env action ready cost reservation artifactHash) db₁ = .error e) := by
    rcases Attempt.executes_bind.mp h₁ with ⟨artifactHash, db₂, ⟨-, rfl⟩, h₂⟩ | ⟨e', -, he', rfl⟩
    swap
    · exact ⟨rfl, .inl ⟨e', he'.symm⟩⟩
    rcases Attempt.executes_bind.mp h₂ with ⟨event, db₃, -, h₃⟩ | ⟨e', he', hcall⟩
    · rcases afterCommit_answer h₃ with hok | ⟨e', hfailure, herr⟩
      · cases hok
      · cases herr
        exact absurd hfailure hserved
    · cases he'
      exact ⟨executes_call_error hcall, .inr ⟨artifactHash,
        executes_call_failed (fun _ hop => by cases hop) hserved hcall⟩⟩
  obtain ⟨rfl, hfailed⟩ := hrest
  rcases quoteAndReserve_ok hreserve with ⟨hclaim, rfl, -⟩ | ⟨hnone, rfl, rfl, hreserved⟩
  · exact .inl ⟨rfl, .inl (by rw [hclaim]; exact Option.some_ne_none cost)⟩
  refine .inr ⟨hnone, ⟨_, hreserved⟩, ?_⟩
  rcases hfailed with hpayload | ⟨artifactHash, hfinal⟩
  · exact .inl hpayload
  -- the settlement goes through, so the ledger refused the new actor
  have hreserves : Effect .countEvents db db' := reserve_effect hreserved
  obtain ⟨db₁, hsettle⟩ := settle_reserved hsafe hreserved
  rcases finalize_error hdistinct (LogAligned.effect hdistinct hreserves haligned)
    (LedgerSafe.effect hreserves hsafe) hfinal hserved with herr | ⟨db₂, hsettled, hrefused⟩
  · have hrefused : EnergyLedger.settleInTx action.actorId (quoteCost action) (quoteCost action) db' =
        .error e := herr
    rw [hsettle] at hrefused
    cases hrefused
  · refine .inr (hrefused.congr ?_)
    intro x
    obtain ⟨row, -, -, -, -, -, -, -, rfl⟩ := EnergyLedger.settleInTx_eq_ok hsettled
    obtain ⟨row', -, -, -, -, rfl⟩ := EnergyLedger.reserve_eq_ok hreserved
    rw [EnergyLedger.isSome_find?_put, EnergyLedger.isSome_find?_put]

/-! ## A submit that fails -/

/-- A submit that is no hold response, is not put on hold and fails although the
database serves it changes nothing but what lapses, exactly when it does not
leave a reservation behind. -/
theorem submit_fails_clean_iff (hdistinct : DistinctPositions) {pool : KernelPool}
    (hreach : Reachable kernelSystem StateStore.genesis pool) {envs : Nat → Env} {action : Action}
    {e : KernelError} {db' : Db} (hresponse : holdResponse? action = none)
    (hhold : ∀ holdId agentId, e ≠ .holdTriggered holdId agentId)
    (hserved : ¬ DatabaseFailure e)
    (h : Completes kernelSystem (submitAction envs action) pool.store (.error e) db') :
    Lapsed (envs 0) action.actorId pool.store db' ↔ ¬ StrandsReservation (envs 0) action pool.store := by
  obtain ⟨tr, hrun⟩ := hreach
  obtain ⟨hsound, -⟩ := KernelRun.keeps hrun
  have haligned : LogAligned pool.store :=
    KernelRun.keep logAligned_genesis (LogAligned.effect hdistinct) hrun
  have hsafe : LedgerSafe pool.store := KernelRun.keep ledgerSafe_genesis LedgerSafe.effect hrun
  rcases Attempt.executes_bind.mp (submit_executes hresponse h) with
    ⟨ready, db₁, hpre, hpay⟩ | ⟨e', he', hpre⟩
  swap
  · -- the checks refused
    cases he'
    have hlapsed : Lapsed (envs 0) action.actorId pool.store db' := by
      refine (preflight_checked hpre).lapsed ?_
      rintro ⟨holdId, agentId, herr⟩
      cases herr
      exact hhold holdId agentId rfl
    refine iff_of_true hlapsed ?_
    rintro ⟨ready, db₁, hready, -⟩
    rcases (strict_preflight (envs 0) action).executes hpre with hrefused | ⟨e', he', herr⟩
    · rw [hrefused] at hready
      cases hready
    · cases herr
      exact hserved he'
  have hready : Attempt.run database (preflight (envs 0) action) pool.store = (.ok ready, db₁) := by
    rcases (strict_preflight (envs 0) action).executes hpre with hready | ⟨e', -, herr⟩
    · exact hready
    · cases herr
  have hlapsed : Lapsed (envs 0) action.actorId pool.store db₁ :=
    (preflight_checked hpre).lapsed (not_onHold_ok _)
  rcases payAndCommit_error hdistinct (hlapsed.keep (LogAligned.effect hdistinct) haligned)
    (hlapsed.keep LedgerSafe.effect hsafe) hserved hpay with
    ⟨rfl, hunpaid⟩ | ⟨hnone, ⟨res, hreserve⟩, hfails⟩
  · refine iff_of_true hlapsed ?_
    rintro ⟨ready', db₂, hready', hnone, ⟨row, hrow, hcost⟩, -⟩
    rw [hready] at hready'
    cases hready'
    rcases hunpaid with hclaim | hpoor
    · exact hclaim hnone
    · have hless := hpoor row hrow
      omega
  · -- the reservation is still there, and no hold backs it
    refine iff_of_false ?_ (not_not.mpr ?_)
    · intro hlapsed'
      have hbefore := hlapsed.unbacked hsound action.actorId
      have hafter := hlapsed'.unbacked hsound action.actorId
      rw [reserve_unbacked hreserve, hbefore] at hafter
      have hpos : (0 : Int) < quoteCost action := by exact_mod_cast quoteCost_pos action
      unfold amountFor at hafter
      rw [if_pos rfl] at hafter
      omega
    · obtain ⟨row, hrow, -, hcost, -, -⟩ := EnergyLedger.reserve_eq_ok hreserve
      exact ⟨ready, db₁, hready, hnone, ⟨row, hrow, hcost⟩, hfails⟩

/-! ## Two submits that fail -/

/-- An agent with little energy has a change on hold, to be answered within a second. -/
def agentShortOfEnergy : List (Turn Request) :=
  alone 30 (createAgent 0 "agent-1" 20) ++
    alone 30 (grantEnvelope 1 "agent-1" 100 [holdMutates, ("hold_timeout_secs", .num (.int 1))]) ++
    alone 30 (submitAt 2 "agent-1" .mutate "workspace/a" (.obj []))

/-- What it asks for ten seconds later: an execute, which costs more than it has. -/
def dearExecute : Action := ⟨"agent-1", .execute, "workspace/a", .obj [], none⟩

omit [Externals] in
/-- Its hold has timed out, which the submit takes note of before it fails, and nothing
else has changed. -/
theorem dearExecute_fails_clean :
    letI := reference
    ∃ e db', Completes kernelSystem (submitAction (fun k => envAt (12 + k)) dearExecute)
        (kernelPlayed agentShortOfEnergy).pool.store (.error e) db' ∧
      db'.holdRequests.rows.map HoldRequest.status = [.timedOut] ∧
      Lapsed (envAt 12) "agent-1" (kernelPlayed agentShortOfEnergy).pool.store db' := by
  have hplayed : (errorOf (lazyServe 1 (@submitAction reference (fun k => envAt (12 + k)) dearExecute)
          (kernelPlayed agentShortOfEnergy).pool.store).1).map (fun e => match e with
            | .insufficientEnergy .. => true
            | _ => false) = some true ∧
      (lazyServe 1 (@submitAction reference (fun k => envAt (12 + k)) dearExecute)
          (kernelPlayed agentShortOfEnergy).pool.store).2.holdRequests.rows.map HoldRequest.status =
        [.timedOut] ∧
      ((lazyRun (@preflight reference (envAt 12) dearExecute)
          (kernelPlayed agentShortOfEnergy).pool.store).2.energyLedger.find? "agent-1").all (fun row =>
        decide (row.energyBalance - row.reservedEnergy < (quoteCost dearExecute : Int))) = true := by
    rw [kernelPlayed_eq]
    decide +kernel
  obtain ⟨herror, hholds, hpoor⟩ := hplayed
  obtain ⟨e, he, hkind⟩ := Option.map_eq_some_iff.mp herror
  refine ⟨e, _, completes_of_error he, hholds, ?_⟩
  refine (@submit_fails_clean_iff reference distinctPositions_reference _
    ⟨_, kernelRun_played agentShortOfEnergy⟩ _ _ _ _ (by decide) (fun _ _ h => by cases h; cases hkind)
    (fun h => by cases h <;> cases hkind) (completes_of_error he)).mpr ?_
  -- after the checks the agent still cannot pay
  rintro ⟨ready, db₁, hready, -, ⟨row, hrow, hcost⟩, -⟩
  have hrun : (lazyRun (@preflight reference (envAt 12) dearExecute)
      (kernelPlayed agentShortOfEnergy).pool.store).2 = db₁ := by
    unfold lazyRun
    rw [@lazyDatabase_eq reference]
    exact congrArg Prod.snd hready
  rw [hrun] at hpoor
  have hfind : db₁.energyLedger.find? "agent-1" = some row := hrow
  rw [hfind] at hpoor
  have hless := of_decide_eq_true hpoor
  exact absurd hcost (not_le.mpr hless)

/-- An execute of root's whose payload names no input. -/
def rootExecute : Action := ⟨"root", .execute, "workspace/a", .obj [], none⟩

omit [Externals] in
/-- An execute that fails and keeps its reservation: what it costs is reserved before
its payload is looked at, and nobody gives it back. -/
theorem rootExecute_not_clean :
    letI := reference
    ¬ ∀ pool, Reachable kernelSystem StateStore.genesis pool → pool.tasks = [] →
      ∀ envs action e db', holdResponse? action = none →
      (∀ holdId agentId, e ≠ .holdTriggered holdId agentId) → ¬ DatabaseFailure e →
      Completes kernelSystem (submitAction envs action) pool.store (.error e) db' →
      Lapsed (envs 0) action.actorId pool.store db' := by
  intro hclaim
  have herror : (errorOf (lazyServe 1 (@submitAction reference envAt rootExecute)
      StateStore.genesis).1).map (fun e => match e with
        | .executePayloadInvalid _ => true
        | _ => false) = some true := by
    decide
  obtain ⟨e, he, hkind⟩ := Option.map_eq_some_iff.mp herror
  have hlapsed := hclaim ⟨StateStore.genesis, []⟩ ⟨[], .start⟩ rfl envAt rootExecute e _ (by decide)
    (fun _ _ h => by cases h; cases hkind) (fun h => by cases h <;> cases hkind)
    (completes_of_error he)
  have hsound := (@KernelRun.keeps reference [] ⟨StateStore.genesis, []⟩ .start).1
  have hsame := @Lapsed.unbacked reference _ _ _ _ hlapsed hsound "root"
  have hbefore : StateStore.genesis.unbacked "root" = 0 := by decide
  have hafter : (lazyServe 1 (@submitAction reference envAt rootExecute)
      StateStore.genesis).2.unbacked "root" = 26 := by
    decide
  rw [hbefore, hafter] at hsame
  cases hsame

end PunkgoKernel
