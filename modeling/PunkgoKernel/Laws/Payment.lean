import PunkgoKernel.Laws.Preflight
import PunkgoKernel.Runtime.Evaluation

/-!
# What a commit pays

After the checks a submit reserves its quote, commits, and carries out what the
commit entails. A committed action has paid exactly its quote when the
reservation it settled is its own. A payload with an integer
`_hold_reserved_cost` names another price: the action then settles energy that
somebody else reserved, or nothing at all (`submit_pays_quote_iff`).
-/

namespace PunkgoKernel

open Json (Value)
open Relational (Table key)
open Resumption

variable [Externals]

/-! ## After the commit -/

omit [Externals] in
/-- The ledger, the hold requests and the log are as they were. -/
structure SameBooks (db db' : Db) : Prop where
  ledger : db'.energyLedger = db.energyLedger
  holds : db'.holdRequests = db.holdRequests
  events : db'.events = db.events

omit [Externals] in
/-- Nothing done leaves the books as they are. -/
theorem SameBooks.refl (db : Db) : SameBooks db db := ⟨rfl, rfl, rfl⟩

omit [Externals] in
/-- What twice leaves the books as they are does so together. -/
theorem SameBooks.trans {a b c : Db} (h : SameBooks a b) (h' : SameBooks b c) : SameBooks a c where
  ledger := h'.ledger.trans h.ledger
  holds := h'.holds.trans h.holds
  events := h'.events.trans h.events

/-- The operations that follow a commit. -/
def Op.Aftermath : Op → Prop
  | .getActor _ | .getActiveForActor _ | .setPolicyVersion _ | .consumeBudget _
  | .executeFreeze _ | .executeUnfreeze _ | .executeUpdateEnergyShare .. => True
  | _ => False

omit [Externals] in
/-- A change of an actor's row leaves the books as they are. -/
theorem updateActor_sameBooks {actorId : String} {f : ActorRecord → ActorRecord}
    {hf : ∀ r, key (f r) = key r} {db db' : Db}
    (h : ActorStore.updateInTx actorId f hf db = .ok db') : SameBooks db db' := by
  obtain ⟨-, rfl⟩ := ActorStore.updateInTx_eq_ok h
  exact ⟨rfl, rfl, rfl⟩

omit [Externals] in
/-- Freezing actors leaves the books as they are. -/
theorem freezeAll_sameBooks {actorIds : List String} {db db' : Db}
    (h : freezeAll actorIds db = .ok db') : SameBooks db db' := by
  induction actorIds generalizing db with
  | nil =>
    cases h
    exact .refl _
  | cons actorId rest ih =>
    obtain ⟨db₁, hstatus, h⟩ := bind_eq_ok.mp h
    exact (updateActor_sameBooks hstatus).trans (ih h)

omit [Externals] in
/-- Charging an envelope leaves the books as they are, whether the budget covers it or
not. -/
theorem consumeBudget_sameBooks {tx : ConsumeTx} {db db' : Db} {x : KernelResult Int}
    (h : consumeBudget tx db = .ok (x, db')) : SameBooks db db' := by
  rcases consumeBudget_eq_ok h with ⟨-, rfl⟩ | ⟨total, db₁, -, hconsume, hdb'⟩
  · exact .refl _
  · obtain ⟨row, -, -, -, rfl⟩ := EnvelopeStore.consumeBudgetInTx_eq_ok hconsume
    rcases hdb' with rfl | hstatus
    · exact ⟨rfl, rfl, rfl⟩
    · obtain ⟨-, rfl⟩ := EnvelopeStore.setStatusInTx_eq_ok hstatus
      exact ⟨rfl, rfl, rfl⟩

/-- The operations that follow a commit leave the books as they are. -/
theorem exec_sameBooks {op : Op} (hop : op.Aftermath) (db : Db) :
    SameBooks db (exec op db).2 := by
  rcases exec_cases op db with ⟨v, db', htx, hexec⟩ | ⟨e, -, hexec⟩
  swap
  · rw [hexec]
    exact .refl _
  rw [hexec]
  cases op with
  | getActor | getActiveForActor =>
    cases htx
    exact .refl _
  | setPolicyVersion =>
    cases htx
    exact ⟨rfl, rfl, rfl⟩
  | consumeBudget => exact consumeBudget_sameBooks htx
  | executeFreeze => exact freezeAll_sameBooks (executeFreeze_eq_ok htx).2
  | executeUnfreeze => exact updateActor_sameBooks (unitTx_eq_ok htx)
  | executeUpdateEnergyShare =>
    have hupdate := unitTx_eq_ok htx
    unfold ActorStore.updateEnergyShareInTx at hupdate
    split at hupdate
    · cases hupdate
    · exact updateActor_sameBooks hupdate
  | _ => cases hop

omit [Externals] in
/-- Recording the version of a policy takes only operations that follow a commit. -/
theorem uses_recordPolicyVersion (version : Option String) :
    (recordPolicyVersion version).Uses Op.Aftermath := by
  cases version with
  | none => trivial
  | some v => exact (Attempt.Uses.outcome (uses_call trivial)).bind fun _ => trivial

omit [Externals] in
/-- Charging the envelope takes only operations that follow a commit. -/
theorem uses_chargeEnvelope (action : Action) (settledCost : Int) :
    (chargeEnvelope action settledCost).Uses Op.Aftermath := by
  unfold chargeEnvelope
  split
  · refine (Attempt.Uses.outcome (uses_call trivial)).bind fun found => ?_
    split
    · split
      · refine (Attempt.Uses.outcome (uses_call trivial)).bind fun envelope => ?_
        split
        · exact (uses_call trivial).bind fun _ => trivial
        · trivial
      · trivial
    · trivial
  · trivial

omit [Externals] in
/-- A lifecycle operation takes only operations that follow a commit. -/
theorem uses_executeLifecycle (lifecycle : Option (String × LifecycleOp)) :
    (executeLifecycle lifecycle).Uses Op.Aftermath := by
  cases lifecycle with
  | none => trivial
  | some l =>
    obtain ⟨targetActorId, op⟩ := l
    refine (Attempt.Uses.outcome (uses_call ?_)).bind fun _ => trivial
    cases op <;> trivial

/-- What follows a commit leaves the books alone. -/
theorem afterCommit_sameBooks {action : Action} {cost : Int} {artifactHash : Option String}
    {event : EventRecord} {db db' : Db} {r : KernelResult Outcome}
    (h : Attempt.Executes database (afterCommit action cost artifactHash event) db r db') :
    SameBooks db db' := by
  have huses : (afterCommit action cost artifactHash event).Uses Op.Aftermath := by
    refine (uses_recordPolicyVersion _).bind fun _ => ?_
    refine (uses_chargeEnvelope action cost).bind fun _ => ?_
    exact (uses_executeLifecycle _).bind fun _ => trivial
  exact Prog.Uses.relates huses SameBooks.refl SameBooks.trans
    (fun op db hop => exec_sameBooks hop db) h

omit [Externals] in
/-- A charge is answered, even when it is refused. -/
theorem consumeBudget_ne_error (tx : ConsumeTx) (db : Db) (e : KernelError) :
    consumeBudget tx db ≠ .error e := by
  intro h
  unfold consumeBudget at h
  split at h
  · cases h
  next total db₁ hconsume =>
  split at h
  · obtain ⟨row, hrow, -, -, rfl⟩ := EnvelopeStore.consumeBudgetInTx_eq_ok hconsume
    have hstill := Table.isSome_find?_modify db.envelopes tx.envelopeId tx.envelopeId
      (fun r => { r with budgetConsumed := total }) fun _ => rfl
    rw [hrow] at hstill
    obtain ⟨row', hrow'⟩ := Option.isSome_iff_exists.mp (hstill.mpr rfl)
    unfold EnvelopeStore.setStatusInTx at h
    rw [hrow'] at h
    cases h
  · cases h

/-- An attempt whose outcome is ignored is passed over. -/
theorem executes_ignored {α : Type} {p : KernelProg α} {db db' : Db} {r : KernelResult Unit}
    (h : Attempt.Executes database (do let _ ← p.outcome; pure ()) db r db') : r = .ok () := by
  rcases Attempt.executes_bind.mp h with ⟨x, db₁, -, hr, -⟩ | ⟨e, -, houtcome⟩
  · exact hr
  · obtain ⟨x, hx, -⟩ := Attempt.executes_outcome.mp houtcome
    cases hx

/-- A charge that the database does not deny service to is passed over, made or
not. -/
theorem chargeEnvelope_answer {action : Action} {cost : Int} {db db' : Db} {r : KernelResult Unit}
    (h : Attempt.Executes database (chargeEnvelope action cost) db r db') :
    r = .ok () ∨ ∃ e, DatabaseFailure e ∧ r = .error e := by
  unfold chargeEnvelope at h
  split at h
  swap
  · exact .inl h.1
  rcases Attempt.executes_bind.mp h with ⟨found, db₁, -, h₁⟩ | ⟨e, -, houtcome⟩
  swap
  · obtain ⟨x, hx, -⟩ := Attempt.executes_outcome.mp houtcome
    cases hx
  split at h₁
  swap
  · exact .inl h₁.1
  split at h₁
  swap
  · exact .inl h₁.1
  rcases Attempt.executes_bind.mp h₁ with ⟨envelope, db₂, -, h₂⟩ | ⟨e, -, houtcome⟩
  swap
  · obtain ⟨x, hx, -⟩ := Attempt.executes_outcome.mp houtcome
    cases hx
  split at h₂
  swap
  · exact .inl h₂.1
  rcases Attempt.executes_bind.mp h₂ with ⟨x, db₃, -, h₃⟩ | ⟨e, rfl, hcall⟩
  · exact .inl h₃.1
  rcases executes_call.mp hcall with ⟨herr, -⟩ | ⟨⟨e', he', heq⟩, -⟩
  · rcases exec_cases (.consumeBudget _) db₂ with ⟨v, db₄, -, hexec⟩ | ⟨e', htx, -⟩
    · rw [hexec] at herr
      cases herr
    · exact absurd htx (consumeBudget_ne_error _ _ _)
  · rcases heq with heq | heq <;> cases heq
    exact .inr ⟨e, he', rfl⟩

/-- A commit ends with its receipt, unless the database denies service. -/
theorem afterCommit_answer {action : Action} {cost : Int} {artifactHash : Option String}
    {event : EventRecord} {db db' : Db} {r : KernelResult Outcome}
    (h : Attempt.Executes database (afterCommit action cost artifactHash event) db r db') :
    r = .ok (.receipt ⟨event.id, event.logIndex, event.eventHash, cost, cost, artifactHash⟩) ∨
      ∃ e, DatabaseFailure e ∧ r = .error e := by
  have hpolicy : ∀ {db db' : Db} {r : KernelResult Unit}, Attempt.Executes database
      (recordPolicyVersion (parsePolicyVersion action)) db r db' → r = .ok () := by
    intro db db' r h
    cases hversion : parsePolicyVersion action with
    | none =>
      rw [hversion] at h
      exact h.1
    | some version =>
      rw [hversion] at h
      exact executes_ignored h
  have hlifecycle : ∀ {db db' : Db} {r : KernelResult Unit}, Attempt.Executes database
      (executeLifecycle (lifecycleOp? action)) db r db' → r = .ok () := by
    intro db db' r h
    cases hop : lifecycleOp? action with
    | none =>
      rw [hop] at h
      exact h.1
    | some l =>
      rw [hop] at h
      exact executes_ignored h
  rcases Attempt.executes_bind.mp h with ⟨u, db₁, -, h₁⟩ | ⟨e, -, herr⟩
  swap
  · cases hpolicy herr
  rcases Attempt.executes_bind.mp h₁ with ⟨u', db₂, -, h₂⟩ | ⟨e, rfl, hcharge⟩
  swap
  · rcases chargeEnvelope_answer hcharge with hok | ⟨e', he', heq⟩
    · cases hok
    · cases heq
      exact .inr ⟨e, he', rfl⟩
  rcases Attempt.executes_bind.mp h₂ with ⟨u'', db₃, -, hr, -⟩ | ⟨e, -, herr⟩
  · exact .inl hr
  · cases hlifecycle herr

/-! ## The reservation and the settlement -/

/-- The cost of an action with the reservation it settles: the one its payload
names, or its quote, just reserved. -/
theorem quoteAndReserve_ok {action : Action} {db db' : Db} {cost : Int}
    {reservation : Option EnergyReservation}
    (h : Attempt.Executes database (quoteAndReserve action) db (.ok (cost, reservation)) db') :
    (holdReservedCost action.payload = some cost ∧ db' = db ∧
      reservation = if 0 < cost then some ⟨action.actorId, cost⟩ else none) ∨
    (holdReservedCost action.payload = none ∧ cost = quoteCost action ∧
      reservation = some ⟨action.actorId, cost⟩ ∧
      EnergyLedger.reserve action.actorId cost db = .ok (⟨action.actorId, cost⟩, db')) := by
  unfold quoteAndReserve at h
  split at h
  · next reserved hclaim =>
    obtain ⟨heq, rfl⟩ := h
    cases heq
    exact .inl ⟨hclaim, rfl, rfl⟩
  · next hnone =>
    have hpos : (0 : Int) < quoteCost action := by exact_mod_cast quoteCost_pos action
    rw [if_pos hpos] at h
    rcases Attempt.executes_bind.mp h with ⟨res, db₁, hcall, heq, rfl⟩ | ⟨e, herr, -⟩
    swap
    · cases herr
    have htx : EnergyLedger.reserve action.actorId (quoteCost action) db = .ok (res, db') :=
      executes_call_ok (fun _ hop => by cases hop) hcall
    obtain ⟨row, -, -, -, rfl, -⟩ := EnergyLedger.reserve_eq_ok htx
    cases heq
    exact .inr ⟨hnone, rfl, rfl, htx⟩

/-- A quote that cannot be reserved changes nothing. -/
theorem quoteAndReserve_failed {action : Action} {db db' : Db} {e : KernelError}
    (h : Attempt.Executes database (quoteAndReserve action) db (.error e) db') : db' = db := by
  unfold quoteAndReserve at h
  split at h
  · cases h.1
  simp only at h
  split at h
  · rcases Attempt.executes_bind.mp h with ⟨res, db₁, -, herr, -⟩ | ⟨e', -, hcall⟩
    · cases herr
    · exact executes_call_error hcall
  · cases h.1

omit [Externals] in
/-- A reservation sets energy of its actor aside and takes none. -/
theorem reserve_energy {actorId : String} {cost : Int} {db db' : Db} {res : EnergyReservation}
    (h : EnergyLedger.reserve actorId cost db = .ok (res, db')) (x : String) :
    db'.balance x = db.balance x ∧ db'.reserved x = db.reserved x + amountFor actorId cost x := by
  obtain ⟨row, hrow, -, -, -, rfl⟩ := EnergyLedger.reserve_eq_ok h
  rw [balance_put hrow, reserved_put hrow]
  unfold amountFor
  constructor <;> split <;> omega

omit [Externals] in
/-- The rows of a new actor leave every other actor's energy alone. -/
theorem createActorRows_energy {createActor : Option CreateActorSpec} {db db' : Db}
    (h : createActorRows createActor db = .ok db') {x : String}
    (hx : (db.energyLedger.find? x).isSome) :
    db'.balance x = db.balance x ∧ db'.reserved x = db.reserved x := by
  cases createActor with
  | none =>
    cases h
    exact ⟨rfl, rfl⟩
  | some spec =>
    obtain ⟨-, -, row, ledger, actors, -, hins, -, rfl⟩ := createActorRows_eq_ok h
    obtain ⟨energy, henergy⟩ := Option.isSome_iff_exists.mp hx
    have hkept := Table.find?_insert_of_some hins henergy
    unfold Db.balance Db.reserved
    rw [henergy, hkept]
    exact ⟨rfl, rfl⟩

omit [Externals] in
/-- A new envelope leaves the books as they are. -/
theorem createEnvelopeRow_sameBooks {createEnvelope : Option (String × EnvelopeSpec × Option String)}
    {now : Nat} {db db' : Db} (h : createEnvelopeRow createEnvelope now db = .ok db') :
    SameBooks db db' := by
  rw [createEnvelopeRow_frame h]
  exact ⟨rfl, rfl, rfl⟩

/-- A commit that settles a reservation takes the cost from the balance and the
reservation from what is reserved, and leaves the hold requests alone. -/
theorem finalize_energy {tx : FinalizeTx} {db db' : Db} {ev : EventRecord} {res : EnergyReservation}
    (h : finalizeEnergyAndEvent tx db = .ok (ev, db')) (hres : tx.reservation = some res)
    {x : String} (hx : (db.energyLedger.find? x).isSome) :
    db'.balance x = db.balance x - amountFor res.actorId tx.settledCost x ∧
      db'.reserved x = db.reserved x - amountFor res.actorId res.reserved x ∧
      db'.holdRequests = db.holdRequests := by
  obtain ⟨db₁, db₂, db₃, events, hashes, hsettle, hactor, henvelope, -, rfl⟩ := finalize_eq_ok h
  rw [hres] at hsettle
  obtain ⟨hbalance, hreserved⟩ := settleInTx_energy hsettle x
  obtain ⟨row, hrow, -, -, -, -, -, -, rfl⟩ := EnergyLedger.settleInTx_eq_ok hsettle
  have hx₁ := (EnergyLedger.isSome_find?_put db.energyLedger res.actorId
    (row.energyBalance - tx.settledCost) (row.reservedEnergy - res.reserved) x).mpr hx
  obtain ⟨hbalance', hreserved'⟩ := createActorRows_energy hactor hx₁
  have hbooks := createEnvelopeRow_sameBooks henvelope
  have hholds := congrArg Db.holdRequests (createActorRows_frame hactor)
  refine ⟨?_, ?_, hbooks.holds.trans hholds⟩
  · rw [← hbalance, ← hbalance']
    show ((db₃.energyLedger.find? x).map _).getD 0 = _
    rw [hbooks.ledger]
    rfl
  · rw [← hreserved, ← hreserved']
    show ((db₃.energyLedger.find? x).map _).getD 0 = _
    rw [hbooks.ledger]
    rfl

/-- The parts of a payment that went through. -/
theorem payAndCommit_ok {env : Env} {action : Action} {ready : Ready} {db db' : Db}
    {outcome : Outcome}
    (h : Attempt.Executes database (payAndCommit env action ready) db (.ok outcome) db') :
    ∃ cost reservation artifactHash event db₁ db₂,
      Attempt.Executes database (quoteAndReserve action) db (.ok (cost, reservation)) db₁ ∧
      artifactHashOf action = .ok artifactHash ∧
      finalizeEnergyAndEvent (finalizeTx env action ready cost reservation artifactHash) db₁ =
        .ok (event, db₂) ∧
      SameBooks db₂ db' ∧
      outcome =
        .receipt ⟨event.id, event.logIndex, event.eventHash, cost, cost, artifactHash⟩ := by
  rcases Attempt.executes_bind.mp h with ⟨⟨cost, reservation⟩, db₁, hreserve, h₁⟩ | ⟨e, herr, -⟩
  swap
  · cases herr
  rcases Attempt.executes_bind.mp h₁ with ⟨artifactHash, db₂, ⟨hartifact, rfl⟩, h₂⟩ | ⟨e, herr, -⟩
  swap
  · cases herr
  rcases Attempt.executes_bind.mp h₂ with ⟨event, db₃, hcall, h₃⟩ | ⟨e, herr, -⟩
  swap
  · cases herr
  have htx := executes_call_ok (fun _ hop => by cases hop) hcall
  rcases afterCommit_answer h₃ with hok | ⟨e, -, herr⟩
  · cases hok
    exact ⟨cost, reservation, artifactHash, event, db₂, db₃, hreserve, hartifact.symm, htx,
      afterCommit_sameBooks h₃, rfl⟩
  · cases herr

/-! ## The quote is paid -/

/-- A submit that is no hold response is one pass: the checks, then the
payment. -/
theorem submit_executes {envs : Nat → Env} {action : Action} {db db' : Db}
    {r : KernelResult Outcome} (hresponse : holdResponse? action = none)
    (h : Completes kernelSystem (submitAction envs action) db r db') :
    Attempt.Executes database (preflight (envs 0) action >>= payAndCommit (envs 0) action)
      db r db' := by
  rw [submitAction_eq envs hresponse] at h
  -- the answer is no tail call
  have hdone : ∀ {r : KernelResult Outcome} {db'' : Db}, Attempt.Executes database
      (preflight (envs 0) action >>= payAndCommit (envs 0) action) db r db'' → again r = none := by
    intro r db'' hexec
    rcases Attempt.executes_bind.mp hexec with ⟨ready, db₁, -, hpay⟩ | ⟨e, rfl, -⟩
    · cases r with
      | error e => rfl
      | ok outcome =>
        obtain ⟨_, _, _, _, _, _, -, -, -, -, rfl⟩ := payAndCommit_ok hpay
        rfl
    · rfl
  cases h with
  | done hexec _ => exact hexec
  | again hexec hagain _ =>
    have hnone := hdone hexec
    rw [show again _ = _ from hagain] at hnone
    cases hnone

/-- A submit that is no hold response and is committed. -/
theorem submit_receipt {envs : Nat → Env} {action : Action} {db db' : Db} {outcome : Outcome}
    (hresponse : holdResponse? action = none)
    (h : Completes kernelSystem (submitAction envs action) db (.ok outcome) db') :
    ∃ ready db₁,
      Attempt.Executes database (preflight (envs 0) action) db (.ok ready) db₁ ∧
      Attempt.Executes database (payAndCommit (envs 0) action ready) db₁ (.ok outcome) db' := by
  rcases Attempt.executes_bind.mp (submit_executes hresponse h) with
    ⟨ready, db₁, hpre, hpay⟩ | ⟨e, herr, -⟩
  · exact ⟨ready, db₁, hpre, hpay⟩
  · cases herr

omit [Externals] in
/-- What the holds give back and what they forfeit is a matter of the holds alone. -/
theorem released_congr {db db' : Db} (h : db'.holdRequests = db.holdRequests) (x : String) :
    db'.released x = db.released x ∧ db'.forfeited x = db.forfeited x := by
  unfold Db.released Db.forfeited
  rw [h]
  exact ⟨rfl, rfl⟩

omit [Externals] in
/-- With the books as they are, so are balances and reservations. -/
theorem SameBooks.energy {db db' : Db} (h : SameBooks db db') (x : String) :
    db'.balance x = db.balance x ∧ db'.reserved x = db.reserved x := by
  unfold Db.balance Db.reserved
  rw [h.ledger]
  exact ⟨rfl, rfl⟩

/-- A committed action paid its quote: the receipt and the committed event say
so, a quote request answers the same, and the actor's energy shows it, apart
from what its timed-out holds forfeit and release. -/
structure PaysQuote (action : Action) (db db' : Db) (receipt : SubmitReceipt) : Prop where
  settledCost : receipt.settledCost = quoteCost action
  settledEnergy : ∃ event, db'.events.find? receipt.eventId = some event ∧
    event ∉ db.events.rows ∧ event.settledEnergy = quoteCost action
  quoted : Attempt.run database (quote action) db = (.ok (.quoted (quoteCost action)), db)
  balance : db'.balance action.actorId + db'.forfeited action.actorId =
    db.balance action.actorId + db.forfeited action.actorId - quoteCost action
  reserved : db'.reserved action.actorId + db'.released action.actorId =
    db.reserved action.actorId + db.released action.actorId

/-- The checks pass only an action a quote request answers. -/
theorem preflight_valid {env : Env} {action : Action} {db db' : Db} {ready : Ready}
    (h : Attempt.Executes database (preflight env action) db (.ok ready) db') :
    validateAction action = .ok () := by
  rcases Attempt.executes_bind.mp h with ⟨u, db₁, ⟨hvalid, -⟩, -⟩ | ⟨e, herr, -⟩
  · exact hvalid.symm
  · cases herr

/-- The event of a commit is a new one. -/
theorem finalize_new {tx : FinalizeTx} {db db' : Db} {ev : EventRecord}
    (h : finalizeEnergyAndEvent tx db = .ok (ev, db')) :
    db'.events.find? ev.id = some ev ∧ ev ∉ db.events.rows := by
  obtain ⟨db₁, db₂, db₃, events, hashes, hsettle, hactor, henvelope, hcommit, rfl⟩ :=
    finalize_eq_ok h
  have heffects : Effects (.finalize tx) db db₃ :=
    ((settleReservation_effects hsettle).trans (createActorRows_effects hactor)).trans
      (createEnvelopeRow_effects henvelope)
  have hbegins := heffects.later.events
  constructor
  · exact (Table.find?_insert hcommit.inserted ev.id).trans (if_pos rfl)
  · intro hmem
    have hfind := Table.find?_of_mem (hbegins.subset hmem)
    rw [(Table.insert?_eq_some hcommit.inserted).1] at hfind
    cases hfind

omit [Externals] in
/-- A settlement needs a ledger row of its actor. -/
theorem settleReservation_row {res : EnergyReservation} {cost : Int} {db db' : Db}
    (h : settleReservation (some res) cost db = .ok db') :
    (db.energyLedger.find? res.actorId).isSome := by
  obtain ⟨row, hrow, -⟩ := EnergyLedger.settleInTx_eq_ok h
  rw [hrow]
  rfl

/-- A commit that settles a reservation needs a ledger row of its actor. -/
theorem finalize_row {tx : FinalizeTx} {db db' : Db} {ev : EventRecord} {res : EnergyReservation}
    (h : finalizeEnergyAndEvent tx db = .ok (ev, db')) (hres : tx.reservation = some res) :
    (db.energyLedger.find? res.actorId).isSome := by
  obtain ⟨db₁, _, _, _, _, hsettle, -⟩ := finalize_eq_ok h
  rw [hres] at hsettle
  exact settleReservation_row hsettle

/-- A committed submit that is no hold response has paid its quote exactly when its
payload claims no reservation. Paid is what the ledger, the event and the receipt say,
and they agree. -/
theorem submit_pays_quote_iff {pool : KernelPool}
    (hreach : Reachable kernelSystem StateStore.genesis pool) {envs : Nat → Env} {action : Action}
    {receipt : SubmitReceipt} {db' : Db} (hresponse : holdResponse? action = none)
    (h : Completes kernelSystem (submitAction envs action) pool.store (.ok (.receipt receipt)) db') :
    PaysQuote action pool.store db' receipt ↔ holdReservedCost action.payload = none := by
  obtain ⟨tr, hrun⟩ := hreach
  obtain ⟨hsound, -⟩ := KernelRun.keeps hrun
  obtain ⟨ready, db₁, hpre, hpay⟩ := submit_receipt hresponse h
  obtain ⟨cost, reservation, artifactHash, event, db₂, db₃, hreserve, -, hfinal, hbooks,
    houtcome⟩ := payAndCommit_ok hpay
  cases houtcome
  have hlapsed : Lapsed (envs 0) action.actorId pool.store db₁ :=
    (preflight_checked hpre).lapsed (not_onHold_ok _)
  obtain ⟨hreserved, hbalance⟩ := hlapsed.energy hsound action.actorId
  have hpos : (0 : Int) < quoteCost action := by exact_mod_cast quoteCost_pos action
  obtain ⟨hbalance₃, hreserved₃⟩ := hbooks.energy action.actorId
  obtain ⟨hreleased₃, hforfeited₃⟩ := released_congr hbooks.holds action.actorId
  rcases quoteAndReserve_ok hreserve with ⟨hclaim, rfl, hres⟩ | ⟨hnone, rfl, hres, hreserve'⟩
  · -- a claimed reservation is none of the action's own
    rw [hclaim]
    refine iff_of_false ?_ (fun h => by cases h)
    intro hpays
    have hcost : cost = quoteCost action := hpays.settledCost
    rw [if_pos (hcost ▸ hpos)] at hres
    obtain ⟨-, hsettled, hholds⟩ := finalize_energy hfinal hres (finalize_row hfinal hres)
    obtain ⟨hreleased, -⟩ := released_congr hholds action.actorId
    have hback := hpays.reserved
    rw [hreserved₃, hreleased₃, hsettled, hreleased] at hback
    unfold amountFor at hback
    rw [if_pos rfl] at hback
    simp only at hback
    omega
  · -- the action's own reservation, made and settled
    refine iff_of_true ?_ hnone
    obtain ⟨hpaid, hsettled, hholds⟩ := finalize_energy hfinal hres (finalize_row hfinal hres)
    obtain ⟨hreleased, hforfeited⟩ := released_congr hholds action.actorId
    obtain ⟨hbalance₂, hreserved₂⟩ := reserve_energy hreserve' action.actorId
    have hholds₂ : db₂.holdRequests = db₁.holdRequests := by
      obtain ⟨_, -, -, -, -, rfl⟩ := EnergyLedger.reserve_eq_ok hreserve'
      rfl
    obtain ⟨hreleased₂, hforfeited₂⟩ := released_congr hholds₂ action.actorId
    obtain ⟨hfind, hnew⟩ := finalize_new hfinal
    obtain ⟨idx, hplaced⟩ := finalize_event hfinal
    unfold amountFor at hpaid hsettled hreserved₂
    rw [if_pos rfl] at hpaid hsettled hreserved₂
    simp only [finalizeTx] at hpaid hsettled
    exact
      { settledCost := rfl
        settledEnergy := by
          refine ⟨event, hbooks.events ▸ hfind, ?_, by rw [hplaced]; rfl⟩
          intro hmem
          refine hnew ?_
          obtain ⟨_, -, -, -, -, rfl⟩ := EnergyLedger.reserve_eq_ok hreserve'
          exact hlapsed.events.subset hmem
        quoted := by
          show Attempt.run database (check (validateAction action) >>= _) _ = _
          rw [preflight_valid hpre]
          rfl
        balance := by
          rw [hbalance₃, hforfeited₃, hforfeited, hforfeited₂]
          omega
        reserved := by
          rw [hreserved₃, hreleased₃, hreleased, hreleased₂]
          omega }

/-! ## Two submits -/

/-- A change of root's, with a payload. -/
def rootChange (payload : Value) : Action := ⟨"root", .mutate, "workspace/a", payload, none⟩

omit [Externals] in
/-- A change that pays its quote, with the same amount on the ledger, in the event and
on the receipt. -/
theorem rootChange_pays :
    letI := reference
    ∃ receipt db', Completes kernelSystem (submitAction envAt (rootChange (.obj [])))
        StateStore.genesis (.ok (.receipt receipt)) db' ∧
      (PaysQuote (rootChange (.obj [])) StateStore.genesis db' receipt ↔
        holdReservedCost (rootChange (.obj [])).payload = none) := by
  have hsome : (receiptOf (lazyServe 1 (@submitAction reference envAt (rootChange (.obj [])))
      StateStore.genesis).1).isSome = true := by
    decide
  obtain ⟨receipt, hreceipt⟩ := Option.isSome_iff_exists.mp hsome
  have hcompletes := completes_of_receipt hreceipt
  refine ⟨receipt, _, hcompletes, ?_⟩
  exact @submit_pays_quote_iff reference ⟨StateStore.genesis, []⟩ ⟨[], .start⟩ _ _ _ _
    (by decide) hcompletes

omit [Externals] in
/-- A change that names its own price, by a payload that claims a reservation of that
much. -/
theorem claimed_price_not_quote :
    letI := reference
    ¬ ∀ pool, Reachable kernelSystem StateStore.genesis pool → ∀ envs action receipt db',
      holdResponse? action = none →
      Completes kernelSystem (submitAction envs action) pool.store (.ok (.receipt receipt)) db' →
      PaysQuote action pool.store db' receipt := by
  intro hclaim
  have hcost : (receiptOf (lazyServe 1 (@submitAction reference envAt
      (rootChange (.obj [("_hold_reserved_cost", .num (.int 0))]))) StateStore.genesis).1).map
        SubmitReceipt.settledCost = some 0 := by
    decide
  obtain ⟨receipt, hreceipt, hzero⟩ := Option.map_eq_some_iff.mp hcost
  have hpays := hclaim ⟨StateStore.genesis, []⟩ ⟨[], .start⟩ envAt _ receipt _ (by decide)
    (completes_of_receipt hreceipt)
  have hquote := @PaysQuote.settledCost reference _ _ _ _ hpays
  rw [hzero] at hquote
  exact absurd hquote (by decide)

end PunkgoKernel
