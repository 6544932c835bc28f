import PunkgoKernel.Laws.Response

/-!
# Whose energy a request touches

The ids in a request's ledger writes come from the request itself, from the
hold requests it reads and from the reservations it is handed. A hold request
names the agent its envelope was granted to (`HoldsOwned`), so the holds that
time out under an envelope cost only the envelope's own agent. Each part of a
submit then changes the ledger rows of one actor at most (`TouchesOnly`).
-/

namespace PunkgoKernel

open Json (Value)
open Relational (Table key)
open Resumption

variable [Externals]

/-! ## The rows of the others -/

omit [Externals] in
/-- The ledger rows of all actors but one are as they were. -/
def TouchesOnly (who : String) (db db' : Db) : Prop :=
  ∀ x row, x ≠ who → db.energyLedger.find? x = some row → db'.energyLedger.find? x = some row

omit [Externals] in
/-- Doing nothing touches nobody. -/
theorem TouchesOnly.refl (who : String) (db : Db) : TouchesOnly who db db := fun _ _ _ h => h

omit [Externals] in
/-- Two steps that touch only one actor touch only that actor together. -/
theorem TouchesOnly.trans {who : String} {a b c : Db} (h : TouchesOnly who a b)
    (h' : TouchesOnly who b c) : TouchesOnly who a c :=
  fun x row hx hrow => h' x row hx (h x row hx hrow)

omit [Externals] in
/-- Where the ledger stays as it is, nobody is touched. -/
theorem TouchesOnly.of_ledger {who : String} {db db' : Db}
    (h : db'.energyLedger = db.energyLedger) : TouchesOnly who db db' := by
  intro x row _ hrow
  rw [h]
  exact hrow

omit [Externals] in
/-- Writing a new balance and a new reservation on one row touches only that row's
actor. -/
theorem touchesOnly_put {who : String} {db : Db} {row : EnergyRow}
    (hrow : db.energyLedger.find? who = some row) (balance reserved : Int) :
    TouchesOnly who db
      { db with energyLedger := EnergyLedger.put db.energyLedger who balance reserved } := by
  intro x row' hx hrow'
  show (EnergyLedger.put db.energyLedger who balance reserved).find? x = some row'
  rw [EnergyLedger.find?_put hrow, if_neg hx, hrow']

omit [Externals] in
/-- A settlement touches only the actor that pays. -/
theorem settleInTx_touchesOnly {who : String} {reservedCost actualCost : Int} {db db' : Db}
    (h : EnergyLedger.settleInTx who reservedCost actualCost db = .ok db') :
    TouchesOnly who db db' := by
  obtain ⟨row, hrow, -, -, -, -, -, -, rfl⟩ := EnergyLedger.settleInTx_eq_ok h
  exact touchesOnly_put hrow _ _

omit [Externals] in
/-- A settlement that may be left out touches at most the actor that pays. -/
theorem settleIf_touchesOnly {settles : Prop} [Decidable settles] {who : String}
    {reservedCost actualCost : Int} {db db' : Db}
    (h : settleIf settles who reservedCost actualCost db = .ok db') : TouchesOnly who db db' := by
  unfold settleIf at h
  split at h
  · exact settleInTx_touchesOnly h
  · cases h
    exact .refl _ _

omit [Externals] in
/-- A reservation touches only the actor it is made for. -/
theorem reserve_touchesOnly {who : String} {cost : Int} {db db' : Db} {res : EnergyReservation}
    (h : EnergyLedger.reserve who cost db = .ok (res, db')) : TouchesOnly who db db' := by
  obtain ⟨row, hrow, -, -, -, rfl⟩ := EnergyLedger.reserve_eq_ok h
  exact touchesOnly_put hrow _ _

omit [Externals] in
/-- A new actor gets a row of its own, which touches nobody that has one. -/
theorem createActorRows_touchesOnly {who : String} {createActor : Option CreateActorSpec}
    {db db' : Db} (h : createActorRows createActor db = .ok db') : TouchesOnly who db db' := by
  cases createActor with
  | none =>
    cases h
    exact .refl _ _
  | some spec =>
    obtain ⟨-, -, row, ledger, actors, -, hins, -, rfl⟩ := createActorRows_eq_ok h
    intro x row' _ hrow'
    exact Table.find?_insert_of_some hins hrow'

/-! ## The transactions -/

/-- Putting an action on hold touches only the agent that is held. -/
theorem triggerHold_touchesOnly {tx : HoldTriggerTx} {db db' : Db} {event : EventRecord}
    (h : triggerHold tx db = .ok (event, db')) : TouchesOnly tx.request.agentId db db' := by
  obtain ⟨db₁, events, hashes, holds, hreserve, -, -, -, rfl⟩ := triggerHold_eq_ok h
  unfold reserveIfPositive at hreserve
  split at hreserve
  · obtain ⟨⟨res, db₂⟩, hres, heq⟩ := bind_eq_ok.mp hreserve
    cases heq
    have htouches := reserve_touchesOnly hres
    exact htouches
  · cases hreserve
    exact .refl _ _

/-- A timeout touches only the agent whose hold it ends. -/
theorem expireHold_touchesOnly {tx : HoldExpireTx} {db db' : Db} {event : EventRecord}
    (h : expireHold tx db = .ok (event, db')) : TouchesOnly tx.agentId db db' := by
  obtain ⟨db₁, db₂, events, hashes, hresolve, hsettle, -, rfl⟩ := expireHold_eq_ok h
  obtain ⟨_, -, -, rfl⟩ := EnvelopeStore.resolveHoldRequestInTx_eq_ok hresolve
  have htouches := settleIf_touchesOnly hsettle
  exact htouches

/-- A response touches only the agent whose hold it resolves. -/
theorem resolveHold_touchesOnly {tx : HoldResolveTx} {db db' : Db} {answer : EventRecord × Int}
    (h : resolveHold tx db = .ok (answer, db')) : TouchesOnly tx.agentId db db' := by
  obtain ⟨db₁, db₂, events, hashes, -, hresolve, hsettle, -, rfl⟩ := resolveHold_eq_ok h
  obtain ⟨_, -, -, rfl⟩ := EnvelopeStore.resolveHoldRequestInTx_eq_ok hresolve
  have htouches := settleIf_touchesOnly hsettle
  exact htouches

/-- The commit of an action touches only the actor whose reservation it settles. -/
theorem finalize_touchesOnly {who : String} {tx : FinalizeTx} {db db' : Db} {event : EventRecord}
    (hres : ∀ res, tx.reservation = some res → res.actorId = who)
    (h : finalizeEnergyAndEvent tx db = .ok (event, db')) : TouchesOnly who db db' := by
  obtain ⟨db₁, db₂, db₃, events, hashes, hsettle, hactor, henvelope, -, rfl⟩ := finalize_eq_ok h
  have hsettled : TouchesOnly who db db₁ := by
    cases hreservation : tx.reservation with
    | none =>
      rw [hreservation] at hsettle
      cases hsettle
      exact .refl _ _
    | some res =>
      rw [hreservation] at hsettle
      rw [← hres res hreservation]
      exact settleInTx_touchesOnly hsettle
  have hgranted : TouchesOnly who db₂ db₃ := .of_ledger (createEnvelopeRow_sameBooks henvelope).ledger
  exact (hsettled.trans (createActorRows_touchesOnly hactor)).trans hgranted

/-! ## The parts of a submit -/

/-- Things that lapse for an actor touch its own row only. -/
theorem Lapsed.touchesOnly {env : Env} {actorId : String} {db db' : Db}
    (h : Lapsed env actorId db db') (howned : HoldsOwned db) : TouchesOnly actorId db db' := by
  induction h with
  | refl => exact .refl _ _
  | tail hbefore hstep ih =>
    have howned' := Lapsed.holdsOwned hbefore howned
    refine ih.trans ?_
    cases hstep with
    | envelope => exact .of_ledger rfl
    | hold _ e secs hold round event he howner _ _ hrow _ hunder _ hexpire =>
      obtain ⟨e', hfind, hagent⟩ := howned' _ hold hrow
      obtain rfl : e' = e := by
        rw [hunder, he] at hfind
        exact (Option.some.inj hfind).symm
      have hsame : (expireTx env round hold).agentId = actorId := hagent.symm.trans howner
      rw [← hsame]
      exact expireHold_touchesOnly hexpire

/-- The checks on an action touch only its actor: the holds they expire are its own. -/
theorem Checked.touchesOnly {α : Type} {env : Env} {action : Action} {r : KernelResult α}
    {db db' : Db} (h : Checked env action r db db') (howned : HoldsOwned db) :
    TouchesOnly action.actorId db db' := by
  obtain ⟨db₁, hlapsed, ⟨-, -, e, event, htrigger⟩ | rfl⟩ := h
  · exact (hlapsed.touchesOnly howned).trans (triggerHold_touchesOnly htrigger)
  · exact hlapsed.touchesOnly howned

/-- The payment of an action touches its actor's row only. -/
theorem payAndCommit_touchesOnly {env : Env} {action : Action} {ready : Ready} {db db' : Db}
    {r : KernelResult Outcome}
    (h : Attempt.Executes database (payAndCommit env action ready) db r db') :
    TouchesOnly action.actorId db db' := by
  rcases Attempt.executes_bind.mp h with ⟨⟨cost, reservation⟩, db₁, hreserve, h₁⟩ | ⟨e, -, hreserve⟩
  swap
  · exact .of_ledger (by rw [quoteAndReserve_failed hreserve])
  have hpaid : TouchesOnly action.actorId db db₁ ∧
      ∀ res, reservation = some res → res.actorId = action.actorId := by
    rcases quoteAndReserve_ok hreserve with ⟨-, rfl, rfl⟩ | ⟨-, -, rfl, hreserved⟩
    · refine ⟨.refl _ _, ?_⟩
      intro res hres
      split at hres
      · cases hres
        rfl
      · cases hres
    · refine ⟨reserve_touchesOnly hreserved, ?_⟩
      intro res hres
      cases hres
      rfl
  refine hpaid.1.trans ?_
  rcases Attempt.executes_bind.mp h₁ with ⟨artifactHash, db₂, ⟨-, rfl⟩, h₂⟩ | ⟨e, -, -, rfl⟩
  swap
  · exact .refl _ _
  rcases Attempt.executes_bind.mp h₂ with ⟨event, db₃, hcall, h₃⟩ | ⟨e, -, hcall⟩
  swap
  · exact .of_ledger (by rw [executes_call_error hcall])
  have htx := executes_call_ok (fun _ hop => by cases hop) hcall
  have hcommitted : TouchesOnly action.actorId db₂ db₃ := finalize_touchesOnly hpaid.2 htx
  exact hcommitted.trans (.of_ledger (afterCommit_sameBooks h₃).ledger)

/-! ## Responses -/

/-- A hold that has timed out is settled with the others of its envelope, all of
one agent; a response to any other finds the ledger as it was. -/
theorem refuseTimedOut_touchesOnly {env : Env} {hold : HoldRequest} {db db' : Db}
    {r : KernelResult Unit} (hrow : db.holdRequests.find? hold.holdId = some hold)
    (howned : HoldsOwned db)
    (h : Attempt.Executes database (refuseTimedOut env hold) db r db') :
    TouchesOnly hold.agentId db db' := by
  rcases Attempt.executes_bind.mp h with ⟨found, db₀, hcall, h₁⟩ | ⟨e, -, houtcome⟩
  swap
  · obtain ⟨x, hx, -⟩ := Attempt.executes_outcome.mp houtcome
    cases hx
  obtain ⟨x, hx, hread⟩ := Attempt.executes_outcome.mp hcall
  cases hx
  have hreading : Reading (call (.getEnvelope hold.envelopeId)) := reading_call rfl
  obtain rfl := hreading.executes hread
  -- only an envelope that was found has anything to settle
  split at h₁
  swap
  · exact .of_ledger (by rw [h₁.2])
  next envelope =>
  split at h₁
  swap
  · exact .of_ledger (by rw [h₁.2])
  next timeoutSecs htimeout =>
  split at h₁
  swap
  · exact .of_ledger (by rw [h₁.2])
  next hlate =>
  have htx := executes_call_ok (fun _ hop => by cases hop) hread
  have hfind : db₀.envelopes.find? hold.envelopeId = some envelope := by
    have heq : (EnvelopeStore.get hold.envelopeId db₀, db₀) = (some envelope, db₀) :=
      Except.ok.inj htx
    exact congrArg Prod.fst heq
  obtain ⟨e, he, howner⟩ := howned _ hold hrow
  obtain rfl : envelope = e := Option.some.inj (hfind.symm.trans he)
  have hid : envelope.envelopeId = hold.envelopeId := Table.key_of_find? hfind
  rw [← hid] at h₁ hfind
  rw [← howner]
  rcases Attempt.executes_bind.mp h₁ with ⟨u, db₁, hexpire, -, rfl⟩ | ⟨e, -, hexpire⟩
  · exact (expireTimedOutHolds_lapsed htimeout hlate.1 hfind hexpire).touchesOnly howned
  · exact (expireTimedOutHolds_lapsed htimeout hlate.1 hfind hexpire).touchesOnly howned

/-! ## A submit -/

/-- A human's request to resolve a hold. -/
def ResolvesAsHuman (db : Db) (action : Action) : Prop :=
  (holdResponse? action).isSome ∧
    ∃ caller, db.actors.find? action.actorId = some caller ∧ caller.actorType = .human

/-- The actors whose ledger rows a request may change: of a human who resolves
a hold the agent of that hold, of any other request its own actor. -/
def MayTouch (db : Db) (action : Action) (x : String) : Prop :=
  (ResolvesAsHuman db action ∧ ∃ holdId decision instruction hold,
    holdResponse? action = some (holdId, decision, instruction) ∧
    db.holdRequests.find? holdId = some hold ∧ hold.agentId = x) ∨
  (¬ ResolvesAsHuman db action ∧ x = action.actorId)

/-- A submit by which no human resolves a hold touches its own actor's row only,
whatever it contains. -/
theorem ownSubmit_touchesOnly {envs : Nat → Env} {action : Action} {db db' : Db}
    {answer : KernelResult Outcome} (howned : HoldsOwned db)
    (hsender : ¬ ResolvesAsHuman db action)
    (h : Completes kernelSystem (submitAction envs action) db answer db') :
    TouchesOnly action.actorId db db' := by
  cases hresponse : holdResponse? action with
  | none =>
    rcases Attempt.executes_bind.mp (submit_executes hresponse h) with
      ⟨ready, db₁, hpre, hpay⟩ | ⟨e, rfl, hpre⟩
    · exact ((preflight_checked hpre).touchesOnly howned).trans (payAndCommit_touchesOnly hpay)
    · exact (preflight_checked hpre).touchesOnly howned
  | some response =>
    obtain ⟨holdId, decision, instruction⟩ := response
    -- the response is refused, so there is no second pass
    have hfirst : ∀ {r : KernelResult Outcome} {db' : Db},
        Attempt.Executes database (submitAction envs action) db r db' →
        TouchesOnly action.actorId db db' ∧ again r = none := by
      intro r db' hexec
      rcases submit_response hresponse hexec with ⟨e, rfl, hchecks⟩ | ⟨auth, db₁, hchecks, hanswer⟩
      · exact ⟨(responseChecks_checked hchecks).touchesOnly howned, rfl⟩
      have hlapsed := (responseChecks_checked hchecks).lapsed (not_onHold_ok _)
      have hsender₁ : ∀ caller, db₁.actors.find? action.actorId = some caller →
          caller.actorType ≠ .human := by
        intro caller hcaller hhuman
        rw [hlapsed.actors] at hcaller
        exact hsender ⟨by rw [hresponse]; rfl, caller, hcaller, hhuman⟩
      obtain ⟨e, rfl, rfl⟩ := response_refused hsender₁ hanswer
      exact ⟨hlapsed.touchesOnly howned, rfl⟩
    cases h with
    | done hexec _ => exact (hfirst hexec).1
    | again hexec hagain _ =>
      have hnone := (hfirst hexec).2
      rw [show again _ = _ from hagain] at hnone
      cases hnone

/-- The response of a human, up to the second pass. -/
theorem humanResponse_touchesOnly {envs : Nat → Env} {action : Action} {holdId : String}
    {decision : HoldDecision} {instruction : Option String} {db db' : Db}
    {r : KernelResult Outcome} (hsound : HoldsSound db) (howned : HoldsOwned db)
    (hresponse : holdResponse? action = some (holdId, decision, instruction))
    {caller : ActorRecord} (hcaller : db.actors.find? action.actorId = some caller)
    (hhuman : caller.actorType = .human)
    (h : Attempt.Executes database (submitAction envs action) db r db') :
    (db'.energyLedger = db.energyLedger ∧ again r = none) ∨
      ∃ hold, db.holdRequests.find? holdId = some hold ∧ TouchesOnly hold.agentId db db' ∧
        (again r = none ∨
          (∃ envs', again r = some (submitAction envs' (pendingAction hold instruction))) ∧
          HoldsOwned db' ∧ ¬ ResolvesAsHuman db' (pendingAction hold instruction)) := by
  rcases submit_response hresponse h with ⟨e, rfl, hchecks⟩ | ⟨auth, db₁, hchecks, hanswer⟩
  · exact .inl ⟨((responseChecks_checked hchecks).human hsound howned hcaller hhuman).2.ledger, rfl⟩
  obtain ⟨hlapsed, hbooks⟩ := (responseChecks_checked hchecks).human hsound howned hcaller hhuman
  have howned₁ := hlapsed.holdsOwned howned
  have hcalm : ∀ {who : String}, TouchesOnly who db db₁ := .of_ledger hbooks.ledger
  rcases executeHoldResponse_cases hanswer with
    ⟨e, rfl, rfl⟩ | ⟨caller', hold, -, -, hrow, hpending, ⟨e, rfl, hlate⟩ | ⟨event, cost, htx, rfl⟩⟩
  · exact .inl ⟨hbooks.ledger, rfl⟩
  · have hid : hold.holdId = holdId := Table.key_of_find? hrow
    rw [hbooks.holds] at hrow
    refine .inr ⟨hold, hrow, hcalm.trans ?_, .inl rfl⟩
    exact refuseTimedOut_touchesOnly (by rw [hid, hbooks.holds, hrow]) howned₁ hlate
  · have hrow₀ := hrow
    rw [hbooks.holds] at hrow₀
    refine .inr ⟨hold, hrow₀, hcalm.trans (resolveHold_touchesOnly htx), ?_⟩
    unfold responseOutcome
    split
    · right
      have heffects := resolveHold_effects htx
      refine ⟨⟨_, rfl⟩, ?_, ?_⟩
      · exact AllHolds.effects owned_later (fun _ h => by cases h) heffects howned₁
      · rintro ⟨-, caller, hfound, htype⟩
        obtain ⟨agent, hagent, htype'⟩ :=
          agent_later heffects.later (hlapsed.holdsSound hsound _ hold hrow).2
        obtain rfl := Option.some.inj (hagent.symm.trans hfound)
        rw [htype] at htype'
        cases htype'
    · exact .inl rfl

/-- Whatever a submit contains and however it ends, it changes the ledger rows
of its own actor only, or, where a human resolves a hold, of the hold's agent. -/
theorem submit_touches_own_energy {pool : KernelPool}
    (hreach : Reachable kernelSystem StateStore.genesis pool) {envs : Nat → Env} {action : Action}
    {answer : KernelResult Outcome} {db' : Db}
    (h : Completes kernelSystem (submitAction envs action) pool.store answer db') (x : String)
    (row : EnergyRow) (hrow : pool.store.energyLedger.find? x = some row)
    (hx : ¬ MayTouch pool.store action x) : db'.energyLedger.find? x = some row := by
  obtain ⟨tr, hrun⟩ := hreach
  obtain ⟨hsound, -⟩ := KernelRun.keeps hrun
  have howned := KernelRun.holdsOwned hrun
  by_cases hhuman : ResolvesAsHuman pool.store action
  · obtain ⟨hsome, caller, hcaller, htype⟩ := hhuman
    obtain ⟨⟨holdId, decision, instruction⟩, hresponse⟩ := Option.isSome_iff_exists.mp hsome
    have hother : ∀ hold, pool.store.holdRequests.find? holdId = some hold → x ≠ hold.agentId := by
      intro hold hfind heq
      exact hx (.inl ⟨⟨hsome, caller, hcaller, htype⟩, holdId, decision, instruction, hold,
        hresponse, hfind, heq.symm⟩)
    cases h with
    | done hexec _ =>
      rcases humanResponse_touchesOnly hsound howned hresponse hcaller htype hexec with
        ⟨hledger, -⟩ | ⟨hold, hfind, htouches, -⟩
      · rw [hledger, hrow]
      · exact htouches x row (hother hold hfind) hrow
    | again hexec hagain hrest =>
      have hsecond : ∀ {r : KernelResult Outcome} {p : KernelProg Outcome}, again r = some p →
          ¬ again r = none := by
        intro r p hsome hnone
        rw [hsome] at hnone
        cases hnone
      rcases humanResponse_touchesOnly hsound howned hresponse hcaller htype hexec with
        ⟨-, hnone⟩ | ⟨hold, hfind, htouches, hnone | ⟨⟨envs', hresubmits⟩, howned', hagent⟩⟩
      · exact absurd hnone (hsecond hagain)
      · exact absurd hnone (hsecond hagain)
      · rw [show again _ = _ from hagain] at hresubmits
        cases hresubmits
        have hx' := hother hold hfind
        exact ownSubmit_touchesOnly howned' hagent hrest x row hx' (htouches x row hx' hrow)
  · -- any other request is its own actor's business
    have hne : x ≠ action.actorId := fun heq => hx (.inr ⟨hhuman, heq⟩)
    exact ownSubmit_touchesOnly howned hhuman h x row hne hrow

/-- A change of root's whose payload pretends to be an approved one. -/
def forgedChange : Action :=
  ⟨"root", .mutate, "workspace/a",
    .obj [("_hold_approved", .bool true), ("_hold_reserved_cost", .num (.int 0))], none⟩

omit [Externals] in
/-- The agent's energy is not root's to change, even with a payload that claims a
reservation and an approval. -/
theorem forgedChange_touches_own :
    letI := reference
    ∃ receipt db' row, Completes kernelSystem (submitAction (fun k => envAt (3 + k)) forgedChange)
        (kernelPlayed agentAtWork).pool.store (.ok (.receipt receipt)) db' ∧
      (kernelPlayed agentAtWork).pool.store.energyLedger.find? "agent-1" = some row ∧
      db'.energyLedger.find? "agent-1" = some row := by
  have hplayed : (receiptOf (lazyServe 1 (@submitAction reference (fun k => envAt (3 + k)) forgedChange)
        (kernelPlayed agentAtWork).pool.store).1).isSome = true ∧
      ((kernelPlayed agentAtWork).pool.store.energyLedger.find? "agent-1").isSome =
        true := by
    rw [kernelPlayed_eq]
    decide +kernel
  obtain ⟨hsome, hrow⟩ := hplayed
  obtain ⟨receipt, hreceipt⟩ := Option.isSome_iff_exists.mp hsome
  obtain ⟨row, hfind⟩ := Option.isSome_iff_exists.mp hrow
  have hcompletes := completes_of_receipt hreceipt
  refine ⟨receipt, _, row, hcompletes, hfind, ?_⟩
  refine @submit_touches_own_energy reference _ ⟨_, kernelRun_played agentAtWork⟩ _ _ _ _
    hcompletes "agent-1" row hfind ?_
  have hresponse : holdResponse? forgedChange = none := by decide
  rintro (⟨⟨hsome', -⟩, -⟩ | ⟨-, hself⟩)
  · rw [hresponse] at hsome'
    cases hsome'
  · exact absurd hself (by decide)

end PunkgoKernel
