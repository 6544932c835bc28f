import PunkgoKernel.Laws.Contract
import PunkgoKernel.Runtime.Evaluation

/-!
# Hold safety

An agent's action that matches a hold rule of its active envelope is put on
hold; a human approves it, and the request that approved it submits it again.
The second pass skips the hold check because its payload says so
(`_hold_approved`), and a client can write that field too (`Forged`).

Where requests come one after the other and nothing is forged, every commit
that the rules call to hold is the second pass of an approval: a human
answered a hold request of that agent for that action, and no approval serves
two commits.
-/

namespace PunkgoKernel

open Json (Value)
open Relational (Table key)
open Resumption

/-! ## Reads that are still true -/

/-- The credits of a tick leave the actors and the envelopes. -/
theorem creditAll_frame {allocations : List (String × Int)} {db db' : Db} {n : Nat × Int}
    (h : creditAll allocations db = .ok (n, db')) :
    db'.actors = db.actors ∧ db'.envelopes = db.envelopes := by
  induction allocations generalizing db n with
  | nil =>
    cases h
    exact ⟨rfl, rfl⟩
  | cons a rest ih =>
    obtain ⟨actorId, credit⟩ := a
    unfold creditAll at h
    split at h
    · exact ih h
    · obtain ⟨db₁, hcredit, h⟩ := bind_eq_ok.mp h
      obtain ⟨⟨⟨count, total⟩, db₂⟩, hrest, heq⟩ := bind_eq_ok.mp h
      cases heq
      obtain ⟨row, -, -, rfl⟩ := EnergyLedger.creditEnergyInTx_eq_ok hcredit
      have hsame := ih hrest
      exact hsame

variable [Externals]

/-- The operations that grant nothing leave the actors and the envelopes. -/
theorem keepsGrants_frame {op : Op} (hop : op.keepsGrants = true) {db db' : Db} {v : Val op}
    (h : transaction op db = .ok (v, db')) :
    db'.actors = db.actors ∧ db'.envelopes = db.envelopes := by
  cases op with
  | setEnvelopeStatus | finalize | consumeBudget | executeFreeze | executeUnfreeze
  | executeUpdateEnergyShare => cases hop
  | reserve =>
    obtain ⟨row, -, -, -, -, rfl⟩ := EnergyLedger.reserve_eq_ok h
    exact ⟨rfl, rfl⟩
  | triggerHold =>
    obtain ⟨db₁, events, hashes, holds, hreserve, -, -, -, rfl⟩ := triggerHold_eq_ok h
    rw [reserveIfPositive_frame hreserve]
    exact ⟨rfl, rfl⟩
  | resolveHold =>
    obtain ⟨event, cost⟩ := v
    obtain ⟨db₁, db₂, events, hashes, -, hresolve, hsettle, -, rfl⟩ := resolveHold_eq_ok h
    obtain ⟨row, -, -, rfl⟩ := EnvelopeStore.resolveHoldRequestInTx_eq_ok hresolve
    rw [settleIf_frame hsettle]
    exact ⟨rfl, rfl⟩
  | expireHold =>
    obtain ⟨db₁, db₂, events, hashes, hresolve, hsettle, -, rfl⟩ := expireHold_eq_ok h
    obtain ⟨row, -, -, rfl⟩ := EnvelopeStore.resolveHoldRequestInTx_eq_ok hresolve
    rw [settleIf_frame hsettle]
    exact ⟨rfl, rfl⟩
  | creditAll => exact creditAll_frame h
  | makeCheckpoint treeSize now =>
    obtain ⟨root, -, -, rfl⟩ := AuditLog.makeCheckpoint_eq_ok (auditTx_eq_ok h)
    exact ⟨rfl, rfl⟩
  | nextSequence =>
    rw [map_read h]
    exact ⟨rfl, rfl⟩
  | latestCheckpoint | inclusionProof =>
    rw [auditTx_read h]
    exact ⟨rfl, rfl⟩
  | _ =>
    cases h
    exact ⟨rfl, rfl⟩

omit [Externals] in
/-- A fresh read is the newest operation, or was fresh before an operation that
keeps actors and envelopes. -/
theorem Fresh.cases {past : Past} {d : Performed KernelSig} {op : Op} {v : Val op}
    (h : Fresh (d :: past) op v) :
    d = ⟨op, .ok v⟩ ∨ (d.op.keepsGrants = true ∧ Fresh past op v) := by
  obtain ⟨older, recent, heq, hrecent⟩ := h
  cases recent with
  | nil =>
    obtain ⟨rfl, -⟩ := List.cons.inj heq
    exact .inl rfl
  | cons d' rest =>
    obtain ⟨rfl, rfl⟩ := List.cons.inj heq
    exact .inr ⟨hrecent d List.mem_cons_self, older, rest, rfl,
      fun d' hd' => hrecent d' (List.mem_cons_of_mem _ hd')⟩

/-- Whether such an operation succeeds or fails, it leaves the actors and the
envelopes. -/
theorem exec_keepsGrants {op : Op} (hop : op.keepsGrants = true) (db : Db) :
    (exec op db).2.actors = db.actors ∧ (exec op db).2.envelopes = db.envelopes := by
  rcases exec_cases op db with ⟨v, db', htx, hexec⟩ | ⟨e, -, hexec⟩
  · rw [hexec]
    exact keepsGrants_frame hop htx
  · rw [hexec]
    exact ⟨rfl, rfl⟩

/-- The fresh reads of a request are what the database holds. -/
structure Current (db : Db) (past : Past) : Prop where
  actor : ∀ actorId actor, Fresh past (.getActor actorId) actor → ActorStore.get actorId db = actor
  active : ∀ actorId envelope, Fresh past (.getActiveForActor actorId) envelope →
    EnvelopeStore.getActiveForActor actorId db = envelope

/-- What a request alone in the kernel has read stays current while it performs its
operations. -/
theorem Current.exec {db : Db} {past : Past} (h : Current db past) (op : Op) :
    Current (exec op db).2 (⟨op, (exec op db).1⟩ :: past) := by
  have hframe := fun hop : op.keepsGrants = true => exec_keepsGrants hop db
  constructor
  · intro actorId actor hfresh
    rcases hfresh.cases with heq | ⟨hop, hold⟩
    · cases heq
      rfl
    · unfold ActorStore.get
      rw [(hframe hop).1]
      exact h.actor actorId actor hold
  · intro actorId envelope hfresh
    rcases hfresh.cases with heq | ⟨hop, hold⟩
    · cases heq
      rfl
    · unfold EnvelopeStore.getActiveForActor
      rw [(hframe hop).2]
      exact h.active actorId envelope hold

omit [Externals] in
/-- A refused operation tells the request nothing that could be out of date. -/
theorem Current.fault {db : Db} {past : Past} (h : Current db past) {op : Op}
    {x : KernelResult (Val op)} (hx : refuses op x) : Current db (⟨op, x⟩ :: past) := by
  constructor
  · intro actorId actor hfresh
    rcases hfresh.cases with heq | ⟨-, hold⟩
    · cases heq
      obtain ⟨e, -, he⟩ := hx
      cases he
    · exact h.actor actorId actor hold
  · intro actorId envelope hfresh
    rcases hfresh.cases with heq | ⟨-, hold⟩
    · cases heq
      obtain ⟨e, -, he⟩ := hx
      cases he
    · exact h.active actorId envelope hold

omit [Externals] in
/-- A request that has read nothing is current. -/
theorem current_nil (db : Db) : Current db [] := by
  constructor <;> rintro _ _ ⟨older, recent, heq, -⟩ <;> cases recent <;> cases heq

/-- Where requests come one after the other, the fresh reads of the one in
flight are what the database holds. -/
theorem KernelRun.alone {tr : List KernelTransition} {pool : KernelPool} (h : KernelRun tr pool)
    (hseq : Sequential tr) : AloneWith Current pool :=
  kernelContract.solo (J := Current) (fun db _ => current_nil db)
    (fun _ op _ _ _ _ hcurrent => hcurrent.exec op)
    (fun _ _ _ _ hx hcurrent => hcurrent.fault hx) h (fun _ _ _ _ _ => trivial) hseq

/-! ## Commits that the rules call to hold -/

/-- The step commits a change of an agent whose active envelope has a hold rule
that matches it. -/
structure CommitsHeld (t : KernelTransition) (event : EventRecord) : Prop where
  commits : ∃ past tx, t.Performs past ⟨.finalize tx, .ok event⟩
  changes : event.actionType = "create" ∨ event.actionType = "mutate" ∨
    event.actionType = "execute"
  agent : ∃ actor, t.before.store.actors.find? event.actorId = some actor ∧
    actor.actorType = .agent
  rules : ∃ envelope, EnvelopeStore.getActiveForActor event.actorId t.before.store = some envelope ∧
    checkHoldTrigger envelope.holdOn event.target event.actionType = true

/-- The step commits such a change although its request has approved no hold:
the payload its client sent says `_hold_approved`. -/
def Forged (t : KernelTransition) : Prop :=
  ∃ past tx event, t.Performs past ⟨.finalize tx, .ok event⟩ ∧ CommitsHeld t event ∧
    approval past = none ∧ holdApproved tx.event.payload = true

/-- The step commits the event on behalf of the hold its request approved. -/
def AccountsFor (t : KernelTransition) (holdId : String) (event : EventRecord) : Prop :=
  ∃ past tx resolved, t.Performs past ⟨.finalize tx, .ok event⟩ ∧
    approval past = some resolved ∧ resolved.holdId = holdId

/-- The log has a human's approval of a hold request of the agent, for the
target and the type of the event. -/
structure ApprovedHold (db : Db) (holdId : String) (event : EventRecord) : Prop where
  response : ∃ response ∈ db.events.rows, response.actionType = "hold_response" ∧
    response.payload.get? "hold_id" = some (.str holdId) ∧
    response.payload.get? "decision" = some (.str "approve") ∧
    ∃ human, db.actors.find? response.actorId = some human ∧ human.actorType = .human
  request : ∃ hold, db.holdRequests.find? holdId = some hold ∧ hold.agentId = event.actorId ∧
    hold.triggerTarget = event.target ∧ hold.triggerAction = event.actionType

/-- The event of a commit, by its draft. -/
theorem finalize_event {tx : FinalizeTx} {db db' : Db} {event : EventRecord}
    (h : finalizeEnergyAndEvent tx db = .ok (event, db')) : ∃ idx, event = tx.event.placed idx := by
  obtain ⟨db₁, db₂, db₃, events, hashes, -, -, -, hcommit, -⟩ := finalize_eq_ok h
  exact ⟨_, hcommit.placed⟩

/-- What a request that goes on with an approval knows of the database. -/
theorem Resumed.approvedHold {past : Past} {action : Action} {resolved : HoldResolveTx}
    (h : Resumed past action resolved) {db : Db} (hknown : ∀ d ∈ past, known db d)
    {event : EventRecord} (hactor : event.actorId = action.actorId)
    (htarget : event.target = action.target)
    (htype : event.actionType = action.actionType.asStr) :
    ApprovedHold db resolved.holdId event := by
  constructor
  · obtain ⟨⟨response, cost⟩, hsaw⟩ := h.answered
    obtain ⟨-, hmem, idx, rfl⟩ := hknown _ hsaw
    obtain ⟨caller, hcaller, hhuman⟩ := h.resolver
    obtain ⟨human, hfind, hsame⟩ := hknown _ hcaller
    obtain ⟨env, humanAction, holdId, instruction, hold, rfl⟩ := h.response
    refine ⟨_, hmem, rfl, ?_, ?_, human, hfind, hsame.trans hhuman⟩
    · simp [EventRecord.placed, holdResolveTx, Json.get?_object]
    · simp [EventRecord.placed, holdResolveTx, Json.get?_object, HoldDecision.asStr]
  · obtain ⟨hold, hsaw, hagent, htrigger, haction⟩ := h.hold
    obtain ⟨row, hrow, hsame, -⟩ := hknown _ hsaw
    exact ⟨row, hrow, by rw [hsame.agentId, hagent, hactor],
      by rw [hsame.triggerTarget, htrigger, htarget],
      by rw [hsame.triggerAction, haction, htype]⟩

/-- What the authorisation of a commit found is why it was not put on hold: the
payload says it was approved. -/
theorem holdApproved_of_held {past : Past} {action : Action} {auth : Option EnvelopeRecord}
    {db : Db} (hauth : Authorised past action auth) (hknown : ∀ d ∈ past, known db d)
    (hcurrent : Current db past) {actor : ActorRecord} {envelope : EnvelopeRecord}
    (hchanging : action.actionType ≠ .observe)
    (hactor : db.actors.find? action.actorId = some actor) (hagent : actor.actorType = .agent)
    (hactive : EnvelopeStore.getActiveForActor action.actorId db = some envelope)
    (htrigger : checkHoldTrigger envelope.holdOn action.target action.actionType.asStr = true) :
    holdApproved action.payload = true := by
  cases hauth with
  | unknown _ _ hfresh =>
    have hnone : db.actors.find? action.actorId = none := hcurrent.actor _ _ hfresh
    rw [hnone] at hactor
    cases hactor
  | free actor' hsaw hfree =>
    obtain ⟨actor'', hfind, htype⟩ := hknown _ hsaw
    rw [hactor] at hfind
    cases hfind
    rcases hfree with hhuman | hobserve
    · rw [htype, hhuman] at hagent
      cases hagent
    · exact absurd hobserve hchanging
  | covered actor' envelope' _ _ hfresh _ hhold =>
    have hsame := hcurrent.active _ _ hfresh
    rw [hactive] at hsame
    cases hsame
    rcases hhold with happroved | hpassed
    · exact happroved
    · rw [htrigger] at hpassed
      cases hpassed

/-! ## Along a run -/

/-- What a sequential run without forged payloads keeps. -/
structure HoldsKept (tr : List KernelTransition) (pool : KernelPool) : Prop where
  /-- Every commit the rules call to hold is accounted for by an approval. -/
  held : ∀ t ∈ tr, ∀ event, CommitsHeld t event →
    ∃ holdId, AccountsFor t holdId event ∧ ApprovedHold t.before.store holdId event
  /-- No hold accounts for two commits. -/
  once : ∀ t₁ ∈ tr, ∀ t₂ ∈ tr, ∀ holdId event₁ event₂, AccountsFor t₁ holdId event₁ →
    AccountsFor t₂ holdId event₂ → event₁ = event₂
  /-- A hold that accounts for a commit is resolved. -/
  resolved : ∀ t ∈ tr, ∀ holdId event, AccountsFor t holdId event →
    ∃ hold, hold.status = .approved ∧ HoldLasts pool.store holdId hold
  /-- An approval still to be used accounts for no commit yet. -/
  unused : ∀ task ∈ pool.tasks, ∀ resolved, approval task.past = some resolved →
    PunkgoKernel.held task.past ≠ none → ∀ t ∈ tr, ∀ event, ¬ AccountsFor t resolved.holdId event

/-- A step that commits nothing and gives no request an approval. -/
theorem HoldsKept.idle {tr : List KernelTransition} {pool pool' : KernelPool}
    {l : Label KernelSig (KernelResult Outcome) Request} (h : HoldsKept tr pool)
    (hlater : Later pool.store pool'.store)
    (hlabel : ∀ id tx event, l ≠ .act id ⟨.finalize tx, .ok event⟩)
    (htasks : ∀ task' ∈ pool'.tasks, approval task'.past = none ∨ ∃ task ∈ pool.tasks,
      approval task'.past = approval task.past ∧ PunkgoKernel.held task'.past =
        PunkgoKernel.held task.past) :
    HoldsKept (⟨pool, l⟩ :: tr) pool' := by
  have hnone : ∀ past tx event, ¬ Transition.Performs (⟨pool, l⟩ : KernelTransition) past
      ⟨.finalize tx, .ok event⟩ := fun _ tx event ⟨id, _, hl, _⟩ => hlabel id tx event hl
  have haccounts : ∀ holdId event, ¬ AccountsFor ⟨pool, l⟩ holdId event :=
    fun _ _ ⟨past, tx, _, hperforms, _⟩ => hnone past tx _ hperforms
  constructor
  · intro t ht event hheld
    rcases List.mem_cons.mp ht with rfl | ht
    · obtain ⟨past, tx, hperforms⟩ := hheld.commits
      exact absurd hperforms (hnone past tx event)
    · exact h.held t ht event hheld
  · intro t₁ ht₁ t₂ ht₂ holdId event₁ event₂ h₁ h₂
    rcases List.mem_cons.mp ht₁ with rfl | ht₁
    · exact absurd h₁ (haccounts _ _)
    rcases List.mem_cons.mp ht₂ with rfl | ht₂
    · exact absurd h₂ (haccounts _ _)
    exact h.once t₁ ht₁ t₂ ht₂ holdId event₁ event₂ h₁ h₂
  · intro t ht holdId event hfor
    rcases List.mem_cons.mp ht with rfl | ht
    · exact absurd hfor (haccounts _ _)
    obtain ⟨hold, hstatus, hlasts⟩ := h.resolved t ht holdId event hfor
    exact ⟨hold, hstatus, hlasts.later hlater⟩
  · intro task' htask' resolved happroval hheld t ht event hfor
    rcases List.mem_cons.mp ht with rfl | ht
    · exact haccounts _ _ hfor
    rcases htasks task' htask' with hnone' | ⟨task, htask, happ, hhel⟩
    · rw [hnone'] at happroval
      cases happroval
    · exact h.unused task htask resolved (happ ▸ happroval) (hhel ▸ hheld) t ht event hfor

/-- The operation commits an action or approves a hold. -/
def Decides : Performed KernelSig → Prop
  | ⟨.finalize _, .ok _⟩ => True
  | ⟨.resolveHold tx, .ok _⟩ => tx.decision = .approve
  | _ => False

omit [Externals] in
/-- An operation that decides over an action is its commit, or the approval of its
hold. -/
theorem Decides.cases {d : Performed KernelSig} (h : Decides d) :
    (∃ tx event, d = ⟨.finalize tx, .ok event⟩) ∨
      ∃ tx v, d = ⟨.resolveHold tx, .ok v⟩ ∧ tx.decision = .approve := by
  unfold Decides at h
  split at h
  · exact .inl ⟨_, _, rfl⟩
  · exact .inr ⟨_, _, rfl, h⟩
  · cases h

/-- All other operations leave approvals as they are. -/
theorem approval_cons {past : Past} {d : Performed KernelSig} (hallowed : allowed past d.op)
    (hd : ¬ Decides d) :
    approval (d :: past) = none ∨
      (approval (d :: past) = approval past ∧ held (d :: past) = held past) := by
  obtain ⟨op, x⟩ := d
  cases x with
  | error e => exact .inr ⟨approval_error, held_error⟩
  | ok v =>
    cases op with
    | finalize tx => exact absurd trivial hd
    | reserve actorId cost => exact .inl hallowed.2.1
    | resolveHold tx => exact .inr ⟨if_neg hd, if_neg hd⟩
    | _ => exact .inr ⟨rfl, rfl⟩

/-- The approval of a hold no commit has used. -/
theorem HoldsKept.approve {tr : List KernelTransition} {db db' : Db} {id : Nat} {past : Past}
    {prog prog' : Prog KernelSig (KernelResult Outcome)} {tx : HoldResolveTx}
    {v : Val (.resolveHold tx)} (h : HoldsKept tr ⟨db, [⟨id, prog, past⟩]⟩)
    (happrove : tx.decision = .approve) (htx : resolveHold tx db = .ok (v, db')) :
    HoldsKept (⟨⟨db, [⟨id, prog, past⟩]⟩, .act id ⟨.resolveHold tx, .ok v⟩⟩ :: tr)
      ⟨db', [⟨id, prog', ⟨.resolveHold tx, .ok v⟩ :: past⟩]⟩ := by
  have hlater : Later db db' := (resolveHold_effects htx).later
  have hkept : HoldsKept
      (⟨⟨db, [⟨id, prog, past⟩]⟩, .act id ⟨.resolveHold tx, .ok v⟩⟩ :: tr) ⟨db', []⟩ :=
    h.idle hlater (fun _ _ _ heq => by cases heq) (fun _ h => by cases h)
  refine { hkept with unused := ?_ }
  intro task htask resolved hres _ t ht event hfor
  obtain rfl : task = ⟨id, prog', ⟨.resolveHold tx, .ok v⟩ :: past⟩ := List.mem_singleton.mp htask
  obtain rfl : tx = resolved := Option.some.inj ((if_pos happrove).symm.trans hres)
  -- the hold was pending, and a hold that accounts for a commit is not
  obtain ⟨db₁, db₂, events, hashes, -, hresolve, -, -, -⟩ := resolveHold_eq_ok htx
  obtain ⟨row, hrow, hpending, -⟩ := EnvelopeStore.resolveHoldRequestInTx_eq_ok hresolve
  rcases List.mem_cons.mp ht with rfl | ht
  · obtain ⟨_, _, _, ⟨_, _, hlabel, _⟩, _⟩ := hfor
    cases hlabel
  · obtain ⟨hold, hstatus, row', hrow', -, hsame⟩ := h.resolved t ht tx.holdId event hfor
    obtain rfl := Option.some.inj (hrow.symm.trans hrow')
    have hstill := hsame (by rw [hstatus]; decide)
    rw [hpending, hstatus] at hstill
    cases hstill

/-- A commit: held back by no rule, or the first on behalf of an approval. -/
theorem HoldsKept.commit {tr : List KernelTransition} {db db' : Db} {id : Nat} {past : Past}
    {prog prog' : Prog KernelSig (KernelResult Outcome)} {tx : FinalizeTx} {event : EventRecord}
    (h : HoldsKept tr ⟨db, [⟨id, prog, past⟩]⟩) (hknown : ∀ d ∈ past, known db d)
    (hcurrent : Current db past) (hallowed : FinalizeAllowed past tx)
    (hforged : ¬ Forged ⟨⟨db, [⟨id, prog, past⟩]⟩, .act id ⟨.finalize tx, .ok event⟩⟩)
    (htx : finalizeEnergyAndEvent tx db = .ok (event, db')) :
    HoldsKept (⟨⟨db, [⟨id, prog, past⟩]⟩, .act id ⟨.finalize tx, .ok event⟩⟩ :: tr)
      ⟨db', [⟨id, prog', ⟨.finalize tx, .ok event⟩ :: past⟩]⟩ := by
  have hlater : Later db db' := (finalize_effects htx).later
  obtain ⟨idx, hplaced⟩ := finalize_event htx
  obtain ⟨env, action, artifactHash, hdraft, hsettle, -, hauth, -, -⟩ := hallowed
  have hactor : event.actorId = action.actorId := by rw [hplaced, hdraft]; rfl
  have htarget : event.target = action.target := by rw [hplaced, hdraft]; rfl
  have htype : event.actionType = action.actionType.asStr := by rw [hplaced, hdraft]; rfl
  have hpayload : tx.event.payload = action.payload := by rw [hdraft]; rfl
  -- there is one request, so the step's past is its past
  have hpast : ∀ {past' tx' event'}, Transition.Performs
      (⟨⟨db, [⟨id, prog, past⟩]⟩, .act id ⟨.finalize tx, .ok event⟩⟩ : KernelTransition) past'
      ⟨.finalize tx', .ok event'⟩ → past' = past ∧ event' = event := by
    rintro past' tx' event' ⟨id', prog', hlabel, hmem⟩
    cases hlabel
    cases List.mem_singleton.mp hmem
    exact ⟨rfl, rfl⟩
  have hself : Transition.Performs
      (⟨⟨db, [⟨id, prog, past⟩]⟩, .act id ⟨.finalize tx, .ok event⟩⟩ : KernelTransition) past
      ⟨.finalize tx, .ok event⟩ := ⟨id, prog, rfl, List.mem_singleton_self _⟩
  -- an approval that is used is one that was still open
  have hopen : ∀ {holdId event'}, AccountsFor
      ⟨⟨db, [⟨id, prog, past⟩]⟩, .act id ⟨.finalize tx, .ok event⟩⟩ holdId event' →
      event' = event ∧ (∃ hold, hold.status = .approved ∧ HoldLasts db holdId hold) ∧
        ∀ t ∈ tr, ∀ event'', ¬ AccountsFor t holdId event'' := by
    rintro holdId event' ⟨past', tx', resolved, hperforms, happroval, rfl⟩
    obtain ⟨rfl, rfl⟩ := hpast hperforms
    generalize tx.settledCost = cost at hsettle
    generalize tx.reservation = reservation at hsettle
    cases hsettle with
    | quoted _ hnone _ =>
      rw [hnone] at happroval
      cases happroval
    | claimed _ _ hnone _ =>
      rw [hnone] at happroval
      cases happroval
    | approved resolved' hresumed =>
      obtain rfl := Option.some.inj (happroval.symm.trans hresumed.approval)
      obtain ⟨⟨response, cost⟩, hsaw⟩ := hresumed.answered
      obtain ⟨⟨hold, hstatus, hlasts⟩, -, -⟩ := hknown _ hsaw
      obtain ⟨_, _, _, _, _, hshape⟩ := hresumed.response
      refine ⟨rfl, ⟨hold, by rw [hstatus, hshape]; rfl, hlasts⟩, ?_⟩
      exact h.unused _ (List.mem_singleton_self _) resolved happroval
        (by rw [hresumed.held]; exact Option.some_ne_none _)
  constructor
  · intro t ht event' hheld
    rcases List.mem_cons.mp ht with rfl | ht
    swap
    · exact h.held t ht event' hheld
    obtain ⟨past', tx', hperforms⟩ := hheld.commits
    obtain ⟨rfl, rfl⟩ := hpast hperforms
    obtain ⟨actor, hfind, hagent⟩ := hheld.agent
    obtain ⟨envelope, hactive, htrigger⟩ := hheld.rules
    have hchanging : action.actionType ≠ .observe := by
      intro hobserve
      have hchanges := hheld.changes
      rw [htype, hobserve] at hchanges
      exact absurd hchanges (by decide)
    rw [hactor] at hfind hactive
    rw [htarget, htype] at htrigger
    have happroved : holdApproved action.payload = true :=
      holdApproved_of_held hauth hknown hcurrent hchanging hfind hagent hactive htrigger
    have hsome : approval past' ≠ none := fun hnone =>
      hforged ⟨past', tx, event', hself, hheld, hnone, by rw [hpayload]; exact happroved⟩
    generalize tx.settledCost = cost at hsettle
    generalize tx.reservation = reservation at hsettle
    cases hsettle with
    | quoted _ hnone _ => exact absurd hnone hsome
    | claimed _ _ hnone _ => exact absurd hnone hsome
    | approved resolved hresumed =>
      exact ⟨resolved.holdId, ⟨past', tx, resolved, hself, hresumed.approval, rfl⟩,
        hresumed.approvedHold hknown hactor htarget htype⟩
  · intro t₁ ht₁ t₂ ht₂ holdId event₁ event₂ h₁ h₂
    rcases List.mem_cons.mp ht₁ with rfl | ht₁ <;> rcases List.mem_cons.mp ht₂ with rfl | ht₂
    · exact (hopen h₁).1.trans (hopen h₂).1.symm
    · exact absurd h₂ ((hopen h₁).2.2 t₂ ht₂ event₂)
    · exact absurd h₁ ((hopen h₂).2.2 t₁ ht₁ event₁)
    · exact h.once t₁ ht₁ t₂ ht₂ holdId event₁ event₂ h₁ h₂
  · intro t ht holdId event' hfor
    have hbefore : ∃ hold, hold.status = .approved ∧ HoldLasts db holdId hold := by
      rcases List.mem_cons.mp ht with rfl | ht
      · exact (hopen hfor).2.1
      · exact h.resolved t ht holdId event' hfor
    obtain ⟨hold, hstatus, hlasts⟩ := hbefore
    exact ⟨hold, hstatus, hlasts.later hlater⟩
  · intro task htask resolved _ hheld
    obtain rfl := List.mem_singleton.mp htask
    exact absurd rfl hheld

/-- An operation of a request alone in the kernel keeps the holds, unless it commits a
forged approval. -/
theorem HoldsKept.act {tr : List KernelTransition} {db : Db} {id : Nat} {op : Op}
    {k : KernelResult (Val op) → Prog KernelSig (KernelResult Outcome)} {past : Past}
    (h : HoldsKept tr ⟨db, [⟨id, .vis op k, past⟩]⟩) (hknown : ∀ d ∈ past, known db d)
    (hcurrent : Current db past) (hallowed : allowed past op)
    (hforged : ¬ Forged ⟨⟨db, [⟨id, .vis op k, past⟩]⟩, .act id ⟨op, (exec op db).1⟩⟩) :
    HoldsKept (⟨⟨db, [⟨id, .vis op k, past⟩]⟩, .act id ⟨op, (exec op db).1⟩⟩ :: tr)
      ⟨(exec op db).2, [⟨id, k (exec op db).1, ⟨op, (exec op db).1⟩ :: past⟩]⟩ := by
  by_cases hdecides : Decides ⟨op, (exec op db).1⟩
  · rcases exec_cases op db with ⟨v, db', htx, hexec⟩ | ⟨e, -, hexec⟩
    · rw [hexec] at hforged hdecides ⊢
      rcases hdecides.cases with ⟨tx, event, heq⟩ | ⟨tx, v', heq, happrove⟩
      · cases heq
        exact h.commit hknown hcurrent hallowed hforged htx
      · cases heq
        exact h.approve happrove htx
    · rw [hexec] at hdecides
      rcases hdecides.cases with ⟨tx, event, heq⟩ | ⟨tx, v', heq, -⟩ <;> cases heq
  · refine h.idle (exec_later op db) ?_ ?_
    · rintro id' tx event hlabel
      obtain ⟨rfl, heq⟩ := Label.act.inj hlabel
      rw [heq] at hdecides
      exact hdecides trivial
    · intro task htask
      obtain rfl := List.mem_singleton.mp htask
      rcases approval_cons hallowed hdecides with hnone | hsame
      · exact .inl hnone
      · exact .inr ⟨_, List.mem_singleton_self _, hsame⟩

/-- In a run of requests one after the other, none with a forged approval, the holds are
kept. -/
theorem KernelRun.holdsKept {tr : List KernelTransition} {pool : KernelPool} (h : KernelRun tr pool)
    (hseq : Sequential tr) (hforged : ∀ t ∈ tr, ¬ Forged t) : HoldsKept tr pool := by
  induction h with
  | start =>
    constructor
    · exact fun _ h => (nomatch h)
    · exact fun _ h => (nomatch h)
    · exact fun _ h => (nomatch h)
    · exact fun _ h => (nomatch h)
  | step hr hs ih =>
    have hseq' : Sequential _ := fun t ht => hseq t (List.mem_cons_of_mem _ ht)
    have hkept := ih hseq' fun t ht => hforged t (List.mem_cons_of_mem _ ht)
    have halone := KernelRun.alone hr hseq'
    have hseeded := KernelRun.seeded hr
    obtain ⟨-, hkeeps⟩ := KernelRun.keeps hr
    cases hs with
    | spawn store tasks id r hfresh =>
      refine hkept.idle (.refl _) (fun _ _ _ heq => by cases heq) ?_
      intro task htask
      rcases List.mem_cons.mp htask with rfl | htask
      · exact .inl rfl
      · exact .inr ⟨task, htask, rfl, rfl⟩
    | act store before after id op k past =>
      obtain ⟨rfl, rfl, hcurrent⟩ := alone_append halone
      have hme := hkeeps ⟨id, .vis op k, past⟩ (by simp)
      exact hkept.act hme.known hcurrent hme.honors.1 (hforged _ List.mem_cons_self)
    | fault store before after id op k past x hx =>
      refine hkept.idle (.refl _) (fun _ _ _ heq => by cases heq) ?_
      intro task htask
      rcases List.mem_append.mp htask with htask | htask
      · exact .inr ⟨task, List.mem_append_left _ htask, rfl, rfl⟩
      rcases List.mem_cons.mp htask with rfl | htask
      · refine .inr ⟨⟨id, .vis op k, past⟩, by simp, ?_⟩
        cases op with
        | consumeBudget tx => exact ⟨rfl, rfl⟩
        | _ =>
          obtain ⟨e, -, rfl⟩ := hx
          exact ⟨approval_error, held_error⟩
      · exact .inr ⟨task, by simp [htask], rfl, rfl⟩
    | again store before after id a p past hp =>
      refine hkept.idle (.refl _) (fun _ _ _ heq => by cases heq) ?_
      intro task htask
      rcases List.mem_append.mp htask with htask | htask
      · exact .inr ⟨task, List.mem_append_left _ htask, rfl, rfl⟩
      rcases List.mem_cons.mp htask with rfl | htask
      · exact .inr ⟨⟨id, .ret a, past⟩, by simp, rfl, rfl⟩
      · exact .inr ⟨task, by simp [htask], rfl, rfl⟩
    | finish store before after id a past hp =>
      refine hkept.idle (.refl _) (fun _ _ _ heq => by cases heq) ?_
      intro task htask
      rcases List.mem_append.mp htask with htask | htask <;>
        exact .inr ⟨task, by simp [htask], rfl, rfl⟩
    | cancel store before after t =>
      refine hkept.idle (.refl _) (fun _ _ _ heq => by cases heq) ?_
      intro task htask
      rcases List.mem_append.mp htask with htask | htask <;>
        exact .inr ⟨task, by simp [htask], rfl, rfl⟩
    | restart store store' tasks hboot =>
      rw [bootstrap_eq hseeded hboot]
      exact hkept.idle (.refl _) (fun _ _ _ heq => by cases heq) (fun _ h => by cases h)

/-- Where requests come one after the other and no payload is forged, every
commit the rules call to hold was approved by a human, and no approval serves
two commits. -/
theorem run_hold_safe {tr : List KernelTransition} {pool : KernelPool} (h : KernelRun tr pool)
    (hseq : Sequential tr) (hforged : ∀ t ∈ tr, ¬ Forged t) :
    (∀ t ∈ tr, ∀ event, CommitsHeld t event →
      ∃ holdId, AccountsFor t holdId event ∧ ApprovedHold t.before.store holdId event) ∧
    ∀ t₁ ∈ tr, ∀ t₂ ∈ tr, ∀ holdId event₁ event₂, AccountsFor t₁ holdId event₁ →
      AccountsFor t₂ holdId event₂ → event₁ = event₂ := by
  have hkept := h.holdsKept hseq hforged
  exact ⟨hkept.held, hkept.once⟩

/-! ## Two runs -/

/-- Whether a step is none that starts a request beside another, nor a forged
commit, as can be read off it. -/
def holdsCleanly (t : KernelTransition) : Bool :=
  match t.label with
  | .spawn .. => t.before.tasks.isEmpty
  | .act id ⟨.finalize tx, .ok _⟩ => !holdApproved tx.event.payload ||
      t.before.tasks.all fun task => task.id ≠ id || (approval task.past).isSome
  | _ => true

/-- A run whose steps pass the test is one of requests after one another, without a
forged approval. -/
theorem holdsCleanly_sound {tr : List KernelTransition} (h : tr.all holdsCleanly = true) :
    Sequential tr ∧ ∀ t ∈ tr, ¬ Forged t := by
  constructor
  · intro t ht id r hlabel
    have hclean := List.all_eq_true.mp h t ht
    unfold holdsCleanly at hclean
    rw [hlabel] at hclean
    exact List.isEmpty_iff.mp hclean
  · rintro t ht ⟨past, tx, event, ⟨id, prog, hlabel, hmem⟩, -, happroval, happroved⟩
    have hclean := List.all_eq_true.mp h t ht
    unfold holdsCleanly at hclean
    rw [hlabel] at hclean
    simp only [happroved, Bool.not_true, Bool.false_or] at hclean
    have htask := List.all_eq_true.mp hclean _ hmem
    simp [happroval] at htask

/-- Whether a step commits a change the rules call to hold. -/
def commitsHeld (t : KernelTransition) : Bool :=
  match t.label with
  | .act id ⟨.finalize _, .ok event⟩ =>
    let event : EventRecord := event
    t.before.tasks.any (fun task => task.id = id) &&
      ["create", "mutate", "execute"].any (fun kind => event.actionType = kind) &&
      (t.before.store.actors.find? event.actorId).any (fun actor => actor.actorType = .agent) &&
      (EnvelopeStore.getActiveForActor event.actorId t.before.store).any fun envelope =>
        checkHoldTrigger envelope.holdOn event.target event.actionType
  | _ => false

/-- The test finds a commit of an action that a rule puts on hold. -/
theorem commitsHeld_sound {t : KernelTransition} (h : commitsHeld t = true) :
    ∃ event, CommitsHeld t event := by
  unfold commitsHeld at h
  split at h
  · next id tx event hlabel =>
    simp only [Bool.and_eq_true, List.any_eq_true, Option.any_eq_true] at h
    obtain ⟨⟨⟨⟨task, htask, hid⟩, kind, hkind, hchanges⟩, actor, hactor, hagent⟩, envelope,
      hactive, htrigger⟩ := h
    simp only [decide_eq_true_eq] at hid hchanges hagent
    obtain rfl := hid
    refine ⟨event, ⟨task.past, tx, task.id, task.prog, hlabel, htask⟩, ?_, ⟨actor, hactor, hagent⟩,
      ⟨envelope, hactive, htrigger⟩⟩
    rw [hchanges]
    simpa using hkind
  · cases h

/-- A change on hold is approved by root and committed. -/
def holdApprovedByRoot : List (Turn Request) :=
  agentOnHold ++ alone 40 (submitAt 3 "root" .mutate "ledger/hold/hold-2"
    (.obj [("decision", .str "approve")]))

omit [Externals] in
/-- A commit the rules call to hold, with the approval that accounts for it: root's, on
the hold that the agent's own submit had triggered. -/
theorem holdApprovedByRoot_safe :
    letI := reference
    ∃ t ∈ (kernelPlayed holdApprovedByRoot).trace, ∃ event, CommitsHeld t event ∧
      ∃ holdId, AccountsFor t holdId event ∧ ApprovedHold t.before.store holdId event := by
  have hplayed : (kernelPlayed holdApprovedByRoot).trace.all holdsCleanly = true ∧
      (kernelPlayed holdApprovedByRoot).trace.any (@commitsHeld reference) = true := by
    rw [kernelPlayed_eq]
    decide +kernel
  obtain ⟨hclean, hheld⟩ := hplayed
  obtain ⟨t, ht, hcommits⟩ := List.any_eq_true.mp hheld
  obtain ⟨event, hevent⟩ := @commitsHeld_sound reference t hcommits
  obtain ⟨hseq, hforged⟩ := @holdsCleanly_sound reference _ hclean
  exact ⟨t, ht, event, hevent, (@run_hold_safe reference _ _
    (kernelRun_played holdApprovedByRoot) hseq hforged).1 t ht event hevent⟩

/-- Whether a step is none that starts a request beside another. -/
def spawnsAlone (t : KernelTransition) : Bool :=
  match t.label with
  | .spawn .. => t.before.tasks.isEmpty
  | _ => true

/-- An agent says itself that its change was approved. -/
def selfApproved : List (Turn Request) :=
  alone 30 (createAgent 0 "agent-1" 500) ++
    alone 30 (grantEnvelope 1 "agent-1" 100 [holdMutates]) ++
    alone 30 (submitAt 2 "agent-1" .mutate "workspace/a" (.obj [("_hold_approved", .bool true)]))

omit [Externals] in
/-- A commit the rules call to hold, and nobody was asked: the agent itself writes into
its payload that the action was approved. -/
theorem selfApproved_unsafe :
    letI := reference
    ¬ ∀ tr pool, KernelRun tr pool → Sequential tr →
      (∀ t ∈ tr, ∀ event, CommitsHeld t event →
        ∃ holdId, AccountsFor t holdId event ∧ ApprovedHold t.before.store holdId event) ∧
      ∀ t₁ ∈ tr, ∀ t₂ ∈ tr, ∀ holdId event₁ event₂, AccountsFor t₁ holdId event₁ →
        AccountsFor t₂ holdId event₂ → event₁ = event₂ := by
  intro hclaim
  have hplayed : (kernelPlayed selfApproved).trace.all spawnsAlone = true ∧
      (kernelPlayed selfApproved).trace.any (fun t =>
        @commitsHeld reference t && t.before.store.holdRequests.rows.isEmpty) = true := by
    rw [kernelPlayed_eq]
    decide +kernel
  obtain ⟨hseq, hheld⟩ := hplayed
  obtain ⟨t, ht, hboth⟩ := List.any_eq_true.mp hheld
  obtain ⟨hcommits, hnone⟩ := Bool.and_eq_true_iff.mp hboth
  obtain ⟨event, hevent⟩ := @commitsHeld_sound reference t hcommits
  have hsequential : Sequential (kernelPlayed selfApproved).trace := by
    intro t ht id r hlabel
    have hspawn := List.all_eq_true.mp hseq t ht
    unfold spawnsAlone at hspawn
    simp only [hlabel] at hspawn
    exact List.isEmpty_iff.mp hspawn
  obtain ⟨holdId, -, -, hold, hfind, -⟩ :=
    (hclaim _ _ (kernelRun_played selfApproved) hsequential).1 t ht event hevent
  have hmem := Table.mem_of_find? hfind
  rw [List.isEmpty_iff.mp hnone] at hmem
  cases hmem

end PunkgoKernel
