import PunkgoKernel.Laws.Lapse
import PunkgoKernel.Laws.Parts

/-!
# The checks before a commit

A submit that is no hold response has two parts: the checks that come before
anything is paid (`preflight`), and the payment with the commit
(`payAndCommit`). The checks look at the database and change nothing in it but
what lapses, unless they put the action on hold. They pass every failure of the
database on, so what they decide is a function of the action, the clock and the
database.
-/

namespace PunkgoKernel

open Json (Value)
open Relational (Table key)
open Relation (ReflTransGen)
open Resumption

variable [Externals]

/-- What the checks find out: the envelope that covers the action, and what it
asks to create. -/
structure Ready where
  authorisedBy : Option EnvelopeRecord
  createActor : Option CreateActorSpec
  createEnvelope : Option (String × EnvelopeSpec × Option String)

/-- The checks of a submit, up to the reservation: all that happens before the request
first writes for itself. -/
def preflight (env : Env) (action : Action) : KernelProg Ready := do
  check (validateAction action)
  requireActor action.actorId
  let authorisedBy ← authorizeActor env action
  authorizeLifecycle action (lifecycleOp? action)
  let createActor ← parseCreateActorSpec action
  let createEnvelope ← parseCreateEnvelopeSpec env action
  pure ⟨authorisedBy, createActor, createEnvelope⟩

/-- The transaction of a commit, with all that the checks have found. -/
def finalizeTx (env : Env) (action : Action) (ready : Ready) (cost : Int)
    (reservation : Option EnergyReservation) (artifactHash : Option String) : FinalizeTx :=
  { reservation := reservation
    settledCost := cost
    createActor := ready.createActor
    createEnvelope := ready.createEnvelope
    event := draftEvent env action cost artifactHash
    envelopeNow := env.clock .envelope
    authorisedBy := ready.authorisedBy }

/-- What follows a commit. The submit may still fail here with its action committed,
since the charge passes on that the database denies it. -/
def afterCommit (action : Action) (cost : Int) (artifactHash : Option String)
    (event : EventRecord) : KernelProg Outcome := do
  recordPolicyVersion (parsePolicyVersion action)
  chargeEnvelope action cost
  executeLifecycle (lifecycleOp? action)
  pure (.receipt ⟨event.id, event.logIndex, event.eventHash, cost, cost, artifactHash⟩)

/-- The reservation, the last check, the commit and what follows it. What fails after
the reservation leaves it behind. -/
def payAndCommit (env : Env) (action : Action) (ready : Ready) : KernelProg Outcome := do
  let (cost, reservation) ← quoteAndReserve action
  let artifactHash ← check (artifactHashOf action)
  let event ← call (.finalize (finalizeTx env action ready cost reservation artifactHash))
  afterCommit action cost artifactHash event

/-- A submit that is no hold response: first the checks, then the payment. The two are
regrouped here once, so that each can be looked at by itself. -/
theorem submitAction_eq (envs : Nat → Env) {action : Action} (h : holdResponse? action = none) :
    submitAction envs action = preflight (envs 0) action >>= payAndCommit (envs 0) action := by
  unfold submitAction preflight
  simp only [Attempt.bind_assoc, Attempt.pure_bind, h]
  rfl

/-! ## One operation -/

/-- A call is performed, or the database denies it and stays as it was. -/
theorem executes_call {op : Op} {db db' : Db} {r : KernelResult (Val op)} :
    Attempt.Executes database (call op) db r db' ↔
      (r = (exec op db).1 ∧ db' = (exec op db).2) ∨ (refuses op r ∧ db' = db) :=
  Prog.executes_perform

/-- A call that answers with a value has committed. The charge of an envelope is the
exception: its answer is a value also when the budget refuses it. -/
theorem executes_call_ok {op : Op} (hop : ∀ tx, op ≠ .consumeBudget tx) {db db' : Db} {v : Val op}
    (h : Attempt.Executes database (call op) db (.ok v) db') :
    transaction op db = .ok (v, db') := by
  rcases executes_call.mp h with ⟨hok, hdb⟩ | ⟨hrefused, -⟩
  · rcases exec_cases op db with ⟨v', db₁, htx, hexec⟩ | ⟨e, -, hexec⟩
    · rw [hexec] at hok hdb
      cases hok
      cases hdb
      exact htx
    · rw [hexec] at hok
      cases hok
  · cases op with
    | consumeBudget tx => exact absurd rfl (hop tx)
    | _ =>
      obtain ⟨e, -, herr⟩ := hrefused
      cases herr

/-- A call that answers with an error has changed nothing, whether it was performed or
denied. -/
theorem executes_call_error {op : Op} {db db' : Db} {e : KernelError}
    (h : Attempt.Executes database (call op) db (.error e) db') : db' = db := by
  rcases executes_call.mp h with ⟨herr, rfl⟩ | ⟨-, rfl⟩
  · rcases exec_cases op db with ⟨v, db₁, -, hexec⟩ | ⟨e', -, hexec⟩
    · rw [hexec] at herr
      cases herr
    · rw [hexec]
  · rfl

/-- A read leaves the database as it was. -/
theorem exec_read {op : Op} (h : op.isRead = true) (db : Db) : (exec op db).2 = db := by
  rcases exec_cases op db with ⟨v, db', htx, hexec⟩ | ⟨e, -, hexec⟩
  swap
  · rw [hexec]
  rw [hexec]
  cases op with
  | nextSequence => exact map_read htx
  | latestCheckpoint | inclusionProof => exact auditTx_read htx
  | setEnvelopeStatus | reserve | triggerHold | resolveHold | expireHold | finalize
  | setPolicyVersion | consumeBudget | executeFreeze | executeUnfreeze | executeUpdateEnergyShare
  | creditAll | makeCheckpoint => cases h
  | _ =>
    cases htx
    rfl

/-- A part that only looks things up leaves the database as it was, whatever it comes
to. -/
theorem Reading.executes {α : Type} {p : KernelProg α} (hp : Reading p) {db db' : Db}
    {r : KernelResult α} (h : Attempt.Executes database p db r db') : db' = db := by
  induction p generalizing db with
  | ret x => exact h.2
  | vis op k ih =>
    rcases h with h | ⟨x, -, h⟩
    · have hsame := ih _ (hp.2.2 _) h
      rw [hsame]
      exact exec_read (Op.isRead_of_looksUp hp.1) db
    · exact ih _ (hp.2.2 _) h

/-- A call whose failures are passed on, so that a denial ends the request. -/
theorem strict_call {op : Op} (hop : ∀ tx, op ≠ .consumeBudget tx) :
    (call op).Strict database DatabaseFailure := by
  refine ⟨?_, fun _ => trivial⟩
  intro x hx
  cases op with
  | consumeBudget tx => exact absurd rfl (hop tx)
  | _ =>
    obtain ⟨e, he, rfl⟩ := hx
    exact ⟨e, he, rfl⟩

/-- A part that only looks things up ends with the first denial. -/
theorem Reading.strict {α : Type} {p : KernelProg α} (hp : Reading p) :
    p.Strict database DatabaseFailure := by
  induction p with
  | ret x => trivial
  | vis op k ih =>
    refine ⟨?_, fun x => ih x (hp.2.2 x)⟩
    intro x hx
    cases op with
    | consumeBudget tx => cases hp.1
    | _ =>
      obtain ⟨e, he, rfl⟩ := hx
      exact ⟨e, he, hp.2.1 e⟩

/-! ## The checks pass failures on -/

/-- The settlements of the lazy expiry pass every failure on. By induction on the list,
since the rest of the loop is only reached after a success. -/
theorem strict_expireListed (env : Env) (timeoutSecs : Int) (round : Nat)
    (holds : List HoldRequest) :
    (expireListed env timeoutSecs round holds).Strict database DatabaseFailure := by
  exact expireListed_induction (P := fun p => p.Strict database DatabaseFailure) trivial
    (fun _ _ hrest => (strict_call fun _ h => by cases h).bind fun _ => hrest)
    env timeoutSecs round holds

/-- So does the lazy expiry under an envelope. -/
theorem strict_expireHoldsOf (env : Env) (envelope : EnvelopeRecord) :
    (expireHoldsOf env envelope).Strict database DatabaseFailure := by
  unfold expireHoldsOf
  split
  · split
    · exact (strict_call fun _ h => by cases h).bind fun _ => strict_expireListed _ _ _ _
    · trivial
  · trivial

/-- So does the hold check. -/
theorem strict_checkHold (env : Env) (action : Action) (envelope : EnvelopeRecord) :
    (checkHold env action envelope).Strict database DatabaseFailure := by
  unfold checkHold
  split
  · exact (strict_call fun _ h => by cases h).bind fun _ => trivial
  · trivial

/-- So does the authorisation of a change, part by part. -/
theorem strict_authorizeStateChange (env : Env) (action : Action) (actor : ActorRecord) :
    (authorizeStateChange env action actor).Strict database DatabaseFailure := by
  refine (strict_call fun _ h => by cases h).bind fun envelope => ?_
  have hexpiry : (expireEnvelope env envelope).Strict database DatabaseFailure := by
    unfold expireEnvelope
    split
    · trivial
    · split
      · exact (strict_call fun _ h => by cases h).bind fun _ => trivial
      · trivial
  refine hexpiry.bind fun found => ?_
  refine Attempt.Strict.bind trivial fun mode => ?_
  split
  · refine Attempt.Strict.bind trivial fun _ => ?_
    refine (strict_expireHoldsOf env _).bind fun _ => ?_
    exact (strict_checkHold env action _).bind fun _ => trivial
  · trivial

/-- So do the checks on the actor. -/
theorem strict_authorizeActor (env : Env) (action : Action) :
    (authorizeActor env action).Strict database DatabaseFailure := by
  refine (strict_call fun _ h => by cases h).bind fun found => ?_
  cases found with
  | none => trivial
  | some actor =>
    refine Attempt.Strict.bind trivial fun _ => ?_
    refine Attempt.Strict.bind trivial fun _ => ?_
    refine (reading_checkLineage action actor).strict.bind fun _ => ?_
    split
    · exact strict_authorizeStateChange env action actor
    · trivial

omit [Externals] in
/-- Asking whether the actor exists is a lookup. -/
theorem reading_requireActor (actorId : String) : Reading (requireActor actorId) := by
  refine Reading.bind (reading_call rfl) ?_
  intro known
  cases (known : Bool) with
  | true => trivial
  | false => trivial

/-- Parsing a grant looks up the envelope of the grantor, and writes nothing. -/
theorem reading_parseCreateEnvelopeSpec (env : Env) (action : Action) :
    Reading (parseCreateEnvelopeSpec env action) := by
  unfold parseCreateEnvelopeSpec
  split
  · trivial
  · refine Reading.bind (reading_check _) fun spec => ?_
    refine Reading.bind (reading_call rfl) fun grantorEnvelope => ?_
    refine Reading.bind (reading_check _) fun parentId => ?_
    trivial

/-- The checks of a submit end with the first denial, so a submit that fails otherwise
was denied nothing. -/
theorem strict_preflight (env : Env) (action : Action) :
    (preflight env action).Strict database DatabaseFailure := by
  refine Attempt.Strict.bind trivial fun _ => ?_
  refine (reading_requireActor _).strict.bind fun _ => ?_
  refine (strict_authorizeActor env action).bind fun authorisedBy => ?_
  refine (reading_authorizeLifecycle action _).strict.bind fun _ => ?_
  refine (reading_parseCreateActorSpec action).strict.bind fun createActor => ?_
  refine (reading_parseCreateEnvelopeSpec env action).strict.bind fun createEnvelope => ?_
  trivial

/-! ## The checks change only what lapses -/

/-- What the loop over the listed holds changes is that they have lapsed. The holds left
are still as they were listed, which the induction carries. -/
theorem expireListed_lapsed {env : Env} {e : EnvelopeRecord} {timeoutSecs : Int}
    (htimeout : e.holdTimeoutSecs = some timeoutSecs) (hpos : 0 < timeoutSecs) {round : Nat}
    {listed : List HoldRequest} {db db' : Db} {r : KernelResult Unit}
    (he : db.envelopes.find? e.envelopeId = some e)
    (hlisted : ∀ hold ∈ listed, db.holdRequests.find? hold.holdId = some hold ∧
      hold.status = .pending ∧ hold.envelopeId = e.envelopeId)
    (hdistinct : (listed.map HoldRequest.holdId).Nodup)
    (h : Attempt.Executes database (expireListed env timeoutSecs round listed) db r db') :
    Lapsed env e.actorId db db' := by
  induction listed generalizing round db with
  | nil =>
    obtain ⟨-, rfl⟩ := h
    exact .refl
  | cons hold rest ih =>
    obtain ⟨hrow, hpending, hunder⟩ := hlisted hold List.mem_cons_self
    have hrest : ∀ hold ∈ rest, db.holdRequests.find? hold.holdId = some hold ∧
        hold.status = .pending ∧ hold.envelopeId = e.envelopeId :=
      fun h hh => hlisted h (List.mem_cons_of_mem _ hh)
    obtain ⟨hnew, hdistinct'⟩ := List.nodup_cons.mp hdistinct
    unfold expireListed at h
    split at h
    · next htimedOut =>
      rcases Attempt.executes_bind.mp h with ⟨event, db₁, hcall, h⟩ | ⟨err, -, hcall⟩
      · have htx := executes_call_ok (fun _ hop => by cases hop) hcall
        have hstep : Lapse env e.actorId db db₁ :=
          .hold db db₁ e timeoutSecs hold round event he rfl htimeout hpos hrow hpending hunder
            htimedOut htx
        obtain ⟨-, henvelopes⟩ := keepsGrants_frame (by rfl) htx
        refine ReflTransGen.head hstep (ih (henvelopes ▸ he) ?_ hdistinct' h)
        -- the other holds are as they were
        intro other hother
        obtain ⟨hfind, hstatus, henv⟩ := hrest other hother
        refine ⟨?_, hstatus, henv⟩
        have hne : other.holdId ≠ hold.holdId := fun heq =>
          hnew (heq ▸ List.mem_map_of_mem hother)
        obtain ⟨db₂, db₃, events, hashes, hresolve, hsettle, -, rfl⟩ := expireHold_eq_ok htx
        obtain ⟨_, -, -, rfl⟩ := EnvelopeStore.resolveHoldRequestInTx_eq_ok hresolve
        have hholds := congrArg Db.holdRequests (settleIf_frame hsettle)
        show db₃.holdRequests.find? other.holdId = some other
        rw [hholds]
        have hkey : ∀ r, key (EnvelopeStore.resolved .timedOut none
            (expireTx env round hold).now r) = key r := fun _ => rfl
        refine (Table.find?_modify db.holdRequests hold.holdId other.holdId _ hkey).trans ?_
        rw [if_neg hne, hfind]
      · obtain rfl := executes_call_error hcall
        exact .refl
    · exact ih he hrest hdistinct' h

omit [Externals] in
/-- The pending holds of an envelope, each listed once, as they are rows of a table. -/
theorem nodup_listPendingHolds (envelopeId : String) (db : Db) :
    ((EnvelopeStore.listPendingHoldsForEnvelope envelopeId db).map HoldRequest.holdId).Nodup := by
  unfold EnvelopeStore.listPendingHoldsForEnvelope EnvelopeStore.byTriggeredAt
  have hperm := List.perm_insertionSort (fun a b : HoldRequest => textLe a.triggeredAt b.triggeredAt)
    (db.holdRequests.rows.filter fun h => h.status = .pending ∧ h.envelopeId = envelopeId)
  refine (hperm.map HoldRequest.holdId).nodup_iff.mpr ?_
  exact db.holdRequests.unique.sublist (List.Sublist.map _ List.filter_sublist)

/-- The lazy expiry changes only what has lapsed, also where it fails on the way. -/
theorem expireTimedOutHolds_lapsed {env : Env} {e : EnvelopeRecord} {timeoutSecs : Int}
    (htimeout : e.holdTimeoutSecs = some timeoutSecs) (hpos : 0 < timeoutSecs) {db db' : Db}
    {r : KernelResult Unit} (he : db.envelopes.find? e.envelopeId = some e)
    (h : Attempt.Executes database (expireTimedOutHolds env e.envelopeId timeoutSecs) db r db') :
    Lapsed env e.actorId db db' := by
  rcases Attempt.executes_bind.mp h with ⟨holds, db₁, hcall, h⟩ | ⟨err, -, hcall⟩
  · have htx := executes_call_ok (fun _ hop => by cases hop) hcall
    obtain ⟨rfl, rfl⟩ : holds = EnvelopeStore.listPendingHoldsForEnvelope e.envelopeId db ∧
        db₁ = db := by
      cases htx
      exact ⟨rfl, rfl⟩
    refine expireListed_lapsed htimeout hpos he ?_ (nodup_listPendingHolds _ _) h
    intro hold hmem
    obtain ⟨hrow, hpending, hunder⟩ := EnvelopeStore.mem_listPendingHolds.mp hmem
    exact ⟨Table.find?_of_mem hrow, hpending, hunder⟩
  · obtain rfl := executes_call_error hcall
    exact .refl

/-- The same under an envelope that may have no timeout. -/
theorem expireHoldsOf_lapsed {env : Env} {e : EnvelopeRecord} {db db' : Db} {r : KernelResult Unit}
    (he : db.envelopes.find? e.envelopeId = some e)
    (h : Attempt.Executes database (expireHoldsOf env e) db r db') : Lapsed env e.actorId db db' := by
  unfold expireHoldsOf at h
  split at h
  · next timeoutSecs _ htimeout =>
    split at h
    · next hpos => exact expireTimedOutHolds_lapsed htimeout hpos he h
    · obtain ⟨-, rfl⟩ := h
      exact .refl
  · obtain ⟨-, rfl⟩ := h
    exact .refl

/-- The request was put on hold, which the client is told by an error. -/
def OnHold {α : Type} (r : KernelResult α) : Prop :=
  ∃ holdId agentId, r = .error (.holdTriggered holdId agentId)

/-- The request of an agent was put on hold: its energy is reserved, and the row and the
event are written. -/
structure PutOnHold {α : Type} (env : Env) (action : Action) (r : KernelResult α) (db db' : Db) :
    Prop where
  onHold : OnHold r
  agent : ∃ actor, db.actors.find? action.actorId = some actor ∧ actor.actorType = .agent
  triggered : ∃ e event, triggerHold (holdTriggerTx env action e) db = .ok (event, db')

/-- The hold check changes nothing, or it puts the action on hold. There is no way for
it to reserve and then go on. -/
theorem checkHold_same {env : Env} {action : Action} {e : EnvelopeRecord} {db db' : Db}
    {r : KernelResult Unit}
    (hagent : ∃ actor, db.actors.find? action.actorId = some actor ∧ actor.actorType = .agent)
    (h : Attempt.Executes database (checkHold env action e) db r db') :
    PutOnHold env action r db db' ∨ db' = db := by
  unfold checkHold at h
  split at h
  · rcases Attempt.executes_bind.mp h with ⟨event, db₁, hcall, rfl, rfl⟩ | ⟨err, -, hcall⟩
    · exact .inl ⟨⟨_, _, rfl⟩, hagent, e, event,
        executes_call_ok (fun _ hop => by cases hop) hcall⟩
    · exact .inr (executes_call_error hcall)
  · exact .inr h.2

/-- An envelope past its deadline is marked; one that is not is as it was
read. -/
theorem expireEnvelope_lapsed {env : Env} {actorId : String} {found : Option EnvelopeRecord}
    {db db' : Db} {r : KernelResult (Option EnvelopeRecord)}
    (hfound : ∀ e, found = some e → db.envelopes.find? e.envelopeId = some e ∧
      e.actorId = actorId ∧ e.status = .active)
    (h : Attempt.Executes database (expireEnvelope env found) db r db') :
    Lapsed env actorId db db' ∧ ∀ e, r = .ok (some e) → found = some e ∧ db' = db := by
  cases found with
  | none =>
    obtain ⟨rfl, rfl⟩ := h
    exact ⟨.refl, fun e he => by cases he⟩
  | some e =>
    obtain ⟨hrow, howner, hactive⟩ := hfound e rfl
    simp only [expireEnvelope] at h
    split at h
    · next hexpired =>
      rcases Attempt.executes_bind.mp h with ⟨u, db₁, hcall, rfl, rfl⟩ | ⟨err, rfl, hcall⟩
      · have htx := executes_call_ok (fun _ hop => by cases hop) hcall
        obtain ⟨-, rfl⟩ := EnvelopeStore.setStatusInTx_eq_ok (unitTx_eq_ok htx)
        exact ⟨.single (.envelope db e hrow howner hactive hexpired), fun e he => by cases he⟩
      · obtain rfl := executes_call_error hcall
        exact ⟨.refl, fun e he => by cases he⟩
    · obtain ⟨rfl, rfl⟩ := h
      refine ⟨.refl, ?_⟩
      intro e' he'
      cases he'
      exact ⟨rfl, rfl⟩

/-- What the checks on an actor do: things of its own lapse, and then it may be
put on hold. -/
def Checked {α : Type} (env : Env) (action : Action) (r : KernelResult α) (db db' : Db) : Prop :=
  ∃ db₁, Lapsed env action.actorId db db₁ ∧ (PutOnHold env action r db₁ db' ∨ db' = db₁)

/-- What only lapses is a possible effect of the checks. -/
theorem Lapsed.checked {α : Type} {env : Env} {action : Action} {r : KernelResult α} {db db' : Db}
    (h : Lapsed env action.actorId db db') : Checked env action r db db' :=
  ⟨db', h, .inr rfl⟩

/-- Checks may change nothing. -/
theorem Checked.refl {α : Type} {env : Env} {action : Action} {r : KernelResult α} {db : Db} :
    Checked env action r db db :=
  Lapsed.checked .refl

/-- A request that is not on hold after its checks has only seen things lapse. -/
theorem Checked.lapsed {α : Type} {env : Env} {action : Action} {r : KernelResult α} {db db' : Db}
    (h : Checked env action r db db') (hr : ¬ OnHold r) : Lapsed env action.actorId db db' := by
  obtain ⟨db₁, hlapsed, hhold | rfl⟩ := h
  · exact absurd hhold.onHold hr
  · exact hlapsed

omit [Externals] in
/-- A value says that the request was not put on hold. -/
theorem not_onHold_ok {α : Type} (a : α) : ¬ OnHold (.ok a : KernelResult α) := by
  rintro ⟨_, _, h⟩
  cases h

/-- An error is passed on, and with it what the checks have changed. -/
theorem Checked.error {α β : Type} {env : Env} {action : Action} {e : KernelError} {db db' : Db}
    (h : Checked env action (.error e : KernelResult α) db db') :
    Checked env action (.error e : KernelResult β) db db' := by
  obtain ⟨db₁, hlapsed, ⟨⟨holdId, agentId, he⟩, hagent, htrigger⟩ | rfl⟩ := h
  · cases he
    exact ⟨db₁, hlapsed, .inl ⟨⟨holdId, agentId, rfl⟩, hagent, htrigger⟩⟩
  · exact hlapsed.checked

/-- Authorising a change lets envelopes and holds lapse, and may then put the action on
hold. -/
theorem authorizeStateChange_checked {env : Env} {action : Action} {actor : ActorRecord}
    {db db' : Db} {r : KernelResult (Option EnvelopeRecord)}
    (hactor : db.actors.find? action.actorId = some actor)
    (h : Attempt.Executes database (authorizeStateChange env action actor) db r db') :
    Checked env action r db db' := by
  rcases Attempt.executes_bind.mp h with ⟨found, db₀, hcall, h₁⟩ | ⟨err, -, hcall⟩
  swap
  · obtain rfl := executes_call_error hcall
    exact .refl
  have htx := executes_call_ok (fun _ hop => by cases hop) hcall
  obtain ⟨rfl, rfl⟩ : found = EnvelopeStore.getActiveForActor action.actorId db ∧ db₀ = db := by
    cases htx
    exact ⟨rfl, rfl⟩
  have hfound : ∀ e, EnvelopeStore.getActiveForActor action.actorId db₀ = some e →
      db₀.envelopes.find? e.envelopeId = some e ∧ e.actorId = action.actorId ∧ e.status = .active :=
    fun e he => EnvelopeStore.getActiveForActor_some he
  rcases Attempt.executes_bind.mp h₁ with ⟨active, db₁, hexpire, h₂⟩ | ⟨err, -, hexpire⟩
  swap
  · exact (expireEnvelope_lapsed hfound hexpire).1.checked
  obtain ⟨hlapsed, hactive⟩ := expireEnvelope_lapsed hfound hexpire
  rcases Attempt.executes_bind.mp h₂ with ⟨mode, db₂, ⟨hmode, rfl⟩, h₃⟩ | ⟨err, -, -, rfl⟩
  swap
  · exact hlapsed.checked
  -- only a covered action goes on to the holds of its envelope
  split at h₃
  swap
  · obtain ⟨-, rfl⟩ := h₃
    exact hlapsed.checked
  next e =>
  obtain ⟨hsome, rfl⟩ := hactive e rfl
  obtain ⟨hrow, howner, -⟩ := hfound e hsome
  have htype : actor.actorType = .agent := by
    rcases checkAuthorization_ok hmode.symm with ⟨-, h⟩ | ⟨htype, -, -⟩
    · cases h
    · exact htype
  rcases Attempt.executes_bind.mp h₃ with ⟨u, db₃, ⟨-, rfl⟩, h₄⟩ | ⟨err, -, -, rfl⟩
  swap
  · exact .refl
  rcases Attempt.executes_bind.mp h₄ with ⟨u', db₄, hholds, h₅⟩ | ⟨err, -, hholds⟩
  swap
  · have hlapsed' := expireHoldsOf_lapsed hrow hholds
    rw [howner] at hlapsed'
    exact hlapsed'.checked
  have hlapsed' := expireHoldsOf_lapsed hrow hholds
  rw [howner] at hlapsed'
  have hagent : ∃ actor, db₄.actors.find? action.actorId = some actor ∧ actor.actorType = .agent :=
    ⟨actor, by rw [hlapsed'.actors, hactor], htype⟩
  rcases Attempt.executes_bind.mp h₅ with ⟨u'', db₅, hcheck, -, rfl⟩ | ⟨err, rfl, hcheck⟩
  · rcases checkHold_same hagent hcheck with hhold | rfl
    · exact absurd hhold.onHold (not_onHold_ok _)
    · exact hlapsed'.checked
  · have hchecked : Checked env action _ _ db' := ⟨db₄, hlapsed', checkHold_same hagent hcheck⟩
    exact hchecked.error

/-- So do the checks on the actor, of which this is the only part that writes. -/
theorem authorizeActor_checked {env : Env} {action : Action} {db db' : Db}
    {r : KernelResult (Option EnvelopeRecord)}
    (h : Attempt.Executes database (authorizeActor env action) db r db') :
    Checked env action r db db' := by
  rcases Attempt.executes_bind.mp h with ⟨found, db₀, hcall, h₁⟩ | ⟨err, -, hcall⟩
  swap
  · obtain rfl := executes_call_error hcall
    exact .refl
  obtain ⟨rfl, rfl⟩ : found = ActorStore.get action.actorId db ∧ db₀ = db := by
    have htx := executes_call_ok (fun _ hop => by cases hop) hcall
    cases htx
    exact ⟨rfl, rfl⟩
  cases hactor : ActorStore.get action.actorId db₀ with
  | none =>
    rw [hactor] at h₁
    obtain ⟨-, rfl⟩ := h₁
    exact .refl
  | some actor =>
    rw [hactor] at h₁
    rcases Attempt.executes_bind.mp h₁ with ⟨u, db₁, ⟨-, rfl⟩, h₂⟩ | ⟨err, -, -, rfl⟩
    swap
    · exact .refl
    rcases Attempt.executes_bind.mp h₂ with ⟨u, db₁, ⟨-, rfl⟩, h₃⟩ | ⟨err, -, -, rfl⟩
    swap
    · exact .refl
    rcases Attempt.executes_bind.mp h₃ with ⟨u, db₁, hlineage, h₄⟩ | ⟨err, -, hlineage⟩
    swap
    · obtain rfl := (reading_checkLineage action actor).executes hlineage
      exact .refl
    obtain rfl := (reading_checkLineage action actor).executes hlineage
    split at h₄
    · exact authorizeStateChange_checked hactor h₄
    · obtain ⟨-, rfl⟩ := h₄
      exact .refl

/-- The checks change only what lapses, unless they put the action on hold. What is
parsed after the authorisation only looks things up. -/
theorem preflight_checked {env : Env} {action : Action} {db db' : Db} {r : KernelResult Ready}
    (h : Attempt.Executes database (preflight env action) db r db') :
    Checked env action r db db' := by
  rcases Attempt.executes_bind.mp h with ⟨u, db₁, ⟨-, rfl⟩, h₁⟩ | ⟨err, -, -, rfl⟩
  swap
  · exact .refl
  rcases Attempt.executes_bind.mp h₁ with ⟨u, db₁, hknown, h₂⟩ | ⟨err, -, hknown⟩
  swap
  · obtain rfl := (reading_requireActor _).executes hknown
    exact .refl
  obtain rfl := (reading_requireActor _).executes hknown
  rcases Attempt.executes_bind.mp h₂ with ⟨auth, db₂, hauth, h₃⟩ | ⟨err, rfl, hauth⟩
  swap
  · exact (authorizeActor_checked hauth).error
  -- what follows the authorisation only reads
  have hrest : Reading (authorizeLifecycle action (lifecycleOp? action) >>= fun _ =>
      parseCreateActorSpec action >>= fun createActor =>
      parseCreateEnvelopeSpec env action >>= fun createEnvelope =>
      (pure ⟨auth, createActor, createEnvelope⟩ : KernelProg Ready)) := by
    refine (reading_authorizeLifecycle action _).bind fun _ => ?_
    refine (reading_parseCreateActorSpec action).bind fun _ => ?_
    exact (reading_parseCreateEnvelopeSpec env action).bind fun _ => trivial
  obtain rfl := hrest.executes h₃
  exact ((authorizeActor_checked hauth).lapsed (not_onHold_ok _)).checked

end PunkgoKernel
