import PunkgoKernel.Laws.Freshness
import PunkgoKernel.Laws.History

/-!
# The log accounts for the tables

Authority in the kernel is rows: who is an actor and may write where, which envelope
grants what, which action is on hold and how a hold was decided. No such row comes or is
decided without an event, in the same transaction, that says so: actors, envelopes, hold
requests and decisions correspond one to one with the events of their kind, and what a row
grants is what the payload of its event asks for (`run_accounted`). An auditor who has the
log has every grant there is, and no grant that is not.

The correspondence is `Relational.Sourced`, once for each table. It needs that a commit
creates an actor or an envelope exactly if its event is one that asks for it (`Asks`).
-/

namespace PunkgoKernel

open Json (Value)
open Relational (Table View key Evolves Sourced)
open Resumption

/-! ## What an event says of its row -/

/-- The event of a commit that creates an actor: its type is create, and its target the
ledger of actors. -/
def IsActorCreation (event : EventRecord) : Prop :=
  event.actionType = "create" ∧ event.target = "ledger/actor"

/-- The event of a commit that grants an envelope: its type is create, and its target
the ledger of envelopes. -/
def IsGrant (event : EventRecord) : Prop :=
  event.actionType = "create" ∧ event.target = "ledger/envelope"

/-- The event that a hold trigger writes, which no commit can write since its type is no
action's. -/
def IsHoldRequest (event : EventRecord) : Prop := event.actionType = "hold_request"

/-- The event of a decision on a hold: that of a response, or that of a timeout. -/
def IsDecision (event : EventRecord) : Prop :=
  event.actionType = "hold_response" ∨ event.actionType = "hold_timeout"

/-- The purpose a creation gives, which is a marker where it gives none. It becomes part
of the identifier of an agent that is not named. -/
def purposeOf (payload : Value) : String :=
  ((payload.get? "purpose").bind Value.asStr?).getD "legacy"

/-- The event that decides a hold request, with its decision and the instruction that
came with it; a timeout comes with none. -/
structure DecidedBy (event : EventRecord) (row : HoldRequest) : Prop where
  target : event.target = s!"ledger/hold/{row.holdId}"
  decision : ∃ decision, row.decision = some decision ∧ row.status = decision.status ∧
    event.payload.get? "decision" = some (.str decision.asStr) ∧
    (decision = .timedOut ↔ event.actionType = "hold_timeout")
  agent : event.payload.get? "agent_id" = some (.str row.agentId)
  instruction : row.instruction = (event.payload.get? "instruction").bind Value.asStr?

variable [Externals]

/-- What a creation by an actor makes of its payload. The status and the energy share are
left out: lifecycle operations change them. -/
structure ActorOf (creatorId : String) (payload : Value) (row : ActorRecord) : Prop where
  creator : row.creatorId = some creatorId
  lineage : row.lineage = [creatorId]
  named : explicitId payload = some row.actorId ∨
    explicitId payload = none ∧ ∃ n, row.actorId = deriveAgentId creatorId (purposeOf payload) n
  actorType : parseActorType payload = .ok row.actorType
  purpose : row.purpose = some (purposeOf payload)
  boundary : parseWritableTargets payload = .ok row.writableTargets
  policy : row.reductionPolicy =
    ((payload.get? "reduction_policy").bind Value.asStr?).getD "none"

def ActorBy (event : EventRecord) (row : ActorRecord) : Prop :=
  ActorOf event.actorId event.payload row

/-- The envelope has the terms the event asks for. Its identifier and its times are not in
the payload, and what is consumed and the status change. -/
def EnvelopeBy (event : EventRecord) (row : EnvelopeRecord) : Prop :=
  ∃ spec, parseEnvelopeFields ⟨event.actorId, .create, event.target, event.payload, none⟩ =
      .ok spec ∧
    row = { spec.row row.envelopeId row.parentEnvelopeId row.createdAt with
      budgetConsumed := row.budgetConsumed, status := row.status }

/-- The event that puts an action on hold names the agent, the action and the energy
reserved for it, and what is kept of the action is what the event shows, written out and
read back. The envelope whose rule it met is not in the event. -/
structure HoldBy (event : EventRecord) (row : HoldRequest) : Prop where
  target : event.target = s!"ledger/hold/{row.holdId}"
  agent : event.actorId = row.agentId
  reserved : event.reservedEnergy = row.reservedCost
  pending : ∃ payload, event.payload.get? "pending_action" = some (Json.object
      [("target", .str row.triggerTarget), ("action_type", .str row.triggerAction),
       ("payload", payload)]) ∧
    row.pendingPayload = reread (Json.object
      [("target", .str row.triggerTarget), ("action_type", .str row.triggerAction),
       ("payload", payload), ("reserved_cost", .num (.int row.reservedCost))])

/-! ## What a commit creates is what its event asks for -/

/-- The actor to be created is the one the action asks for, if it asks for one. -/
def AsksActor (action : Action) : Option CreateActorSpec → Prop
  | none => ¬ (action.actionType = .create ∧ action.target = "ledger/actor")
  | some spec => (action.actionType = .create ∧ action.target = "ledger/actor") ∧
    ActorOf action.actorId action.payload spec.row

/-- The envelope to be granted is the one the action asks for, if it asks for one. -/
def AsksEnvelope (action : Action) : Option (String × EnvelopeSpec × Option String) → Prop
  | none => ¬ (action.actionType = .create ∧ action.target = "ledger/envelope")
  | some (_, spec, _) => (action.actionType = .create ∧ action.target = "ledger/envelope") ∧
    parseEnvelopeFields action = .ok spec

/-- A commit creates what its action asks for: the actor and the envelope that
`finalize` inserts are read from the payload of the event it appends. Nothing is asked
of other operations. -/
def Asks (_ : Past) : Op → Prop
  | .finalize tx => ∃ env action artifactHash,
      tx.event = draftEvent env action tx.settledCost artifactHash ∧
      AsksActor action tx.createActor ∧ AsksEnvelope action tx.createEnvelope
  | _ => True

omit [Externals] in
/-- Only the commit has something to show, so every other operation is minded. -/
theorem asks_of_keepsCommitted [Externals] (past : Past) (op : Op) (hop : op.keepsCommitted = true) :
    Asks past op := by
  cases op with
  | finalize tx => cases hop
  | _ => trivial

/-- A part of the pipeline that commits nothing may be passed over, whatever it
answers. -/
theorem Uncommitting.asks_bind {α β : Type} {p : KernelProg β} {f : β → KernelProg α}
    {E : Past → α → Prop} {past : Past} (hp : Uncommitting p)
    (hf : ∀ past' b, Attempt.Ensures Asks (f b) E past') :
    Attempt.Ensures Asks (p >>= f) E past :=
  (Attempt.Uses.ensures hp asks_of_keepsCommitted past).bind fun past' b _ => hf past' b

/-- A single operation that is no commit may be passed over, whatever it answers. -/
theorem asks_call_bind {α : Type} {op : Op} {f : Val op → KernelProg α} {E : Past → α → Prop}
    {past : Past} (hop : op.keepsCommitted = true)
    (hf : ∀ past' v, Attempt.Ensures Asks (f v) E past') :
    Attempt.Ensures Asks (call op >>= f) E past :=
  Uncommitting.asks_bind (uncommitting_call hop) hf

/-- A check is passed with its value, or it ends the program and nothing is left to
show. -/
theorem asks_check_bind {α β : Type} {x : KernelResult β} {f : β → KernelProg α}
    {E : Past → α → Prop} {past : Past}
    (h : ∀ b, x = .ok b → Attempt.Ensures Asks (f b) E past) :
    Attempt.Ensures Asks (check x >>= f) E past := by
  cases x with
  | error e => trivial
  | ok b => exact h b rfl

/-- An accepted creation has the boundary its payload asks for. -/
theorem actorSpecFrom_boundary {action : Action} {actorId purpose : String} {actorType : ActorType}
    {creator : Option ActorRecord} {spec : CreateActorSpec}
    (h : actorSpecFrom action actorId purpose actorType creator = .ok spec) :
    parseWritableTargets action.payload = .ok spec.writableTargets := by
  unfold actorSpecFrom at h
  simp only [buildLineage_eq] at h
  split at h
  · cases h
  obtain ⟨writableTargets, htargets, h⟩ := bind_eq_ok.mp h
  cases creator with
  | none =>
    cases h
    exact htargets
  | some c =>
    obtain ⟨_, -, h⟩ := bind_eq_ok.mp h
    cases h
    exact htargets

/-- A new actor is named by the payload, or by the purpose and the creator with a number
that the request has read. -/
theorem newActorId_named (action : Action) (past : Past) :
    Attempt.Ensures Asks (newActorId action (purposeOf action.payload)) (fun _ actorId =>
      explicitId action.payload = some actorId ∨ explicitId action.payload = none ∧
        ∃ n, actorId = deriveAgentId action.actorId (purposeOf action.payload) n) past := by
  unfold newActorId
  cases hid : (action.payload.get? "actor_id").bind Value.asStr? with
  | some id => exact .inl hid
  | none =>
    simp only
    split
    · trivial
    · exact asks_call_bind rfl fun _ (n : Nat) => .inr ⟨hid, n, rfl⟩

/-- The parser of actor creations makes what the action asks for: each field is read
from the payload, or is the default that the code has for it. -/
theorem parseCreateActorSpec_asks (action : Action) (past : Past) :
    Attempt.Ensures Asks (parseCreateActorSpec action) (fun _ create => AsksActor action create)
      past := by
  unfold parseCreateActorSpec
  split
  · next hother =>
    rintro ⟨htype, htarget⟩
    rcases hother with hother | hother
    · exact hother htype
    · exact hother htarget
  next hcreates =>
  have hkind : action.actionType = .create ∧ action.target = "ledger/actor" := by
    rw [not_or, not_not, not_not] at hcreates
    exact hcreates
  split
  · trivial
  refine asks_check_bind ?_
  intro actorType htype
  refine (newActorId_named action past).bind ?_
  intro past' actorId hnamed
  refine asks_call_bind rfl ?_
  intro past'' creator
  refine asks_check_bind ?_
  intro spec hspec
  have hboundary := actorSpecFrom_boundary hspec
  obtain ⟨-, writableTargets, rfl⟩ := actorSpecFrom_spec hspec
  exact ⟨hkind, ⟨rfl, rfl, hnamed, htype, rfl, hboundary, rfl⟩⟩

/-- The parser of grants makes what the action asks for, and names as the parent the
envelope that the reduction was checked against. -/
theorem parseCreateEnvelopeSpec_asks (env : Env) (action : Action) (past : Past) :
    Attempt.Ensures Asks (parseCreateEnvelopeSpec env action)
      (fun _ create => AsksEnvelope action create) past := by
  unfold parseCreateEnvelopeSpec
  split
  · next hother =>
    rintro ⟨htype, htarget⟩
    rcases hother with hother | hother
    · exact hother htype
    · exact hother htarget
  next hcreates =>
  have hkind : action.actionType = .create ∧ action.target = "ledger/envelope" := by
    rw [not_or, not_not, not_not] at hcreates
    exact hcreates
  refine asks_check_bind ?_
  intro spec hspec
  refine asks_call_bind rfl ?_
  intro past' grantorEnvelope
  refine asks_check_bind ?_
  intro parentId _
  exact ⟨hkind, hspec⟩

/-- What a part of the pipeline promises about its value may be used in showing what
follows it. -/
theorem minds_bind_ensured {α β : Type} {p : KernelProg β} {f : β → KernelProg α}
    {Q : Past → β → Prop} {past : Past} (hp : Attempt.Ensures Asks p Q past)
    (hf : ∀ past' b, Q past' b → Minds Asks (f b) past') : Minds Asks (p >>= f) past := by
  refine Attempt.Honors.bind (Prog.Honors.mono hp ?_)
  rintro past' (e | b) hQ
  · trivial
  · exact hf past' b hQ

/-- The commit path hands on what the parsers made, unchanged, to the transaction that
inserts it. -/
theorem commitAction_asks (env : Env) (action : Action) (auth : Option EnvelopeRecord)
    (past : Past) : Minds Asks (commitAction env action auth) past := by
  unfold commitAction
  refine (reading_authorizeLifecycle action _).uncommitting.minds_bind asks_of_keepsCommitted ?_
  intro past₁ _ _
  refine minds_bind_ensured (parseCreateActorSpec_asks action past₁) ?_
  intro past₂ createActor hactor
  refine minds_bind_ensured (parseCreateEnvelopeSpec_asks env action past₂) ?_
  intro past₃ createEnvelope henvelope
  refine (uncommitting_quoteAndReserve action).minds_bind asks_of_keepsCommitted ?_
  rintro past₄ ⟨cost, reservation⟩ -
  cases artifactHashOf action with
  | error e => trivial
  | ok artifactHash =>
    refine finalize_minds asks_of_keepsCommitted ?_
    exact ⟨env, action, artifactHash, rfl, hactor, henvelope⟩

/-! ## The kind of an event is the kind of its operation -/

omit [Externals] in
/-- No action is logged under the types that the hold lifecycle uses. -/
theorem ActionType.asStr_ne_hold (t : ActionType) :
    t.asStr ≠ "hold_request" ∧ t.asStr ≠ "hold_response" ∧ t.asStr ≠ "hold_timeout" := by
  cases t <;> decide

omit [Externals] in
/-- The text of a type tells whether it is a creation. -/
theorem ActionType.asStr_eq_create {t : ActionType} : t.asStr = "create" ↔ t = .create := by
  cases t <;> decide

variable {past : Past} {op : Op} {draft : EventRecord}

/-- An operation commits the event of a creation exactly if it creates an actor. Here
the log and the table are tied: one cannot get a row without the event, or the event
without a row. -/
theorem isActorCreation_iff (hallowed : allowed past op) (hasks : Asks past op)
    (hcommits : op.Commits draft) : IsActorCreation draft ↔ ∃ spec, op.creation = some spec := by
  cases op with
  | finalize tx =>
    obtain ⟨env, action, artifactHash, hevent, hactor, -⟩ := hasks
    cases hcommits
    have hkind : IsActorCreation tx.event ↔
        action.actionType = .create ∧ action.target = "ledger/actor" := by
      rw [IsActorCreation, hevent]
      exact and_congr ActionType.asStr_eq_create Iff.rfl
    rw [hkind]
    show _ ↔ ∃ spec, tx.createActor = some spec
    cases hcreate : tx.createActor with
    | none =>
      rw [hcreate] at hactor
      exact ⟨fun h => absurd h hactor, fun ⟨_, h⟩ => nomatch h⟩
    | some spec =>
      rw [hcreate] at hactor
      exact ⟨fun _ => ⟨spec, rfl⟩, fun _ => hactor.1⟩
  | triggerHold tx =>
    obtain ⟨⟩ := hallowed
    cases hcommits
    exact ⟨fun h => absurd (show "hold_request" = "create" from h.1) (by decide),
      fun ⟨_, h⟩ => nomatch h⟩
  | resolveHold tx =>
    obtain ⟨⟩ := hallowed
    cases hcommits
    exact ⟨fun h => absurd (show "hold_response" = "create" from h.1) (by decide),
      fun ⟨_, h⟩ => nomatch h⟩
  | expireHold tx =>
    obtain ⟨⟩ := hallowed
    cases hcommits
    exact ⟨fun h => absurd (show "hold_timeout" = "create" from h.1) (by decide),
      fun ⟨_, h⟩ => nomatch h⟩
  | _ => exact hcommits.elim

/-- The same for envelopes: the event of a grant is committed exactly with the row. -/
theorem isGrant_iff (hallowed : allowed past op) (hasks : Asks past op)
    (hcommits : op.Commits draft) : IsGrant draft ↔ ∃ row, op.grant = some row := by
  cases op with
  | finalize tx =>
    obtain ⟨env, action, artifactHash, hevent, -, henvelope⟩ := hasks
    cases hcommits
    have hkind : IsGrant tx.event ↔
        action.actionType = .create ∧ action.target = "ledger/envelope" := by
      rw [IsGrant, hevent]
      exact and_congr ActionType.asStr_eq_create Iff.rfl
    rw [hkind]
    show _ ↔ ∃ row, tx.createEnvelope.map _ = some row
    cases hcreate : tx.createEnvelope with
    | none =>
      rw [hcreate] at henvelope
      exact ⟨fun h => absurd h henvelope, fun ⟨_, h⟩ => nomatch h⟩
    | some create =>
      obtain ⟨envelopeId, spec, parentId⟩ := create
      rw [hcreate] at henvelope
      exact ⟨fun _ => ⟨_, rfl⟩, fun _ => henvelope.1⟩
  | triggerHold tx =>
    obtain ⟨⟩ := hallowed
    cases hcommits
    exact ⟨fun h => absurd (show "hold_request" = "create" from h.1) (by decide),
      fun ⟨_, h⟩ => nomatch h⟩
  | resolveHold tx =>
    obtain ⟨⟩ := hallowed
    cases hcommits
    exact ⟨fun h => absurd (show "hold_response" = "create" from h.1) (by decide),
      fun ⟨_, h⟩ => nomatch h⟩
  | expireHold tx =>
    obtain ⟨⟩ := hallowed
    cases hcommits
    exact ⟨fun h => absurd (show "hold_timeout" = "create" from h.1) (by decide),
      fun ⟨_, h⟩ => nomatch h⟩
  | _ => exact hcommits.elim

/-- The same for hold requests, whose event and row one transaction writes. -/
theorem isHoldRequest_iff (hallowed : allowed past op) (hcommits : op.Commits draft) :
    IsHoldRequest draft ↔ ∃ row, op.Holds row := by
  cases op with
  | finalize tx =>
    obtain ⟨env, action, artifactHash, hevent, -⟩ := hallowed
    cases hcommits
    rw [IsHoldRequest, hevent]
    exact ⟨fun h => absurd h action.actionType.asStr_ne_hold.1, fun ⟨_, h⟩ => h.elim⟩
  | triggerHold tx =>
    obtain ⟨⟩ := hallowed
    cases hcommits
    exact ⟨fun _ => ⟨_, rfl⟩, fun _ => rfl⟩
  | resolveHold tx =>
    obtain ⟨⟩ := hallowed
    cases hcommits
    exact ⟨fun h => absurd (show "hold_response" = "hold_request" from h) (by decide),
      fun ⟨_, h⟩ => h.elim⟩
  | expireHold tx =>
    obtain ⟨⟩ := hallowed
    cases hcommits
    exact ⟨fun h => absurd (show "hold_timeout" = "hold_request" from h) (by decide),
      fun ⟨_, h⟩ => h.elim⟩
  | _ => exact hcommits.elim

/-- The same for decisions: the event of a response or of a timeout is committed exactly
when a hold leaves pending. -/
theorem isDecision_iff (hallowed : allowed past op) (hcommits : op.Commits draft) :
    IsDecision draft ↔ ∃ holdId decision, op.Resolves holdId decision := by
  cases op with
  | finalize tx =>
    obtain ⟨env, action, artifactHash, hevent, -⟩ := hallowed
    cases hcommits
    rw [IsDecision, hevent]
    obtain ⟨-, hresponse, htimeout⟩ := action.actionType.asStr_ne_hold
    exact ⟨fun h => absurd h (not_or.mpr ⟨hresponse, htimeout⟩), fun ⟨_, _, h⟩ => h.elim⟩
  | triggerHold tx =>
    obtain ⟨⟩ := hallowed
    cases hcommits
    have hother : ¬ ("hold_request" = "hold_response" ∨ "hold_request" = "hold_timeout") := by decide
    exact ⟨fun h => absurd h hother, fun ⟨_, _, h⟩ => h.elim⟩
  | resolveHold tx =>
    obtain ⟨⟩ := hallowed
    cases hcommits
    exact ⟨fun _ => ⟨_, _, rfl, rfl⟩, fun _ => .inl rfl⟩
  | expireHold tx =>
    obtain ⟨⟩ := hallowed
    cases hcommits
    exact ⟨fun _ => ⟨_, _, rfl, rfl⟩, fun _ => .inr rfl⟩
  | _ => exact hcommits.elim

/-! ## What an operation does to the hold requests -/

omit [Externals] in
/-- The instruction that a decision comes with, which only a response can have. -/
def Op.instruction : Op → Option String
  | .resolveHold tx => tx.instruction
  | _ => none

/-- The hold requests before and after an operation: the same, one more, or one decided. -/
inductive HoldRows (op : Op) (db db' : Db) : Prop where
  | same : (∀ row, ¬ op.Holds row) → (∀ holdId decision, ¬ op.Resolves holdId decision) →
      db'.holdRequests = db.holdRequests → HoldRows op db db'
  | inserted (row : HoldRequest) : op.Holds row →
      (∀ holdId decision, ¬ op.Resolves holdId decision) →
      db.holdRequests.insert? row = some db'.holdRequests → HoldRows op db db'
  | decided (row : HoldRequest) (decision : HoldDecision) (now : Nat) :
      (∀ row, ¬ op.Holds row) → op.Resolves row.holdId decision →
      db.holdRequests.find? row.holdId = some row → row.status = .pending →
      db'.holdRequests = db.holdRequests.modify row.holdId
        (EnvelopeStore.resolved decision op.instruction now) (fun _ => rfl) → HoldRows op db db'

/-- What a transaction does to the table of hold requests: only a trigger, a response
and a timeout touch it, and each of them one row. -/
theorem transaction_holdRows {db db' : Db} {v : Val op} (h : transaction op db = .ok (v, db')) :
    HoldRows op db db' := by
  have hidle : (∀ row, ¬ op.Holds row) → (∀ holdId decision, ¬ op.Resolves holdId decision) →
      HoldRows op db db' := by
    intro hholds hresolves
    refine .same hholds hresolves ((transaction_effects h).keep
      (P := fun db' => db'.holdRequests = db.holdRequests) ?_ rfl)
    intro a b hstep ha
    cases hstep with
    | newHold row holds hnew => exact absurd hnew (hholds row)
    | resolveHold row decision instruction now hdecides =>
      exact absurd hdecides (hresolves row.holdId decision)
    | _ => exact ha
  cases op with
  | triggerHold tx =>
    obtain ⟨db₁, events, hashes, holds, hreserve, -, -, hins, rfl⟩ := triggerHold_eq_ok h
    refine .inserted _ rfl (fun _ _ hno => hno) ?_
    show _ = some holds
    rw [← hins, reserveIfPositive_frame hreserve]
  | resolveHold tx =>
    obtain ⟨db₁, db₂, events, hashes, -, hresolve, hsettle, -, rfl⟩ := resolveHold_eq_ok h
    obtain ⟨row, hrow, hpending, rfl⟩ := EnvelopeStore.resolveHoldRequestInTx_eq_ok hresolve
    obtain hkey : row.holdId = tx.holdId := Table.key_of_find? hrow
    rw [← hkey] at hrow
    refine .decided row tx.decision tx.now (fun _ hno => hno) ⟨hkey, rfl⟩ hrow hpending ?_
    rw [hkey]
    exact congrArg Db.holdRequests (settleIf_frame hsettle)
  | expireHold tx =>
    obtain ⟨db₁, db₂, events, hashes, hresolve, hsettle, -, rfl⟩ := expireHold_eq_ok h
    obtain ⟨row, hrow, hpending, rfl⟩ := EnvelopeStore.resolveHoldRequestInTx_eq_ok hresolve
    obtain hkey : row.holdId = tx.holdId := Table.key_of_find? hrow
    rw [← hkey] at hrow
    refine .decided row .timedOut tx.now (fun _ hno => hno) ⟨hkey, rfl⟩ hrow hpending ?_
    rw [hkey]
    exact congrArg Db.holdRequests (settleIf_frame hsettle)
  | _ => exact hidle (fun _ hno => hno) (fun _ _ hno => hno)

/-! ## Each table beside the log -/

/-- The actors that were created: all but the root, which is there from the start. -/
def Db.createdActors (db : Db) : View String ActorRecord :=
  View.only db.actors.find? (· ≠ "root")

/-- The holds that have been decided, each with its row. A decision is an insertion into
this view, though it changes a row in place. -/
def Db.decidedHolds (db : Db) : View String HoldRequest :=
  fun holdId => (db.holdRequests.find? holdId).filter (·.status ≠ .pending)

/-- A log that goes on without an event of the kind: the transaction appended nothing,
or an event of another kind. -/
theorem log_keeps {Q : EventRecord → Prop} {db db' : Db} {v : Val op}
    (h : transaction op db = .ok (v, db'))
    (hquiet : ∀ draft idx, op.Commits draft → ¬ Q (draft.placed idx)) :
    db'.events.rows = db.events.rows ∨
      ∃ e, db'.events.rows = db.events.rows ++ [e] ∧ ¬ Q e := by
  rcases transaction_commits h with hsame | ⟨draft, hcommits, hrows⟩
  · exact .inl (by rw [hsame])
  · exact .inr ⟨_, hrows, hquiet draft _ hcommits⟩

omit [Externals] in
/-- What an actor's row has from its creation it keeps, as lifecycle operations change
only its status and its share. -/
theorem ActorOf.same [Externals] {creatorId : String} {payload : Value} {row row' : ActorRecord}
    (h : ActorOf creatorId payload row) (hsame : SameStanding row row') :
    ActorOf creatorId payload row' where
  creator := hsame.creatorId.trans h.creator
  lineage := hsame.lineage.trans h.lineage
  named := by
    rw [hsame.actorId]
    exact h.named
  actorType := by
    rw [hsame.actorType]
    exact h.actorType
  purpose := hsame.purpose.trans h.purpose
  boundary := by
    rw [hsame.writableTargets]
    exact h.boundary
  policy := hsame.reductionPolicy.trans h.policy

/-- What an envelope's row has from its grant it keeps, whatever is charged to it and
even when it ends. -/
theorem EnvelopeBy.goesOn {event : EventRecord} {row row' : EnvelopeRecord}
    (h : EnvelopeBy event row) (hon : EnvelopeGoesOn row row') : EnvelopeBy event row' := by
  obtain ⟨spec, hspec, hrow⟩ := h
  refine ⟨spec, hspec, ?_⟩
  rw [hon.terms]
  exact congrArg (fun r : EnvelopeRecord =>
    { r with budgetConsumed := row'.budgetConsumed, status := row'.status }) hrow

omit [Externals] in
/-- What a hold's row has from its trigger it keeps, also when it is decided. -/
theorem HoldBy.same [Externals] {event : EventRecord} {row row' : HoldRequest}
    (h : HoldBy event row) (hsame : SameHold row row') : HoldBy event row' where
  target := by
    rw [hsame.holdId]
    exact h.target
  agent := h.agent.trans hsame.agentId.symm
  reserved := h.reserved.trans hsame.reservedCost.symm
  pending := by
    rw [hsame.triggerTarget, hsame.triggerAction, hsame.reservedCost, hsame.pendingPayload]
    exact h.pending

variable {db db' : Db} {v : Val op}

/-- Actors stay accounted for: a commit appends the event and inserts the row, and
every other transaction does neither. Root has no event, which is why the view
leaves it out. -/
theorem transaction_accountsActors (hallowed : allowed past op) (hasks : Asks past op)
    (hroot : (db.actors.find? "root").isSome) (h : transaction op db = .ok (v, db'))
    (hs : Sourced IsActorCreation ActorBy db.events.rows db.createdActors) :
    Sourced IsActorCreation ActorBy db'.events.rows db'.createdActors := by
  cases hcreation : op.creation with
  | none =>
    refine hs.keep SameStanding (((transaction_actors h).imp_new ?_).only _)
      (fun e r r' hsame hby => ActorOf.same hby hsame) (log_keeps h ?_)
    · rintro r ⟨spec, hspec, -⟩
      rw [hcreation] at hspec
      cases hspec
    · intro draft idx hcommits hkind
      obtain ⟨spec, hspec⟩ := (isActorCreation_iff hallowed hasks hcommits).mp hkind
      rw [hcreation] at hspec
      cases hspec
  | some spec =>
    cases op with
    | finalize tx =>
      have hcreate : tx.createActor = some spec := hcreation
      have hkind : IsActorCreation tx.event :=
        (isActorCreation_iff hallowed hasks rfl).mpr ⟨spec, hcreation⟩
      obtain ⟨env, action, artifactHash, hevent, hactor, -⟩ := hasks
      rw [hcreate] at hactor
      rcases finalize_insertsActor h with ⟨hnone, -⟩ | ⟨spec', hspec', hins⟩
      · rw [hcreate] at hnone
        cases hnone
      rw [hcreate] at hspec'
      cases hspec'
      -- the root is there, so it is not the one that is created
      have hnotroot : key spec.row ≠ "root" := by
        intro heq
        have hfresh := (Table.insert?_eq_some hins).1
        rw [heq] at hfresh
        rw [hfresh] at hroot
        cases hroot
      rw [transaction_appends h rfl]
      refine hs.insert_only hins hnotroot hkind ?_
      show ActorOf tx.event.actorId tx.event.payload spec.row
      rw [hevent]
      exact hactor.2
    | _ => cases hcreation

/-- Envelopes stay accounted for. A charge changes a row in place, and so does a lapse,
but not in what the event asks for. -/
theorem transaction_accountsEnvelopes (hallowed : allowed past op) (hasks : Asks past op)
    (hpasses : Passes past op) (h : transaction op db = .ok (v, db'))
    (hs : Sourced IsGrant EnvelopeBy db.events.rows db.envelopes.find?) :
    Sourced IsGrant EnvelopeBy db'.events.rows db'.envelopes.find? := by
  have hcharge : ∀ tx, op = .consumeBudget tx → 0 ≤ tx.amount := by
    rintro tx rfl
    exact (ChargeAllowed.amount_pos hallowed).le
  cases hgrant : op.grant with
  | none =>
    refine hs.keep EnvelopeGoesOn
      ((transaction_envelopes h hcharge hpasses.ended).imp_new ?_)
      (fun e r r' hon hby => EnvelopeBy.goesOn hby hon) (log_keeps h ?_)
    · intro r hr
      rw [hgrant] at hr
      cases hr
    · intro draft idx hcommits hkind
      obtain ⟨row, hrow⟩ := (isGrant_iff hallowed hasks hcommits).mp hkind
      rw [hgrant] at hrow
      cases hrow
  | some row =>
    cases op with
    | finalize tx =>
      have hkind : IsGrant tx.event := (isGrant_iff hallowed hasks rfl).mpr ⟨row, hgrant⟩
      obtain ⟨env, action, artifactHash, hevent, -, henvelope⟩ := hasks
      rcases finalize_insertsEnvelope h with ⟨hnone, -⟩ | ⟨envelopeId, spec, parentId, hcreate, hins⟩
      · rw [show (Op.finalize tx).grant = tx.createEnvelope.map _ from rfl, hnone] at hgrant
        cases hgrant
      rw [hcreate] at henvelope
      rw [transaction_appends h rfl]
      refine hs.insert hins hkind ⟨spec, ?_, rfl⟩
      show parseEnvelopeFields ⟨tx.event.actorId, .create, tx.event.target, tx.event.payload, none⟩
        = .ok spec
      rw [hevent]
      exact henvelope.2
    | _ => cases hgrant

/-- Hold requests stay accounted for, by the trigger that writes the event and the row
together. -/
theorem transaction_accountsHolds (hallowed : allowed past op)
    (h : transaction op db = .ok (v, db'))
    (hs : Sourced IsHoldRequest HoldBy db.events.rows db.holdRequests.find?) :
    Sourced IsHoldRequest HoldBy db'.events.rows db'.holdRequests.find? := by
  have hother : (∀ row, ¬ op.Holds row) → ∀ draft idx, op.Commits draft →
      ¬ IsHoldRequest (draft.placed idx) := by
    intro hholds draft idx hcommits hkind
    obtain ⟨row, hrow⟩ := (isHoldRequest_iff hallowed hcommits).mp hkind
    exact hholds row hrow
  rcases transaction_holdRows h with
    ⟨hholds, -, hsame⟩ | ⟨row, hrow, -, hins⟩ |
      ⟨row, decision, now, hholds, -, hrow, hpending, hset⟩
  · rw [hsame]
    exact hs.keep HoldGoesOn (.refl _)
      (fun e r r' hon hby => HoldBy.same hby hon.same) (log_keeps h (hother hholds))
  · cases op with
    | triggerHold tx =>
      rw [transaction_appends h rfl]
      obtain ⟨env, action, envelope, actor, -⟩ := hallowed
      cases hrow
      have hcost := reservedCost_holdTriggerTx env action envelope (holdTriggerTx env action envelope).now
      refine hs.insert hins rfl ⟨rfl, rfl, hcost.symm, action.payload, ?_, ?_⟩
      · simp [EventRecord.placed, holdTriggerTx, NewHoldRequest.row, Json.get?_object]
      · show reread _ = reread _
        rw [hcost]
        rfl
    | _ => cases hrow
  · rw [hset]
    refine hs.keep HoldGoesOn (.modify (t := db.holdRequests) (k := row.holdId)
      (f := EnvelopeStore.resolved decision op.instruction now) (fun _ => rfl) fun r hr => ?_)
      (fun e r r' hon hby => HoldBy.same hby hon.same) (log_keeps h (hother hholds))
    obtain rfl := Option.some.inj (hrow.symm.trans hr)
    exact ⟨.resolved _ _ _ _, fun hdecided => absurd hpending hdecided⟩

/-- The event of a decision says what is decided, of whose hold request, and with what
instruction. -/
theorem decidedBy_of_resolves (hknown : ∀ d ∈ past, known db d) (hallowed : allowed past op)
    (hcommits : op.Commits draft) {row : HoldRequest} {decision : HoldDecision}
    (hresolves : op.Resolves row.holdId decision) (hrow : db.holdRequests.find? row.holdId = some row)
    (now idx : Nat) :
    DecidedBy (draft.placed idx) (EnvelopeStore.resolved decision op.instruction now row) := by
  cases op with
  | resolveHold tx =>
    obtain ⟨env, humanAction, holdId, decision', instruction', hold, caller, -, -, hsaw, -, -, hne, -⟩ :=
      hallowed
    obtain ⟨hkey, hdecision⟩ := hresolves
    obtain rfl : decision = decision' := hdecision
    obtain ⟨row', hrow', hsame, -⟩ := hknown _ hsaw
    obtain rfl : row.holdId = holdId := hkey
    rw [hrow] at hrow'
    cases hrow'
    cases hcommits
    refine ⟨rfl, ⟨_, rfl, rfl, ?_, ?_⟩, ?_, ?_⟩
    · simp [EventRecord.placed, holdResolveTx, Json.get?_object]
    · exact ⟨fun h => absurd h hne, fun h => absurd (show "hold_response" = "hold_timeout" from h)
        (by decide)⟩
    · show (holdResolveTx env humanAction _ _ _ hold).event.payload.get? "agent_id" =
        some (.str row.agentId)
      rw [hsame.agentId]
      simp [holdResolveTx, Json.get?_object]
    · have hfield : (holdResolveTx env humanAction row.holdId decision instruction' hold).event.payload.get?
          "instruction" = some ((instruction'.map Value.str).getD .null) := by
        simp [holdResolveTx, Json.get?_object]
      show instruction' = ((holdResolveTx env humanAction _ _ _ hold).event.payload.get?
        "instruction").bind Value.asStr?
      rw [hfield]
      cases instruction' <;> rfl
  | expireHold tx =>
    obtain ⟨env, round, hold, envelopeId, holds, hsaw, hmem, -⟩ := hallowed
    obtain ⟨hkey, rfl⟩ := hresolves
    obtain ⟨row', hrow', hsame, -⟩ := hknown _ hsaw hold hmem
    obtain hkey : row.holdId = hold.holdId := hkey
    rw [← hkey, hrow] at hrow'
    cases hrow'
    cases hcommits
    refine ⟨?_, ⟨_, rfl, rfl, ?_, ?_⟩, ?_, ?_⟩
    · show s!"ledger/hold/{hold.holdId}" = s!"ledger/hold/{row.holdId}"
      rw [hkey]
    · simp [EventRecord.placed, expireTx, Json.get?_object, HoldDecision.asStr]
    · exact ⟨fun _ => rfl, fun _ => rfl⟩
    · show (expireTx env round hold).event.payload.get? "agent_id" = some (.str row.agentId)
      rw [hsame.agentId]
      simp [expireTx, Json.get?_object]
    · show none = ((expireTx env round hold).event.payload.get? "instruction").bind Value.asStr?
      simp [expireTx, Json.get?_object]
  | _ => cases hresolves

/-- A decision is logged in the transaction that makes it. -/
theorem resolves_commits (h : transaction op db = .ok (v, db')) {holdId : String}
    {decision : HoldDecision} (hresolves : op.Resolves holdId decision) :
    ∃ draft, op.Commits draft ∧
      db'.events.rows = db.events.rows ++ [draft.placed (nextIdx db)] := by
  cases op with
  | resolveHold tx => exact ⟨_, rfl, transaction_appends h rfl⟩
  | expireHold tx => exact ⟨_, rfl, transaction_appends h rfl⟩
  | _ => cases hresolves

omit [Externals] in
/-- A hold is pending when it is written. -/
theorem Op.Holds.pending [Externals] {row : HoldRequest} (h : op.Holds row) :
    row.status = .pending := by
  cases op with
  | triggerHold tx =>
    cases h
    rfl
  | _ => cases h

/-- Decisions stay accounted for. A hold leaves pending only once, so no later event can
be about the same decision. -/
theorem transaction_accountsDecisions (hknown : ∀ d ∈ past, known db d) (hallowed : allowed past op)
    (h : transaction op db = .ok (v, db'))
    (hs : Sourced IsDecision DecidedBy db.events.rows db.decidedHolds) :
    Sourced IsDecision DecidedBy db'.events.rows db'.decidedHolds := by
  have hother : (∀ holdId decision, ¬ op.Resolves holdId decision) → ∀ draft idx,
      op.Commits draft → ¬ IsDecision (draft.placed idx) := by
    intro hresolves draft idx hcommits hkind
    obtain ⟨holdId, decision, hdecides⟩ := (isDecision_iff hallowed hcommits).mp hkind
    exact hresolves holdId decision hdecides
  rcases transaction_holdRows h with
    ⟨-, hresolves, hsame⟩ | ⟨row, hrow, hresolves, hins⟩ |
      ⟨row, decision, now, -, hdecides, hrow, hpending, hset⟩
  · have hview : db'.decidedHolds = db.decidedHolds := by
      unfold Db.decidedHolds
      rw [hsame]
    rw [hview]
    exact hs.keep Eq (.refl _) (fun _ _ _ heq => heq ▸ id)
      (log_keeps h (hother hresolves))
  · -- a hold request comes undecided
    have hview : db'.decidedHolds = db.decidedHolds := by
      obtain ⟨hfresh, -⟩ := Table.insert?_eq_some hins
      funext holdId
      unfold Db.decidedHolds
      rw [Table.find?_insert hins]
      split
      · next hkey =>
        rw [← hkey, hfresh]
        exact Option.filter_some_neg (by rw [hrow.pending]; decide)
      · rfl
    rw [hview]
    exact hs.keep Eq (.refl _) (fun _ _ _ heq => heq ▸ id)
      (log_keeps h (hother hresolves))
  · obtain ⟨draft, hcommits, hrows⟩ := resolves_commits h hdecides
    have hfind := EnvelopeStore.find?_resolved hrow decision op.instruction now
    rw [hrows]
    refine hs.grow (k := row.holdId) ((isDecision_iff hallowed hcommits).mpr ⟨_, _, hdecides⟩)
      (decidedBy_of_resolves hknown hallowed hcommits hdecides hrow now _) ?_ ?_ ?_
    · unfold Db.decidedHolds
      rw [hrow]
      exact Option.filter_some_neg (by simp [hpending])
    · unfold Db.decidedHolds
      rw [hset, hfind]
      exact Option.filter_some_pos (by cases decision <;> rfl)
    · intro holdId hne
      have hkept := Table.find?_modify db.holdRequests row.holdId holdId
        (EnvelopeStore.resolved decision op.instruction now) (fun _ => rfl)
      rw [if_neg hne] at hkept
      unfold Db.decidedHolds
      rw [hset, hkept]

/-! ## Along every run -/

/-- Each response in the log is of an actor that is there, and a human. -/
def HumansDecide (db : Db) : Prop :=
  ∀ event ∈ db.events.rows, event.actionType = "hold_response" →
    ∃ actor, db.actors.find? event.actorId = some actor ∧ actor.actorType = .human

/-- The log accounts for the rows that carry authority: actors but root, envelopes, hold
requests and decisions, each by the events of its kind. -/
structure LogAccounts (db : Db) : Prop where
  actors : Sourced IsActorCreation ActorBy db.events.rows db.createdActors
  envelopes : Sourced IsGrant EnvelopeBy db.events.rows db.envelopes.find?
  holds : Sourced IsHoldRequest HoldBy db.events.rows db.holdRequests.find?
  decisions : Sourced IsDecision DecidedBy db.events.rows db.decidedHolds
  humans : HumansDecide db

/-- A fresh kernel has no event and none of these rows. -/
theorem logAccounts_genesis : LogAccounts StateStore.genesis where
  actors := by
    have hview : StateStore.genesis.createdActors = fun _ => none := by
      funext actorId
      by_cases hroot : actorId = "root"
      · exact View.only_of_neg (not_not.mpr hroot)
      · refine (View.only_of_pos (p := (· ≠ "root")) hroot).trans ?_
        show List.find? (fun r : ActorRecord => r.actorId = actorId) [StateStore.rootActor] = none
        exact List.find?_cons_of_neg (by rw [decide_eq_true_eq]; exact Ne.symm hroot)
    rw [hview]
    exact .nil
  envelopes := .nil
  holds := .nil
  decisions := .nil
  humans _ hmem := nomatch hmem

/-- A response that goes through is by a human: the request has read the row, and the
type of an actor never changes. -/
theorem transaction_humansDecide (hknown : ∀ d ∈ past, known db d) (hallowed : allowed past op)
    (h : transaction op db = .ok (v, db')) (hlater : Later db db') (hs : HumansDecide db) :
    HumansDecide db' := by
  have hkept : ∀ {actorId : String},
      (∃ actor, db.actors.find? actorId = some actor ∧ actor.actorType = .human) →
      ∃ actor, db'.actors.find? actorId = some actor ∧ actor.actorType = .human := by
    rintro actorId ⟨actor, hfind, htype⟩
    obtain ⟨actor', hfind', htype'⟩ := hlater.actors actorId actor hfind
    exact ⟨actor', hfind', htype'.trans htype⟩
  intro event hmem htype
  rcases transaction_commits h with hsame | ⟨draft, hcommits, hrows⟩
  · rw [hsame] at hmem
    exact hkept (hs event hmem htype)
  rw [hrows] at hmem
  rcases List.mem_append.mp hmem with hmem | hmem
  · exact hkept (hs event hmem htype)
  obtain rfl := List.mem_singleton.mp hmem
  cases op with
  | finalize tx =>
    obtain ⟨env, action, artifactHash, hevent, -⟩ := hallowed
    cases hcommits
    have hbad : tx.event.actionType = "hold_response" := htype
    rw [hevent] at hbad
    exact absurd hbad action.actionType.asStr_ne_hold.2.1
  | triggerHold tx =>
    obtain ⟨⟩ := hallowed
    cases hcommits
    exact absurd (show "hold_request" = "hold_response" from htype) (by decide)
  | resolveHold tx =>
    obtain ⟨env, humanAction, holdId, decision, instruction, hold, caller, hcaller, hhuman, -⟩ :=
      hallowed
    cases hcommits
    obtain ⟨actor, hfind, hsame⟩ := hknown _ hcaller
    exact hkept ⟨actor, hfind, hsame.trans hhuman⟩
  | expireHold tx =>
    obtain ⟨⟩ := hallowed
    cases hcommits
    exact absurd (show "hold_timeout" = "hold_response" from htype) (by decide)
  | _ => exact hcommits.elim

/-- What one operation preserves, in all four tables at once, given what the past of the
request allows and knows. -/
theorem exec_logAccounts (hknown : ∀ d ∈ past, known db d) (hallowed : allowed past op)
    (hpasses : Passes past op) (hasks : Asks past op) (hroot : (db.actors.find? "root").isSome)
    (haccounted : LogAccounts db) : LogAccounts (exec op db).2 := by
  rcases exec_cases op db with ⟨v, db', htx, hexec⟩ | ⟨e, -, hexec⟩
  · have hlater := exec_later op db
    rw [hexec] at hlater ⊢
    exact
      { actors := transaction_accountsActors hallowed hasks hroot htx haccounted.actors
        envelopes := transaction_accountsEnvelopes hallowed hasks hpasses htx haccounted.envelopes
        holds := transaction_accountsHolds hallowed htx haccounted.holds
        decisions := transaction_accountsDecisions hknown hallowed htx haccounted.decisions
        humans := transaction_humansDecide hknown hallowed htx hlater haccounted.humans }
  · rw [hexec]
    exact haccounted

/-- **The log accounts for the tables.** In every state of every run the actors, the
envelopes, the hold requests and the decisions correspond one to one with the events of
their kind, and each row is as its event asks for. -/
theorem run_accounted {tr : List KernelTransition} {pool : KernelPool} (h : KernelRun tr pool) :
    LogAccounts pool.store := by
  refine kernelContract.invariant (P := fun _ pool => LogAccounts pool.store) (G := fun _ => True)
    logAccounts_genesis ?_ h (fun _ _ _ _ _ => trivial) (fun _ _ => trivial)
  intro tr pool l pool' hr hs hinv hkeeps _ haccounted
  cases hs with
  | act store before after id op k past =>
    have hmem : (⟨id, .vis op k, past⟩ : Task KernelSig (KernelResult Outcome)) ∈
        before ++ ⟨id, .vis op k, past⟩ :: after := by simp
    obtain ⟨-, hvets⟩ := mediationContract.run hr (fun _ _ _ _ _ => trivial)
    have hkeep := hkeeps _ hmem
    exact exec_logAccounts hkeep.known hkeep.honors.1 (hvets _ hmem).honors.1
      (KernelRun.mindful asks_of_keepsCommitted commitAction_asks hr hmem) hinv.1.actor haccounted
  | restart store store' tasks hboot =>
    rw [bootstrap_eq hinv.1 hboot]
    exact haccounted
  | _ => exact haccounted

omit [Externals] in
/-- A held change and its approval: an actor, a grant, a hold request, its decision and the
change itself. -/
theorem accounted_holdApprovedByRoot :
    letI := reference
    (kernelPlayed holdApprovedByRoot).pool.store.events.rows.map (·.actionType) =
        ["create", "create", "hold_request", "hold_response", "mutate"] ∧
      LogAccounts (kernelPlayed holdApprovedByRoot).pool.store := by
  refine ⟨?_, @run_accounted reference _ _ (kernelRun_played holdApprovedByRoot)⟩
  rw [kernelPlayed_eq]
  decide +kernel

end PunkgoKernel
