import PunkgoKernel.Laws.Approval

/-!
# The action an approval hands back

A hold trigger writes the action into the hold request: its target, its type and
its payload, as JSON text. An approval reads the request, puts the sentinels into
the payload and hands the action back to the pipeline. Every approval a run comes
to does so with the row its trigger wrote (`KernelRun.handedBack`), since a hold
request keeps these fields whatever else happens to it.

The actor, the target and the type come back as they were. The payload does if it
is an object, up to floats that the JSON reader takes for others; a payload that
is no object has no place for the sentinels and is dropped
(`run_reexecutes_iff`).
-/

namespace PunkgoKernel

open Json (Value)
open Relational (Table key)
open Resumption

/-- The keys an approval writes into a payload. -/
def approvalKeys : List String := ["_hold_approved", "_hold_reserved_cost", "_hold_instruction"]

/-- The second payload is the first, an object, with the keys of an approval
added or overwritten. -/
def OnlyMarked (payload payload' : Value) : Prop :=
  ∃ fields fields', payload = .obj fields ∧ payload' = .obj fields' ∧
    ∀ k, k ∉ approvalKeys → (Value.obj fields').get? k = (Value.obj fields).get? k

/-- The second action is the first, but for the keys of an approval. -/
structure Reexecutes (action action' : Action) : Prop where
  actorId : action'.actorId = action.actorId
  actionType : action'.actionType = action.actionType
  target : action'.target = action.target
  payload : OnlyMarked action.payload action'.payload

/-! ## The payload of an approval -/

/-- An approval leaves the other fields of the payload it is given alone; one
that is no object has none. -/
theorem get?_approvedPayload (payload : Value) (cost : Int) (instruction : Option String)
    {k : String} (hk : k ∉ approvalKeys) :
    (approvedPayload payload cost instruction).get? k = payload.get? k := by
  simp only [approvalKeys, List.mem_cons, List.not_mem_nil, or_false, not_or] at hk
  obtain ⟨happroved, hcost, hinstruction⟩ := hk
  have hfields : ∀ fields : List (String × Value),
      (Value.obj (Json.putField "_hold_reserved_cost" (.num (.int cost))
        (Json.putField "_hold_approved" (.bool true) fields))).get? k =
        (Value.obj fields).get? k := by
    intro fields
    rw [Json.get?_putField, if_neg (Ne.symm hcost), Json.get?_putField,
      if_neg (Ne.symm happroved)]
  have hmarked : ∀ fields : List (String × Value),
      (approvedPayload (.obj fields) cost instruction).get? k = (Value.obj fields).get? k := by
    intro fields
    unfold approvedPayload
    cases instruction with
    | none => exact hfields fields
    | some text =>
      simp only
      rw [Json.get?_putField, if_neg (Ne.symm hinstruction)]
      exact hfields fields
  -- a payload that is no object is replaced by an empty one
  cases payload with
  | obj fields => exact hmarked fields
  | _ => exact hmarked []

/-- Two states of one hold request have the same pending action. -/
theorem SameHold.pendingAction {hold hold' : HoldRequest} (h : SameHold hold hold')
    (instruction : Option String) : pendingAction hold' instruction = pendingAction hold instruction := by
  unfold PunkgoKernel.pendingAction HoldRequest.reservedCost
  rw [h.pendingPayload, h.agentId, h.triggerTarget, h.triggerAction]

variable [Externals]

/-- The pending action of the row of a trigger. -/
theorem pendingAction_holdTriggerTx (env : Env) {action : Action} (envelope : EnvelopeRecord)
    (hchanges : action.actionType.isStateChanging = true) (now : Nat)
    (instruction : Option String) {pending : Action}
    (hpending : pending =
      pendingAction ((holdTriggerTx env action envelope).request.row now) instruction) :
    pending.actorId = action.actorId ∧ pending.actionType = action.actionType ∧
      pending.target = action.target ∧
      pending.payload = approvedPayload (reread action.payload) (quoteCost action) instruction := by
  subst hpending
  have hwf := wellFormed_holdTriggerTx env envelope hchanges now
  refine ⟨rfl, ?_, (hwf.pendingAction instruction).1, ?_⟩
  · refine Eq.trans ?_ (pendingActionType_asStr hchanges)
    simp [pendingAction, holdTriggerTx, NewHoldRequest.row, Json.get?_object, reread,
      Json.Value.asStr?]
  · show approvedPayload _ (HoldRequest.reservedCost _) instruction = _
    rw [reservedCost_holdTriggerTx env action envelope now]
    simp [holdTriggerTx, NewHoldRequest.row, Json.get?_object]

/-- Marking a payload that was written out and read back only marks it, exactly
if it is an object and its other fields survive. -/
theorem onlyMarked_approvedPayload_iff (payload : Value) (cost : Int)
    (instruction : Option String) :
    OnlyMarked payload (approvedPayload (reread payload) cost instruction) ↔
      (∃ fields, payload = .obj fields) ∧
        ∀ k v, k ∉ approvalKeys → payload.get? k = some v → reread v = v := by
  have hkept : ∀ k, k ∉ approvalKeys →
      (approvedPayload (reread payload) cost instruction).get? k =
        (payload.get? k).map reread := by
    intro k hk
    rw [get?_approvedPayload _ _ _ hk, get?_reread]
  constructor
  · rintro ⟨fields, fields', rfl, hmarked, hsame⟩
    refine ⟨⟨fields, rfl⟩, ?_⟩
    intro k v hk hv
    have hfield := hsame k hk
    rw [← hmarked, hkept k hk, hv] at hfield
    exact Option.some.inj hfield
  · rintro ⟨⟨fields, rfl⟩, hsurvives⟩
    refine ⟨fields, _, rfl, rfl, ?_⟩
    intro k hk
    refine (hkept k hk).trans ?_
    cases hv : (Value.obj fields).get? k with
    | none => rfl
    | some v => exact congrArg some (hsurvives k v hk hv)

/-! ## What a response hands back -/

/-- The request has just approved a hold it had read, and this is the hold's
pending action. -/
def HandedBack (past : Past) (action : Action) : Prop :=
  ∃ env humanAction holdId instruction hold x older,
    past = ⟨.resolveHold (holdResolveTx env humanAction holdId .approve instruction hold), .ok x⟩ ::
      older ∧
    Saw older (.getHoldRequest holdId) (some hold) ∧ action = pendingAction hold instruction

/-- What is handed back by an answer was just approved. -/
def Hands (past : Past) : KernelResult Outcome → Prop
  | .ok (.resubmit _ action) => HandedBack past action
  | _ => True

def HandsBack (p : KernelProg Outcome) (past : Past) : Prop :=
  Attempt.Honors (fun _ _ => True) (fun _ _ => True) Hands p past

/-- Whatever comes first, only what ends a program hands anything back. -/
theorem handsBack_bind {α : Type} {p : KernelProg α} {f : α → KernelProg Outcome} {past : Past}
    (hf : ∀ past' a, past <:+ past' → HandsBack (f a) past') : HandsBack (p >>= f) past := by
  have hhonors : Attempt.Honors (fun _ _ => True) (fun _ _ => True)
      (fun past' _ => past <:+ past') p past :=
    Prog.Uses.honors (uses_any p) (fun _ _ _ => trivial) past
  refine Attempt.Honors.bind (Prog.Honors.mono hhonors ?_)
  rintro past' (e | a) hpast
  · trivial
  · exact hf past' a hpast

theorem handsBack_pure {outcome : Outcome} (h : ∀ envs action, outcome ≠ .resubmit envs action)
    (past : Past) : HandsBack (pure outcome) past := by
  show Hands past (.ok outcome)
  cases outcome with
  | resubmit envs action => exact absurd rfl (h envs action)
  | _ => trivial

theorem executeHoldResponse_handsBack (envs : Nat → Env) (humanAction : Action) (holdId : String)
    (decision : HoldDecision) (instruction : Option String) (past : Past) :
    HandsBack (executeHoldResponse envs humanAction holdId decision instruction) past := by
  unfold executeHoldResponse
  refine handsBack_bind fun past₁ caller _ => handsBack_bind fun past₂ _ _ => ?_
  unfold findHold
  refine ⟨trivial, ?_⟩
  rintro (e | (found : Option HoldRequest)) -
  · trivial
  cases found with
  | none => trivial
  | some hold =>
    show HandsBack (check (requirePending hold holdId) >>= _) _
    refine handsBack_bind fun past₃ _ hpast₃ => handsBack_bind fun past₄ _ hpast₄ => ?_
    refine ⟨trivial, ?_⟩
    rintro (e | ⟨event, commitment⟩) -
    · trivial
    have hsaw : Saw past₄ (.getHoldRequest holdId) (some hold) :=
      (hpast₃.trans hpast₄).subset List.mem_cons_self
    show HandsBack (if decision = .approve then _ else _) _
    split
    · next happrove =>
      subst happrove
      exact ⟨envs 0, humanAction, holdId, instruction, hold, _, past₄, rfl, hsaw, rfl⟩
    · exact handsBack_pure (fun _ _ => by simp) _

theorem submitAction_handsBack (envs : Nat → Env) (action : Action) (past : Past) :
    HandsBack (submitAction envs action) past := by
  unfold submitAction
  refine handsBack_bind fun past₁ _ _ => handsBack_bind fun past₂ _ _ => ?_
  refine handsBack_bind fun past₃ authorisedBy _ => ?_
  split
  · exact executeHoldResponse_handsBack envs action _ _ _ past₃
  · unfold commitAction
    refine handsBack_bind fun _ _ _ => handsBack_bind fun _ _ _ => handsBack_bind fun _ _ _ => ?_
    refine handsBack_bind fun _ quoted _ => handsBack_bind fun _ _ _ => ?_
    refine handsBack_bind fun _ event _ => handsBack_bind fun _ _ _ => ?_
    refine handsBack_bind fun _ _ _ => handsBack_bind fun _ _ _ => ?_
    exact handsBack_pure (fun _ _ => by simp) _

theorem program_handsBack (r : Request) : HandsBack (program r) [] := by
  cases r with
  | submit envs action => exact submitAction_handsBack envs action []
  | quote action => exact handsBack_bind fun past _ _ => handsBack_pure (fun _ _ => by simp) past
  | auditCheckpoint now =>
    refine handsBack_bind fun _ _ _ => handsBack_bind fun _ _ _ => handsBack_bind fun past _ _ => ?_
    exact handsBack_pure (fun _ _ => by simp) past
  | snapshot now =>
    refine handsBack_bind fun _ _ _ => handsBack_bind fun _ _ _ => handsBack_bind fun past _ _ => ?_
    exact handsBack_pure (fun _ _ => by simp) past
  | auditInclusionProof logIndex treeSize now =>
    cases logIndex with
    | none => trivial
    | some logIndex =>
      refine handsBack_bind fun _ _ _ => handsBack_bind fun past _ _ => ?_
      exact handsBack_pure (fun _ _ => by simp) past
  | tick energyPerTick =>
    refine handsBack_bind fun past (actors : List (String × ℚ)) _ => ?_
    split
    · exact handsBack_pure (fun _ _ => by simp) past
    · refine handsBack_bind fun past' _ _ => ?_
      exact handsBack_pure (fun _ _ => by simp) past'

/-- What requests hand back, whatever the database answers. -/
def handsContract : Contract kernelSystem StateStore.genesis where
  inv _ := True
  known _ _ := True
  allowed _ _ := True
  answers _ _ := True
  returns := Hands
  admits _ := True
  start := trivial
  exec _ _ _ _ _ _ := ⟨trivial, trivial, trivial, fun _ _ => trivial⟩
  fault _ _ _ _ := ⟨trivial, trivial⟩
  reboot _ _ _ _ := trivial
  spawn r _ := program_handsBack r
  again := by
    intro past answer p _ hagain
    cases answer with
    | error e => cases hagain
    | ok outcome =>
      cases outcome with
      | resubmit envs action =>
        cases hagain
        exact submitAction_handsBack envs action past
      | _ => cases hagain

/-- Every hold that was triggered is there as it was written. -/
theorem KernelRun.triggered {tr : List KernelTransition} {pool : KernelPool}
    (h : KernelRun tr pool) {t : KernelTransition} (ht : t ∈ tr) {id : Nat} {tx : HoldTriggerTx}
    {event : EventRecord} (hlabel : t.label = .act id ⟨.triggerHold tx, .ok event⟩) :
    HoldLasts pool.store tx.request.holdId (tx.request.row tx.now) := by
  revert t id tx event
  refine kernelContract.invariant (P := fun tr pool => ∀ {t}, t ∈ tr → ∀ {id tx event},
      t.label = .act id ⟨.triggerHold tx, .ok event⟩ →
      HoldLasts pool.store tx.request.holdId (tx.request.row tx.now))
    (G := fun _ => True) (fun h => by cases h) ?_ h (fun _ _ _ _ _ => trivial)
    (fun _ _ => trivial)
  intro tr pool l pool' hr hs hinv _ _ hP t ht id tx event hlabel
  have hrun : KernelRun (⟨pool, l⟩ :: tr) pool' := .step hr hs
  rcases List.mem_cons.mp ht with rfl | ht
  · -- the trigger itself
    obtain rfl : l = .act id ⟨.triggerHold tx, .ok event⟩ := hlabel
    obtain ⟨-, hanswer, hstore⟩ := hs.act_inv
    have hok : (exec (.triggerHold tx) pool.store).1 = .ok event :=
      (eq_of_heq (Performed.mk.inj hanswer).2).symm
    rcases exec_cases (.triggerHold tx) pool.store with ⟨v, db', htx, hexec⟩ | ⟨e, -, hexec⟩
    · obtain ⟨db₁, events, hashes, holds, -, -, -, hins, rfl⟩ := triggerHold_eq_ok htx
      refine ⟨tx.request.row tx.now, ?_, .refl _, fun _ => rfl⟩
      rw [show pool'.store = _ from hstore, show kernelSystem.handler.exec _ _ = _ from hexec]
      exact (Table.find?_insert hins _).trans (if_pos rfl)
    · rw [hexec] at hok
      cases hok
  · exact (hP ht hlabel).later (KernelRun.later hrun _ List.mem_cons_self)

/-- What an approval hands back is the pending action of the row as it was
written. -/
theorem KernelRun.handedBack {tr : List KernelTransition} {pool : KernelPool}
    (h : KernelRun tr pool) {id : Nat} {envs : Nat → Env} {action : Action} {past : Past}
    (hmem : (⟨id, .ret (.ok (.resubmit envs action)), past⟩ : Task KernelSig (KernelResult Outcome)) ∈
      pool.tasks) :
    ∃ env humanAction holdId instruction hold row x older,
      past = ⟨.resolveHold (holdResolveTx env humanAction holdId .approve instruction hold),
        .ok x⟩ :: older ∧
      pool.store.holdRequests.find? holdId = some row ∧ action = pendingAction row instruction := by
  obtain ⟨env, humanAction, holdId, instruction, hold, x, older, rfl, hsaw, rfl⟩ :=
    ((handsContract.run h (fun _ _ _ _ _ => trivial)).2 _ hmem).honors
  have hknown := ((KernelRun.keeps h).2 _ hmem).known _ (List.mem_cons_of_mem _ hsaw)
  obtain ⟨row, hrow, hsame, -⟩ : HoldLasts pool.store holdId hold := hknown
  exact ⟨env, humanAction, holdId, instruction, hold, row, x, older, rfl, hrow,
    (hsame.pendingAction instruction).symm⟩

/-- A trigger in a run is one the protocol allows. -/
theorem KernelRun.trigger_allowed {tr : List KernelTransition} {pool : KernelPool}
    (h : KernelRun tr pool) {t : KernelTransition} (ht : t ∈ tr) {id : Nat} {tx : HoldTriggerTx}
    {event : EventRecord} (hlabel : t.label = .act id ⟨.triggerHold tx, .ok event⟩) :
    ∃ past, TriggerAllowed past tx := by
  obtain ⟨newer, older, rfl⟩ := List.append_of_mem ht
  obtain ⟨hr, pool', hs⟩ := Run.upTo h
  rw [hlabel] at hs
  obtain ⟨⟨k, past, hmem⟩, -, -⟩ := hs.act_inv
  exact ⟨past, ((KernelRun.keeps hr).2 _ hmem).honors.1⟩

/-- Only a change triggers a hold. -/
theorem KernelRun.trigger_changes {tr : List KernelTransition} {pool : KernelPool}
    (h : KernelRun tr pool) {t : KernelTransition} (ht : t ∈ tr) {id : Nat} {env : Env}
    {action : Action} {envelope : EnvelopeRecord} {event : EventRecord}
    (hlabel : t.label = .act id ⟨.triggerHold (holdTriggerTx env action envelope), .ok event⟩) :
    action.actionType.isStateChanging = true := by
  obtain ⟨past, hallowed⟩ := KernelRun.trigger_allowed h ht hlabel
  generalize htx : holdTriggerTx env action envelope = tx at hallowed
  obtain ⟨env', action', envelope', actor, hchanges, -, -, -, -⟩ := hallowed
  have htext : action.actionType.asStr = action'.actionType.asStr :=
    congrArg (fun tx : HoldTriggerTx => tx.request.triggerAction) htx
  cases htype : action.actionType with
  | observe =>
    rw [htype] at htext
    cases htype' : action'.actionType with
    | observe =>
      rw [htype'] at hchanges
      cases hchanges
    | _ =>
      rw [htype'] at htext
      exact absurd htext (by decide)
  | _ => rfl

/-- Whatever happens between the trigger of a hold and its approval: the action
handed back is the one held, up to the keys of the approval, exactly if the
payload is an object whose other fields survive being written out and read
back. -/
theorem run_reexecutes_iff {tr : List KernelTransition} {pool : KernelPool} (h : KernelRun tr pool)
    {t : KernelTransition} (ht : t ∈ tr) {id : Nat} {env : Env} {action : Action}
    {envelope : EnvelopeRecord} {event : EventRecord}
    (hlabel : t.label = .act id ⟨.triggerHold (holdTriggerTx env action envelope), .ok event⟩)
    {id' : Nat} {envs : Nat → Env} {action' : Action} {rtx : HoldResolveTx}
    {x : KernelResult (EventRecord × Int)} {older : Past}
    (hmem : (⟨id', .ret (.ok (.resubmit envs action')), ⟨.resolveHold rtx, x⟩ :: older⟩ :
      Task KernelSig (KernelResult Outcome)) ∈ pool.tasks)
    (hhold : rtx.holdId = env.uuid .holdId) :
    Reexecutes action action' ↔ (∃ fields, action.payload = .obj fields) ∧
      ∀ k v, k ∉ approvalKeys → action.payload.get? k = some v → reread v = v := by
  have hchanges := KernelRun.trigger_changes h ht hlabel
  obtain ⟨row, hrow, hsame, -⟩ := KernelRun.triggered h ht hlabel
  obtain ⟨env', humanAction, holdId, instruction, hold, row', y, older', hpast, hrow', haction⟩ :=
    KernelRun.handedBack h hmem
  obtain ⟨hresolved, -⟩ := List.cons.inj hpast
  obtain rfl : rtx = holdResolveTx env' humanAction holdId .approve instruction hold :=
    Op.resolveHold.inj (Performed.mk.inj hresolved).1
  -- the approved hold is the one that was triggered
  have hid : holdId = (holdTriggerTx env action envelope).request.holdId := hhold
  subst hid
  obtain rfl := Option.some.inj (hrow.symm.trans hrow')
  rw [hsame.pendingAction] at haction
  obtain ⟨hactor, htype, htarget, hpayload⟩ :=
    pendingAction_holdTriggerTx env envelope hchanges _ instruction haction
  rw [← onlyMarked_approvedPayload_iff action.payload (quoteCost action) instruction, ← hpayload]
  exact ⟨fun hre => hre.payload, fun hmarked => ⟨hactor, htype, htarget, hmarked⟩⟩

/-! ## A note in a field, and a note alone -/

/-- Whether the step triggers the hold for this payload. -/
def triggersWith (holdId : String) (payload : Value) (t : KernelTransition) : Bool :=
  match t.label with
  | .act _ ⟨.triggerHold tx, .ok _⟩ =>
    decide (tx.request.holdId = holdId) &&
      decide (tx.request.pendingPayload.get? "payload" = some payload)
  | _ => false

theorem triggersWith_sound {tr : List KernelTransition} {pool : KernelPool} (h : KernelRun tr pool)
    {holdId : String} {payload : Value} (hany : tr.any (triggersWith holdId payload) = true) :
    ∃ t ∈ tr, ∃ id env action envelope event,
      t.label = .act id ⟨.triggerHold (holdTriggerTx env action envelope), .ok event⟩ ∧
      env.uuid .holdId = holdId ∧ action.payload = payload := by
  obtain ⟨t, ht, htriggers⟩ := List.any_eq_true.mp hany
  unfold triggersWith at htriggers
  split at htriggers
  · next id tx event hlabel =>
    obtain ⟨hid, hpayload⟩ := Bool.and_eq_true _ _ ▸ htriggers
    obtain ⟨past, hallowed⟩ := KernelRun.trigger_allowed h ht hlabel
    obtain ⟨env, action, envelope, actor, -, -, -, -, -⟩ := hallowed
    refine ⟨t, ht, id, env, action, envelope, event, hlabel, of_decide_eq_true hid, ?_⟩
    have hkept : (holdTriggerTx env action envelope).request.pendingPayload.get? "payload" =
        some action.payload := by
      simp [holdTriggerTx, Json.get?_object]
    exact Option.some.inj (hkept.symm.trans (of_decide_eq_true hpayload))
  · cases htriggers

/-- Whether the request hands back the action of the hold. -/
def handsBackHold (holdId : String) (task : Task KernelSig (KernelResult Outcome)) : Bool :=
  match task.prog, task.past with
  | .ret (.ok (.resubmit _ _)), ⟨.resolveHold tx, _⟩ :: _ => decide (tx.holdId = holdId)
  | _, _ => false

omit [Externals] in
theorem handsBackHold_sound {tasks : List (Task KernelSig (KernelResult Outcome))} {holdId : String}
    (hany : tasks.any (handsBackHold holdId) = true) :
    ∃ id envs action tx x older,
      (⟨id, .ret (.ok (.resubmit envs action)), ⟨.resolveHold tx, x⟩ :: older⟩ :
        Task KernelSig (KernelResult Outcome)) ∈ tasks ∧ tx.holdId = holdId := by
  obtain ⟨⟨id, prog, past⟩, hmem, hhands⟩ := List.any_eq_true.mp hany
  unfold handsBackHold at hhands
  split at hhands
  · next envs action tx x older hprog hpast =>
    obtain rfl : prog = .ret (.ok (.resubmit envs action)) := hprog
    obtain rfl : past = ⟨.resolveHold tx, x⟩ :: older := hpast
    exact ⟨id, envs, action, tx, x, older, hmem, of_decide_eq_true hhands⟩
  · cases hhands

/-- A change with this payload is put on hold, and root has just approved it. -/
def approvedWith (payload : Value) : List (Turn Request) :=
  alone 30 (createAgent 0 "agent-1" 500) ++
    alone 30 (grantEnvelope 1 "agent-1" 100 [holdMutates]) ++
    alone 30 (submitAt 2 "agent-1" .mutate "workspace/a" payload) ++
    .spawn 0 (submitAt 3 "root" .mutate "ledger/hold/hold-2"
      (.obj [("decision", .str "approve")])) :: List.replicate 7 (.go 0)

omit [Externals] in
/-- A note in a field of the payload comes back with the action when its hold is
approved. -/
theorem approvedWith_object :
    letI := reference
    ∃ action action', action.payload = .obj [("note", .str "tidy up")] ∧
      (∃ task ∈ (kernelPlayed (approvedWith (.obj [("note", .str "tidy up")]))).pool.tasks,
        ∃ envs, task.prog = .ret (.ok (.resubmit envs action'))) ∧
      Reexecutes action action' := by
  have hplayed : (kernelPlayed (approvedWith (.obj [("note", .str "tidy up")]))).trace.any
        (triggersWith "hold-2" (.obj [("note", .str "tidy up")])) = true ∧
      (kernelPlayed (approvedWith (.obj [("note", .str "tidy up")]))).pool.tasks.any
        (handsBackHold "hold-2") = true := by
    rw [kernelPlayed_eq]
    decide +kernel
  obtain ⟨htriggers, hhands⟩ := hplayed
  obtain ⟨t, ht, id, env, action, envelope, event, hlabel, hid, hpayload⟩ :=
    @triggersWith_sound reference _ _ (kernelRun_played _) _ _ htriggers
  obtain ⟨id', envs, action', tx, x, older, hmem, hhold⟩ := handsBackHold_sound hhands
  refine ⟨action, action', hpayload, ⟨_, hmem, envs, rfl⟩, ?_⟩
  refine (@run_reexecutes_iff reference _ _ (kernelRun_played _) _ ht _ _ _ _ _ hlabel _ _ _ _ _ _
    hmem (hhold.trans hid.symm)).mpr ⟨⟨_, hpayload⟩, ?_⟩
  intro k v _ hv
  rw [hpayload] at hv
  obtain ⟨field, hfind, rfl⟩ := Option.map_eq_some_iff.mp hv
  obtain rfl := List.mem_singleton.mp (List.mem_of_find?_eq_some hfind)
  rfl

omit [Externals] in
/-- A note that is the payload does not: there is no field to put the keys of the
approval beside, and they replace it. -/
theorem approvedWith_text_lost :
    letI := reference
    ¬ ∀ tr pool, KernelRun tr pool → ∀ t ∈ tr, ∀ id env action envelope event,
      t.label = .act id ⟨.triggerHold (holdTriggerTx env action envelope), .ok event⟩ →
      ∀ id' envs action' rtx x older,
        (⟨id', .ret (.ok (.resubmit envs action')), ⟨.resolveHold rtx, x⟩ :: older⟩ :
          Task KernelSig (KernelResult Outcome)) ∈ pool.tasks →
        rtx.holdId = env.uuid .holdId → Reexecutes action action' := by
  intro hclaim
  have hplayed : (kernelPlayed (approvedWith (.str "tidy up"))).trace.any
        (triggersWith "hold-2" (.str "tidy up")) = true ∧
      (kernelPlayed (approvedWith (.str "tidy up"))).pool.tasks.any
        (handsBackHold "hold-2") = true := by
    rw [kernelPlayed_eq]
    decide +kernel
  obtain ⟨htriggers, hhands⟩ := hplayed
  obtain ⟨t, ht, id, env, action, envelope, event, hlabel, hid, hpayload⟩ :=
    @triggersWith_sound reference _ _ (kernelRun_played _) _ _ htriggers
  obtain ⟨id', envs, action', tx, x, older, hmem, hhold⟩ := handsBackHold_sound hhands
  have hsame := hclaim _ _ (kernelRun_played _) t ht id env action envelope event hlabel id' envs
    action' tx x older hmem (hhold.trans hid.symm)
  obtain ⟨fields, fields', hobject, -⟩ := hsame.payload
  rw [hpayload] at hobject
  cases hobject

end PunkgoKernel
