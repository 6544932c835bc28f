import PunkgoKernel.Laws.Mediation
import PunkgoKernel.Laws.Recursion

/-!
# What a receipt is worth

A client that has a receipt has an event: the one its own request wrote, for the action it
asked for (or for the pending action of the hold it approved), at the index and with the hash the receipt
names. The event stays there, whatever runs beside the request, fails or is restarted
afterwards (`run_acknowledged`), and no two receipts name one event
(`run_receipts_distinct`).
-/

namespace PunkgoKernel

open Relational (Table)
open Resumption

variable [Externals]

/-! ## The event a receipt names -/

omit [Externals] in
/-- The response that an action asks for, and the hold it is about as the request has
read it. -/
structure RespondsTo (past : Past) (action : Action) (holdId : String) (decision : HoldDecision)
    (instruction : Option String) (hold : HoldRequest) : Prop where
  response : holdResponse? action = some (holdId, decision, instruction)
  hold : Saw past (.getHoldRequest holdId) (some hold)

omit [Externals] in
/-- A response that was made goes on having been made. -/
theorem RespondsTo.suffix {past past' : Past} {action : Action} {holdId : String}
    {decision : HoldDecision} {instruction : Option String} {hold : HoldRequest}
    (h : RespondsTo past action holdId decision instruction hold) (hs : past <:+ past') :
    RespondsTo past' action holdId decision instruction hold :=
  ⟨h.response, h.hold.suffix hs⟩

/-- An event written for an action, or for the response, no approval, that the action
asks for. -/
inductive EventFor (past : Past) (action : Action) : EventRecord → Prop where
  | action (env : Env) (cost : Int) (artifactHash : Option String) (idx : Nat) :
      EventFor past action ((draftEvent env action cost artifactHash).placed idx)
  | response (env : Env) (holdId : String) (decision : HoldDecision)
      (instruction : Option String) (hold : HoldRequest) (idx : Nat) :
      RespondsTo past action holdId decision instruction hold → decision ≠ .approve →
      EventFor past action (EventRecord.placed
        { (holdResolveTx env action holdId decision instruction hold).event with
          settledEnergy := (holdResolveTx env action holdId decision instruction hold).cost } idx)

omit [Externals] in
/-- The receipt names the event, and what it cost. -/
structure Names (receipt : SubmitReceipt) (event : EventRecord) : Prop where
  id : receipt.eventId = event.id
  logIndex : receipt.logIndex = event.logIndex
  eventHash : receipt.eventHash = event.eventHash
  reserved : receipt.reservedCost = event.reservedEnergy
  settled : receipt.settledCost = event.settledEnergy
  artifact : receipt.artifactHash = event.artifactHash

/-- The actions a request serves: its own, and after an approval that one of them asks
for the pending action of the hold, as the request has read it. -/
inductive Serves (action : Action) (past : Past) : Action → Prop where
  | own : Serves action past action
  | approved (served : Action) (env : Env) (holdId : String) (instruction : Option String)
      (hold : HoldRequest) (answer : EventRecord × Int) : Serves action past served →
      RespondsTo past served holdId .approve instruction hold →
      Saw past (.resolveHold (holdResolveTx env served holdId .approve instruction hold)) answer →
      Serves action past (pendingAction hold instruction)

/-- An action that serves another goes on serving it. -/
theorem Serves.suffix {action served : Action} {past past' : Past}
    (h : Serves action past served) (hs : past <:+ past') : Serves action past' served := by
  induction h with
  | own => exact .own
  | approved served env holdId instruction hold answer _ hresponds hsaw ih =>
    exact .approved served env holdId instruction hold answer ih (hresponds.suffix hs) (hsaw.suffix hs)

/-- An operation that commits an event for an action, with its answer and the receipt made
of it. -/
inductive Receipted (past : Past) (action : Action) :
    (op : Op) → Val op → SubmitReceipt → Prop where
  | action (env : Env) (artifactHash : Option String) (tx : FinalizeTx)
      (event : Val (.finalize tx)) :
      tx.event = draftEvent env action tx.settledCost artifactHash →
      Receipted past action (.finalize tx) event
        ⟨EventRecord.id event, EventRecord.logIndex event, EventRecord.eventHash event,
          tx.settledCost, tx.settledCost, artifactHash⟩
  | response (env : Env) (holdId : String) (decision : HoldDecision)
      (instruction : Option String) (hold : HoldRequest) (event : EventRecord) (cost : Int) :
      RespondsTo past action holdId decision instruction hold → decision ≠ .approve →
      Receipted past action
        (.resolveHold (holdResolveTx env action holdId decision instruction hold)) (event, cost)
        ⟨event.id, event.logIndex, event.eventHash, hold.reservedCost, cost, none⟩

/-- What a request for an action may end with: a receipt of what it wrote, or an action to
go on with. -/
inductive Returns (action : Action) (past : Past) : Outcome → Prop where
  | receipt (served : Action) (op : Op) (v : Val op) (receipt : SubmitReceipt) :
      Serves action past served → Saw past op v → Receipted past served op v receipt →
      Returns action past (.receipt receipt)
  | resubmit (envs : Nat → Env) (pending : Action) : Serves action past pending →
      Returns action past (.resubmit envs pending)

/-! ## The pipeline -/

/-- Any operation may be asked for; a value is as `E` says. -/
abbrev Yields {α : Type} (p : KernelProg α) (E : Past → α → Prop) (past : Past) : Prop :=
  Attempt.Ensures (fun _ _ => True) p E past

section Pipeline

variable {α β : Type} {E : Past → α → Prop} {past : Past}

omit [Externals] in
/-- A part that only checks commits nothing. -/
theorem Plain.uncommitting {p : KernelProg α} (h : Plain p) : Uncommitting p := by
  refine Prog.Uses.mono h ?_
  intro op hop
  cases op <;> first | rfl | cases hop

omit [Externals] in
/-- After a part that commits nothing, the rest yields what it yields. -/
theorem Uncommitting.yields_bind {p : KernelProg β} {f : β → KernelProg α} (h : Uncommitting p)
    (hf : ∀ past' b, past <:+ past' → Yields (f b) E past') : Yields (p >>= f) E past :=
  Attempt.Ensures.bind (Attempt.Uses.ensures h (fun _ _ _ => trivial) past) hf

omit [Externals] in
/-- After a check that passes, the rest yields what it yields. -/
theorem yields_check_bind {x : KernelResult β} {f : β → KernelProg α}
    (h : ∀ b, x = .ok b → Yields (f b) E past) : Yields (check x >>= f) E past := by
  cases x with
  | error e => trivial
  | ok b => exact h b rfl

omit [Externals] in
/-- After an operation that succeeds, the rest yields what it yields. -/
theorem yields_call_bind {op : Op} {f : Val op → KernelProg α}
    (h : ∀ v, Yields (f v) E (⟨op, .ok v⟩ :: past)) : Yields (call op >>= f) E past := by
  refine ⟨trivial, ?_⟩
  rintro (e | v) -
  · trivial
  · exact h v

end Pipeline

/-- A commit returns the receipt of the event it has written for the action it
serves. -/
theorem commitAction_returns (env : Env) {action served : Action} (auth : Option EnvelopeRecord)
    {past : Past} (hserves : Serves action past served) :
    Yields (commitAction env served auth) (Returns action) past := by
  unfold commitAction
  refine (reading_authorizeLifecycle served _).uncommitting.yields_bind ?_
  intro past₁ _ hs₁
  refine (reading_parseCreateActorSpec served).uncommitting.yields_bind ?_
  intro past₂ createActor hs₂
  refine (reading_parseCreateEnvelopeSpec env served).uncommitting.yields_bind ?_
  intro past₃ createEnvelope hs₃
  refine (uncommitting_quoteAndReserve served).yields_bind ?_
  rintro past₄ ⟨cost, reservation⟩ hs₄
  refine yields_check_bind ?_
  intro artifactHash _
  refine yields_call_bind ?_
  intro event
  refine (uncommitting_aftermath (uses_recordPolicyVersion _)).yields_bind ?_
  intro past₅ _ hs₅
  refine (uncommitting_aftermath (uses_chargeEnvelope served cost)).yields_bind ?_
  intro past₆ _ hs₆
  refine (uncommitting_aftermath (uses_executeLifecycle _)).yields_bind ?_
  intro past₇ _ hs₇
  have hsince := (hs₅.trans hs₆).trans hs₇
  have hall := (((hs₁.trans hs₂).trans hs₃).trans hs₄).trans
    ((List.suffix_cons _ _).trans hsince)
  exact .receipt served _ event _ (hserves.suffix hall) (Saw.suffix List.mem_cons_self hsince)
    (.action env artifactHash _ event rfl)

/-- A response returns the receipt of its own event, or goes on with the pending action
it has approved. -/
theorem executeHoldResponse_returns (envs : Nat → Env) {action served : Action} {holdId : String}
    {decision : HoldDecision} {instruction : Option String} {past : Past}
    (hresponse : holdResponse? served = some (holdId, decision, instruction))
    (hserves : Serves action past served) :
    Yields (executeHoldResponse envs served holdId decision instruction) (Returns action) past := by
  unfold executeHoldResponse
  refine (reading_findActor _).uncommitting.yields_bind ?_
  intro past₁ caller hs₁
  refine yields_check_bind ?_
  intro _ _
  refine (findHold_ensures (fun _ => trivial) past₁).bind ?_
  rintro past₂ hold ⟨hs₂, hhold⟩
  refine yields_check_bind ?_
  intro _ _
  refine (plain_refuseTimedOut (envs 0) hold).uncommitting.yields_bind ?_
  intro past₃ _ hs₃
  refine yields_call_bind ?_
  rintro ⟨event, cost⟩
  have hnew : past₃ <:+
      ⟨.resolveHold (holdResolveTx (envs 0) served holdId decision instruction hold),
        .ok (event, cost)⟩ :: past₃ := List.suffix_cons _ _
  have hserves' := (hserves.suffix ((hs₁.trans hs₂).trans hs₃)).suffix hnew
  have hresponds := (RespondsTo.mk hresponse (hhold.suffix hs₃)).suffix hnew
  show Yields (if decision = .approve then _ else _) _ _
  split
  · next happrove =>
    subst happrove
    exact .resubmit _ _ (.approved served _ _ _ _ _ hserves' hresponds List.mem_cons_self)
  · next hreject =>
    exact .receipt served _ _ _ hserves' List.mem_cons_self
      (.response _ _ _ _ _ event cost hresponds hreject)

/-- A submit returns a receipt of its own action, or goes on with the one it has
approved. -/
theorem submitAction_returns (envs : Nat → Env) {action served : Action} {past : Past}
    (hserves : Serves action past served) :
    Yields (submitAction envs served) (Returns action) past := by
  unfold submitAction
  refine yields_check_bind ?_
  intro _ _
  refine (reading_requireActor served.actorId).uncommitting.yields_bind ?_
  intro past₁ _ hs₁
  refine (uncommitting_authorizeActor (envs 0) served).yields_bind ?_
  intro past₂ auth hs₂
  have hserves' := hserves.suffix (hs₁.trans hs₂)
  cases hresponse : holdResponse? served with
  | none => exact commitAction_returns _ auth hserves'
  | some response =>
    obtain ⟨holdId, decision, instruction⟩ := response
    exact executeHoldResponse_returns envs hresponse hserves'

omit [Externals] in
/-- The answers to the other requests. -/
def Outcome.isRead : Outcome → Bool
  | .receipt _ | .resubmit .. => false
  | _ => true

/-- What the requests end with. -/
def Request.Returns : Request → Past → KernelResult Outcome → Prop
  | _, _, .error _ => True
  | .submit _ action, past, .ok outcome => PunkgoKernel.Returns action past outcome
  | _, _, .ok outcome => outcome.isRead = true

/-- A request that only reads answers with what it has read. -/
theorem yields_read {p : KernelProg Outcome} {past : Past}
    (h : Yields p (fun _ outcome => outcome.isRead = true) past) {r : Request}
    (hr : ∀ past outcome, outcome.isRead = true → r.Returns past (.ok outcome)) :
    Prog.Honors (fun _ _ => True) (fun _ _ => True) r.Returns p past := by
  refine Prog.Honors.mono h ?_
  rintro past' (e | outcome) hread
  · cases r <;> trivial
  · exact hr past' outcome hread

/-- A submit answers with what its pipeline returns. -/
theorem yields_submit {p : KernelProg Outcome} {past : Past} {action : Action}
    (h : Yields p (Returns action) past) (envs : Nat → Env) :
    Prog.Honors (fun _ _ => True) (fun _ _ => True) (Request.submit envs action).Returns p past := by
  refine Prog.Honors.mono h ?_
  rintro past' (e | outcome) hreturns
  · trivial
  · exact hreturns

/-- Every request answers with what its kind returns. -/
theorem program_returns (r : Request) :
    Prog.Honors (fun _ _ => True) (fun _ _ => True) r.Returns (program r) [] := by
  cases r with
  | submit envs action => exact yields_submit (submitAction_returns envs .own) envs
  | quote action =>
    refine yields_read (yields_check_bind fun _ _ => ?_) fun _ _ h => h
    rfl
  | auditCheckpoint now =>
    refine yields_read (yields_call_bind fun eventCount => ?_) fun _ _ h => h
    refine (uncommitting_upkeep (uses_ensureCheckpoint eventCount now)).yields_bind fun _ _ _ => ?_
    exact yields_call_bind fun _ => rfl
  | snapshot now =>
    refine yields_read (yields_call_bind fun eventCount => ?_) fun _ _ h => h
    refine (uncommitting_upkeep (uses_ensureCheckpoint eventCount now)).yields_bind fun _ _ _ => ?_
    exact yields_call_bind fun _ => rfl
  | auditInclusionProof logIndex treeSize now =>
    cases logIndex with
    | none => trivial
    | some logIndex =>
      have hsize := uncommitting_upkeep (uses_proofTreeSize treeSize now)
      refine yields_read (hsize.yields_bind fun _ size _ => ?_) fun _ _ h => h
      exact yields_call_bind fun _ => rfl
  | tick energyPerTick =>
    refine yields_read ?_ fun _ _ h => h
    show Yields (produceTick doubles energyPerTick) _ _
    unfold produceTick
    refine yields_call_bind ?_
    intro (actors : List (String × ℚ))
    show Yields (if _ then _ else _) _ _
    split
    · rfl
    · exact yields_call_bind fun _ => rfl

/-- Along every run what is left of a request ends with what the request may end with. -/
theorem KernelRun.returns {tr : List KernelTransition} {pool : KernelPool} (h : KernelRun tr pool)
    {task : Task KernelSig (KernelResult Outcome)} (htask : task ∈ pool.tasks) {r : Request} {s : Db}
    (hspawned : Spawned task.id r s tr) :
    task.prog.Honors (fun _ _ => True) (fun _ _ => True) r.Returns task.past := by
  refine kernelContract.each (K := fun r _ task =>
    task.prog.Honors (fun _ _ => True) (fun _ _ => True) r.Returns task.past) ?_ ?_ ?_ ?_ h
    (fun _ _ _ _ _ => trivial) task htask r s hspawned
  · intro id r s
    exact program_returns r
  · intro tr pool r s id op k past _ _ _ _ hhonors
    exact hhonors.2 _ trivial
  · intro r s id op k past x _ _ hhonors
    exact hhonors.2 _ trivial
  · intro r s id answer p past hagain hreturns
    cases answer with
    | error e => cases hagain
    | ok outcome =>
      -- only a submit ends with an action to go on with
      cases outcome with
      | resubmit envs' pending =>
        cases r with
        | submit envs action =>
          cases hagain
          cases hreturns with
          | resubmit _ _ hserves => exact yields_submit (submitAction_returns envs' hserves) envs
        | _ => cases hreturns
      | _ => cases hagain

/-! ## The step that wrote the event -/

omit [Externals] in
/-- Where the indexes are those below the number of events, the next one is that
number. -/
theorem nextIdx_eq_length {db : Db}
    (h : db.events.rows.map (·.logIndex) = List.range db.events.rows.length) :
    nextIdx db = db.events.rows.length := by
  have hmap : db.events.rows.map (·.logIndex + 1) =
      (db.events.rows.map (·.logIndex)).map (· + 1) := by
    rw [List.map_map]
    rfl
  unfold nextIdx
  rw [hmap, h, foldl_max_range]

/-- Along every run an event's index is its place. -/
theorem KernelRun.nextIdx_eq {tr : List KernelTransition} {pool : KernelPool}
    (h : KernelRun tr pool) : nextIdx pool.store = pool.store.events.rows.length := by
  refine nextIdx_eq_length (KernelRun.keep
    (P := fun db => db.events.rows.map (·.logIndex) = List.range db.events.rows.length) rfl ?_ h)
  intro op db db' hstep hindexed
  cases hstep with
  | commit event events leaf nodes _ hins =>
    obtain ⟨-, hrows⟩ := Table.insert?_eq_some hins
    show events.rows.map (·.logIndex) = List.range events.rows.length
    rw [hrows, List.map_append, hindexed, List.length_append, List.length_singleton,
      List.range_succ]
    exact congrArg (_ ++ [·]) (nextIdx_eq_length hindexed)
  | _ => exact hindexed

/-- The event a commit answers with is the one it has appended. -/
theorem Commits.answer {draft ev event : EventRecord} {db : Db} {events : Table EventRecord}
    {hashes : Table AuditHash} {rows : List EventRecord} (h : Commits draft db ev events hashes)
    (hrows : events.rows = rows ++ [event]) : ev = event :=
  (List.append_singleton_inj.mp ((Table.insert?_eq_some h.inserted).2.symm.trans hrows)).2

/-- An operation with a receipt appends the event the receipt names. -/
theorem receipted_appends {past : Past} {action : Action} {op : Op} {v : Val op}
    {receipt : SubmitReceipt} (hreceipted : Receipted past action op v receipt) {db db' : Db}
    (h : transaction op db = .ok (v, db')) :
    ∃ event, db'.events.rows = db.events.rows ++ [event] ∧ event.logIndex = nextIdx db ∧
      EventFor past action event ∧ Names receipt event := by
  cases hreceipted with
  | action env artifactHash tx event hdraft =>
    have hrows := transaction_appends h rfl
    obtain ⟨db₁, db₂, db₃, events, hashes, -, -, -, hcommit, rfl⟩ := finalize_eq_ok h
    obtain rfl : event = tx.event.placed (nextIdx db) := hcommit.answer hrows
    refine ⟨_, hrows, rfl, ?_, ⟨rfl, rfl, rfl, ?_, ?_, ?_⟩⟩
    · rw [hdraft]
      exact .action env _ artifactHash _
    all_goals
      rw [hdraft]
      rfl
  | response env holdId decision instruction hold event cost hresponds hreject =>
    have hrows := transaction_appends h rfl
    obtain ⟨db₁, db₂, events, hashes, hcost, -, -, hcommit, rfl⟩ := resolveHold_eq_ok h
    obtain rfl := hcommit.answer hrows
    subst hcost
    exact ⟨_, hrows, rfl, .response env holdId decision instruction hold _ hresponds hreject,
      ⟨rfl, rfl, rfl, rfl, rfl, rfl⟩⟩

/-- A step of the request, since it was spawned, that appended the event. -/
def Wrote (tr : List KernelTransition) (id : Nat) (event : EventRecord) : Prop :=
  ∃ newer t older d, tr = newer ++ t :: older ∧ t.label = .act id d ∧
    (exec d.op t.before.store).2.events.rows = t.before.store.events.rows ++ [event] ∧
    event.logIndex = t.before.store.events.rows.length ∧
    ∀ r s, Spawned id r s tr → Spawned id r s older

/-- What an operation with a receipt wrote, in the step that performed it. -/
theorem wrote_of_receipted {tr : List KernelTransition} {pool : KernelPool} (h : KernelRun tr pool)
    {task : Task KernelSig (KernelResult Outcome)} (htask : task ∈ pool.tasks) {action : Action}
    {op : Op} {v : Val op} {receipt : SubmitReceipt} (hsaw : Saw task.past op v)
    (hreceipted : Receipted task.past action op v receipt) :
    ∃ event, Wrote tr task.id event ∧ EventFor task.past action event ∧ Names receipt event := by
  obtain ⟨recent, older, hpast⟩ := List.append_of_mem hsaw
  obtain ⟨newer, t, rest, prog, rfl, hlabel, -, hnewer⟩ := h.tracked task htask _ _ _ hpast
  obtain ⟨hrun, pool', hstep⟩ := h.upTo
  rcases hlabel with hact | hfault
  · rw [hact] at hstep
    obtain ⟨-, hans, -⟩ := hstep.act_inv
    injection hans with _ hval
    have hval : (exec op t.before.store).1 = .ok v := hval.symm
    rcases exec_cases op t.before.store with ⟨v', db', htx, hexec⟩ | ⟨e, -, hexec⟩
    · rw [hexec] at hval
      cases hval
      obtain ⟨event, hrows, hidx, hfor, hnames⟩ := receipted_appends hreceipted htx
      refine ⟨event, ⟨newer, t, rest, _, rfl, hact, ?_, ?_, fun r s hsp => hsp.before hnewer (.inl hact)⟩,
        hfor, hnames⟩
      · rw [hexec]
        exact hrows
      · rw [hidx, KernelRun.nextIdx_eq hrun]
    · rw [hexec] at hval
      cases hval
  · rw [hfault] at hstep
    have hrefuses := hstep.fault_inv
    cases hreceipted with
    | action =>
      obtain ⟨e, -, heq⟩ := hrefuses
      cases heq
    | response =>
      obtain ⟨e, -, heq⟩ := hrefuses
      cases heq

/-- What a step wrote stays. -/
theorem KernelRun.act_extends {tr : List KernelTransition} {pool : KernelPool}
    (h : KernelRun tr pool) {t : KernelTransition} (ht : t ∈ tr) {id : Nat}
    {d : Performed KernelSig} (hlabel : t.label = .act id d) :
    (exec d.op t.before.store).2.events.rows <+: pool.store.events.rows := by
  obtain ⟨newer, older, rfl⟩ := List.append_of_mem ht
  induction newer generalizing pool with
  | nil =>
    cases h with
    | step hr hs =>
      obtain rfl : _ = Label.act id d := hlabel
      obtain ⟨-, -, hstore⟩ := hs.act_inv
      rw [hstore]
      exact List.prefix_rfl
  | cons t' rest ih =>
    cases h with
    | step hr hs =>
      refine (ih hr (List.mem_append_right _ List.mem_cons_self)).trans ?_
      refine hs.store_monotone (Q := fun a b => a.events.rows <+: b.events.rows)
        (fun _ => List.prefix_rfl) exec_events_extend ?_
      intro db db' hboot
      rw [bootstrap_events hboot]

/-- What a request that ends with a receipt wrote. -/
theorem KernelRun.receipted {tr : List KernelTransition} {pool pool' : KernelPool}
    (h : KernelRun tr pool) {id : Nat} {receipt : SubmitReceipt}
    (hstep : Step kernelSystem pool (.finish id (.ok (.receipt receipt))) pool') :
    ∃ envs action s past served event, Spawned id (.submit envs action) s tr ∧
      ⟨id, .ret (.ok (.receipt receipt)), past⟩ ∈ pool.tasks ∧ Serves action past served ∧
      EventFor past served event ∧ Names receipt event ∧ Wrote tr id event := by
  obtain ⟨past, htask⟩ := hstep.finish_inv
  obtain ⟨r, s, hspawned⟩ := h.spawned _ htask
  have hreturns : r.Returns past (.ok (.receipt receipt)) :=
    KernelRun.returns h htask hspawned
  cases r with
  | submit envs action =>
    cases hreturns with
    | receipt served op v _ hserves hsaw hreceipted =>
      obtain ⟨event, hwrote, hfor, hnames⟩ := wrote_of_receipted h htask hsaw hreceipted
      exact ⟨envs, action, s, past, served, event, hspawned, htask, hserves, hfor, hnames, hwrote⟩
  | _ => cases hreturns

/-- What a request wrote stays where it was written. -/
theorem Wrote.row {newer older : List KernelTransition} {t : KernelTransition} {pool : KernelPool}
    {id : Nat} {event : EventRecord} (hwrote : Wrote older id event)
    (h : KernelRun (newer ++ t :: older) pool) :
    pool.store.events.rows[event.logIndex]? = some event := by
  obtain ⟨newer', t', rest, d, rfl, hact, hrows, hidx, -⟩ := hwrote
  have hextends := KernelRun.act_extends h (t := t') (by simp) hact
  rw [hrows] at hextends
  obtain ⟨more, hmore⟩ := hextends
  rw [hidx, ← hmore, List.append_assoc]
  simp

/-! ## Along every run -/

/-- **A receipt is an event.** A request that ends with a receipt wrote the event the
receipt names: for its own action, for the response its action asks for, or for the
pending action of the hold it approved. The event is in the log from then on. -/
theorem run_acknowledged {tr : List KernelTransition} {pool : KernelPool} (h : KernelRun tr pool) :
    ∀ newer t older, tr = newer ++ t :: older → ∀ id receipt,
      t.label = .finish id (.ok (.receipt receipt)) →
      ∃ envs action s past served event, Spawned id (.submit envs action) s older ∧
        ⟨id, .ret (.ok (.receipt receipt)), past⟩ ∈ t.before.tasks ∧ Serves action past served ∧
        EventFor past served event ∧ Names receipt event ∧ Wrote older id event ∧
        pool.store.events.rows[receipt.logIndex]? = some event := by
  rintro newer t older rfl id receipt hlabel
  obtain ⟨hrun, pool', hstep⟩ := h.upTo
  rw [hlabel] at hstep
  obtain ⟨envs, action, s, past, served, event, hspawned, htask, hserves, hfor, hnames, hwrote⟩ :=
    KernelRun.receipted hrun hstep
  refine ⟨envs, action, s, past, served, event, hspawned, htask, hserves, hfor, hnames, hwrote, ?_⟩
  rw [hnames.logIndex]
  exact hwrote.row h

omit [Externals] in
/-- Whether a step ends a request with a receipt. -/
def acknowledges (t : KernelTransition) : Bool :=
  match t.label with
  | .finish _ (.ok (.receipt _)) => true
  | _ => false

omit [Externals] in
/-- The receipts of an actor's creation, of a grant, and of an approved change. -/
theorem acknowledged_holdApprovedByRoot :
    letI := reference
    (kernelPlayed holdApprovedByRoot).trace.countP acknowledges = 3 ∧
    ∀ newer t older, (kernelPlayed holdApprovedByRoot).trace = newer ++ t :: older →
      ∀ id receipt, t.label = .finish id (.ok (.receipt receipt)) →
      ∃ envs action s past served event, Spawned id (.submit envs action) s older ∧
        ⟨id, .ret (.ok (.receipt receipt)), past⟩ ∈ t.before.tasks ∧ Serves action past served ∧
        EventFor past served event ∧ Names receipt event ∧ Wrote older id event ∧
        (kernelPlayed holdApprovedByRoot).pool.store.events.rows[receipt.logIndex]? =
          some event := by
  refine ⟨?_, @run_acknowledged reference _ _ (kernelRun_played holdApprovedByRoot)⟩
  rw [kernelPlayed_eq]
  decide +kernel

/-- A step that appends an event. -/
def Appends (t : KernelTransition) : Prop :=
  ∃ id d event, t.label = .act id d ∧
    (exec d.op t.before.store).2.events.rows = t.before.store.events.rows ++ [event]

/-- The log is longer after an event was appended. -/
theorem Appends.grows {tr : List KernelTransition} {pool : KernelPool} (h : KernelRun tr pool)
    {t : KernelTransition} (ht : t ∈ tr) (happends : Appends t) :
    t.before.store.events.rows.length < pool.store.events.rows.length := by
  obtain ⟨id, d, event, hact, hrows⟩ := happends
  have hle := (KernelRun.act_extends h ht hact).length_le
  rw [hrows, List.length_append, List.length_singleton] at hle
  exact hle

/-- No index is given out twice. -/
theorem appends_once {n₁ n₂ o₁ o₂ : List KernelTransition} {c₁ c₂ : KernelTransition}
    {pool : KernelPool} (h : KernelRun (n₁ ++ c₁ :: o₁) pool)
    (heq : n₁ ++ c₁ :: o₁ = n₂ ++ c₂ :: o₂) (h₁ : Appends c₁) (h₂ : Appends c₂)
    (hidx : c₁.before.store.events.rows.length = c₂.before.store.events.rows.length) :
    c₁ = c₂ ∧ o₁ = o₂ := by
  rcases List.append_eq_append_iff.mp heq with ⟨between, -, hrest⟩ | ⟨between, -, hrest⟩
  · cases between with
    | nil => exact List.cons.inj hrest
    | cons c between =>
      obtain ⟨-, rfl⟩ := List.cons.inj hrest
      have hlt := h₂.grows h.upTo.1 (by simp)
      omega
  · cases between with
    | nil =>
      obtain ⟨hc, ho⟩ := List.cons.inj hrest
      exact ⟨hc.symm, ho.symm⟩
    | cons c between =>
      obtain ⟨-, rfl⟩ := List.cons.inj hrest
      rw [heq] at h
      have hlt := h₁.grows h.upTo.1 (by simp)
      omega

/-- Of two requests that have ended, each wrote an event of its own. -/
theorem wrote_apart {newer between older : List KernelTransition} {t₁ t₂ : KernelTransition}
    {pool : KernelPool} (h : KernelRun (newer ++ t₂ :: (between ++ t₁ :: older)) pool)
    {id₁ id₂ : Nat} {a₁ a₂ : KernelResult Outcome} (hlabel₁ : t₁.label = .finish id₁ a₁)
    (hlabel₂ : t₂.label = .finish id₂ a₂) {r : Request} {s : Db}
    (hspawned : Spawned id₂ r s (between ++ t₁ :: older)) {event₁ event₂ : EventRecord}
    (hwrote₁ : Wrote older id₁ event₁) (hwrote₂ : Wrote (between ++ t₁ :: older) id₂ event₂) :
    event₁.logIndex ≠ event₂.logIndex := by
  intro hsame
  have hrun₂ := h.upTo.1
  have hrun₁ := hrun₂.upTo.1
  obtain ⟨pool₂, hstep₂⟩ := h.upTo.2
  rw [hlabel₂] at hstep₂
  obtain ⟨past, htask⟩ := hstep₂.finish_inv
  obtain ⟨n₁, c₁, o₁, d₁, rfl, hact₁, hrows₁, hidx₁, -⟩ := hwrote₁
  obtain ⟨n₂, c₂, o₂, d₂, heq, hact₂, hrows₂, hidx₂, hsince⟩ := hwrote₂
  have happends₁ : Appends c₁ := ⟨id₁, d₁, event₁, hact₁, hrows₁⟩
  have hindex : c₁.before.store.events.rows.length = c₂.before.store.events.rows.length := by
    rw [← hidx₁, ← hidx₂, hsame]
  -- the two events are one, so the two requests have one id
  have hsplit : (between ++ t₁ :: n₁) ++ c₁ :: o₁ = n₂ ++ c₂ :: o₂ := by simpa using heq
  obtain ⟨rfl, rfl⟩ := appends_once (by simpa using hrun₂) hsplit happends₁ ⟨id₂, d₂, event₂, hact₂, hrows₂⟩ hindex
  obtain rfl : id₁ = id₂ := (Label.act.inj (hact₁.symm.trans hact₂)).1
  -- the second was spawned after the first had ended, when the event was in the log
  obtain ⟨pool₁', label₁⟩ := t₁
  obtain rfl : label₁ = .finish id₁ a₁ := hlabel₁
  obtain ⟨t', ht', hstore, -⟩ := Run.respawned hrun₂ ⟨_, htask, rfl⟩ hspawned
  obtain ⟨later, earlier, rfl⟩ := List.append_of_mem ht'
  have hafter : c₁.before.store.events.rows.length < t'.before.store.events.rows.length := by
    rw [List.append_assoc] at hrun₂
    exact happends₁.grows hrun₂.upTo.1 (by simp)
  -- and the event was written after that
  obtain ⟨t'', ht'', hstore', -⟩ := (hsince _ _ hspawned).mem
  have hbefore : t''.before.store.events.rows.length ≤ c₁.before.store.events.rows.length :=
    (KernelRun.events_extend hrun₁.upTo.1 ht'').length_le
  rw [hstore', ← hstore] at hbefore
  omega

/-- **Every receipt is of an event of its own.** Two requests that end with receipts, one
after the other or side by side, never name one event. -/
theorem run_receipts_distinct {tr : List KernelTransition} {pool : KernelPool}
    (h : KernelRun tr pool) : ∀ newer t₂ between t₁ older,
      tr = newer ++ t₂ :: (between ++ t₁ :: older) → ∀ id₁ id₂ receipt₁ receipt₂,
      t₁.label = .finish id₁ (.ok (.receipt receipt₁)) →
      t₂.label = .finish id₂ (.ok (.receipt receipt₂)) →
      receipt₁.logIndex ≠ receipt₂.logIndex := by
  rintro newer t₂ between t₁ older rfl id₁ id₂ receipt₁ receipt₂ hlabel₁ hlabel₂
  have hrun₂ := h.upTo.1
  obtain ⟨pool₂, hstep₂⟩ := h.upTo.2
  obtain ⟨pool₁, hstep₁⟩ := hrun₂.upTo.2
  rw [hlabel₁] at hstep₁
  rw [hlabel₂] at hstep₂
  obtain ⟨-, -, -, -, -, event₁, -, -, -, -, hnames₁, hwrote₁⟩ :=
    KernelRun.receipted hrun₂.upTo.1 hstep₁
  obtain ⟨envs, action, s, -, -, event₂, hspawned, -, -, -, hnames₂, hwrote₂⟩ :=
    KernelRun.receipted hrun₂ hstep₂
  rw [hnames₁.logIndex, hnames₂.logIndex]
  exact wrote_apart h hlabel₁ hlabel₂ hspawned hwrote₁ hwrote₂

omit [Externals] in
/-- The receipts of a run with an approval in it, each with a place in the log that no
other receipt has. -/
theorem receiptsDistinct_holdApprovedByRoot :
    letI := reference
    (kernelPlayed holdApprovedByRoot).trace.countP acknowledges = 3 ∧
    ∀ newer t₂ between t₁ older,
      (kernelPlayed holdApprovedByRoot).trace = newer ++ t₂ :: (between ++ t₁ :: older) →
      ∀ id₁ id₂ receipt₁ receipt₂, t₁.label = .finish id₁ (.ok (.receipt receipt₁)) →
        t₂.label = .finish id₂ (.ok (.receipt receipt₂)) →
        receipt₁.logIndex ≠ receipt₂.logIndex := by
  refine ⟨?_, @run_receipts_distinct reference _ _ (kernelRun_played holdApprovedByRoot)⟩
  rw [kernelPlayed_eq]
  decide +kernel

end PunkgoKernel
