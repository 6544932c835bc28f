import PunkgoKernel.Laws.Lapse

/-!
# A hold is resolved once

Three pieces of code end a hold: the response of a human, the scan of a submit
for timed-out holds, and the same scan when a response comes too late. Each
reads the status of the hold first and writes later, with other requests in
between. What keeps them apart is the write itself, which a hold that is not
pending refuses.

So along every run a hold stops being pending once at most, the log has one
event about it at most, and what its end costs the agent is taken once
(`run_resolves_once`).
-/

namespace PunkgoKernel

open Json (Value)
open Relational (Table key)
open Resumption

/-! ## The end of a hold -/

/-- The hold request waits for its end. -/
def Db.isPending (db : Db) (holdId : String) : Bool :=
  match db.holdRequests.find? holdId with
  | some hold => hold.status = .pending
  | none => false

/-- How often the hold request stops being pending in a history of the
database, newest state first. -/
def departures (holdId : String) : List Db → Nat
  | db' :: db :: rest =>
    (if db.isPending holdId && !db'.isPending holdId then 1 else 0) +
      departures holdId (db :: rest)
  | _ => 0

/-- The states of the database along a run, newest first. -/
def history (tr : List KernelTransition) (pool : KernelPool) : List Db :=
  pool.store :: tr.map (·.before.store)

/-- The event says how the hold request ended. -/
def EventRecord.reportsEnd (event : EventRecord) (holdId : String) : Bool :=
  (event.actionType = "hold_response" || event.actionType = "hold_timeout") &&
    event.payload.get? "hold_id" = some (.str holdId)

/-- The events about the end of the hold request. -/
def Db.reports (db : Db) (holdId : String) : List EventRecord :=
  db.events.rows.filter (·.reportsEnd holdId)

/-- The operation is one that ends the hold request. -/
def Op.ends (op : Op) (holdId : String) : Bool :=
  match op with
  | .resolveHold tx => tx.holdId = holdId
  | .expireHold tx => tx.holdId = holdId
  | _ => false

/-- What the end of a hold request costs an actor. -/
def HoldRequest.cost (hold : HoldRequest) (actorId : String) : Int :=
  match hold.status with
  | .rejected | .timedOut => amountFor hold.agentId (commitmentCost hold.reservedCost) actorId
  | _ => 0

/-- What the end of a stored hold request has cost an actor. -/
def Db.costOf (db : Db) (holdId actorId : String) : Int :=
  ((db.holdRequests.find? holdId).map (·.cost actorId)).getD 0

/-- What a hold costs an actor stands in its row. -/
theorem costOf_of_find {db : Db} {holdId : String} {hold : HoldRequest}
    (h : db.holdRequests.find? holdId = some hold) (actorId : String) :
    db.costOf holdId actorId = hold.cost actorId := by
  unfold Db.costOf
  rw [h]
  rfl

/-- Whether a hold is pending stands in its row. -/
theorem isPending_of_find {db : Db} {holdId : String} {hold : HoldRequest}
    (h : db.holdRequests.find? holdId = some hold) :
    db.isPending holdId = decide (hold.status = .pending) := by
  unfold Db.isPending
  rw [h]

/-- A pending hold has cost nobody anything yet. -/
theorem cost_of_pending {hold : HoldRequest} (h : hold.status = .pending) (actorId : String) :
    hold.cost actorId = 0 := by
  unfold HoldRequest.cost
  rw [h]

variable [Externals]

/-- What a step takes from an actor's balance by ending the hold request. -/
def Transition.debit (t : KernelTransition) (holdId actorId : String) : Int :=
  match t.label with
  | .act _ ⟨op, _⟩ =>
    if op.ends holdId then
      t.before.store.balance actorId - (exec op t.before.store).2.balance actorId
    else 0
  | _ => 0

/-- What the steps of a run take from an actor's balance by ending the hold
request. -/
def debited (tr : List KernelTransition) (holdId actorId : String) : Int :=
  (tr.map (Transition.debit · holdId actorId)).sum

/-! ## One operation -/

/-- Any other operation leaves the hold request, or writes it first. -/
theorem exec_hold_kept {op : Op} {holdId : String} (hop : op.ends holdId = false) (db : Db) :
    (exec op db).2.holdRequests.find? holdId = db.holdRequests.find? holdId ∨
      (db.holdRequests.find? holdId = none ∧ ∃ hold,
        (exec op db).2.holdRequests.find? holdId = some hold ∧ hold.status = .pending) := by
  refine (exec_effects op db).keep
    (P := fun db' => db'.holdRequests.find? holdId = db.holdRequests.find? holdId ∨
      (db.holdRequests.find? holdId = none ∧ ∃ hold,
        db'.holdRequests.find? holdId = some hold ∧ hold.status = .pending)) ?_ (.inl rfl)
  intro a b hstep ha
  cases hstep with
  | newHold row holds hnew hins =>
    show holds.find? holdId = _ ∨ _
    rw [Table.find?_insert hins]
    split
    · next hid =>
      have hnone : a.holdRequests.find? holdId = none := hid ▸ (Table.insert?_eq_some hins).1
      rw [hnone] at ha
      rcases ha with hsame | ⟨-, hold, hfind, -⟩
      · refine .inr ⟨hsame.symm, row, rfl, ?_⟩
        cases op with
        | triggerHold tx =>
          cases hnew
          rfl
        | _ => cases hnew
      · cases hfind
    · exact ha
  | resolveHold row decision instruction now hresolves hrow _ =>
    have hne : holdId ≠ row.holdId := by
      rintro rfl
      unfold Op.ends at hop
      cases op with
      | resolveHold tx => simp [hresolves.1] at hop
      | expireHold tx => simp [hresolves.1] at hop
      | _ => cases hresolves
    have hkey : ∀ r, key (EnvelopeStore.resolved decision instruction now r) = key r := fun _ => rfl
    have hkept := Table.find?_modify a.holdRequests row.holdId holdId _ hkey
    rw [if_neg hne] at hkept
    rw [← hkept] at ha
    exact ha
  | _ => exact ha

/-- The only operations whose event reports the end of a hold request are those
that end it. -/
theorem allowed_reportsEnd {past : Past} {op : Op} (holdId : String) (hallowed : allowed past op)
    {draft : EventRecord} (hcommits : op.Commits draft) :
    draft.reportsEnd holdId = op.ends holdId := by
  cases op with
  | finalize tx =>
    obtain ⟨env, action, artifactHash, hevent, -⟩ := hallowed
    cases hcommits
    rw [hevent]
    obtain ⟨actorId, actionType, target, payload, timestamp⟩ := action
    cases actionType <;> rfl
  | triggerHold tx =>
    obtain ⟨env, action, envelope, actor, -⟩ := hallowed
    cases hcommits
    rfl
  | resolveHold tx =>
    obtain ⟨env, humanAction, id, decision, instruction, hold, caller, -⟩ := hallowed
    cases hcommits
    rw [Bool.eq_iff_iff]
    simp [EventRecord.reportsEnd, Op.ends, holdResolveTx, Json.get?_object]
    exact decide_eq_true_iff.symm
  | expireHold tx =>
    obtain ⟨env, round, hold, envelopeId, holds, -⟩ := hallowed
    cases hcommits
    rw [Bool.eq_iff_iff]
    simp [EventRecord.reportsEnd, Op.ends, expireTx, Json.get?_object]
  | _ => cases hcommits

/-- What the end of a hold request is: it was pending, an event reports it, and
its cost leaves the balance of its agent. -/
structure EndsHold (holdId : String) (db db' : Db) : Prop where
  before : db.isPending holdId = true
  after : ∃ hold, db'.holdRequests.find? holdId = some hold ∧ hold.status ≠ .pending
  event : ∃ draft : EventRecord, draft.reportsEnd holdId = true ∧
    db'.events.rows = db.events.rows ++ [draft.placed (nextIdx db)]
  debit : ∀ actorId, db.balance actorId - db'.balance actorId = db'.costOf holdId actorId

omit [Externals] in
/-- The row a hold request leaves, with its cost. -/
theorem costOf_resolved {db db' : Db} {holdId : String} {hold row : HoldRequest}
    {decision : HoldDecision} {instruction : Option String} {now : Nat}
    (hknown : HoldLasts db holdId hold) (hrow : db.holdRequests.find? holdId = some row)
    (hafter : db'.holdRequests.find? holdId =
      some (EnvelopeStore.resolved decision instruction now row)) (actorId : String) :
    db'.costOf holdId actorId =
      if decision = .approve then 0
      else amountFor hold.agentId (commitmentCost hold.reservedCost) actorId := by
  obtain ⟨hagent, hcost⟩ := resolved_row hknown hrow
  have hsame := SameHold.resolved row decision instruction now
  rw [costOf_of_find hafter]
  unfold HoldRequest.cost
  rw [hsame.agentId, hsame.reservedCost, hagent, hcost]
  cases decision <;> rfl

/-- A timeout ends one hold, and no other. -/
theorem expireHold_ends {past : Past} {tx : HoldExpireTx} {db db' : Db} {event : EventRecord}
    (hallowed : ExpireAllowed past tx) (hknown : ∀ d ∈ past, known db d)
    (h : expireHold tx db = .ok (event, db')) : EndsHold tx.holdId db db' := by
  have hreports : tx.event.reportsEnd tx.holdId = true := by
    have hstep : allowed past (.expireHold tx) := hallowed
    have hends : tx.event.reportsEnd tx.holdId = (Op.expireHold tx).ends tx.holdId :=
      allowed_reportsEnd _ hstep rfl
    rw [hends]
    simp [Op.ends]
  obtain ⟨env, round, hold, envelopeId, holds, hsaw, hmem, hwf⟩ := hallowed
  obtain ⟨db₁, db₂, events, hashes, hresolve, hsettle, hcommit, rfl⟩ := expireHold_eq_ok h
  obtain ⟨row, hrow, hpending, hdb₁⟩ := EnvelopeStore.resolveHoldRequestInTx_eq_ok hresolve
  have hfirst : db₁.events = db.events ∧ ∀ x, db₁.balance x = db.balance x := by
    rw [hdb₁]
    exact ⟨rfl, fun _ => rfl⟩
  have hsame : db₂.events = db.events := by
    rw [settleIf_frame hsettle]
    exact hfirst.1
  have hafter : db₂.holdRequests.find? hold.holdId = some (EnvelopeStore.resolved .timedOut none
      (expireTx env round hold).now row) := by
    rw [settleIf_frame hsettle, hdb₁]
    exact EnvelopeStore.find?_resolved hrow _ _ _
  unfold settleIf at hsettle
  rw [if_pos (show 0 < (expireTx env round hold).reservedCost from hwf.reservedCost.1)] at hsettle
  have hcommitment : (expireTx env round hold).commitmentCost = commitmentCost hold.reservedCost :=
    if_pos hwf.reservedCost.1
  constructor
  · have hwas := isPending_of_find hrow
    rw [hpending] at hwas
    exact hwas
  · exact ⟨_, hafter, fun h => by cases h⟩
  · refine ⟨_, hreports, ?_⟩
    rw [← nextIdx_congr hsame, ← hsame]
    exact hcommit.rows
  · intro x
    have hcost := costOf_resolved (hknown _ hsaw hold hmem) hrow hafter x
    have hbalance := (settleInTx_energy hsettle x).1
    rw [if_neg (by decide)] at hcost
    rw [hfirst.2, hcommitment] at hbalance
    show db.balance x - db₂.balance x = db₂.costOf hold.holdId x
    rw [hcost, hbalance]
    exact sub_sub_cancel _ _

/-- A response ends one hold, and no other. -/
theorem resolveHold_ends {past : Past} {tx : HoldResolveTx} {db db' : Db} {event : EventRecord}
    {cost : Int} (hallowed : ResolveAllowed past tx) (hknown : ∀ d ∈ past, known db d)
    (h : resolveHold tx db = .ok ((event, cost), db')) : EndsHold tx.holdId db db' := by
  have hreports : EventRecord.reportsEnd { tx.event with settledEnergy := tx.cost } tx.holdId =
      true := by
    have hstep : allowed past (.resolveHold tx) := hallowed
    have hends : EventRecord.reportsEnd { tx.event with settledEnergy := tx.cost } tx.holdId =
        (Op.resolveHold tx).ends tx.holdId := allowed_reportsEnd _ hstep rfl
    rw [hends]
    simp [Op.ends]
  obtain ⟨env, humanAction, holdId, decision, instruction, hold, caller, -, -, hsaw, hwf, -,
    hdecision, -⟩ := hallowed
  obtain ⟨db₁, db₂, events, hashes, -, hresolve, hsettle, hcommit, rfl⟩ := resolveHold_eq_ok h
  obtain ⟨row, hrow, hpending, hdb₁⟩ := EnvelopeStore.resolveHoldRequestInTx_eq_ok hresolve
  have hfirst : db₁.events = db.events ∧ ∀ x, db₁.balance x = db.balance x := by
    rw [hdb₁]
    exact ⟨rfl, fun _ => rfl⟩
  have hsame : db₂.events = db.events := by
    rw [settleIf_frame hsettle]
    exact hfirst.1
  have hafter : db₂.holdRequests.find? holdId = some (EnvelopeStore.resolved decision instruction
      (env.clock .responseRow) row) := by
    rw [settleIf_frame hsettle, hdb₁]
    exact EnvelopeStore.find?_resolved hrow _ _ _
  constructor
  · have hwas := isPending_of_find hrow
    rw [hpending] at hwas
    exact hwas
  · refine ⟨_, hafter, ?_⟩
    show decision.status ≠ .pending
    cases decision <;> decide
  · refine ⟨_, hreports, ?_⟩
    rw [← nextIdx_congr hsame, ← hsame]
    exact hcommit.rows
  · intro x
    have hcost := costOf_resolved (hknown _ hsaw) hrow hafter x
    show db.balance x - db₂.balance x = db₂.costOf holdId x
    rw [hcost]
    cases decision with
    | approve =>
      unfold settleIf at hsettle
      rw [if_neg (by rintro ⟨h, -⟩; cases h)] at hsettle
      cases hsettle
      rw [hfirst.2, if_pos rfl, sub_self]
    | reject =>
      have hpos : (holdResolveTx env humanAction holdId .reject instruction hold).decision =
          .reject ∧ 0 < (holdResolveTx env humanAction holdId .reject instruction hold).reservedCost :=
        ⟨rfl, hwf.reservedCost.1⟩
      have hpaid : (holdResolveTx env humanAction holdId .reject instruction hold).cost =
          commitmentCost hold.reservedCost := if_pos hpos
      unfold settleIf at hsettle
      rw [if_pos hpos, hpaid] at hsettle
      have hbalance := (settleInTx_energy hsettle x).1
      rw [hbalance, hfirst.2, if_neg (by decide)]
      exact sub_sub_cancel _ _
    | timedOut => exact absurd rfl hdecision

/-- An operation that ends the hold request ends it, or it fails and nothing
changes. -/
theorem exec_ends {past : Past} {op : Op} {holdId : String} {db : Db} (hallowed : allowed past op)
    (hknown : ∀ d ∈ past, known db d) (hop : op.ends holdId = true) :
    (exec op db).2 = db ∨ EndsHold holdId db (exec op db).2 := by
  rcases exec_cases op db with ⟨v, db', htx, hexec⟩ | ⟨e, -, hexec⟩
  swap
  · exact .inl (by rw [hexec])
  right
  rw [hexec]
  cases op with
  | resolveHold tx =>
    obtain rfl : tx.holdId = holdId := of_decide_eq_true hop
    obtain ⟨event, cost⟩ := v
    exact resolveHold_ends hallowed hknown htx
  | expireHold tx =>
    obtain rfl : tx.holdId = holdId := of_decide_eq_true hop
    exact expireHold_ends hallowed hknown htx
  | _ => cases hop

/-! ## Along a run -/

omit [Externals] in
/-- Whether the hold request is resolved, as a number. -/
def Db.resolutions (db : Db) (holdId : String) : Nat :=
  match db.holdRequests.find? holdId with
  | some hold => if hold.status = .pending then 0 else 1
  | none => 0

omit [Externals] in
/-- A hold has one row, so the store shows one resolution at most. -/
theorem resolutions_le_one (db : Db) (holdId : String) : db.resolutions holdId ≤ 1 := by
  unfold Db.resolutions
  split
  · split <;> omega
  · omega

omit [Externals] in
/-- A pending hold shows no resolution and no cost. -/
theorem resolutions_of_pending {db : Db} {holdId : String} (h : db.isPending holdId = true) :
    db.resolutions holdId = 0 ∧ ∀ actorId, db.costOf holdId actorId = 0 := by
  unfold Db.isPending at h
  split at h
  · next hold hfind =>
    have hpending : hold.status = .pending := of_decide_eq_true h
    unfold Db.resolutions
    rw [hfind]
    refine ⟨if_pos hpending, ?_⟩
    intro actorId
    rw [costOf_of_find hfind, cost_of_pending hpending]
  · cases h

/-- What a run has made of a hold request so far: it left `pending` and was
reported as often as it is resolved, and that is what it cost. -/
structure ResolutionKept (holdId : String) (tr : List KernelTransition) (db : Db) : Prop where
  departures : departures holdId (db :: tr.map (·.before.store)) = db.resolutions holdId
  reports : (db.reports holdId).length = db.resolutions holdId
  debited : ∀ actorId, debited tr holdId actorId = db.costOf holdId actorId

/-- What a run debits for a hold: in its last step, and before. -/
theorem debited_cons (t : KernelTransition) (tr : List KernelTransition) (holdId actorId : String) :
    debited (t :: tr) holdId actorId =
      Transition.debit t holdId actorId + debited tr holdId actorId :=
  List.sum_cons

/-- A step that leaves the hold request, or writes it first. -/
theorem ResolutionKept.unchanged {holdId : String} {tr : List KernelTransition} {db' : Db}
    {t : KernelTransition} (h : ResolutionKept holdId tr t.before.store)
    (hrow : db'.holdRequests.find? holdId = t.before.store.holdRequests.find? holdId ∨
      (t.before.store.holdRequests.find? holdId = none ∧ ∃ hold,
        db'.holdRequests.find? holdId = some hold ∧ hold.status = .pending))
    (hreports : db'.reports holdId = t.before.store.reports holdId)
    (hdebit : ∀ actorId, Transition.debit t holdId actorId = 0) :
    ResolutionKept holdId (t :: tr) db' := by
  -- nothing the account speaks of is different
  have hsame : db'.resolutions holdId = t.before.store.resolutions holdId ∧
      (∀ actorId, db'.costOf holdId actorId = t.before.store.costOf holdId actorId) ∧
      (t.before.store.isPending holdId && !db'.isPending holdId) = false := by
    unfold Db.resolutions Db.costOf Db.isPending
    rcases hrow with hrow | ⟨hnone, hold, hfind, hpending⟩
    · rw [hrow]
      exact ⟨rfl, fun _ => rfl, Bool.and_not_self _⟩
    · rw [hnone, hfind]
      exact ⟨if_pos hpending, fun actorId => cost_of_pending hpending actorId, rfl⟩
  obtain ⟨hresolutions, hcost, hstays⟩ := hsame
  constructor
  · show (if _ then 1 else 0) + PunkgoKernel.departures holdId _ = _
    rw [hstays, hresolutions, ← h.departures]
    exact Nat.zero_add _
  · rw [hreports, hresolutions, h.reports]
  · intro actorId
    rw [debited_cons, hdebit, zero_add, hcost, h.debited]

/-- The step that ends the hold request. -/
theorem ResolutionKept.ended {holdId : String} {tr : List KernelTransition} {db' : Db}
    {t : KernelTransition} (h : ResolutionKept holdId tr t.before.store)
    (hends : EndsHold holdId t.before.store db')
    (hdebit : ∀ actorId, Transition.debit t holdId actorId =
      t.before.store.balance actorId - db'.balance actorId) :
    ResolutionKept holdId (t :: tr) db' := by
  obtain ⟨hzero, hfree⟩ := resolutions_of_pending hends.before
  obtain ⟨hold, hfind, hresolved⟩ := hends.after
  have hone : db'.resolutions holdId = 1 := by
    unfold Db.resolutions
    rw [hfind]
    exact if_neg hresolved
  have hleaves : (t.before.store.isPending holdId && !db'.isPending holdId) = true := by
    rw [hends.before, isPending_of_find hfind, decide_eq_false hresolved]
    rfl
  constructor
  · show (if _ then 1 else 0) + PunkgoKernel.departures holdId _ = _
    rw [hleaves, hone]
    have hnever := h.departures
    rw [hzero] at hnever
    exact congrArg (1 + ·) hnever
  · obtain ⟨draft, hreports, hrows⟩ := hends.event
    have hplaced : (draft.placed (nextIdx t.before.store)).reportsEnd holdId = true := hreports
    have hnever := h.reports
    rw [hzero] at hnever
    unfold Db.reports at hnever ⊢
    rw [hrows, List.filter_append, List.length_append, hnever, hone]
    simp [hplaced]
  · intro actorId
    rw [debited_cons, hdebit, h.debited, hfree, add_zero, hends.debit]

/-- The events an operation that does not end the hold request adds are not
about its end. -/
theorem exec_reports_kept {past : Past} {op : Op} {holdId : String} {db : Db}
    (hallowed : allowed past op) (hop : op.ends holdId = false) :
    (exec op db).2.reports holdId = db.reports holdId := by
  rcases exec_cases op db with ⟨v, db', htx, hexec⟩ | ⟨e, -, hexec⟩
  · rw [hexec]
    unfold Db.reports
    rcases transaction_commits htx with hsame | ⟨draft, hcommits, hrows⟩
    · rw [hsame]
    · have hnot : ¬ (draft.placed (nextIdx db)).reportsEnd holdId = true := by
        have hdraft := allowed_reportsEnd holdId hallowed hcommits
        rw [hop] at hdraft
        exact Bool.eq_false_iff.mp hdraft
      rw [hrows, List.filter_append]
      simp [hnot]
  · rw [hexec]

/-- An operation of the kernel resolves a hold only while it is pending, and debits it
then alone. -/
theorem ResolutionKept.act {holdId : String} {tr : List KernelTransition} {pool : KernelPool}
    {id : Nat} {op : Op} {past : Past} (hknown : ∀ d ∈ past, known pool.store d)
    (hallowed : allowed past op) (h : ResolutionKept holdId tr pool.store) :
    ResolutionKept holdId (⟨pool, .act id ⟨op, (exec op pool.store).1⟩⟩ :: tr)
      (exec op pool.store).2 := by
  cases hop : op.ends holdId with
  | false =>
    refine h.unchanged (t := ⟨pool, .act id ⟨op, (exec op pool.store).1⟩⟩) (exec_hold_kept hop _)
      (exec_reports_kept hallowed hop) ?_
    intro actorId
    unfold Transition.debit
    exact if_neg (by rw [hop]; decide)
  | true =>
    have hdebit : ∀ actorId,
        Transition.debit ⟨pool, .act id ⟨op, (exec op pool.store).1⟩⟩ holdId actorId =
          pool.store.balance actorId - (exec op pool.store).2.balance actorId := by
      intro actorId
      unfold Transition.debit
      exact if_pos hop
    rcases exec_ends hallowed hknown hop with hsame | hends
    · rw [hsame] at hdebit ⊢
      refine h.unchanged (t := ⟨pool, .act id ⟨op, (exec op pool.store).1⟩⟩) (.inl rfl) rfl ?_
      intro actorId
      rw [hdebit, sub_self]
    · exact h.ended (t := ⟨pool, .act id ⟨op, (exec op pool.store).1⟩⟩) hends hdebit

/-- In every run a hold is resolved once at most, with one event and one debit. -/
theorem KernelRun.resolutionKept {tr : List KernelTransition} {pool : KernelPool}
    (h : KernelRun tr pool) (holdId : String) : ResolutionKept holdId tr pool.store := by
  refine kernelContract.invariant (P := fun tr pool => ResolutionKept holdId tr pool.store)
    (G := fun _ => True) ⟨rfl, rfl, fun _ => rfl⟩ ?_ h (fun _ _ _ _ _ => trivial)
    (fun _ _ => trivial)
  intro tr pool l pool' _ hs hinv hkeeps _ hkept
  cases hs with
  | act store before after id op k past =>
    have hme := hkeeps ⟨id, .vis op k, past⟩ (by simp)
    exact hkept.act hme.known hme.honors.1
  | restart store store' tasks hboot =>
    obtain rfl := bootstrap_eq hinv.1 hboot
    exact hkept.unchanged (t := ⟨_, .restart⟩) (.inl rfl) rfl (fun _ => rfl)
  | spawn store tasks id r => exact hkept.unchanged (t := ⟨_, .spawn id r⟩) (.inl rfl) rfl (fun _ => rfl)
  | fault store before after id op k past x =>
    exact hkept.unchanged (t := ⟨_, .fault id ⟨op, x⟩⟩) (.inl rfl) rfl (fun _ => rfl)
  | again store before after id a => exact hkept.unchanged (t := ⟨_, .again id a⟩) (.inl rfl) rfl (fun _ => rfl)
  | finish store before after id a =>
    exact hkept.unchanged (t := ⟨_, .finish id a⟩) (.inl rfl) rfl (fun _ => rfl)
  | cancel store before after t =>
    exact hkept.unchanged (t := ⟨_, .cancel t.id⟩) (.inl rfl) rfl (fun _ => rfl)

/-- Whoever answers a hold request or lets it time out, and in whatever order
the steps come: it stops being pending at most once and stays as it was
resolved, at most one event reports it, and its cost is taken from its agent
once, and from nobody else. -/
theorem run_resolves_once {tr : List KernelTransition} {pool : KernelPool} (h : KernelRun tr pool)
    (holdId : String) :
    departures holdId (history tr pool) ≤ 1 ∧
      (∀ t ∈ tr, ∀ hold, t.before.store.holdRequests.find? holdId = some hold →
        hold.status ≠ .pending → ∃ hold', pool.store.holdRequests.find? holdId = some hold' ∧
          hold'.status = hold.status) ∧
      (pool.store.reports holdId).length ≤ 1 ∧
      ∀ actorId, debited tr holdId actorId = pool.store.costOf holdId actorId := by
  have hkept := KernelRun.resolutionKept h holdId
  have hle := resolutions_le_one pool.store holdId
  refine ⟨?_, ?_, ?_, hkept.debited⟩
  · exact hkept.departures.trans_le hle
  · intro t ht hold hfind hresolved
    obtain ⟨hold', hfind', -, hsame⟩ := (KernelRun.later h t ht).holds holdId hold hfind
    exact ⟨hold', hfind', hsame hresolved⟩
  · exact hkept.reports.trans_le hle

/-- Two humans' answers to one hold request, step by step in turn: both find it
pending. -/
def racedAnswers : List (Turn Request) :=
  agentOnHold ++
    [.spawn 1 (submitAt 3 "root" .mutate "ledger/hold/hold-2" (.obj [("decision", .str "reject")])),
      .spawn 2 (submitAt 4 "root" .mutate "ledger/hold/hold-2" (.obj [("decision", .str "approve")]))] ++
    (List.replicate 40 [.go 1, .go 2]).flatten

omit [Externals] in
/-- Only one of the answers counts, though two requests had read the hold as pending
before either resolved it. -/
theorem racedAnswers_once :
    letI := reference
    departures "hold-2" (history (kernelPlayed racedAnswers).trace (kernelPlayed racedAnswers).pool) ≤ 1 ∧
      ((kernelPlayed racedAnswers).pool.store.reports "hold-2").length = 1 ∧
      debited (kernelPlayed racedAnswers).trace "hold-2" "agent-1" = 4 := by
  have hplayed : ((kernelPlayed racedAnswers).pool.store.reports "hold-2").length = 1 ∧
      (kernelPlayed racedAnswers).pool.store.costOf "hold-2" "agent-1" = 4 := by
    rw [kernelPlayed_eq]
    decide +kernel
  obtain ⟨hreported, hcost⟩ := hplayed
  obtain ⟨hleaves, -, -, hdebited⟩ :=
    @run_resolves_once reference _ _ (kernelRun_played racedAnswers) "hold-2"
  exact ⟨hleaves, hreported, (hdebited "agent-1").trans hcost⟩

end PunkgoKernel
