import PunkgoKernel.Laws.Failure
import PunkgoKernel.Laws.Resolution

/-!
# Holds that time out

A request that comes upon an envelope lists its pending holds once and settles
those past their time one by one. The settlement of one hold goes through exactly
when the hold is still pending by then and its energy still reserved
(`expireHold_iff`), and a hold that is settled so has timed out once, whatever the
other requests do (`KernelRun.timedOutOnce`).
-/

namespace PunkgoKernel

open Relational (Table key)
open Resumption

/-- The hold has waited longer than it may, when the listing is gone through. -/
def late (env : Env) (holdTimeoutSecs : Int) (hold : HoldRequest) : Bool :=
  timedOut (nowMillisU64 (env.clock .expiryScan)) hold.triggeredAt holdTimeoutSecs

/-- The hold of a timeout can still be settled. -/
structure Outstanding (db : Db) (tx : HoldExpireTx) : Prop where
  pending : db.isPending tx.holdId = true
  backed : tx.reservedCost ≤ db.reserved tx.agentId

instance (db : Db) (tx : HoldExpireTx) : Decidable (Outstanding db tx) :=
  decidable_of_iff (db.isPending tx.holdId = true ∧ tx.reservedCost ≤ db.reserved tx.agentId)
    ⟨fun h => ⟨h.1, h.2⟩, fun h => ⟨h.pending, h.backed⟩⟩

/-- A settlement goes through only where as much is reserved. -/
theorem settle_needs_backing {actorId : String} {reservedCost cost : Int} {db db' : Db}
    (h : EnergyLedger.settleInTx actorId reservedCost cost db = .ok db') :
    reservedCost ≤ db.reserved actorId := by
  obtain ⟨row, hrow, -, -, hreserved, -⟩ := EnergyLedger.settleInTx_eq_ok h
  unfold Db.reserved
  rw [hrow]
  exact hreserved

variable [Externals]

/-- The database denies service, or the commit fails in it. -/
def Denied {α : Type} (x : KernelResult α) : Prop := ∃ e, DatabaseFailure e ∧ x = .error e

/-- A timeout that a commit follows found its hold still to be settled. -/
theorem outstanding_of_settled {past : Past} {tx : HoldExpireTx} {db db₁ db₂ : Db}
    (hallowed : ExpireAllowed past tx)
    (hresolve : EnvelopeStore.resolveHoldRequestInTx tx.holdId .timedOut none tx.now db = .ok db₁)
    (hsettle : settleIf (0 < tx.reservedCost) tx.agentId tx.reservedCost tx.commitmentCost db₁ =
      .ok db₂) : Outstanding db tx := by
  have hpos : 0 < tx.reservedCost := by
    obtain ⟨env, round, hold, envelopeId, holds, -, -, hwf⟩ := hallowed
    exact hwf.reservedCost.1
  obtain ⟨row, hrow, hpending, hdb₁⟩ := EnvelopeStore.resolveHoldRequestInTx_eq_ok hresolve
  constructor
  · rw [isPending_of_find hrow, hpending]
    rfl
  · have hledger : db₁.reserved tx.agentId = db.reserved tx.agentId := by
      rw [hdb₁]
      rfl
    unfold settleIf at hsettle
    rw [if_pos hpos] at hsettle
    rw [← hledger]
    exact settle_needs_backing hsettle

omit [Externals] in
/-- A resolution fails only where the hold is not pending, which is no failure of the
database. -/
theorem resolveHoldRequestInTx_error {holdId : String} {decision : HoldDecision}
    {instruction : Option String} {now : Nat} {db : Db} {e : KernelError}
    (h : EnvelopeStore.resolveHoldRequestInTx holdId decision instruction now db = .error e) :
    ¬ DatabaseFailure e ∧ db.isPending holdId = false := by
  unfold EnvelopeStore.resolveHoldRequestInTx at h
  unfold Db.isPending
  split at h
  · next hrow =>
    cases h
    refine ⟨?_, ?_⟩
    · rintro ⟨⟩
    · rw [hrow]
  · next row hrow =>
    split at h
    · next hresolved =>
      cases h
      refine ⟨?_, ?_⟩
      · rintro ⟨⟩
      · rw [hrow]
        exact decide_eq_false hresolved
    · cases h

omit [Externals] in
/-- A settlement fails by a check of its own, which is no failure of the database. -/
theorem settleInTx_error {actorId : String} {reservedCost cost : Int} {db : Db} {e : KernelError}
    (h : EnergyLedger.settleInTx actorId reservedCost cost db = .error e) : ¬ DatabaseFailure e := by
  intro hfailure
  unfold EnergyLedger.settleInTx at h
  split at h
  · cases h
    cases hfailure
  split at h
  · cases h
    cases hfailure
  simp only at h
  split at h
  · cases h
    cases hfailure
  split at h
  · cases h
    cases hfailure
  split at h
  · cases h
    cases hfailure
  · cases h

/-- A timeout fails in the database, or because its hold cannot be settled. -/
theorem expireHold_error {past : Past} {tx : HoldExpireTx} {db : Db} {e : KernelError}
    (haligned : LogAligned db) (hsafe : LedgerSafe db) (hallowed : ExpireAllowed past tx)
    (h : expireHold tx db = .error e) : DatabaseFailure e ↔ Outstanding db tx := by
  rcases bind_eq_error.mp h with hresolve | ⟨db₁, hresolve, h₁⟩
  · obtain ⟨hrefused, hresolved⟩ := resolveHoldRequestInTx_error hresolve
    refine iff_of_false hrefused fun hout => ?_
    rw [hout.pending] at hresolved
    cases hresolved
  rcases bind_eq_error.mp h₁ with hsettle | ⟨db₂, hsettle, h₂⟩
  · have hpos : 0 < tx.reservedCost ∧ tx.commitmentCost = commitmentCost tx.reservedCost := by
      obtain ⟨env, round, hold, envelopeId, holds, -, -, hwf⟩ := hallowed
      exact ⟨hwf.reservedCost.1, if_pos hwf.reservedCost.1⟩
    unfold settleIf at hsettle
    rw [if_pos hpos.1, hpos.2] at hsettle
    refine iff_of_false (settleInTx_error hsettle) fun hout => ?_
    -- the ledger is as before the hold was resolved
    have hsame : LedgerSafe db₁ ∧ db₁.reserved tx.agentId = db.reserved tx.agentId := by
      obtain ⟨row, -, -, rfl⟩ := EnvelopeStore.resolveHoldRequestInTx_eq_ok hresolve
      exact ⟨⟨hsafe.sameIds, hsafe.sound⟩, rfl⟩
    obtain ⟨db', hsettled⟩ := settle_backed hsame.1 hpos.1 (commitmentCost_nonneg _)
      (commitmentCost_le hpos.1) (hsame.2 ▸ hout.backed)
    rw [hsettled] at hsettle
    cases hsettle
  have hout := outstanding_of_settled hallowed hresolve hsettle
  refine iff_of_true ?_ hout
  have hsame : db₂.events = db.events ∧ db₂.auditHashes = db.auditHashes := by
    obtain ⟨row, -, -, rfl⟩ := EnvelopeStore.resolveHoldRequestInTx_eq_ok hresolve
    unfold settleIf at hsettle
    split at hsettle
    · obtain ⟨row', -, -, -, -, -, -, -, rfl⟩ := EnergyLedger.settleInTx_eq_ok hsettle
      exact ⟨rfl, rfl⟩
    · cases hsettle
      exact ⟨rfl, rfl⟩
  exact logged_error Prod.mk (haligned.congr hsame.1 hsame.2) h₂

/-- A timeout goes through, but for the database, exactly when its hold can
still be settled. -/
theorem expireHold_iff {past : Past} {tx : HoldExpireTx} {db : Db} (haligned : LogAligned db)
    (hsafe : LedgerSafe db) (hallowed : ExpireAllowed past tx) :
    (Denied (exec (.expireHold tx) db).1 ∨ ∃ event, (exec (.expireHold tx) db).1 = .ok event) ↔
      Outstanding db tx := by
  rcases exec_cases (.expireHold tx) db with ⟨event, db', htx, hexec⟩ | ⟨e, htx, hexec⟩
  · rw [hexec]
    obtain ⟨db₁, db₂, events, hashes, hresolve, hsettle, -, -⟩ := expireHold_eq_ok htx
    exact iff_of_true (.inr ⟨event, rfl⟩) (outstanding_of_settled hallowed hresolve hsettle)
  · rw [hexec, ← expireHold_error haligned hsafe hallowed htx]
    constructor
    · rintro (⟨e', hfailure, herr⟩ | ⟨event, hok⟩)
      · cases herr
        exact hfailure
      · cases hok
    · intro hfailure
      exact .inl ⟨e, hfailure, rfl⟩

/-! ## Along a run -/

/-- The step has a hold time out, with this answer. -/
def Expiring (t : KernelTransition) (tx : HoldExpireTx) (x : KernelResult EventRecord) : Prop :=
  ∃ id, t.label = .act id ⟨.expireHold tx, x⟩

/-- A step that expires a hold is the operation of a request in flight, with the answer
and the store that the transaction has. -/
theorem Expiring.step {t : KernelTransition} {tx : HoldExpireTx} {x : KernelResult EventRecord}
    {pool' : KernelPool} (h : Expiring t tx x) (hs : Step kernelSystem t.before t.label pool') :
    (∃ k past id, (⟨id, .vis (.expireHold tx) k, past⟩ : Task KernelSig (KernelResult Outcome)) ∈
      t.before.tasks) ∧ x = (exec (.expireHold tx) t.before.store).1 ∧
      pool'.store = (exec (.expireHold tx) t.before.store).2 := by
  obtain ⟨id, hlabel⟩ := h
  rw [hlabel] at hs
  obtain ⟨⟨k, past, hmem⟩, hanswer, hstore⟩ := hs.act_inv
  refine ⟨⟨k, past, id, hmem⟩, ?_, hstore⟩
  exact eq_of_heq (Performed.mk.inj hanswer).2

/-- A timeout that went through leaves the hold timed out. -/
theorem exec_timedOut {tx : HoldExpireTx} {db : Db} {event : EventRecord}
    (h : (exec (.expireHold tx) db).1 = .ok event) :
    ∃ hold, (exec (.expireHold tx) db).2.holdRequests.find? tx.holdId = some hold ∧
      hold.status = .timedOut := by
  rcases exec_cases (.expireHold tx) db with ⟨event', db', htx, hexec⟩ | ⟨e, -, hexec⟩
  · rw [hexec]
    obtain ⟨db₁, db₂, events, hashes, hresolve, hsettle, -, rfl⟩ := expireHold_eq_ok htx
    obtain ⟨row, hrow, -, rfl⟩ := EnvelopeStore.resolveHoldRequestInTx_eq_ok hresolve
    refine ⟨EnvelopeStore.resolved .timedOut none tx.now row, ?_, rfl⟩
    show db₂.holdRequests.find? tx.holdId = _
    rw [settleIf_frame hsettle]
    exact EnvelopeStore.find?_resolved hrow _ _ _
  · rw [hexec] at h
    cases h

/-- The hold is timed out. -/
def Db.isTimedOut (db : Db) (holdId : String) : Prop :=
  ∃ hold, db.holdRequests.find? holdId = some hold ∧ hold.status = .timedOut

/-- A hold that is timed out stays so. -/
theorem KernelRun.keepsTimedOut {tr : List KernelTransition} {before pool' : KernelPool}
    {l : Label KernelSig (KernelResult Outcome) Request} (h : KernelRun tr before)
    (hs : Step kernelSystem before l pool') {holdId : String} (htimedOut : before.store.isTimedOut holdId) :
    pool'.store.isTimedOut holdId := by
  obtain ⟨hold, hfind, hstatus⟩ := htimedOut
  have hlater : Later before.store pool'.store :=
    KernelRun.later (h.step hs) ⟨before, l⟩ List.mem_cons_self
  obtain ⟨hold', hfind', -, hsame⟩ := hlater.holds holdId hold hfind
  refine ⟨hold', hfind', ?_⟩
  rw [hsame (by rw [hstatus]; decide), hstatus]

/-- A hold that a run has expired is timed out from then on. -/
theorem KernelRun.timedOut {tr : List KernelTransition} {pool : KernelPool} (h : KernelRun tr pool) :
    ∀ t ∈ tr, ∀ tx event, Expiring t tx (.ok event) → pool.store.isTimedOut tx.holdId := by
  induction h with
  | start => exact fun _ h => (nomatch h)
  | @step tr before pool' l hr hs ih =>
    intro t ht tx event hexpiring
    rcases List.mem_cons.mp ht with rfl | ht
    · obtain ⟨-, hok, hstore⟩ := hexpiring.step hs
      rw [hstore]
      exact exec_timedOut hok.symm
    · exact KernelRun.keepsTimedOut hr hs (ih t ht tx event hexpiring)

/-- The hold is timed out, has stopped being pending once, and one event says
so. -/
structure TimedOutOnce (tr : List KernelTransition) (pool : KernelPool) (holdId : String) : Prop where
  timedOut : ∃ hold, pool.store.holdRequests.find? holdId = some hold ∧ hold.status = .timedOut
  once : departures holdId (history tr pool) = 1
  reported : (pool.store.reports holdId).length = 1

/-- Whatever happened in a run, a hold that is timed out at its end has ended once. -/
theorem KernelRun.endedOnce {tr : List KernelTransition} {pool : KernelPool} (h : KernelRun tr pool)
    {holdId : String} (htimedOut : pool.store.isTimedOut holdId) : TimedOutOnce tr pool holdId := by
  obtain ⟨hold, hfind, hstatus⟩ := htimedOut
  have hkept := KernelRun.resolutionKept h holdId
  have hone : pool.store.resolutions holdId = 1 := by
    unfold Db.resolutions
    rw [hfind]
    simp only [hstatus]
    rfl
  exact ⟨⟨hold, hfind, hstatus⟩, hkept.departures.trans hone, hkept.reports.trans hone⟩

/-- A hold that timed out once has done so for good. -/
theorem TimedOutOnce.later {tr : List KernelTransition} {before pool' : KernelPool}
    {l : Label KernelSig (KernelResult Outcome) Request} {holdId : String}
    (h : TimedOutOnce tr before holdId) (hr : KernelRun tr before)
    (hs : Step kernelSystem before l pool') : TimedOutOnce (⟨before, l⟩ :: tr) pool' holdId :=
  KernelRun.endedOnce (hr.step hs) (hr.keepsTimedOut hs h.timedOut)

/-- A hold that a run has expired is timed out by one step alone. -/
theorem KernelRun.timedOutOnce {tr : List KernelTransition} {pool : KernelPool}
    (h : KernelRun tr pool) {t : KernelTransition} (ht : t ∈ tr) {tx : HoldExpireTx}
    {event : EventRecord} (hexpiring : Expiring t tx (.ok event)) : TimedOutOnce tr pool tx.holdId :=
  h.endedOnce (KernelRun.timedOut h t ht tx event hexpiring)

/-- An agent's change is put on hold, to be answered within a second. -/
def agentOnShortHold : List (Turn Request) :=
  alone 30 (createAgent 0 "agent-1" 500) ++
    alone 30 (grantEnvelope 1 "agent-1" 100 [holdMutates, ("hold_timeout_secs", .num (.int 1))]) ++
    alone 30 (submitAt 2 "agent-1" .mutate "workspace/a" (.obj []))

end PunkgoKernel
