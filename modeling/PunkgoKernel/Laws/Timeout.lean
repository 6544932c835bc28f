import PunkgoKernel.Laws.Approval
import PunkgoKernel.Laws.Expiry

/-!
# A timeout is a rejection

The kernel settles a hold that is not approved in two places: when a human
rejects it, and when it is found timed out. The two are written apart, and the
second is a loop that stops at the first hold it cannot settle, where a human
who rejects one hold after the other goes on to the next.

What either does to one hold is `Settled`, and it composes along a list. The
loop and the rejections do the same, one settlement for each hold that timed
out, exactly when the energy of them all is still reserved and one fifth of each
reservation is exact in floating point (`timeout_is_rejection_iff`); and a
reservation below `2 ^ 53` has an exact fifth.
-/

namespace PunkgoKernel

open Relational (Table key)
open Resumption

/-! ## The settlement of some holds -/

/-- One fifth of a cost, rounded up. -/
def fifthUp (cost : Int) : Int := (cost + 4) / 5

/-- What the kernel computes as one fifth is one fifth. -/
def ExactFifth (cost : Int) : Prop := commitmentCost cost = fifthUp cost

/-- Below two to the fifty-third a cost is exact as a double, so that a fifth of it is
rounded up as it should be. -/
theorem exactFifth_of_lt {cost : Int} (hpos : 0 ≤ cost) (h : cost < 2 ^ 53) : ExactFifth cost := by
  have hfifth := Float64.ceilFifth_eq (n := cost.toNat) (by omega)
  unfold ExactFifth commitmentCost fifthUp
  omega

/-- What some holds take from an actor, each by its reservation. -/
def takenBy (cost : Int → Int) (holds : List HoldRequest) (x : String) : Int :=
  (holds.map fun hold => amountFor hold.agentId (cost hold.reservedCost) x).sum

/-- The ledger after a hold is settled. -/
def settleRow (cost : Int → Int) (ledger : Table EnergyRow) (hold : HoldRequest) :
    Table EnergyRow :=
  match ledger.find? hold.agentId with
  | some row => EnergyLedger.put ledger hold.agentId
      (row.energyBalance - cost hold.reservedCost) (row.reservedEnergy - hold.reservedCost)
  | none => ledger

/-- What the event of a settlement is about: the hold, its reservation, and what
was debited. -/
def EventRecord.settlement (event : EventRecord) : String × Int × Int :=
  (event.target, event.reservedEnergy, event.settledEnergy)

/-- Some holds are settled in order, each for a cost of its reservation: the
cost is debited, the reservation is released whole, one event is appended, and
nothing else changes. -/
structure Settled (cost : Int → Int) (status : HoldStatus) (holds : List HoldRequest)
    (db db' : Db) : Prop where
  ledger : db'.energyLedger = holds.foldl (settleRow cost) db.energyLedger
  balance : ∀ x, db'.balance x = db.balance x - takenBy cost holds x
  reserved : ∀ x, db'.reserved x = db.reserved x - takenBy id holds x
  events : ∃ appended, db'.events.rows = db.events.rows ++ appended ∧
    appended.map EventRecord.settlement = holds.map fun hold =>
      (s!"ledger/hold/{hold.holdId}", hold.reservedCost, cost hold.reservedCost)
  resolved : ∀ hold ∈ holds, ∃ row,
    db'.holdRequests.find? hold.holdId = some row ∧ row.status = status
  others : ∀ holdId, holdId ∉ holds.map HoldRequest.holdId →
    db'.holdRequests.find? holdId = db.holdRequests.find? holdId
  envelopes : db'.envelopes = db.envelopes
  actors : db'.actors = db.actors

/-- What a list of holds takes: its first hold, and the rest. -/
theorem takenBy_cons (cost : Int → Int) (hold : HoldRequest) (rest : List HoldRequest) (x : String) :
    takenBy cost (hold :: rest) x =
      amountFor hold.agentId (cost hold.reservedCost) x + takenBy cost rest x := List.sum_cons

/-- What a list of holds takes is a matter of their agents and reservations alone. -/
theorem takenBy_eq (cost : Int → Int) (holds : List HoldRequest) (x : String) :
    takenBy cost holds x =
      ((holds.map fun hold => (hold.agentId, hold.reservedCost)).map fun hold =>
        amountFor hold.1 (cost hold.2) x).sum := by
  unfold takenBy
  rw [List.map_map]
  rfl

/-- Nothing is settled where there is no hold. -/
theorem Settled.nil (cost : Int → Int) (status : HoldStatus) (db : Db) :
    Settled cost status [] db db where
  ledger := rfl
  balance _ := (sub_zero _).symm
  reserved _ := (sub_zero _).symm
  events := ⟨[], (List.append_nil _).symm, rfl⟩
  resolved := fun _ h => (nomatch h)
  others _ _ := rfl
  envelopes := rfl
  actors := rfl

/-- One hold, and then the rest. -/
theorem Settled.cons {cost : Int → Int} {status : HoldStatus} {hold : HoldRequest}
    {rest : List HoldRequest} {db db₁ db' : Db} (hnew : hold.holdId ∉ rest.map HoldRequest.holdId)
    (h : Settled cost status [hold] db db₁) (h' : Settled cost status rest db₁ db') :
    Settled cost status (hold :: rest) db db' where
  ledger := by rw [h'.ledger, h.ledger]; rfl
  balance x := by
    have hone := h.balance x
    rw [takenBy_cons] at hone ⊢
    rw [h'.balance, hone]
    show _ - (_ + 0) - _ = _
    omega
  reserved x := by
    have hone := h.reserved x
    rw [takenBy_cons] at hone ⊢
    rw [h'.reserved, hone]
    show _ - (_ + 0) - _ = _
    omega
  events := by
    obtain ⟨first, hfirst, hbooked⟩ := h.events
    obtain ⟨more, hmore, hbooked'⟩ := h'.events
    refine ⟨first ++ more, ?_, ?_⟩
    · rw [hmore, hfirst, List.append_assoc]
    · rw [List.map_append, hbooked, hbooked']
      rfl
  resolved := by
    intro hold' hmem
    rcases List.mem_cons.mp hmem with rfl | hmem
    · rw [h'.others _ hnew]
      exact h.resolved _ List.mem_cons_self
    · exact h'.resolved hold' hmem
  others := by
    intro holdId hother
    rw [List.map_cons, List.mem_cons, not_or] at hother
    rw [h'.others _ hother.2, h.others]
    rw [List.map_singleton, List.mem_singleton]
    exact hother.1
  envelopes := h'.envelopes.trans h.envelopes
  actors := h'.actors.trans h.actors

variable [Externals]

/-- The writes of either transaction, for a hold with something reserved. -/
theorem settled_one {hold : HoldRequest} {decision : HoldDecision} {instruction : Option String}
    {now : Nat} {db db₁ db₂ : Db} {draft event : EventRecord} {events : Table EventRecord}
    {hashes : Table AuditHash}
    (hresolve : EnvelopeStore.resolveHoldRequestInTx hold.holdId decision instruction now db =
      .ok db₁)
    (hsettle : EnergyLedger.settleInTx hold.agentId hold.reservedCost
      (commitmentCost hold.reservedCost) db₁ = .ok db₂)
    (hcommit : Commits draft db₂ event events hashes)
    (hdraft : draft.settlement = (s!"ledger/hold/{hold.holdId}", hold.reservedCost,
      commitmentCost hold.reservedCost)) :
    Settled commitmentCost decision.status [hold] db
      { db₂ with events := events, auditHashes := hashes } := by
  obtain ⟨row, hrow, -, hdb₁⟩ := EnvelopeStore.resolveHoldRequestInTx_eq_ok hresolve
  have henergy := settleInTx_energy hsettle
  obtain ⟨energy, henergyRow, -, -, -, -, -, -, hdb₂⟩ := EnergyLedger.settleInTx_eq_ok hsettle
  have hkept : db₁.energyLedger = db.energyLedger ∧ db₁.events = db.events ∧
      db₁.envelopes = db.envelopes ∧ db₁.actors = db.actors := by
    rw [hdb₁]
    exact ⟨rfl, rfl, rfl, rfl⟩
  have hkept₂ : db₂.events = db₁.events ∧ db₂.envelopes = db₁.envelopes ∧
      db₂.actors = db₁.actors ∧ db₂.holdRequests = db₁.holdRequests := by
    rw [hdb₂]
    exact ⟨rfl, rfl, rfl, rfl⟩
  have hholds : db₂.holdRequests = db.holdRequests.modify hold.holdId
      (EnvelopeStore.resolved decision instruction now) (fun _ => rfl) := by
    rw [hkept₂.2.2.2, hdb₁]
  have hsum : ∀ cost x, takenBy cost [hold] x = amountFor hold.agentId (cost hold.reservedCost) x :=
    fun cost x => add_zero _
  refine ⟨?_, fun x => ?_, fun x => ?_, ⟨[event], ?_, ?_⟩, ?_, ?_, ?_, ?_⟩
  · show db₂.energyLedger = settleRow commitmentCost db.energyLedger hold
    unfold settleRow
    rw [hkept.1] at henergyRow
    rw [henergyRow, hdb₂, hkept.1]
  · rw [hsum]
    have hbalance : db₁.balance x = db.balance x := by
      unfold Db.balance
      rw [hkept.1]
    exact (henergy x).1.trans (congrArg (· - _) hbalance)
  · rw [hsum]
    have hreserved : db₁.reserved x = db.reserved x := by
      unfold Db.reserved
      rw [hkept.1]
    exact (henergy x).2.trans (congrArg (· - _) hreserved)
  · show events.rows = _
    rw [(Table.insert?_eq_some hcommit.inserted).2, hkept₂.1, hkept.2.1]
  · rw [hcommit.placed]
    exact congrArg (fun s => [s]) hdraft
  · intro hold' hmem
    obtain rfl := List.mem_singleton.mp hmem
    refine ⟨EnvelopeStore.resolved decision instruction now row, ?_, rfl⟩
    show db₂.holdRequests.find? hold'.holdId = _
    rw [hholds]
    exact EnvelopeStore.find?_resolved hrow _ _ _
  · intro holdId hother
    rw [List.map_singleton, List.mem_singleton] at hother
    show db₂.holdRequests.find? holdId = _
    rw [hholds]
    have hkey : ∀ r, key (EnvelopeStore.resolved decision instruction now r) = key r := fun _ => rfl
    exact (Table.find?_modify db.holdRequests hold.holdId holdId _ hkey).trans (if_neg hother)
  · exact hkept₂.2.1.trans hkept.2.2.1
  · exact hkept₂.2.2.1.trans hkept.2.2.2

/-! ## One hold -/

/-- Some pending holds can be settled: what they reserved is still reserved. -/
structure Backed (holds : List HoldRequest) (db : Db) : Prop where
  pending : ∀ hold ∈ holds, db.holdRequests.find? hold.holdId = some hold ∧
    hold.status = .pending ∧ hold.WellFormed
  distinct : (holds.map HoldRequest.holdId).Nodup
  reserved : ∀ x, takenBy id holds x ≤ db.reserved x

/-- The invariants of a database that a settlement goes by. -/
structure InOrder (db : Db) : Prop where
  aligned : LogAligned db
  safe : LedgerSafe db

/-- What operations do keeps the log in order. -/
theorem InOrder.effects (hdistinct : DistinctPositions) {op : Op} {db db' : Db}
    (h : InOrder db) (heffects : Effects op db db') : InOrder db' :=
  ⟨heffects.keep (LogAligned.effect hdistinct) h.aligned, heffects.keep LedgerSafe.effect h.safe⟩

omit [Externals] in
/-- No hold has less than nothing reserved. -/
theorem takenBy_nonneg {holds : List HoldRequest} (h : ∀ hold ∈ holds, hold.WellFormed)
    (x : String) : 0 ≤ takenBy id holds x := by
  refine List.sum_nonneg ?_
  intro amount hmem
  obtain ⟨hold, hhold, rfl⟩ := List.mem_map.mp hmem
  have hpos := (h hold hhold).reservedCost.1
  unfold amountFor
  simp only [id]
  split <;> omega

omit [Externals] in
/-- Where the holds are backed, so is the first of them. -/
theorem Backed.head {hold : HoldRequest} {rest : List HoldRequest} {db : Db}
    (h : Backed (hold :: rest) db) : hold.reservedCost ≤ db.reserved hold.agentId := by
  have htaken := h.reserved hold.agentId
  have hrest := takenBy_nonneg (fun h' hmem => (h.pending h' (List.mem_cons_of_mem _ hmem)).2.2)
    hold.agentId
  rw [takenBy_cons, amountFor, if_pos rfl] at htaken
  simp only [id] at htaken
  omega

omit [Externals] in
/-- Settling the first of them leaves the others backed: it takes back only what was
reserved for it. -/
theorem Backed.tail {cost : Int → Int} {status : HoldStatus} {hold : HoldRequest}
    {rest : List HoldRequest} {db db₁ : Db} (h : Backed (hold :: rest) db)
    (hsettled : Settled cost status [hold] db db₁) : Backed rest db₁ := by
  have hdistinct := List.nodup_cons.mp h.distinct
  constructor
  · intro hold' hmem
    obtain ⟨hrow, hpending⟩ := h.pending hold' (List.mem_cons_of_mem _ hmem)
    refine ⟨?_, hpending⟩
    rw [hsettled.others, hrow]
    rw [List.map_singleton, List.mem_singleton]
    intro hid
    exact hdistinct.1 (hid ▸ List.mem_map_of_mem hmem)
  · exact hdistinct.2
  · intro x
    have htaken := h.reserved x
    have hone := hsettled.reserved x
    rw [takenBy_cons] at htaken hone
    rw [hone]
    show _ ≤ _ - (_ + 0)
    omega

/-- The timeout of a backed hold settles it, unless the database denies it. -/
theorem expire_one (hdistinct : DistinctPositions) {env : Env} {round : Nat} {hold : HoldRequest}
    {rest : List HoldRequest} {db db₁ : Db} {r : KernelResult EventRecord} (horder : InOrder db)
    (hbacked : Backed (hold :: rest) db) (hserved : ∀ e, r = .error e → ¬ DatabaseFailure e)
    (h : Attempt.Executes database (call (.expireHold (expireTx env round hold))) db r db₁) :
    (∃ event, r = .ok event) ∧ Settled commitmentCost .timedOut [hold] db db₁ ∧ InOrder db₁ := by
  obtain ⟨hrow, hpending, hwf⟩ := hbacked.pending hold List.mem_cons_self
  have hpos := hwf.reservedCost.1
  cases r with
  | error e =>
    -- the hold is still to be settled, so only the database can refuse it
    exfalso
    have htx := executes_call_failed (fun _ hop => by cases hop) (hserved e rfl) h
    have hallowed : ExpireAllowed [⟨.listPendingHoldsForEnvelope "", .ok [hold]⟩]
        (expireTx env round hold) :=
      .intro env round hold "" [hold] List.mem_cons_self List.mem_cons_self hwf
    refine hserved e rfl ((expireHold_error horder.aligned horder.safe hallowed htx).mpr ⟨?_, ?_⟩)
    · show db.isPending hold.holdId = true
      rw [isPending_of_find hrow, hpending]
      rfl
    · exact hbacked.head
  | ok event =>
    have htx : expireHold (expireTx env round hold) db = .ok (event, db₁) :=
      executes_call_ok (fun _ hop => by cases hop) h
    refine ⟨⟨event, rfl⟩, ?_, horder.effects hdistinct (expireHold_effects htx)⟩
    obtain ⟨db₂, db₃, events, hashes, hresolve, hsettle, hcommit, rfl⟩ := expireHold_eq_ok htx
    have hcost : (expireTx env round hold).commitmentCost = commitmentCost hold.reservedCost :=
      if_pos hpos
    unfold settleIf at hsettle
    rw [if_pos (show 0 < (expireTx env round hold).reservedCost from hpos), hcost] at hsettle
    refine settled_one hresolve hsettle hcommit ?_
    show (_, _, (expireTx env round hold).commitmentCost) = _
    rw [hcost]
    rfl

/-- The rejection of a backed hold by a human settles it the same way. -/
theorem reject_one (hdistinct : DistinctPositions) {envs : Nat → Env} {human : Action}
    {instruction : Option String} {caller : ActorRecord} {hold : HoldRequest}
    {rest : List HoldRequest} {db db₁ : Db} {r : KernelResult Outcome} (horder : InOrder db)
    (hbacked : Backed (hold :: rest) db)
    (hcaller : db.actors.find? human.actorId = some caller) (hhuman : caller.actorType = .human)
    (hintime : InTime (envs 0) hold db) (hserved : ∀ e, r = .error e → ¬ DatabaseFailure e)
    (h : Attempt.Executes database
      (executeHoldResponse envs human hold.holdId .reject instruction) db r db₁) :
    Settled commitmentCost .rejected [hold] db db₁ ∧ InOrder db₁ := by
  obtain ⟨hrow, hpending, hwf⟩ := hbacked.pending hold List.mem_cons_self
  have hpos := hwf.reservedCost.1
  rcases executeHoldResponse_pending hcaller hhuman hrow hpending hintime h with
    ⟨e, hfailure, rfl⟩ | ⟨e, htx, rfl⟩ | ⟨event, commitment, htx, rfl⟩
  · exact absurd hfailure (hserved e rfl)
  · exact absurd (resolveHold_error horder.aligned horder.safe hrow hpending
      (fun _ => hbacked.head) htx) (hserved e rfl)
  refine ⟨?_, horder.effects hdistinct (resolveHold_effects htx)⟩
  obtain ⟨db₂, db₃, events, hashes, rfl, hresolve, hsettle, hcommit, rfl⟩ := resolveHold_eq_ok htx
  have hsettles : (holdResolveTx (envs 0) human hold.holdId .reject instruction hold).decision =
      .reject ∧ 0 < (holdResolveTx (envs 0) human hold.holdId .reject instruction hold).reservedCost :=
    ⟨rfl, hpos⟩
  have hcost : (holdResolveTx (envs 0) human hold.holdId .reject instruction hold).cost =
      commitmentCost hold.reservedCost := if_pos hsettles
  unfold settleIf at hsettle
  rw [if_pos hsettles, hcost] at hsettle
  refine settled_one hresolve hsettle hcommit ?_
  show (_, _, (holdResolveTx (envs 0) human hold.holdId .reject instruction hold).cost) = _
  rw [hcost]
  rfl

/-! ## All of them -/

/-- The loop settles every backed hold that timed out. -/
theorem expireListed_settled (hdistinct : DistinctPositions) {env : Env} {secs : Int} {round : Nat}
    {listed : List HoldRequest} {db db' : Db} {r : KernelResult Unit} (horder : InOrder db)
    (hbacked : Backed (listed.filter (late env secs)) db)
    (hserved : ∀ e, r = .error e → ¬ DatabaseFailure e)
    (h : Attempt.Executes database (expireListed env secs round listed) db r db') :
    r = .ok () ∧ Settled commitmentCost .timedOut (listed.filter (late env secs)) db db' := by
  induction listed generalizing round db with
  | nil =>
    obtain ⟨rfl, rfl⟩ := h
    exact ⟨rfl, .nil _ _ _⟩
  | cons hold rest ih =>
    unfold expireListed at h
    by_cases hlate : late env secs hold = true
    · rw [if_pos (show timedOut _ _ _ = true from hlate)] at h
      rw [List.filter_cons_of_pos hlate] at hbacked ⊢
      rcases Attempt.executes_bind.mp h with ⟨event, db₁, hcall, h₁⟩ | ⟨e, rfl, hcall⟩
      · obtain ⟨-, hone, horder₁⟩ := expire_one hdistinct horder hbacked (fun e herr => by cases herr)
          hcall
        obtain ⟨rfl, hrest⟩ := ih horder₁ (hbacked.tail hone) h₁
        exact ⟨rfl, hone.cons (List.nodup_cons.mp hbacked.distinct).1 hrest⟩
      · obtain ⟨⟨event, hok⟩, -⟩ := expire_one hdistinct horder hbacked
          (fun e' herr => by cases herr; exact hserved e rfl) hcall
        cases hok
    · rw [if_neg (show ¬ timedOut _ _ _ = true from hlate)] at h
      rw [List.filter_cons_of_neg hlate] at hbacked ⊢
      exact ih horder hbacked h

/-- A human rejects some holds, one response after the other, whether each is
granted or not; the database denies none. -/
inductive RejectsInTurn (envs : HoldRequest → Nat → Env) (human : Action)
    (instruction : HoldRequest → Option String) : List HoldRequest → Db → Db → Prop where
  | nil {db : Db} : RejectsInTurn envs human instruction [] db db
  | cons {hold : HoldRequest} {rest : List HoldRequest} {db db₁ db' : Db} {r : KernelResult Outcome} :
      Attempt.Executes database
        (executeHoldResponse (envs hold) human hold.holdId .reject (instruction hold)) db r db₁ →
      (∀ e, r = .error e → ¬ DatabaseFailure e) →
      RejectsInTurn envs human instruction rest db₁ db' →
      RejectsInTurn envs human instruction (hold :: rest) db db'

/-- Rejections in turn, each before its deadline, settle every hold of the list as
rejected. -/
theorem RejectsInTurn.settled (hdistinct : DistinctPositions) {envs : HoldRequest → Nat → Env}
    {human : Action} {instruction : HoldRequest → Option String} {caller : ActorRecord}
    {holds : List HoldRequest} {db db' : Db} (h : RejectsInTurn envs human instruction holds db db')
    (horder : InOrder db) (hbacked : Backed holds db)
    (hcaller : db.actors.find? human.actorId = some caller) (hhuman : caller.actorType = .human)
    (hintime : ∀ hold ∈ holds, InTime (envs hold 0) hold db) :
    Settled commitmentCost .rejected holds db db' := by
  induction h with
  | nil => exact .nil _ _ _
  | cons hone hserved _ ih =>
    obtain ⟨hsettled, horder₁⟩ := reject_one hdistinct horder hbacked hcaller hhuman
      (hintime _ List.mem_cons_self) hserved hone
    refine hsettled.cons (List.nodup_cons.mp hbacked.distinct).1 ?_
    refine ih horder₁ (hbacked.tail hsettled) (by rw [hsettled.actors, hcaller]) ?_
    intro hold hmem envelope timeoutSecs hfind
    rw [hsettled.envelopes] at hfind
    exact hintime hold (List.mem_cons_of_mem _ hmem) envelope timeoutSecs hfind

/-! ## A response that comes too late -/

omit [Externals] in
/-- The error of a response to a hold that timed out. -/
def tooLate (holdId : String) : KernelError :=
  .policyViolation s!"hold_request {holdId} has timed out and was auto-rejected"

omit [Externals] in
/-- A failure of the database is not the answer to a late response. -/
theorem databaseFailure_ne_tooLate {e : KernelError} (h : DatabaseFailure e) (holdId : String) :
    e ≠ tooLate holdId := by
  rintro rfl
  cases h

omit [Externals] in
/-- Nor is the failure of a resolution, which says that the hold is not pending. -/
theorem resolveHoldRequestInTx_ne_tooLate {a : String} {decision : HoldDecision}
    {instruction : Option String} {now : Nat} {db : Db} {e : KernelError}
    (h : EnvelopeStore.resolveHoldRequestInTx a decision instruction now db = .error e)
    (holdId : String) : e ≠ tooLate holdId := by
  have htext : e = .policyViolation s!"hold_request {a} not found or already resolved" := by
    unfold EnvelopeStore.resolveHoldRequestInTx at h
    split at h
    · exact (Except.error.inj h).symm
    · split at h
      · exact (Except.error.inj h).symm
      · cases h
  rw [htext]
  intro heq
  exact absurd (ends_alike (KernelError.policyViolation.inj heq)) (by decide)

omit [Externals] in
/-- Nor is the failure of a settlement. -/
theorem settleInTx_ne_tooLate {actorId : String} {reservedCost cost : Int} {db : Db}
    {e : KernelError} (h : EnergyLedger.settleInTx actorId reservedCost cost db = .error e)
    (holdId : String) : e ≠ tooLate holdId := by
  rintro rfl
  rcases settleInTx_violation h with htext | ⟨rest, htext⟩
  · rw [String.append_assoc, ← String.append_empty (s := "settle values cannot be negative")] at htext
    exact absurd (begin_alike htext) (by decide)
  · rw [String.append_assoc] at htext
    exact absurd (begin_alike htext) (by decide)

omit [Externals] in
/-- Nor is the failure of a settlement that may be left out. -/
theorem settleIf_ne_tooLate {settles : Prop} [Decidable settles] {actorId : String}
    {reservedCost cost : Int} {db : Db} {e : KernelError}
    (h : settleIf settles actorId reservedCost cost db = .error e) (holdId : String) :
    e ≠ tooLate holdId := by
  unfold settleIf at h
  split at h
  · exact settleInTx_ne_tooLate h holdId
  · cases h

/-- Nor is the failure of the audit log. -/
theorem appendAudit_ne_tooLate {event : EventRecord} {db : Db} {e : KernelError}
    (h : appendAudit event db = .error e) (holdId : String) : e ≠ tooLate holdId := by
  unfold appendAudit at h
  split at h
  · cases h
  · cases h
    rintro ⟨⟩

/-- What both ends of a hold do, the resolution, the settlement and the event, fails
with a text of its own. -/
theorem ending_ne_tooLate {α : Type} {holdId : String} {decision : HoldDecision}
    {instruction : Option String} {now : Nat} {settles : Prop} [Decidable settles]
    {agentId : String} {reservedCost cost : Int} {draft : EventRecord} {db : Db} {e : KernelError}
    (answer : EventRecord → Db → α)
    (h : (do
      let db ← EnvelopeStore.resolveHoldRequestInTx holdId decision instruction now db
      let db ← settleIf settles agentId reservedCost cost db
      let (event, db) ← EventLog.appendInTx draft db
      let db ← appendAudit event db
      .ok (answer event db) : KernelResult α) = .error e) (late : String) : e ≠ tooLate late := by
  rcases bind_eq_error.mp h with hresolve | ⟨db₁, -, h₁⟩
  · exact resolveHoldRequestInTx_ne_tooLate hresolve late
  rcases bind_eq_error.mp h₁ with hsettle | ⟨db₂, -, h₂⟩
  · exact settleIf_ne_tooLate hsettle late
  rcases bind_eq_error.mp h₂ with happend | ⟨⟨event, db₃⟩, -, h₃⟩
  · exact databaseFailure_ne_tooLate (appendInTx_error happend) late
  rcases bind_eq_error.mp h₃ with haudit | ⟨db₄, -, h₄⟩
  · exact appendAudit_ne_tooLate haudit late
  · cases h₄

/-- Nor is the failure of a timeout. -/
theorem expireHold_ne_tooLate {tx : HoldExpireTx} {db : Db} {e : KernelError}
    (h : expireHold tx db = .error e) (holdId : String) : e ≠ tooLate holdId :=
  ending_ne_tooLate Prod.mk h holdId

/-- Nor is the failure of a response that reached its transaction. -/
theorem resolveHold_ne_tooLate {tx : HoldResolveTx} {db : Db} {e : KernelError}
    (h : resolveHold tx db = .error e) (holdId : String) : e ≠ tooLate holdId :=
  ending_ne_tooLate (fun event db => ((event, tx.cost), db)) h holdId

/-- A call that fails so is refused so by its transaction. -/
theorem executes_call_tooLate {op : Op} (hop : ∀ tx, op ≠ .consumeBudget tx) {db db' : Db}
    {holdId : String} (h : Attempt.Executes database (call op) db (.error (tooLate holdId)) db') :
    transaction op db = .error (tooLate holdId) := by
  refine executes_call_failed hop ?_ h
  exact fun hfailure => databaseFailure_ne_tooLate hfailure holdId rfl

/-- A loop that ends well has every listed hold that timed out timed out. -/
theorem expireListed_timedOut {env : Env} {secs : Int} {round : Nat} {listed : List HoldRequest}
    {db db' : Db} (h : Attempt.Executes database (expireListed env secs round listed) db (.ok ()) db')
    {hold : HoldRequest} (hmem : hold ∈ listed) (hlate : late env secs hold = true) :
    ∃ row, db'.holdRequests.find? hold.holdId = some row ∧ row.status = .timedOut := by
  induction listed generalizing round db with
  | nil => cases hmem
  | cons first rest ih =>
    unfold expireListed at h
    rcases List.mem_cons.mp hmem with rfl | hmem
    · rw [if_pos (show timedOut _ _ _ = true from hlate)] at h
      rcases Attempt.executes_bind.mp h with ⟨event, db₁, hcall, h₁⟩ | ⟨e, herr, -⟩
      swap
      · cases herr
      have htx : transaction (.expireHold (expireTx env round hold)) db = .ok (event, db₁) :=
        executes_call_ok (fun _ hop => by cases hop) hcall
      have hexec : exec (.expireHold (expireTx env round hold)) db = (.ok event, db₁) := by
        unfold exec
        rw [htx]
      obtain ⟨row, hrow, hstatus⟩ := exec_timedOut (congrArg Prod.fst hexec)
      rw [hexec] at hrow
      -- what is resolved stays so
      obtain ⟨row', hrow', -, hkept⟩ := (executes_later h₁).holds _ row hrow
      exact ⟨row', hrow', (hkept (by rw [hstatus]; decide)).trans hstatus⟩
    · split at h
      · rcases Attempt.executes_bind.mp h with ⟨event, db₁, -, h₁⟩ | ⟨e, herr, -⟩
        · exact ih h₁ hmem
        · cases herr
      · exact ih h hmem

/-- A scan for timed-out holds never ends with the answer to a late response. -/
theorem expireListed_ne_tooLate {env : Env} {secs : Int} {round : Nat} {listed : List HoldRequest}
    {db db' : Db} {holdId : String} : ¬ Attempt.Executes database
      (expireListed env secs round listed) db (.error (tooLate holdId)) db' := by
  intro h
  induction listed generalizing round db with
  | nil => cases h.1
  | cons first rest ih =>
    unfold expireListed at h
    split at h
    · rcases Attempt.executes_bind.mp h with ⟨event, db₁, -, h₁⟩ | ⟨e, herr, hcall⟩
      · exact ih h₁
      · cases herr
        exact expireHold_ne_tooLate (executes_call_tooLate (fun _ hop => by cases hop) hcall) holdId rfl
    · exact ih h

/-- Where a response is refused as late, and its clock is read no later than the scan's,
the hold is timed out by then. -/
theorem refuseTimedOut_tooLate {env : Env} {hold : HoldRequest} {holdId : String} {db db' : Db}
    (hclock : nowMillisU64 (env.clock .responseTimeout) ≤ nowMillisU64 (env.clock .expiryScan))
    (hrow : db.holdRequests.find? hold.holdId = some hold) (hpending : hold.status = .pending)
    (h : Attempt.Executes database (refuseTimedOut env hold) db (.error (tooLate holdId)) db') :
    ∃ row, db'.holdRequests.find? hold.holdId = some row ∧ row.status = .timedOut := by
  rcases Attempt.executes_bind.mp h with ⟨found, db₀, hcall, h₁⟩ | ⟨e, -, houtcome⟩
  swap
  · obtain ⟨x, hx, -⟩ := Attempt.executes_outcome.mp houtcome
    cases hx
  obtain ⟨x, hx, hread⟩ := Attempt.executes_outcome.mp hcall
  cases hx
  have hreading : Reading (call (.getEnvelope hold.envelopeId)) := reading_call rfl
  obtain rfl := hreading.executes hread
  split at h₁
  swap
  · cases h₁.1
  split at h₁
  swap
  · cases h₁.1
  next timeoutSecs htimeout =>
  split at h₁
  swap
  · cases h₁.1
  next hlate =>
  rcases Attempt.executes_bind.mp h₁ with ⟨u, db₁, hexpire, -, rfl⟩ | ⟨e, herr, hexpire⟩
  · -- the scan went through, and its list has the hold
    rcases Attempt.executes_bind.mp hexpire with ⟨holds, db₂, hlist, hloop⟩ | ⟨e, herr, -⟩
    swap
    · cases herr
    have htx := executes_call_ok (fun _ hop => by cases hop) hlist
    obtain ⟨rfl, rfl⟩ : holds = EnvelopeStore.listPendingHoldsForEnvelope hold.envelopeId db₀ ∧
        db₂ = db₀ := by
      cases htx
      exact ⟨rfl, rfl⟩
    refine expireListed_timedOut hloop (EnvelopeStore.mem_listPendingHolds.mpr
      ⟨Table.mem_of_find? hrow, hpending, rfl⟩) ?_
    have hearlier := hlate.2
    unfold late timedOut at *
    simp only [decide_eq_true_eq] at *
    omega
  · cases herr
    rcases Attempt.executes_bind.mp hexpire with ⟨holds, db₂, -, hloop⟩ | ⟨e, herr, hlist⟩
    · exact absurd hloop expireListed_ne_tooLate
    · cases herr
      cases executes_call_tooLate (fun _ hop => by cases hop) hlist

/-- A response that is refused because its hold timed out leaves the hold timed
out, unless the clock goes backwards between the test and the scan. -/
theorem executeHoldResponse_tooLate {envs : Nat → Env} {action : Action} {holdId : String}
    {decision : HoldDecision} {instruction : Option String} {db db' : Db}
    (hclock : nowMillisU64 ((envs 0).clock .responseTimeout) ≤
      nowMillisU64 ((envs 0).clock .expiryScan))
    (h : Attempt.Executes database (executeHoldResponse envs action holdId decision instruction) db
      (.error (tooLate holdId)) db') :
    ∃ hold, db'.holdRequests.find? holdId = some hold ∧ hold.status = .timedOut := by
  unfold executeHoldResponse at h
  rcases Attempt.executes_bind.mp h with ⟨caller, db₀, hfind, h₁⟩ | ⟨e, herr, hfind⟩
  swap
  · cases herr
    rcases Attempt.executes_bind.mp hfind with ⟨found, db₁, -, hnone⟩ | ⟨e, herr, hcall⟩
    · cases found <;> cases hnone.1
    · cases herr
      cases executes_call_tooLate (fun _ hop => by cases hop) hcall
  rcases Attempt.executes_bind.mp h₁ with ⟨u, db₁, -, h₂⟩ | ⟨e, herr, hhuman, -⟩
  swap
  · cases herr
    unfold requireHuman at hhuman
    split at hhuman
    · have htext := KernelError.policyViolation.inj (Except.error.inj hhuman)
      simp only [String.append_assoc] at htext
      exact absurd (begin_alike htext) (by decide)
    · cases hhuman
  rcases Attempt.executes_bind.mp h₂ with ⟨hold, db₂, hfound, h₃⟩ | ⟨e, herr, hfound⟩
  swap
  · cases herr
    rcases Attempt.executes_bind.mp hfound with ⟨found, db₂, -, hnone⟩ | ⟨e, herr, hcall⟩
    · cases found with
      | some hold => cases hnone.1
      | none =>
        -- the two texts have the id in them, and differ in length without it
        have htext := KernelError.policyViolation.inj (Except.error.inj hnone.1)
        have hlength := congrArg String.length htext
        rw [String.length_append, String.length_append, String.length_append] at hlength
        change 13 + holdId.length + 36 = 24 + holdId.length at hlength
        omega
    · cases herr
      cases executes_call_tooLate (fun _ hop => by cases hop) hcall
  obtain ⟨hrow, rfl⟩ := findHold_ok hfound
  rcases Attempt.executes_bind.mp h₃ with ⟨u, db₃, ⟨hpending, rfl⟩, h₄⟩ | ⟨e, herr, hpending, -⟩
  swap
  · cases herr
    unfold requirePending at hpending
    split at hpending
    · have htext := KernelError.policyViolation.inj (Except.error.inj hpending)
      exact absurd (ends_alike htext) (by decide)
    · cases hpending
  have hid : hold.holdId = holdId := Table.key_of_find? hrow
  rcases Attempt.executes_bind.mp h₄ with ⟨u, db₄, -, h₅⟩ | ⟨e, herr, hlate⟩
  · rcases Attempt.executes_bind.mp h₅ with ⟨⟨event, commitment⟩, db₅, -, h₆⟩ | ⟨e, herr, hcall⟩
    · simp only at h₆
      split at h₆
      · cases h₆.1
      · cases h₆.1
    · cases herr
      exact absurd rfl (resolveHold_ne_tooLate
        (executes_call_tooLate (fun _ hop => by cases hop) hcall) holdId)
  · cases herr
    rw [← hid] at hrow ⊢
    exact refuseTimedOut_tooLate hclock hrow (requirePending_ok hpending.symm) hlate

/-! ## A timeout and a rejection -/

/-- The holds of an envelope that are pending past their time, in the order they
were triggered. -/
def lateHolds (env : Env) (envelopeId : String) (holdTimeoutSecs : Int) (db : Db) :
    List HoldRequest :=
  (EnvelopeStore.listPendingHoldsForEnvelope envelopeId db).filter (late env holdTimeoutSecs)

/-- A timeout does what a rejection would: what the scan left, against what the
rejections left. -/
structure AsRejected (holds : List HoldRequest) (db expired rejected : Db) : Prop where
  settled : Settled fifthUp .timedOut holds db expired
  rejects : Settled fifthUp .rejected holds db rejected
  ledger : expired.energyLedger = rejected.energyLedger
  response : ∀ envs action holdId decision instruction db',
    nowMillisU64 ((envs 0).clock .responseTimeout) ≤ nowMillisU64 ((envs 0).clock .expiryScan) →
    Attempt.Executes database (executeHoldResponse envs action holdId decision instruction) db
      (.error (tooLate holdId)) db' →
    ∃ hold, db'.holdRequests.find? holdId = some hold ∧ hold.status = .timedOut

omit [Externals] in
/-- An actor has nothing reserved below zero. -/
theorem LedgerSafe.reserved_nonneg {db : Db} (h : LedgerSafe db) (x : String) : 0 ≤ db.reserved x := by
  unfold Db.reserved
  cases hrow : db.energyLedger.find? x with
  | none => exact le_rfl
  | some row => exact (h.sound x row hrow).1

omit [Externals] in
/-- Of exact fifths it does not matter how they are computed. -/
theorem Settled.exact_iff {status : HoldStatus} {holds : List HoldRequest} {db db' : Db}
    (h : Settled commitmentCost status holds db db') :
    Settled fifthUp status holds db db' ↔ ∀ hold ∈ holds, ExactFifth hold.reservedCost := by
  constructor
  · intro h' hold hmem
    obtain ⟨appended, hrows, hbooked⟩ := h.events
    obtain ⟨appended', hrows', hbooked'⟩ := h'.events
    obtain rfl := List.append_cancel_left (hrows.symm.trans hrows')
    have hsame := List.map_inj_left.mp (hbooked.symm.trans hbooked') hold hmem
    exact (Prod.mk.inj (Prod.mk.inj hsame).2).2
  · intro hexact
    have htaken : takenBy fifthUp holds = takenBy commitmentCost holds := by
      funext x
      refine congrArg List.sum (List.map_congr_left ?_)
      intro hold hmem
      rw [hexact hold hmem]
    have hledger : ∀ ledger, holds.foldl (settleRow fifthUp) ledger =
        holds.foldl (settleRow commitmentCost) ledger := by
      intro ledger
      refine List.foldl_ext _ _ ledger ?_
      intro l hold hmem
      unfold settleRow
      rw [hexact hold hmem]
    refine ⟨?_, ?_, h.reserved, ?_, h.resolved, h.others, h.envelopes, h.actors⟩
    · rw [hledger, h.ledger]
    · rw [htaken]
      exact h.balance
    · obtain ⟨appended, hrows, hbooked⟩ := h.events
      refine ⟨appended, hrows, hbooked.trans (List.map_congr_left ?_)⟩
      intro hold hmem
      rw [hexact hold hmem]

/-- Along every run, at any envelope: the scan for timed-out holds does exactly
what a human would who rejects them in order, if and only if what they reserved
is still reserved and one fifth of it is exact in floating point. -/
theorem timeout_is_rejection_iff (hdistinct : DistinctPositions) {pool : KernelPool}
    (hreach : Reachable kernelSystem StateStore.genesis pool) {env : Env} {envelopeId : String}
    {secs : Int} {expired rejected : Db} {r : KernelResult Unit} {envs : HoldRequest → Nat → Env}
    {human : Action} {instruction : HoldRequest → Option String} {caller : ActorRecord}
    (hcaller : pool.store.actors.find? human.actorId = some caller)
    (hhuman : caller.actorType = .human)
    (hintime : ∀ hold ∈ lateHolds env envelopeId secs pool.store, InTime (envs hold 0) hold pool.store)
    (hserved : ∀ e, r = .error e → ¬ DatabaseFailure e)
    (hexpires : Attempt.Executes database (expireTimedOutHolds env envelopeId secs) pool.store r expired)
    (hrejects : RejectsInTurn envs human instruction (lateHolds env envelopeId secs pool.store)
      pool.store rejected) :
    AsRejected (lateHolds env envelopeId secs pool.store) pool.store expired rejected ↔
      (∀ x, takenBy id (lateHolds env envelopeId secs pool.store) x ≤ pool.store.reserved x) ∧
        ∀ hold ∈ lateHolds env envelopeId secs pool.store, ExactFifth hold.reservedCost := by
  obtain ⟨tr, hrun⟩ := hreach
  have hsound := (KernelRun.keeps hrun).1
  have horder : InOrder pool.store :=
    ⟨KernelRun.keep logAligned_genesis (LogAligned.effect hdistinct) hrun,
      KernelRun.keep ledgerSafe_genesis LedgerSafe.effect hrun⟩
  have hsettled : (∀ x, takenBy id (lateHolds env envelopeId secs pool.store) x ≤
      pool.store.reserved x) →
      Settled commitmentCost .timedOut (lateHolds env envelopeId secs pool.store) pool.store expired ∧
      Settled commitmentCost .rejected (lateHolds env envelopeId secs pool.store) pool.store
        rejected := by
    intro hreserved
    have hbacked : Backed (lateHolds env envelopeId secs pool.store) pool.store := by
      refine ⟨?_, ?_, hreserved⟩
      · intro hold hmem
        obtain ⟨hrow, hpending, -⟩ :=
          EnvelopeStore.mem_listPendingHolds.mp (List.mem_of_mem_filter hmem)
        have hfind := Table.find?_of_mem hrow
        exact ⟨hfind, hpending, (hsound _ hold hfind).1⟩
      · exact (nodup_listPendingHolds envelopeId pool.store).sublist
          (List.filter_sublist.map HoldRequest.holdId)
    refine ⟨?_, hrejects.settled hdistinct horder hbacked hcaller hhuman hintime⟩
    rcases Attempt.executes_bind.mp hexpires with ⟨holds, db₁, hlist, hloop⟩ | ⟨e, rfl, hlist⟩
    · have htx := executes_call_ok (fun _ hop => by cases hop) hlist
      obtain ⟨rfl, rfl⟩ : holds = EnvelopeStore.listPendingHoldsForEnvelope envelopeId pool.store ∧
          db₁ = pool.store := by
        cases htx
        exact ⟨rfl, rfl⟩
      exact (expireListed_settled hdistinct horder hbacked hserved hloop).2
    · cases executes_call_failed (fun _ hop => by cases hop) (hserved e rfl) hlist
  constructor
  · intro h
    -- no settlement takes more than is there
    have hreserved : ∀ x, takenBy id (lateHolds env envelopeId secs pool.store) x ≤
        pool.store.reserved x := by
      intro x
      have hsafe : LedgerSafe expired :=
        Prog.Uses.relates (R := fun db db' => LedgerSafe db → LedgerSafe db') (uses_any _)
          (fun _ h => h) (fun hab hbc h => hbc (hab h))
          (fun op db _ => (exec_effects op db).keep LedgerSafe.effect) hexpires horder.safe
      have hleft := hsafe.reserved_nonneg x
      rw [h.settled.reserved x] at hleft
      omega
    exact ⟨hreserved, (hsettled hreserved).1.exact_iff.mp h.settled⟩
  · rintro ⟨hreserved, hexact⟩
    obtain ⟨hexpired, hrejected⟩ := hsettled hreserved
    refine ⟨hexpired.exact_iff.mpr hexact, hrejected.exact_iff.mpr hexact, ?_, ?_⟩
    · rw [hexpired.ledger, hrejected.ledger]
    · exact fun envs action holdId decision instruction db' hclock hexec =>
        executeHoldResponse_tooLate hclock hexec

/-! ## Two holds of one envelope -/

/-- Root rejects some holds in turn, to be evaluated; nothing, if an answer is not
the kernel's own. -/
def rejectEach (envs : HoldRequest → Nat → Env) (human : Action) : List HoldRequest → Db → Option Db
  | [], db => some db
  | hold :: rest, db =>
    let answer := lazyRun
      (@executeHoldResponse reference (envs hold) human hold.holdId .reject none) db
    match answer.1 with
    | .ok _ => rejectEach envs human rest answer.2
    | .error (.policyViolation _) => rejectEach envs human rest answer.2
    | _ => none

omit [Externals] in
/-- The computed rejections are rejections in turn. -/
theorem rejectEach_sound {envs : HoldRequest → Nat → Env} {human : Action} {holds : List HoldRequest}
    {db db' : Db} (h : rejectEach envs human holds db = some db') :
    @RejectsInTurn reference envs human (fun _ => none) holds db db' := by
  induction holds generalizing db with
  | nil =>
    cases h
    exact @RejectsInTurn.nil reference _ _ _ _
  | cons hold rest ih =>
    unfold rejectEach at h
    simp only at h
    have hexec := executes_lazyRun
      (@executeHoldResponse reference (envs hold) human hold.holdId .reject none) db
    split at h
    · next outcome hok =>
      refine @RejectsInTurn.cons reference _ _ _ _ _ _ _ _ _ hexec ?_ (ih h)
      intro e herr
      rw [hok] at herr
      cases herr
    · next detail hrefused =>
      refine @RejectsInTurn.cons reference _ _ _ _ _ _ _ _ _ hexec ?_ (ih h)
      intro e herr hfailure
      rw [hrefused] at herr
      cases herr
      cases hfailure
    · cases h

/-- Root's rejection. -/
def rootRejects : Action := ⟨"root", .mutate, "ledger/hold", .obj [("decision", .str "reject")], none⟩

/-- An agent's change and its command are put on hold, to be answered within five
seconds, and then it claims some of what they reserved for another change. -/
def claimedOnHold : List (Turn Request) :=
  alone 30 (createAgent 0 "agent-1" 500) ++
    alone 30 (grantEnvelope 1 "agent-1" 100
      [("hold_on", .arr [Json.object [("target", .str "**"),
          ("actions", .arr [.str "mutate", .str "execute"])]]),
       ("hold_timeout_secs", .num (.int 5))]) ++
    alone 30 (submitAt 2 "agent-1" .execute "workspace/a" (.obj [])) ++
    alone 30 (submitAt 3 "agent-1" .mutate "workspace/b" (.obj [])) ++
    alone 30 (submitAt 4 "agent-1" .create "workspace/c"
      (.obj [("_hold_reserved_cost", .num (.int 20))]))

/-- Whether a hold has not timed out by the clock of a response. -/
def inTime (env : Env) (db : Db) (hold : HoldRequest) : Bool :=
  match (db.envelopes.find? hold.envelopeId).bind EnvelopeRecord.holdTimeoutSecs with
  | some secs => !timedOut (nowMillisU64 (env.clock .responseTimeout)) hold.triggeredAt secs
  | none => true

omit [Externals] in
/-- The computed test of the deadline is the deadline. -/
theorem inTime_sound {env : Env} {db : Db} {hold : HoldRequest} (h : inTime env db hold = true) :
    InTime env hold db := by
  intro envelope timeoutSecs hfind htimeout _
  unfold inTime at h
  rw [hfind, Option.bind_some, htimeout] at h
  simpa using h

/-- What the scan answered, if it is not the database's failure. -/
def scanned (r : KernelResult Unit) : Bool :=
  match r with
  | .ok _ => true
  | .error (.policyViolation _) => true
  | _ => false

omit [Externals] in
/-- The computed test of a scan finds every failure of the database. -/
theorem scanned_sound {r : KernelResult Unit} (h : scanned r = true) :
    ∀ e, r = .error e → ¬ DatabaseFailure e := by
  rintro e rfl hfailure
  cases hfailure <;> cases h

omit [Externals] in
/-- A human's type in the rows, as the row. -/
theorem caller_of_type {db : Db} {actorId : String}
    (h : (db.actors.find? actorId).map ActorRecord.actorType = some .human) :
    ∃ caller, db.actors.find? actorId = some caller ∧ caller.actorType = .human :=
  Option.map_eq_some_iff.mp h

omit [Externals] in
/-- A hold that times out with its reservation intact, against root's rejection of it in
time: the same rows, and the same energy. -/
theorem agentOnShortHold_asRejected :
    letI := reference
    ∃ expired rejected, lateHolds (envAt 12) "envelope-1" 1 (kernelPlayed agentOnShortHold).pool.store ≠ [] ∧
      AsRejected (lateHolds (envAt 12) "envelope-1" 1 (kernelPlayed agentOnShortHold).pool.store)
        (kernelPlayed agentOnShortHold).pool.store expired rejected := by
  have hplayed : (lateHolds (envAt 12) "envelope-1" 1 (kernelPlayed agentOnShortHold).pool.store).map
        (fun hold => (hold.agentId, hold.reservedCost)) = [("agent-1", 16)] ∧
      (kernelPlayed agentOnShortHold).pool.store.reserved "agent-1" = 16 ∧
      ((kernelPlayed agentOnShortHold).pool.store.actors.find? rootRejects.actorId).map
        ActorRecord.actorType = some .human ∧
      (lateHolds (envAt 12) "envelope-1" 1 (kernelPlayed agentOnShortHold).pool.store).all
        (inTime (envAt 3) (kernelPlayed agentOnShortHold).pool.store) = true ∧
      scanned (lazyRun (@expireTimedOutHolds reference (envAt 12) "envelope-1" 1)
        (kernelPlayed agentOnShortHold).pool.store).1 = true ∧
      (rejectEach (fun _ k => envAt (3 + k)) rootRejects
        (lateHolds (envAt 12) "envelope-1" 1 (kernelPlayed agentOnShortHold).pool.store)
        (kernelPlayed agentOnShortHold).pool.store).isSome = true := by
    rw [kernelPlayed_eq]
    decide +kernel
  obtain ⟨hlate, hreserved, hcaller, hintime, hscan, hsome⟩ := hplayed
  obtain ⟨rejected, hrejected⟩ := Option.isSome_iff_exists.mp hsome
  obtain ⟨caller, hfound, hhuman⟩ := caller_of_type hcaller
  have hiff := @timeout_is_rejection_iff reference distinctPositions_reference _
    ⟨_, kernelRun_played agentOnShortHold⟩ (envAt 12) "envelope-1" 1 _ _ _
    (fun _ k => envAt (3 + k)) rootRejects _ caller hfound hhuman (fun hold hmem => inTime_sound (List.all_eq_true.mp hintime hold hmem))
    (scanned_sound hscan) (executes_lazyRun _ _) (rejectEach_sound hrejected)
  refine ⟨_, rejected, ?_, hiff.mpr ⟨?_, ?_⟩⟩
  · intro hnil
    rw [hnil] at hlate
    cases hlate
  · intro x
    rw [takenBy_eq, hlate]
    show amountFor "agent-1" 16 x + 0 ≤ _
    unfold amountFor
    split
    · next heq => rw [← heq, hreserved, add_zero]
    · have hsafe := @KernelRun.keep reference _ _ LedgerSafe ledgerSafe_genesis
        (@LedgerSafe.effect reference) (kernelRun_played agentOnShortHold)
      exact hsafe.reserved_nonneg x
  · intro hold hmem
    have hcost := List.mem_map_of_mem (f := fun hold => (hold.agentId, hold.reservedCost)) hmem
    rw [hlate, List.mem_singleton] at hcost
    rw [(Prod.mk.inj hcost).2]
    exact exactFifth_of_lt (by decide) (by decide)

omit [Externals] in
/-- Of two holds whose agent has claimed some of their energy, the scan stops at
the first, where root's rejections settle the second. -/
theorem claimedOnHold_not_asRejected :
    letI := reference
    ¬ ∀ pool, Reachable kernelSystem StateStore.genesis pool →
      ∀ env envelopeId secs expired rejected r envs human instruction caller,
      pool.store.actors.find? human.actorId = some caller → caller.actorType = .human →
      (∀ hold ∈ lateHolds env envelopeId secs pool.store, InTime (envs hold 0) hold pool.store) →
      (∀ e, r = .error e → ¬ DatabaseFailure e) →
      Attempt.Executes database (expireTimedOutHolds env envelopeId secs) pool.store r expired →
      RejectsInTurn envs human instruction (lateHolds env envelopeId secs pool.store)
        pool.store rejected →
      AsRejected (lateHolds env envelopeId secs pool.store) pool.store expired rejected := by
  intro hclaim
  have hplayed : ((kernelPlayed claimedOnHold).pool.store.actors.find? rootRejects.actorId).map
        ActorRecord.actorType = some .human ∧
      (lateHolds (envAt 12) "envelope-1" 5 (kernelPlayed claimedOnHold).pool.store).all
        (inTime (envAt 5) (kernelPlayed claimedOnHold).pool.store) = true ∧
      scanned (lazyRun (@expireTimedOutHolds reference (envAt 12) "envelope-1" 5)
        (kernelPlayed claimedOnHold).pool.store).1 = true ∧
      ((lazyRun (@expireTimedOutHolds reference (envAt 12) "envelope-1" 5)
        (kernelPlayed claimedOnHold).pool.store).2.energyLedger.find? "agent-1").map
          EnergyRow.energyBalance = some 480 ∧
      (rejectEach (fun _ k => envAt (5 + k)) rootRejects
        (lateHolds (envAt 12) "envelope-1" 5 (kernelPlayed claimedOnHold).pool.store)
        (kernelPlayed claimedOnHold).pool.store).map (fun db =>
          (db.energyLedger.find? "agent-1").map EnergyRow.energyBalance) = some (some 476) := by
    rw [kernelPlayed_eq]
    decide +kernel
  obtain ⟨hcaller, hintime, hscan, hexpired, hbalance⟩ := hplayed
  obtain ⟨rejected, hrejected, hafter⟩ := Option.map_eq_some_iff.mp hbalance
  obtain ⟨caller, hfound, hhuman⟩ := caller_of_type hcaller
  have hasRejected := hclaim _ ⟨_, kernelRun_played claimedOnHold⟩ (envAt 12) "envelope-1" 5 _ _ _
    (fun _ k => envAt (5 + k)) rootRejects _ caller hfound hhuman
    (fun hold hmem => inTime_sound (List.all_eq_true.mp hintime hold hmem))
    (scanned_sound hscan) (executes_lazyRun _ _) (rejectEach_sound hrejected)
  rw [@AsRejected.ledger reference _ _ _ _ hasRejected, hafter] at hexpired
  cases hexpired

end PunkgoKernel
