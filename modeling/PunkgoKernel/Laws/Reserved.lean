import PunkgoKernel.Laws.Contract
import PunkgoKernel.Runtime.Evaluation

/-!
# Reserved energy

Energy is reserved for a pending hold, or by a request that has not settled
yet. What the ledger reserves beyond the pending holds (`Db.unbacked`) is
changed by few operations, and each changes it by what the request itself then
holds (`heldBy`). So the two stay equal as long as no request ends with a
reservation in its hands (`Strands`) and none settles a reservation it only
claims to have (`SettlesClaim`).
-/

namespace PunkgoKernel

open Json (Value)
open Relational (Table key)
open Resumption

/-- An amount of one actor, as seen from another. -/
def amountFor (actorId : String) (amount : Int) (x : String) : Int :=
  if actorId = x then amount else 0

/-- The reserved energy of an actor; nothing, without a ledger row. -/
def Db.reserved (db : Db) (actorId : String) : Int :=
  ((db.energyLedger.find? actorId).map EnergyRow.reservedEnergy).getD 0

/-- The energy a hold request keeps reserved. -/
def HoldRequest.pendingFor (hold : HoldRequest) (actorId : String) : Int :=
  if hold.status = .pending then amountFor hold.agentId hold.reservedCost actorId else 0

/-- The energy of an actor's pending holds. -/
def Db.pending (db : Db) (actorId : String) : Int :=
  db.holdRequests.total fun hold => hold.pendingFor actorId

/-- The energy reserved for no pending hold. -/
def Db.unbacked (db : Db) (actorId : String) : Int := db.reserved actorId - db.pending actorId

/-- The energy of an actor a request has still to settle. -/
def heldBy (past : Past) (actorId : String) : Int :=
  match held past with
  | some res => amountFor res.actorId res.reserved actorId
  | none => 0

/-! ## What each write does to it -/

/-- What is reserved after a row is written: the new amount for its actor, the old one
for everybody else. -/
theorem reserved_put {db : Db} {actorId : String} {row : EnergyRow}
    (hrow : db.energyLedger.find? actorId = some row) (balance reserved : Int) (x : String) :
    ({ db with energyLedger := EnergyLedger.put db.energyLedger actorId balance reserved } : Db).reserved
      x = db.reserved x + amountFor actorId (reserved - row.reservedEnergy) x := by
  unfold Db.reserved amountFor
  rw [EnergyLedger.find?_put hrow]
  by_cases hx : x = actorId
  · subst hx
    simp [hrow]
  · simp [hx, Ne.symm hx]

/-- What is reserved beyond the pending holds changes with the row that is written, and
for its actor alone. -/
theorem unbacked_put {db : Db} {actorId : String} {row : EnergyRow}
    (hrow : db.energyLedger.find? actorId = some row) (balance reserved : Int) (x : String) :
    ({ db with energyLedger := EnergyLedger.put db.energyLedger actorId balance reserved } : Db).unbacked
      x = db.unbacked x + amountFor actorId (reserved - row.reservedEnergy) x := by
  have hreserved := reserved_put hrow balance reserved x
  unfold Db.unbacked
  rw [hreserved]
  show db.reserved x + _ - db.pending x = _
  omega

/-- The energy kept reserved and the hold requests decide what is unbacked. -/
theorem unbacked_congr {db db' : Db} (hledger : db'.energyLedger = db.energyLedger)
    (hholds : db'.holdRequests = db.holdRequests) : db'.unbacked = db.unbacked := by
  unfold Db.unbacked Db.reserved Db.pending
  rw [hledger, hholds]

/-- A reservation is energy reserved that no hold stands for. -/
theorem reserve_unbacked {actorId : String} {cost : Int} {db db' : Db} {res : EnergyReservation}
    (h : EnergyLedger.reserve actorId cost db = .ok (res, db')) (x : String) :
    db'.unbacked x = db.unbacked x + amountFor actorId cost x := by
  obtain ⟨row, hrow, -, -, -, rfl⟩ := EnergyLedger.reserve_eq_ok h
  rw [unbacked_put hrow]
  congr 2
  omega

/-- So is one that is made only when there is something to reserve. -/
theorem reserveIfPositive_unbacked {actorId : String} {cost : Int} {db db' : Db}
    (h : reserveIfPositive actorId cost db = .ok db') (hpos : 0 < cost) (x : String) :
    db'.unbacked x = db.unbacked x + amountFor actorId cost x := by
  unfold reserveIfPositive at h
  rw [if_pos hpos] at h
  obtain ⟨⟨res, db₁⟩, hres, heq⟩ := bind_eq_ok.mp h
  cases heq
  exact reserve_unbacked hres x

/-- A settlement takes back what was reserved, and leaves the holds. -/
theorem settleInTx_unbacked {actorId : String} {reservedCost actualCost : Int} {db db' : Db}
    (h : EnergyLedger.settleInTx actorId reservedCost actualCost db = .ok db') (x : String) :
    db'.unbacked x = db.unbacked x - amountFor actorId reservedCost x := by
  obtain ⟨row, hrow, -, -, -, -, -, -, rfl⟩ := EnergyLedger.settleInTx_eq_ok h
  rw [unbacked_put hrow]
  unfold amountFor
  split <;> omega

/-- So does one that may be left out, where it is made. -/
theorem settleIf_unbacked {settles : Prop} [Decidable settles] {actorId : String}
    {reservedCost actualCost : Int} {db db' : Db}
    (h : settleIf settles actorId reservedCost actualCost db = .ok db') (hsettles : settles)
    (x : String) : db'.unbacked x = db.unbacked x - amountFor actorId reservedCost x := by
  unfold settleIf at h
  rw [if_pos hsettles] at h
  exact settleInTx_unbacked h x

/-- A new pending hold stands for what it has reserved. -/
theorem newHold_unbacked {db : Db} {row : HoldRequest} {holds : Table HoldRequest}
    (hins : db.holdRequests.insert? row = some holds) (hpending : row.status = .pending)
    (x : String) :
    ({ db with holdRequests := holds } : Db).unbacked x =
      db.unbacked x - amountFor row.agentId row.reservedCost x := by
  have htotal := Table.total_insert hins fun hold => hold.pendingFor x
  have hrow : row.pendingFor x = amountFor row.agentId row.reservedCost x := if_pos hpending
  unfold Db.unbacked Db.pending
  rw [htotal, hrow]
  show db.reserved x - _ = _
  omega

/-- A hold that is resolved no longer backs its reservation. -/
theorem resolveHoldRequestInTx_unbacked {holdId : String} {decision : HoldDecision}
    {instruction : Option String} {now : Nat} {db db' : Db} {row : HoldRequest}
    (h : EnvelopeStore.resolveHoldRequestInTx holdId decision instruction now db = .ok db')
    (hrow : db.holdRequests.find? holdId = some row) (x : String) :
    db'.unbacked x = db.unbacked x + amountFor row.agentId row.reservedCost x := by
  obtain ⟨row', hrow', hpending, hdb'⟩ := EnvelopeStore.resolveHoldRequestInTx_eq_ok h
  obtain rfl := Option.some.inj (hrow.symm.trans hrow')
  have hkey : ∀ r, key (EnvelopeStore.resolved decision instruction now r) = key r := fun _ => rfl
  have htotal := Table.total_modify hkey hrow fun hold => hold.pendingFor x
  have hbefore : row.pendingFor x = amountFor row.agentId row.reservedCost x := if_pos hpending
  have hafter : (EnvelopeStore.resolved decision instruction now row).pendingFor x = 0 := by
    refine if_neg ?_
    show decision.status ≠ .pending
    cases decision <;> decide
  rw [hbefore, hafter, add_zero] at htotal
  have hpend : db'.pending x = db.pending x - amountFor row.agentId row.reservedCost x := by
    rw [hdb']
    exact htotal
  have hreserved : db'.reserved x = db.reserved x := by
    rw [hdb']
    rfl
  unfold Db.unbacked
  rw [hpend, hreserved]
  omega

/-! ## The operations that leave it alone -/

/-- The operations that touch neither a reservation nor a hold. -/
def Op.keepsReserved : Op → Bool
  | .reserve .. | .triggerHold _ | .resolveHold _ | .expireHold _ | .finalize _ => false
  | _ => true

/-- The credits of a tick reserve nothing and resolve no hold. -/
theorem creditAll_unbacked {allocations : List (String × Int)} {db db' : Db} {n : Nat × Int}
    (h : creditAll allocations db = .ok (n, db')) (x : String) : db'.unbacked x = db.unbacked x := by
  induction allocations generalizing db n with
  | nil =>
    cases h
    rfl
  | cons a rest ih =>
    obtain ⟨actorId, credit⟩ := a
    unfold creditAll at h
    split at h
    · exact ih h
    · obtain ⟨db₁, hcredit, h⟩ := bind_eq_ok.mp h
      obtain ⟨⟨⟨count, total⟩, db₂⟩, hrest, heq⟩ := bind_eq_ok.mp h
      cases heq
      obtain ⟨row, hrow, -, rfl⟩ := EnergyLedger.creditEnergyInTx_eq_ok hcredit
      rw [ih hrest, unbacked_put hrow]
      unfold amountFor
      split <;> omega

/-- Freezing actors leaves the ledger, the holds and the log. -/
theorem freezeAll_frame {actorIds : List String} {db db' : Db}
    (h : freezeAll actorIds db = .ok db') :
    db'.energyLedger = db.energyLedger ∧ db'.holdRequests = db.holdRequests ∧
      db'.events = db.events := by
  induction actorIds generalizing db with
  | nil =>
    cases h
    exact ⟨rfl, rfl, rfl⟩
  | cons actorId rest ih =>
    obtain ⟨db₁, hstatus, h⟩ := bind_eq_ok.mp h
    obtain ⟨-, rfl⟩ := ActorStore.updateInTx_eq_ok hstatus
    have hrest := ih h
    exact hrest

/-- Charging an envelope leaves the ledger, the holds and the log. -/
theorem consumeBudget_frame {tx : ConsumeTx} {db db' : Db} {r : KernelResult Int}
    (h : consumeBudget tx db = .ok (r, db')) :
    db'.energyLedger = db.energyLedger ∧ db'.holdRequests = db.holdRequests ∧
      db'.events = db.events := by
  rcases consumeBudget_eq_ok h with ⟨-, rfl⟩ | ⟨total, db₁, -, hconsume, hdb⟩
  · exact ⟨rfl, rfl, rfl⟩
  obtain ⟨row, -, -, -, rfl⟩ := EnvelopeStore.consumeBudgetInTx_eq_ok hconsume
  rcases hdb with rfl | hstatus
  · exact ⟨rfl, rfl, rfl⟩
  · obtain ⟨-, rfl⟩ := EnvelopeStore.setStatusInTx_eq_ok hstatus
    exact ⟨rfl, rfl, rfl⟩

variable [Externals]

/-- The operations that move no energy. -/
def Op.keepsEnergy : Op → Bool
  | .creditAll _ => false
  | op => op.keepsReserved

/-- The operations that move no energy leave the ledger, the holds and the log. -/
theorem keepsEnergy_frame {op : Op} (hop : op.keepsEnergy = true) {db db' : Db} {v : Val op}
    (h : transaction op db = .ok (v, db')) :
    db'.energyLedger = db.energyLedger ∧ db'.holdRequests = db.holdRequests ∧
      db'.events = db.events := by
  cases op with
  | reserve | triggerHold | resolveHold | expireHold | finalize | creditAll => cases hop
  | setEnvelopeStatus =>
    obtain ⟨-, rfl⟩ := EnvelopeStore.setStatusInTx_eq_ok (unitTx_eq_ok h)
    exact ⟨rfl, rfl, rfl⟩
  | consumeBudget => exact consumeBudget_frame h
  | executeFreeze => exact freezeAll_frame (executeFreeze_eq_ok h).2
  | executeUnfreeze =>
    obtain ⟨-, rfl⟩ := ActorStore.updateInTx_eq_ok (unitTx_eq_ok h)
    exact ⟨rfl, rfl, rfl⟩
  | executeUpdateEnergyShare =>
    have hupdate := unitTx_eq_ok h
    unfold ActorStore.updateEnergyShareInTx at hupdate
    split at hupdate
    · cases hupdate
    · obtain ⟨-, rfl⟩ := ActorStore.updateInTx_eq_ok hupdate
      exact ⟨rfl, rfl, rfl⟩
  | makeCheckpoint treeSize now =>
    obtain ⟨root, -, -, rfl⟩ := AuditLog.makeCheckpoint_eq_ok (auditTx_eq_ok h)
    exact ⟨rfl, rfl, rfl⟩
  | nextSequence =>
    rw [map_read h]
    exact ⟨rfl, rfl, rfl⟩
  | latestCheckpoint | inclusionProof =>
    rw [auditTx_read h]
    exact ⟨rfl, rfl, rfl⟩
  | _ =>
    cases h
    exact ⟨rfl, rfl, rfl⟩

/-- The operations that reserve nothing and resolve no hold leave what is reserved
beyond the holds. -/
theorem keepsReserved_unbacked {op : Op} (hop : op.keepsReserved = true) {db db' : Db} {v : Val op}
    (h : transaction op db = .ok (v, db')) (x : String) : db'.unbacked x = db.unbacked x := by
  by_cases hkeeps : op.keepsEnergy = true
  · obtain ⟨hledger, hholds, -⟩ := keepsEnergy_frame hkeeps h
    rw [unbacked_congr hledger hholds]
  · cases op with
    | creditAll => exact creditAll_unbacked h x
    | _ => exact absurd hop hkeeps

/-! ## The operations that change it -/

/-- Putting an action on hold reserves its cost and makes a hold that stands for it, in
one transaction. -/
theorem triggerHold_unbacked {past : Past} {tx : HoldTriggerTx} (hallowed : TriggerAllowed past tx)
    {db db' : Db} {ev : EventRecord} (h : triggerHold tx db = .ok (ev, db')) (x : String) :
    db'.unbacked x = db.unbacked x := by
  obtain ⟨env, action, envelope, actor, -, -, -, -, -⟩ := hallowed
  obtain ⟨db₁, events, hashes, holds, hreserve, -, -, hins, rfl⟩ := triggerHold_eq_ok h
  have hpos : (0 : Int) < quoteCost action := by exact_mod_cast quoteCost_pos action
  have hreserved := reserveIfPositive_unbacked hreserve hpos x
  have hnew := newHold_unbacked hins rfl x
  rw [reservedCost_holdTriggerTx] at hnew
  show ({ db₁ with holdRequests := holds } : Db).unbacked x = _
  rw [hnew, hreserved]
  exact add_sub_cancel_right _ _

omit [Externals] in
/-- The row a resolving transaction finds is the one that was read. -/
theorem resolved_row {db : Db} {holdId : String} {hold row : HoldRequest}
    (hknown : HoldLasts db holdId hold) (hrow : db.holdRequests.find? holdId = some row) :
    row.agentId = hold.agentId ∧ row.reservedCost = hold.reservedCost := by
  obtain ⟨row', hrow', hsame, -⟩ := hknown
  obtain rfl := Option.some.inj (hrow.symm.trans hrow')
  exact ⟨hsame.agentId, hsame.reservedCost⟩

/-- A timeout settles what its hold had reserved. -/
theorem expireTx_unbacked {env : Env} {round : Nat} {hold row : HoldRequest} {db db' : Db}
    {ev : EventRecord} (hrow : db.holdRequests.find? hold.holdId = some row)
    (hagent : row.agentId = hold.agentId) (hcost : row.reservedCost = hold.reservedCost)
    (hpos : 0 < hold.reservedCost) (h : expireHold (expireTx env round hold) db = .ok (ev, db'))
    (x : String) : db'.unbacked x = db.unbacked x := by
  obtain ⟨db₁, db₂, events, hashes, hresolve, hsettle, -, rfl⟩ := expireHold_eq_ok h
  have hresolved := resolveHoldRequestInTx_unbacked hresolve hrow x
  have hsettled := settleIf_unbacked hsettle hpos x
  rw [hagent, hcost] at hresolved
  show db₂.unbacked x = _
  rw [hsettled, hresolved]
  exact add_sub_cancel_right _ _

/-- A timeout resolves a hold and settles what it had reserved, in one transaction. -/
theorem expireHold_unbacked {past : Past} {tx : HoldExpireTx} {db db' : Db} {ev : EventRecord}
    (hallowed : ExpireAllowed past tx) (hknown : ∀ d ∈ past, known db d)
    (h : expireHold tx db = .ok (ev, db')) (x : String) : db'.unbacked x = db.unbacked x := by
  obtain ⟨env, round, hold, envelopeId, holds, hsaw, hmem, hwf⟩ := hallowed
  obtain ⟨row, hrow, hsame, -⟩ := hknown _ hsaw hold hmem
  exact expireTx_unbacked hrow hsame.agentId hsame.reservedCost hwf.reservedCost.1 h x

/-- An approval takes the reservation out of the pending holds; a rejection
settles it. -/
theorem resolveHold_unbacked {past : Past} {tx : HoldResolveTx} {db db' : Db} {ev : EventRecord}
    {cost : Int} (hallowed : ResolveAllowed past tx) (hknown : ∀ d ∈ past, known db d)
    (h : resolveHold tx db = .ok ((ev, cost), db')) (x : String) :
    db'.unbacked x =
      db.unbacked x + if tx.decision = .approve then amountFor tx.agentId tx.reservedCost x else 0 := by
  obtain ⟨env, humanAction, holdId, decision, instruction, hold, caller, -, -, hsaw, hwf, -,
    hdecision, -⟩ := hallowed
  obtain ⟨db₁, db₂, events, hashes, -, hresolve, hsettle, -, rfl⟩ := resolveHold_eq_ok h
  obtain ⟨row, hrow, -, -⟩ := EnvelopeStore.resolveHoldRequestInTx_eq_ok hresolve
  obtain ⟨hagent, hcost⟩ := resolved_row (hknown _ hsaw) hrow
  have hresolved := resolveHoldRequestInTx_unbacked hresolve hrow x
  rw [hagent, hcost] at hresolved
  show db₂.unbacked x = _ + if decision = .approve then amountFor hold.agentId hold.reservedCost x else 0
  cases decision with
  | approve =>
    have hsame : db₂ = db₁ := by
      unfold settleIf at hsettle
      rw [if_neg (by rintro ⟨h, -⟩; cases h)] at hsettle
      cases hsettle
      rfl
    rw [hsame, hresolved, if_pos rfl]
  | reject =>
    rw [settleIf_unbacked hsettle ⟨rfl, hwf.reservedCost.1⟩ x, hresolved, if_neg (by decide),
      add_zero]
    exact add_sub_cancel_right _ _
  | timedOut => exact absurd rfl hdecision

/-- A commit without a reservation leaves it alone, one with a reservation
settles it. -/
theorem finalize_unbacked {tx : FinalizeTx} {db db' : Db} {ev : EventRecord}
    (h : finalizeEnergyAndEvent tx db = .ok (ev, db')) (x : String) :
    db'.unbacked x = db.unbacked x -
      (match tx.reservation with
        | some res => amountFor res.actorId res.reserved x
        | none => 0) := by
  obtain ⟨db₁, db₂, db₃, events, hashes, hsettle, hactor, henvelope, -, rfl⟩ := finalize_eq_ok h
  have h₁ : db₁.unbacked x = db.unbacked x -
      (match tx.reservation with
        | some res => amountFor res.actorId res.reserved x
        | none => 0) := by
    cases hres : tx.reservation with
    | none =>
      rw [hres] at hsettle
      cases hsettle
      exact (sub_zero _).symm
    | some res =>
      rw [hres] at hsettle
      exact settleInTx_unbacked hsettle x
  have h₂ : db₂.unbacked x = db₁.unbacked x := by
    cases hcreate : tx.createActor with
    | none =>
      rw [hcreate] at hactor
      cases hactor
      rfl
    | some spec =>
      rw [hcreate] at hactor
      obtain ⟨-, -, row, ledger, actors, -, hins, -, rfl⟩ := createActorRows_eq_ok hactor
      -- a new ledger row reserves nothing
      have hreserved : ({ db₁ with energyLedger := ledger, actors := actors } : Db).reserved x =
          db₁.reserved x := by
        unfold Db.reserved
        show ((ledger.find? x).map _).getD 0 = _
        rw [Table.find?_insert hins]
        split
        · next hx =>
          have hnone : db₁.energyLedger.find? x = none := hx ▸ (Table.insert?_eq_some hins).1
          rw [hnone]
          rfl
        · rfl
      unfold Db.unbacked
      rw [hreserved]
      rfl
  have h₃ : db₃.unbacked x = db₂.unbacked x := by
    cases hcreate : tx.createEnvelope with
    | none =>
      rw [hcreate] at henvelope
      cases henvelope
      rfl
    | some create =>
      obtain ⟨envelopeId, spec, parentId⟩ := create
      rw [hcreate] at henvelope
      obtain ⟨row, envelopes, -, -, -, -, -, -, rfl⟩ := EnvelopeStore.createInTx_eq_ok henvelope
      rfl
  show db₃.unbacked x = _
  rw [h₃, h₂, h₁]

/-! ## What a request holds -/

omit [Externals] in
/-- An operation that reserves nothing leaves what the request holds. -/
theorem held_keepsReserved {op : Op} (hop : op.keepsReserved = true) (x : KernelResult (Val op))
    {past : Past} : held (⟨op, x⟩ :: past) = held past := by
  cases op <;> first | rfl | cases hop

/-- The commit settles a positive reservation the payload claims, without an
approved hold behind it. -/
def SettlesClaim (past : Past) (tx : FinalizeTx) : Prop :=
  approval past = none ∧ ∃ cost, holdReservedCost tx.event.payload = some cost ∧ 0 < cost

/-- A human's response is the first of its request: what an approval submits
again is an agent's. -/
theorem ResolveAllowed.held_none {past : Past} {tx : HoldResolveTx} {db : Db}
    (hallowed : ResolveAllowed past tx) (hsound : HoldsSound db)
    (hknown : ∀ d ∈ past, known db d) : approval past = none ∧ held past = none := by
  obtain ⟨env, humanAction, holdId, decision, instruction, hold, caller, hcaller, hhuman, -, -, -, -,
    hfirst | ⟨holdId', hold', hsaw, hagent⟩⟩ := hallowed
  · exact hfirst
  · obtain ⟨row, hrow, hsame, -⟩ := hknown _ hsaw
    obtain ⟨-, agent, hfind, htype⟩ := hsound holdId' row hrow
    obtain ⟨caller', hfind', htype'⟩ := hknown _ hcaller
    rw [hsame.agentId, hagent, hfind'] at hfind
    cases hfind
    rw [htype', hhuman] at htype
    cases htype

/-- What a commit settles is what the request holds. -/
theorem FinalizeAllowed.settles_held {past : Past} {tx : FinalizeTx} (h : FinalizeAllowed past tx)
    (hclaim : ¬ SettlesClaim past tx) : tx.reservation = held past := by
  obtain ⟨env, action, artifactHash, hevent, hsettle, -, -, -, -⟩ := h
  have hpayload : tx.event.payload = action.payload := by rw [hevent]; rfl
  unfold SettlesClaim at hclaim
  rw [hpayload] at hclaim
  generalize tx.settledCost = cost at hsettle
  generalize tx.reservation = reservation at hsettle
  cases hsettle with
  | quoted _ _ hheld => exact hheld.symm
  | claimed cost hcost happroval hheld =>
    rw [hheld]
    exact if_neg fun hpos => hclaim ⟨happroval, cost, hcost, hpos⟩
  | approved tx' hresumed => exact hresumed.held.symm

/-- Each operation changes the unbacked energy by what it changes in the
request's hands. -/
theorem exec_unbacked {past : Past} {op : Op} {db : Db} (hsound : HoldsSound db)
    (hknown : ∀ d ∈ past, known db d) (hallowed : allowed past op)
    (hclaim : ∀ tx v, op = .finalize tx → (exec op db).1 = .ok v → ¬ SettlesClaim past tx)
    (x : String) :
    (exec op db).2.unbacked x + heldBy past x =
      db.unbacked x + heldBy (⟨op, (exec op db).1⟩ :: past) x := by
  rcases exec_cases op db with ⟨v, db', htx, hexec⟩ | ⟨e, -, hexec⟩
  swap
  · rw [hexec]
    unfold heldBy
    rw [held_error]
  by_cases hkeeps : op.keepsReserved = true
  · rw [hexec, keepsReserved_unbacked hkeeps htx]
    unfold heldBy
    rw [held_keepsReserved hkeeps]
  rw [hexec]
  cases op with
  | reserve actorId cost =>
    obtain ⟨-, -, hheld⟩ := hallowed
    have hbefore : heldBy past x = 0 := by
      unfold heldBy
      rw [hheld]
    rw [reserve_unbacked htx x, hbefore, add_zero]
    rfl
  | triggerHold tx =>
    rw [triggerHold_unbacked hallowed htx]
    rfl
  | expireHold tx =>
    rw [expireHold_unbacked hallowed hknown htx]
    rfl
  | resolveHold tx =>
    obtain ⟨event, cost⟩ := v
    obtain ⟨-, hheld⟩ := ResolveAllowed.held_none hallowed hsound hknown
    have hbefore : heldBy past x = 0 := by
      unfold heldBy
      rw [hheld]
    rw [resolveHold_unbacked hallowed hknown htx x, hbefore, add_zero]
    congr 1
    unfold heldBy
    simp only [held]
    split
    · rfl
    · rw [hheld]
  | finalize tx =>
    have hres := FinalizeAllowed.settles_held hallowed
      (hclaim tx v rfl (by rw [hexec]))
    rw [finalize_unbacked htx x, hres]
    have hafter : heldBy (⟨.finalize tx, .ok v⟩ :: past) x = 0 := rfl
    rw [hafter, add_zero]
    exact sub_add_cancel _ _
  | _ => exact absurd rfl hkeeps

/-! ## The requests in flight -/

/-- The step ends a request that has still a reservation to settle. -/
def Strands (t : KernelTransition) : Prop := ∃ task, t.Ends task ∧ held task.past ≠ none

/-- The step commits an action that settles a reservation it only claims. -/
def CommitsClaim (t : KernelTransition) : Prop :=
  ∃ past tx ev, t.Performs past ⟨.finalize tx, .ok ev⟩ ∧ SettlesClaim past tx

omit [Externals] in
/-- An operation the store refuses leaves what the request holds. -/
theorem held_fault {op : Op} {x : KernelResult (Val op)} (h : refuses op x) {past : Past} :
    held (⟨op, x⟩ :: past) = held past := by
  cases op with
  | consumeBudget => rfl
  | _ =>
    obtain ⟨e, -, rfl⟩ := h
    exact held_error

omit [Externals] in
/-- On the first start nothing is reserved. -/
theorem unbacked_genesis (x : String) : StateStore.genesis.unbacked x = 0 := by
  have hledger : StateStore.genesis.energyLedger.rows = [⟨"root", 1000000, 0⟩] := rfl
  have hpending : StateStore.genesis.pending x = 0 := rfl
  unfold Db.unbacked
  rw [hpending, sub_zero]
  unfold Db.reserved
  cases hfind : StateStore.genesis.energyLedger.find? x with
  | none => rfl
  | some row =>
    have hmem := Table.mem_of_find? hfind
    rw [hledger, List.mem_singleton] at hmem
    subst hmem
    rfl

/-- An operation of a request changes what is reserved beyond the holds by as much as it
changes what the request itself holds, unless it commits a claim. -/
theorem act_unbacked {pool : KernelPool} {id : Nat} {op : Op}
    {k : KernelResult (Val op) → KernelProg Outcome} {past : Past} (hsound : HoldsSound pool.store)
    (hmem : (⟨id, .vis op k, past⟩ : Task KernelSig (KernelResult Outcome)) ∈ pool.tasks)
    (hkeeps : kernelContract.Keeps pool.store ⟨id, .vis op k, past⟩)
    (hclaims : ¬ CommitsClaim ⟨pool, .act id ⟨op, (exec op pool.store).1⟩⟩) (x : String) :
    (exec op pool.store).2.unbacked x + heldBy past x =
      pool.store.unbacked x + heldBy (⟨op, (exec op pool.store).1⟩ :: past) x := by
  refine exec_unbacked hsound hkeeps.known hkeeps.honors.1 ?_ x
  rintro tx v rfl hok hclaim
  refine hclaims ⟨past, tx, v, ⟨id, .vis (.finalize tx) k, ?_, hmem⟩, hclaim⟩
  exact congrArg (fun y => Label.act (S := KernelSig) id ⟨.finalize tx, y⟩) hok

omit [Externals] in
/-- An operation the store refuses leaves what the request holds for each actor. -/
theorem heldBy_fault {op : Op} {x : KernelResult (Val op)} (h : refuses op x) (past : Past)
    (actorId : String) : heldBy (⟨op, x⟩ :: past) actorId = heldBy past actorId := by
  unfold heldBy
  rw [held_fault h]

/-- As long as no request ends with a reservation in its hands or settles one
it only claims, the energy reserved beyond the pending holds is what the
requests in flight have still to settle. -/
theorem KernelRun.unbacked_eq {tr : List KernelTransition} {pool : KernelPool}
    (h : KernelRun tr pool) (hgood : ∀ t ∈ tr, ¬ Strands t ∧ ¬ CommitsClaim t) (x : String) :
    pool.store.unbacked x = carried (heldBy · x) pool.tasks := by
  refine kernelContract.accounts (W := (heldBy · x)) (B := fun _ db w => db.unbacked x = w)
    (G := fun t => ¬ Strands t ∧ ¬ CommitsClaim t) rfl (unbacked_genesis x)
    (fun _ _ _ _ _ hB => hB) ?_ ?_ ?_ ?_ h (fun _ _ _ _ _ => trivial) hgood
  · intro tr db before after id op k past pool hinv hkeeps ⟨_, hclaims⟩ hB
    have hmem : (⟨id, .vis op k, past⟩ : Task KernelSig (KernelResult Outcome)) ∈ pool.tasks := by
      simp [pool]
    have hstep : (exec op db).2.unbacked x + heldBy past x =
        db.unbacked x + heldBy (⟨op, (exec op db).1⟩ :: past) x :=
      act_unbacked hinv.2 hmem (hkeeps _ hmem) hclaims x
    have hbefore : db.unbacked x = carried (heldBy · x) (before ++ after) + heldBy past x := hB
    show (exec op db).2.unbacked x = _ + heldBy (⟨op, (exec op db).1⟩ :: past) x
    omega
  · exact fun op y past hy => heldBy_fault hy past x
  · intro _ db w t task ⟨hstrands, _⟩ hends hB
    have hsettled : held task.past = none := not_not.mp fun hheld => hstrands ⟨task, hends, hheld⟩
    have hnothing : heldBy task.past x = 0 := by
      unfold heldBy
      rw [hsettled]
    show db.unbacked x = w
    rwa [hnothing, add_zero] at hB
  · intro db db' hboot hinv
    exact bootstrap_eq hinv.1 hboot

/-- A reservation that a request has still to settle is one of a positive amount. -/
theorem KernelRun.held_pos {tr : List KernelTransition} {pool : KernelPool} (h : KernelRun tr pool) :
    ∀ task ∈ pool.tasks, ∀ res, held task.past = some res → 0 < res.reserved := by
  refine kernelContract.pasts (W := fun past => ∀ res, held past = some res → 0 < res.reserved)
    (fun _ h => by cases h) ?_ ?_ h (fun _ _ _ _ _ => trivial)
  · intro past op db _ _ hallowed hpos res (hheld : held (⟨op, (exec op db).1⟩ :: past) = some res)
    rcases exec_cases op db with ⟨v, db', -, hexec⟩ | ⟨e, -, hexec⟩
    swap
    · rw [hexec, held_error] at hheld
      exact hpos res hheld
    rw [hexec] at hheld
    cases op with
    | reserve actorId cost =>
      cases hheld
      exact hallowed.1
    | resolveHold tx =>
      simp only [held] at hheld
      split at hheld
      · obtain ⟨env, humanAction, holdId, decision, instruction, hold, caller, -, -, -, hwf, -⟩ :=
          hallowed
        cases hheld
        exact hwf.reservedCost.1
      · exact hpos res hheld
    | finalize tx => cases hheld
    | _ => exact hpos res hheld
  · intro past op y hy hpos res hheld
    rw [held_fault hy] at hheld
    exact hpos res hheld

/-- No request in flight holds less than nothing. -/
theorem KernelRun.heldBy_nonneg {tr : List KernelTransition} {pool : KernelPool}
    (h : KernelRun tr pool) (x : String) : ∀ task ∈ pool.tasks, 0 ≤ heldBy task.past x := by
  intro task htask
  have hpos := h.held_pos task htask
  unfold heldBy
  split
  · next res hres =>
    unfold amountFor
    have := hpos res hres
    split <;> omega
  · exact le_refl 0

/-- As long as no request settles a reservation it only claims, what is reserved
beyond the pending holds is at least what the requests in flight have still to
settle; a request that ends with a reservation leaves more. -/
theorem KernelRun.carried_le_unbacked {tr : List KernelTransition} {pool : KernelPool}
    (h : KernelRun tr pool) (hgood : ∀ t ∈ tr, ¬ CommitsClaim t) (x : String) :
    carried (heldBy · x) pool.tasks ≤ pool.store.unbacked x := by
  refine kernelContract.accounts (W := (heldBy · x)) (B := fun _ db w => w ≤ db.unbacked x)
    (G := fun t => ¬ CommitsClaim t ∧ ∀ task ∈ t.before.tasks, 0 ≤ heldBy task.past x)
    rfl (unbacked_genesis x).ge (fun _ _ _ _ _ hB => hB) ?_ ?_ ?_ ?_ h (fun _ _ _ _ _ => trivial) ?_
  · intro tr db before after id op k past pool hinv hkeeps ⟨hclaims, _⟩ hB
    have hmem : (⟨id, .vis op k, past⟩ : Task KernelSig (KernelResult Outcome)) ∈ pool.tasks := by
      simp [pool]
    have hstep : (exec op db).2.unbacked x + heldBy past x =
        db.unbacked x + heldBy (⟨op, (exec op db).1⟩ :: past) x :=
      act_unbacked hinv.2 hmem (hkeeps _ hmem) hclaims x
    have hbefore : carried (heldBy · x) (before ++ after) + heldBy past x ≤ db.unbacked x := hB
    show _ + heldBy (⟨op, (exec op db).1⟩ :: past) x ≤ (exec op db).2.unbacked x
    omega
  · exact fun op y past hy => heldBy_fault hy past x
  · intro _ db w t task ⟨_, hnonneg⟩ hends hB
    have hkept := hnonneg task hends.1
    have hbefore : w + heldBy task.past x ≤ db.unbacked x := hB
    show w ≤ db.unbacked x
    omega
  · intro db db' hboot hinv
    exact bootstrap_eq hinv.1 hboot
  · intro t ht
    obtain ⟨newer, older, rfl⟩ := List.append_of_mem ht
    exact ⟨hgood t ht, KernelRun.heldBy_nonneg (Run.upTo h).1 x⟩

/-- What a pending hold reserved is reserved still, as long as no request settles
a reservation it only claims. -/
theorem KernelRun.backed {tr : List KernelTransition} {pool : KernelPool} (h : KernelRun tr pool)
    (hgood : ∀ t ∈ tr, ¬ CommitsClaim t) {hold : HoldRequest}
    (hrow : pool.store.holdRequests.find? hold.holdId = some hold) (hpending : hold.status = .pending) :
    hold.reservedCost ≤ pool.store.reserved hold.agentId := by
  have hunbacked := h.carried_le_unbacked hgood hold.agentId
  have hcarried : 0 ≤ carried (heldBy · hold.agentId) pool.tasks := by
    refine List.sum_nonneg ?_
    intro amount hmem
    obtain ⟨task, htask, rfl⟩ := List.mem_map.mp hmem
    exact h.heldBy_nonneg hold.agentId task htask
  have hone : hold.pendingFor hold.agentId ≤ pool.store.pending hold.agentId := by
    refine List.single_le_sum ?_ _ (List.mem_map_of_mem (Table.mem_of_find? hrow))
    intro amount hmem
    obtain ⟨other, hother, rfl⟩ := List.mem_map.mp hmem
    have hcost := (h.keeps.1 _ other (Table.find?_of_mem hother)).1.reservedCost.1
    unfold HoldRequest.pendingFor amountFor
    split
    · split <;> omega
    · exact le_refl 0
  have hcost : hold.pendingFor hold.agentId = hold.reservedCost := by
    unfold HoldRequest.pendingFor amountFor
    rw [if_pos hpending, if_pos rfl]
  unfold Db.unbacked at hunbacked
  omega

/-- In every run in which no request ends with a reservation in its hands, and
none settles a reservation it only claims, reserved energy is the energy of
the pending holds whenever nothing is in flight. -/
theorem run_reserved_eq_pending {tr : List KernelTransition} {pool : KernelPool}
    (h : KernelRun tr pool) (hgood : ∀ t ∈ tr, ¬ Strands t ∧ ¬ CommitsClaim t)
    (hidle : pool.tasks = []) (actorId : String) (row : EnergyRow)
    (hrow : pool.store.energyLedger.find? actorId = some row) :
    row.reservedEnergy = pool.store.pending actorId := by
  have hunbacked := h.unbacked_eq hgood actorId
  rw [hidle] at hunbacked
  have hreserved : pool.store.reserved actorId = row.reservedEnergy := by
    unfold Db.reserved
    rw [hrow]
    rfl
  have hnone : pool.store.reserved actorId - pool.store.pending actorId = 0 := hunbacked
  omega

/-- A step that strands no reservation and settles no claim, as can be read off
it. -/
def settlesCleanly (t : KernelTransition) : Bool :=
  match t.label with
  | .act _ ⟨.finalize tx, .ok _⟩ => (holdReservedCost tx.event.payload).isNone
  | .finish .. | .cancel _ | .restart => t.before.tasks.all fun task => (held task.past).isNone
  | _ => true

omit [Externals] in
/-- The test finds every step that strands a reservation or commits a claim. -/
theorem settlesCleanly_sound {t : KernelTransition} (h : settlesCleanly t = true) :
    ¬ Strands t ∧ ¬ CommitsClaim t := by
  constructor
  · rintro ⟨task, ⟨hmem, hend⟩, hheld⟩
    have hall : t.before.tasks.all (fun task => (held task.past).isNone) = true := by
      unfold settlesCleanly at h
      rcases hend with ⟨a, hlabel⟩ | hlabel | hlabel <;> rw [hlabel] at h <;> exact h
    have hnone := List.all_eq_true.mp hall task hmem
    exact hheld (Option.isNone_iff_eq_none.mp hnone)
  · rintro ⟨past, tx, ev, ⟨id, prog, hlabel, -⟩, -, cost, hclaim, -⟩
    unfold settlesCleanly at h
    rw [hlabel] at h
    have hnone : (holdReservedCost tx.event.payload).isNone = true := h
    rw [hclaim] at hnone
    cases hnone

omit [Externals] in
/-- What the agent has reserved while its change is on hold, which is what the pending
hold says it needs. -/
theorem reserved_agentOnHold :
    ∃ row, (kernelPlayed agentOnHold).pool.store.energyLedger.find? "agent-1" = some row ∧
      row.reservedEnergy = 16 ∧
      row.reservedEnergy = (kernelPlayed agentOnHold).pool.store.pending "agent-1" := by
  have hplayed : ((kernelPlayed agentOnHold).pool.store.energyLedger.find? "agent-1").map
        EnergyRow.reservedEnergy = some 16 ∧
      (kernelPlayed agentOnHold).trace.all settlesCleanly = true ∧
      (kernelPlayed agentOnHold).pool.tasks.length = 0 := by
    rw [kernelPlayed_eq]
    decide +kernel
  obtain ⟨hrow, hclean, hidle⟩ := hplayed
  obtain ⟨row, hfind, hreserved⟩ := Option.map_eq_some_iff.mp hrow
  refine ⟨row, hfind, hreserved, ?_⟩
  exact @run_reserved_eq_pending reference _ _ (kernelRun_played agentOnHold)
    (fun t ht => settlesCleanly_sound (List.all_eq_true.mp hclean t ht))
    (List.length_eq_zero_iff.mp hidle) "agent-1" row hfind

/-- Root submits an execute whose payload names no input. -/
def incompleteExecute : List (Turn Request) :=
  alone 30 (submitAt 0 "root" .execute "workspace/a" (.obj []))

omit [Externals] in
/-- Energy that is reserved for no pending hold: an execute was refused for its payload
after it had reserved what it costs. -/
theorem incompleteExecute_strands :
    letI := reference
    ¬ ∀ tr pool, KernelRun tr pool → pool.tasks = [] → ∀ actorId row,
      pool.store.energyLedger.find? actorId = some row →
      row.reservedEnergy = pool.store.pending actorId := by
  intro hclaim
  have hplayed : (kernelPlayed incompleteExecute).pool.tasks.length = 0 ∧
      ((kernelPlayed incompleteExecute).pool.store.energyLedger.find? "root").map
        EnergyRow.reservedEnergy = some 26 ∧
      (kernelPlayed incompleteExecute).pool.store.pending "root" = 0 := by
    rw [kernelPlayed_eq]
    decide +kernel
  obtain ⟨hidle, hrow, hpending⟩ := hplayed
  obtain ⟨row, hfind, hreserved⟩ := Option.map_eq_some_iff.mp hrow
  have heq := hclaim _ _ (kernelRun_played incompleteExecute) (List.length_eq_zero_iff.mp hidle)
    "root" row hfind
  rw [hreserved, hpending] at heq
  cases heq

end PunkgoKernel
