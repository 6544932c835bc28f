import PunkgoKernel.Laws.HoldSafety
import PunkgoKernel.Laws.Ledger
import PunkgoKernel.Laws.Reserved

/-!
# What lapses on the way

A submit looks at the clock before it decides: an envelope past its deadline
is marked expired, and holds past their timeout are settled as rejections. Both
happen whatever becomes of the request, to the envelopes of its actor and the
holds under them. `Lapsed` is a database after some of that and nothing else; it
leaves every actor alone, and of the ledger it takes only what the timed-out
holds forfeit (`Db.forfeited`, `Db.released`). A hold request names the agent its
envelope was granted to (`HoldsOwned`), so for a human nothing but an envelope
lapses.
-/

namespace PunkgoKernel

open Json (Value)
open Relational (Table key)
open Relation (ReflTransGen)
open Resumption

variable [Externals]

/-- One thing of an actor's that lapses, by the clock of a request. -/
inductive Lapse (env : Env) (actorId : String) : Db → Db → Prop where
  /-- An active envelope past its deadline is marked expired. -/
  | envelope (db : Db) (e : EnvelopeRecord) :
      db.envelopes.find? e.envelopeId = some e → e.actorId = actorId → e.status = .active →
      isEnvelopeExpired e (nowMillisU64 (env.clock .envelopeExpiry)) = true →
      Lapse env actorId db { db with
        envelopes := db.envelopes.modify e.envelopeId fun r => { r with status := .expired } }
  /-- A pending hold past its envelope's timeout is settled. -/
  | hold (db db' : Db) (e : EnvelopeRecord) (timeoutSecs : Int) (hold : HoldRequest) (round : Nat)
      (event : EventRecord) :
      db.envelopes.find? e.envelopeId = some e → e.actorId = actorId →
      e.holdTimeoutSecs = some timeoutSecs → 0 < timeoutSecs → db.holdRequests.find? hold.holdId = some hold → hold.status = .pending →
      hold.envelopeId = e.envelopeId →
      timedOut (nowMillisU64 (env.clock .expiryScan)) hold.triggeredAt timeoutSecs = true →
      expireHold (expireTx env round hold) db = .ok (event, db') → Lapse env actorId db db'

/-- The second database is the first after things that lapse. -/
abbrev Lapsed (env : Env) (actorId : String) : Db → Db → Prop := ReflTransGen (Lapse env actorId)

/-! ## What it keeps -/

/-- A lapse is a chain of effects that writes no hold request. -/
theorem Lapse.effects {env : Env} {actorId : String} {db db' : Db}
    (h : Lapse env actorId db db') : ∃ op : Op, (∀ row, ¬ op.Holds row) ∧ Effects op db db' := by
  cases h with
  | envelope e =>
    exact ⟨.countEvents, fun _ h => h, .single (.envelopeStatus db e.envelopeId .expired)⟩
  | hold _ e secs hold round event _ _ _ _ _ _ _ _ hexpire =>
    exact ⟨.expireHold (expireTx env round hold), fun _ h => h, expireHold_effects hexpire⟩

/-- What every effect keeps, a lapse keeps. -/
theorem Lapse.keep {P : Db → Prop} (step : ∀ {op a b}, Effect op a b → P a → P b) {env : Env}
    {actorId : String} {db db' : Db} (h : Lapse env actorId db db') (hP : P db) : P db' := by
  obtain ⟨op, -, heffects⟩ := h.effects
  exact heffects.keep step hP

/-- What every operation keeps is kept by what lapses. -/
theorem Lapsed.keep {P : Db → Prop} (step : ∀ {op a b}, Effect op a b → P a → P b) {env : Env}
    {actorId : String} {db db' : Db} (h : Lapsed env actorId db db') (hP : P db) : P db' := by
  induction h with
  | refl => exact hP
  | tail _ hstep ih => exact hstep.keep step ih

/-- What lapses leaves the log, or adds to it. -/
theorem Lapsed.events {env : Env} {actorId : String} {db db' : Db}
    (h : Lapsed env actorId db db') : db.events.rows <+: db'.events.rows :=
  h.keep (P := fun db' => db.events.rows <+: db'.events.rows)
    (fun hstep hbegins => hbegins.trans hstep.events_extend) List.prefix_rfl

/-- What lapses leaves the actors alone, step by step. -/
theorem Lapse.actors {env : Env} {actorId : String} {db db' : Db}
    (h : Lapse env actorId db db') : db'.actors = db.actors := by
  cases h with
  | envelope => rfl
  | hold _ e secs hold round event _ _ _ _ _ _ _ _ hexpire =>
    have htx : transaction (.expireHold (expireTx env round hold)) db = .ok (event, db') := hexpire
    exact (keepsGrants_frame (by rfl) htx).1

/-- What lapses leaves the actors alone. -/
theorem Lapsed.actors {env : Env} {actorId : String} {db db' : Db}
    (h : Lapsed env actorId db db') : db'.actors = db.actors := by
  induction h with
  | refl => rfl
  | tail _ hstep ih => exact hstep.actors.trans ih

/-- What a lapse keeps of every hold request, things that lapse keep. -/
theorem Lapsed.allHolds {P : Db → HoldRequest → Prop}
    (later : ∀ {db db' hold hold'}, Later db db' → SameHold hold hold' → P db hold → P db' hold')
    {env : Env} {actorId : String} {db db' : Db} (h : Lapsed env actorId db db')
    (hall : AllHolds P db) : AllHolds P db' := by
  induction h with
  | refl => exact hall
  | tail _ hstep ih =>
    obtain ⟨op, hnone, heffects⟩ := hstep.effects
    exact ih.effects later (fun row hrow => absurd hrow (hnone row)) heffects

/-- What lapses leaves the holds sound. -/
theorem Lapsed.holdsSound {env : Env} {actorId : String} {db db' : Db}
    (h : Lapsed env actorId db db') (hsound : HoldsSound db) : HoldsSound db' := by
  induction h with
  | refl => exact hsound
  | tail _ hstep ih =>
    obtain ⟨op, hnone, heffects⟩ := hstep.effects
    exact ih.effects (fun row hrow => absurd hrow (hnone row)) heffects

/-! ## Holds and their envelopes -/

/-- Every hold request is of the agent its envelope was granted to. -/
def HoldsOwned (db : Db) : Prop :=
  AllHolds (fun db hold => ∃ e, db.envelopes.find? hold.envelopeId = some e ∧
    e.actorId = hold.agentId) db

omit [Externals] in
/-- A hold that is owned is owned later on: its row and its envelope's row keep the
agent. -/
theorem owned_later {db db' : Db} {hold hold' : HoldRequest} (hlater : Later db db')
    (hsame : SameHold hold hold')
    (h : ∃ e, db.envelopes.find? hold.envelopeId = some e ∧ e.actorId = hold.agentId) :
    ∃ e, db'.envelopes.find? hold'.envelopeId = some e ∧ e.actorId = hold'.agentId := by
  obtain ⟨e, hfind, howner⟩ := h
  obtain ⟨e', hfind', hgrant⟩ := hlater.envelopes _ e hfind
  refine ⟨e', ?_, ?_⟩
  · rw [hsame.envelopeId, hfind']
  · rw [hgrant.actorId, howner, hsame.agentId]

/-- A trigger writes a hold under the active envelope of its own agent. -/
theorem allowed_holdsOwned {past : Past} {op : Op} {db : Db} (hknown : ∀ d ∈ past, known db d)
    (hallowed : allowed past op) :
    ∀ row, op.Holds row →
      ∃ e, db.envelopes.find? row.envelopeId = some e ∧ e.actorId = row.agentId := by
  intro row hrow
  cases op with
  | triggerHold tx =>
    obtain ⟨env, action, envelope, actor, -, -, -, hactive, -⟩ := hallowed
    cases hrow
    obtain ⟨⟨e, hfind, hgrant⟩, howner⟩ := hknown _ hactive
    exact ⟨e, hfind, hgrant.actorId.trans howner⟩
  | _ => cases hrow

/-- In every run the agent of a hold is the one its envelope was granted to. -/
theorem KernelRun.holdsOwned {tr : List KernelTransition} {pool : KernelPool}
    (h : KernelRun tr pool) : HoldsOwned pool.store := by
  refine kernelContract.invariant (P := fun _ pool => HoldsOwned pool.store) (G := fun _ => True)
    (fun _ _ h => nomatch h) ?_ h (fun _ _ _ _ _ => trivial) (fun _ _ => trivial)
  intro tr pool l pool' _ hs hinv hkeeps _ howned
  cases hs with
  | act store before after id op k past =>
    have hme := hkeeps ⟨id, .vis op k, past⟩ (by simp)
    exact AllHolds.effects owned_later (allowed_holdsOwned hme.known hme.honors.1)
      (exec_effects op store) howned
  | restart store store' tasks hboot =>
    rw [bootstrap_eq hinv.1 hboot]
    exact howned
  | _ => exact howned

/-- What lapses leaves every hold with its agent. -/
theorem Lapsed.holdsOwned {env : Env} {actorId : String} {db db' : Db}
    (h : Lapsed env actorId db db') (howned : HoldsOwned db) : HoldsOwned db' :=
  h.allHolds owned_later howned

/-! ## The holds that timed out -/

/-- What the timed-out holds of an actor had reserved. -/
def Db.released (db : Db) (actorId : String) : Int :=
  db.holdRequests.total fun hold =>
    if hold.status = .timedOut then amountFor hold.agentId hold.reservedCost actorId else 0

/-- What the timed-out holds of an actor cost it. -/
def Db.forfeited (db : Db) (actorId : String) : Int :=
  db.holdRequests.total fun hold =>
    if hold.status = .timedOut then
      amountFor hold.agentId (commitmentCost hold.reservedCost) actorId
    else 0

/-- The energy balance of an actor; nothing, without a ledger row. -/
def Db.balance (db : Db) (actorId : String) : Int :=
  ((db.energyLedger.find? actorId).map EnergyRow.energyBalance).getD 0

omit [Externals] in
/-- The balances after a row is written: the new one for its actor, the old ones for
everybody else. -/
theorem balance_put {db : Db} {actorId : String} {row : EnergyRow}
    (hrow : db.energyLedger.find? actorId = some row) (balance reserved : Int) (x : String) :
    ({ db with energyLedger := EnergyLedger.put db.energyLedger actorId balance reserved } : Db).balance
      x = db.balance x + amountFor actorId (balance - row.energyBalance) x := by
  unfold Db.balance amountFor
  rw [EnergyLedger.find?_put hrow]
  by_cases hx : x = actorId
  · subst hx
    simp [hrow]
  · simp [hx, Ne.symm hx]

omit [Externals] in
/-- A settlement takes the actual cost from the balance and the reservation
from what is reserved. -/
theorem settleInTx_energy {actorId : String} {reservedCost actualCost : Int} {db db' : Db}
    (h : EnergyLedger.settleInTx actorId reservedCost actualCost db = .ok db') (x : String) :
    db'.balance x = db.balance x - amountFor actorId actualCost x ∧
      db'.reserved x = db.reserved x - amountFor actorId reservedCost x := by
  obtain ⟨row, hrow, -, -, -, -, -, -, rfl⟩ := EnergyLedger.settleInTx_eq_ok h
  rw [balance_put hrow, reserved_put hrow]
  unfold amountFor
  constructor <;> split <;> omega

/-- A timeout moves a hold's reservation from the ledger to the timed-out
holds, and its commitment cost from the balance. -/
theorem expireTx_lapse {env : Env} {round : Nat} {hold : HoldRequest} {db db' : Db}
    {event : EventRecord} (hrow : db.holdRequests.find? hold.holdId = some hold)
    (hpending : hold.status = .pending) (hpos : 0 < hold.reservedCost)
    (h : expireHold (expireTx env round hold) db = .ok (event, db')) (x : String) :
    db'.reserved x + db'.released x = db.reserved x + db.released x ∧
      db'.balance x + db'.forfeited x = db.balance x + db.forfeited x := by
  obtain ⟨db₁, db₂, events, hashes, hresolve, hsettle, -, rfl⟩ := expireHold_eq_ok h
  obtain ⟨hold', hrow', -, hdb₁⟩ := EnvelopeStore.resolveHoldRequestInTx_eq_ok hresolve
  obtain rfl := Option.some.inj (hrow.symm.trans hrow')
  have hcommitment : (expireTx env round hold).commitmentCost = commitmentCost hold.reservedCost :=
    if_pos hpos
  have hholds := congrArg Db.holdRequests (settleIf_frame hsettle)
  unfold settleIf at hsettle
  rw [if_pos (show 0 < (expireTx env round hold).reservedCost from hpos), hcommitment] at hsettle
  have hkey : ∀ r, key (EnvelopeStore.resolved .timedOut none (expireTx env round hold).now r) =
      key r := fun _ => rfl
  -- the hold requests change by one row, which was pending and is timed out
  have htotal : ∀ g : HoldRequest → Int, db₂.holdRequests.total g = db.holdRequests.total g -
      g hold + g (EnvelopeStore.resolved .timedOut none (expireTx env round hold).now hold) := by
    intro g
    rw [hholds, hdb₁]
    exact Table.total_modify hkey hrow g
  obtain ⟨hbalance, hreserved⟩ := settleInTx_energy hsettle x
  have hbefore : db₁.balance x = db.balance x ∧ db₁.reserved x = db.reserved x := by
    rw [hdb₁]
    exact ⟨rfl, rfl⟩
  rw [hbefore.1] at hbalance
  rw [hbefore.2] at hreserved
  have hsame := SameHold.resolved hold .timedOut none (expireTx env round hold).now
  have hnot : ¬ hold.status = .timedOut := by rw [hpending]; decide
  have hnow : (EnvelopeStore.resolved .timedOut none (expireTx env round hold).now hold).status =
      .timedOut := rfl
  constructor
  · show db₂.reserved x + db₂.holdRequests.total _ = db.reserved x + db.holdRequests.total _
    rw [hreserved, htotal, if_neg hnot, if_pos hnow, hsame.agentId, hsame.reservedCost]
    show _ - amountFor hold.agentId hold.reservedCost x + _ = _
    omega
  · show db₂.balance x + db₂.holdRequests.total _ = db.balance x + db.holdRequests.total _
    rw [hbalance, htotal, if_neg hnot, if_pos hnow, hsame.agentId, hsame.reservedCost]
    show _ - amountFor hold.agentId (commitmentCost hold.reservedCost) x + _ = _
    omega

/-- What lapses changes an actor's energy only by what its timed-out holds
release and forfeit. -/
theorem Lapsed.energy {env : Env} {actorId : String} {db db' : Db}
    (h : Lapsed env actorId db db') (hsound : HoldsSound db)
    (x : String) :
    db'.reserved x + db'.released x = db.reserved x + db.released x ∧
      db'.balance x + db'.forfeited x = db.balance x + db.forfeited x := by
  induction h with
  | refl => exact ⟨rfl, rfl⟩
  | tail hbefore hstep ih =>
    have hsound' := Lapsed.holdsSound hbefore hsound
    cases hstep with
    | envelope => exact ih
    | hold _ e secs hold round event _ _ _ _ hrow hpending _ _ hexpire =>
      have hpos := (hsound' _ hold hrow).1.reservedCost.1
      obtain ⟨hreserved, hbalance⟩ := expireTx_lapse hrow hpending hpos hexpire x
      exact ⟨hreserved.trans ih.1, hbalance.trans ih.2⟩

/-- What lapses leaves what is reserved beyond the pending holds. -/
theorem Lapsed.unbacked {env : Env} {actorId : String} {db db' : Db}
    (h : Lapsed env actorId db db') (hsound : HoldsSound db)
    (x : String) : db'.unbacked x = db.unbacked x := by
  induction h with
  | refl => rfl
  | tail hbefore hstep ih =>
    have hsound' := Lapsed.holdsSound hbefore hsound
    cases hstep with
    | envelope => exact ih
    | hold _ e secs hold round event _ _ _ _ hrow _ _ _ hexpire =>
      have hpos := (hsound' _ hold hrow).1.reservedCost.1
      exact (expireTx_unbacked hrow rfl rfl hpos hexpire x).trans ih

end PunkgoKernel
