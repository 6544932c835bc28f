import PunkgoKernel.Lib.Sourced
import PunkgoKernel.Laws.Delegation
import PunkgoKernel.Laws.Mediation

/-!
# Nothing is forgotten

Whatever the requests of a run do, the database never loses a row, and what a row was
written for stays: the log only grows, an actor keeps its creator and its boundary, an
envelope its terms, and a hold request what it asks for. What may change of a row changes
one way: an envelope is only ever charged more, one that has ended has ended for good, and
a hold request that was decided is not touched again (`GoesOn`).

What may become of a row is said once for every operation and every table
(`exec_actors`, `exec_envelopes`, `exec_holds`), with the rows that are new.
-/

namespace PunkgoKernel

open Relational (Table key Evolves)
open Resumption

/-! ## What becomes of a row -/

/-- Two states of one actor: its status and its share of the production apart, it is the
same. -/
structure SameStanding (r r' : ActorRecord) : Prop extends SameActor r r' where
  writableTargets : r'.writableTargets = r.writableTargets
  reductionPolicy : r'.reductionPolicy = r.reductionPolicy

/-- A row has its own standing. -/
theorem SameStanding.refl (r : ActorRecord) : SameStanding r r := ⟨.refl r, rfl, rfl⟩

/-- Standing is kept along a run if each step keeps it. -/
theorem SameStanding.trans {a b c : ActorRecord} (h : SameStanding a b) (h' : SameStanding b c) :
    SameStanding a c where
  toSameActor := h.toSameActor.trans h'.toSameActor
  writableTargets := h'.writableTargets.trans h.writableTargets
  reductionPolicy := h'.reductionPolicy.trans h.reductionPolicy

instance : Std.Refl SameStanding := ⟨SameStanding.refl⟩

instance : IsTrans ActorRecord SameStanding := ⟨fun _ _ _ => SameStanding.trans⟩

/-- A later state of an envelope: the terms are the same, no charge is taken back, and a
status that changes is that of an envelope that has ended. -/
structure EnvelopeGoesOn (e e' : EnvelopeRecord) : Prop where
  terms : e' = { e with budgetConsumed := e'.budgetConsumed, status := e'.status }
  consumed : e.budgetConsumed ≤ e'.budgetConsumed
  status : e'.status = e.status ∨ e'.status = .expired

/-- An envelope to which nothing happens goes on. -/
theorem EnvelopeGoesOn.refl (e : EnvelopeRecord) : EnvelopeGoesOn e e := ⟨rfl, le_rfl, .inl rfl⟩

/-- Consumption grows along a run, and an envelope that has ended stays ended. -/
theorem EnvelopeGoesOn.trans {a b c : EnvelopeRecord} (h : EnvelopeGoesOn a b)
    (h' : EnvelopeGoesOn b c) : EnvelopeGoesOn a c where
  terms := by
    rw [h'.terms, h.terms]
  consumed := h.consumed.trans h'.consumed
  status := by
    rcases h'.status with hsame | hended
    · rw [hsame]
      exact h.status
    · exact .inr hended

instance : Std.Refl EnvelopeGoesOn := ⟨EnvelopeGoesOn.refl⟩

instance : IsTrans EnvelopeRecord EnvelopeGoesOn := ⟨fun _ _ _ => EnvelopeGoesOn.trans⟩

/-- A later state of a hold request: it asks for the same, and once it is decided it stays
as it is. -/
structure HoldGoesOn (h h' : HoldRequest) : Prop where
  same : SameHold h h'
  decided : h.status ≠ .pending → h' = h

/-- A hold to which nothing happens goes on. -/
theorem HoldGoesOn.refl (h : HoldRequest) : HoldGoesOn h h := ⟨.refl h, fun _ => rfl⟩

/-- A hold goes on along a run: once it is decided nothing about it changes any more. -/
theorem HoldGoesOn.trans {a b c : HoldRequest} (h : HoldGoesOn a b) (h' : HoldGoesOn b c) :
    HoldGoesOn a c where
  same := h.same.trans h'.same
  decided hdecided := by
    have hkept := h.decided hdecided
    rw [h'.decided (hkept ▸ hdecided), hkept]

instance : Std.Refl HoldGoesOn := ⟨HoldGoesOn.refl⟩

instance : IsTrans HoldRequest HoldGoesOn := ⟨fun _ _ _ => HoldGoesOn.trans⟩

/-! ## The rows that are new -/

/-- The row of a new actor, which is active from the start; everything else is as the
creation has it. -/
def CreateActorSpec.row (spec : CreateActorSpec) : ActorRecord :=
  { actorId := spec.actorId
    actorType := spec.actorType
    creatorId := some spec.creatorId
    lineage := spec.lineage
    purpose := spec.purpose
    status := .active
    writableTargets := spec.writableTargets
    energyShare := spec.energyShare
    reductionPolicy := spec.reductionPolicy }

/-- The row of a new envelope, active and with nothing consumed, and with the expiry its
duration comes to. -/
def EnvelopeSpec.row (spec : EnvelopeSpec) (envelopeId : String) (parentId : Option String)
    (now : Nat) : EnvelopeRecord :=
  { envelopeId := envelopeId
    actorId := spec.actorId
    grantorId := spec.grantorId
    parentEnvelopeId := parentId
    budget := spec.budget
    budgetConsumed := 0
    targets := spec.targets
    actions := spec.actions
    durationSecs := spec.durationSecs
    reportEvery := spec.reportEvery
    holdOn := spec.holdOn
    holdTimeoutSecs := spec.holdTimeoutSecs
    status := .active
    createdAt := now
    expiresAt := spec.durationSecs.map fun d => (parseU64 now + secsToMillis d) % 2 ^ 64 }

/-- A commit that creates an actor inserts its row, and no other. -/
theorem createActorRows_inserts {spec : CreateActorSpec} {db db' : Db}
    (h : createActorRows (some spec) db = .ok db') :
    db.actors.insert? spec.row = some db'.actors := by
  obtain ⟨db₁, hledger, hactor⟩ := bind_eq_ok.mp h
  obtain ⟨-, -, -, ledger, -, rfl⟩ := EnergyLedger.createActorInTx_eq_ok hledger
  unfold ActorStore.createInTx at hactor
  split at hactor
  · cases hactor
  split at hactor
  · cases hactor
  split at hactor
  · cases hactor
  next actors hins =>
  cases hactor
  exact hins

/-- A commit that grants an envelope inserts its row, and no other. -/
theorem createEnvelopeRow_inserts {envelopeId : String} {spec : EnvelopeSpec}
    {parentId : Option String} {now : Nat} {db db' : Db}
    (h : createEnvelopeRow (some (envelopeId, spec, parentId)) now db = .ok db') :
    db.envelopes.insert? (spec.row envelopeId parentId now) = some db'.envelopes := by
  unfold createEnvelopeRow EnvelopeStore.createInTx at h
  simp only at h
  split at h
  · cases h
  next envelopes hins =>
  cases h
  exact hins

/-- Freezing is about actors, and leaves envelopes alone. -/
theorem freezeAll_envelopes {actorIds : List String} {db db' : Db}
    (h : freezeAll actorIds db = .ok db') : db'.envelopes = db.envelopes := by
  induction actorIds generalizing db with
  | nil =>
    cases h
    rfl
  | cons actorId rest ih =>
    obtain ⟨db₁, hstatus, h⟩ := bind_eq_ok.mp h
    obtain ⟨-, rfl⟩ := ActorStore.updateInTx_eq_ok hstatus
    have hrest := ih h
    exact hrest

variable [Externals]

/-- A commit inserts the actor it was asked to create, or leaves the actors alone. -/
theorem finalize_insertsActor {tx : FinalizeTx} {db db' : Db} {ev : EventRecord}
    (h : finalizeEnergyAndEvent tx db = .ok (ev, db')) :
    (tx.createActor = none ∧ db'.actors = db.actors) ∨
      ∃ spec, tx.createActor = some spec ∧ db.actors.insert? spec.row = some db'.actors := by
  obtain ⟨db₁, db₂, db₃, events, hashes, hsettle, hactor, henvelope, -, rfl⟩ := finalize_eq_ok h
  have hsettled : db₁.actors = db.actors := by rw [settleReservation_frame hsettle]
  have hgranted : db₃.actors = db₂.actors := by rw [createEnvelopeRow_frame henvelope]
  show (_ ∧ db₃.actors = _) ∨ ∃ spec, _ ∧ _ = some db₃.actors
  cases hcreate : tx.createActor with
  | none =>
    rw [hcreate] at hactor
    cases hactor
    exact .inl ⟨rfl, hgranted.trans hsettled⟩
  | some spec =>
    rw [hcreate] at hactor
    refine .inr ⟨spec, rfl, ?_⟩
    rw [hgranted, ← hsettled]
    exact createActorRows_inserts hactor

/-- A commit inserts the envelope it was asked to grant, or leaves the envelopes alone. -/
theorem finalize_insertsEnvelope {tx : FinalizeTx} {db db' : Db} {ev : EventRecord}
    (h : finalizeEnergyAndEvent tx db = .ok (ev, db')) :
    (tx.createEnvelope = none ∧ db'.envelopes = db.envelopes) ∨
      ∃ envelopeId spec parentId, tx.createEnvelope = some (envelopeId, spec, parentId) ∧
        db.envelopes.insert? (spec.row envelopeId parentId tx.envelopeNow) = some db'.envelopes := by
  obtain ⟨db₁, db₂, db₃, events, hashes, hsettle, hactor, henvelope, -, rfl⟩ := finalize_eq_ok h
  have hbefore : db₂.envelopes = db.envelopes := by
    rw [createActorRows_frame hactor, settleReservation_frame hsettle]
  show (_ ∧ db₃.envelopes = _) ∨ ∃ envelopeId spec parentId, _ ∧ _ = some db₃.envelopes
  cases hcreate : tx.createEnvelope with
  | none =>
    rw [hcreate] at henvelope
    cases henvelope
    exact .inl ⟨rfl, hbefore⟩
  | some create =>
    obtain ⟨envelopeId, spec, parentId⟩ := create
    rw [hcreate] at henvelope
    refine .inr ⟨envelopeId, spec, parentId, rfl, ?_⟩
    rw [← hbefore]
    exact createEnvelopeRow_inserts henvelope

/-! ## What an operation does to each table -/

/-- The envelope an operation grants, in full, as the row that its transaction
inserts. -/
def Op.grant : Op → Option EnvelopeRecord
  | .finalize tx => tx.createEnvelope.map fun g => g.2.1.row g.1 g.2.2 tx.envelopeNow
  | _ => none

omit [Externals] in
/-- A change of one actor's row keeps the standing of all, if it keeps that of the
row. -/
theorem updateInTx_evolves {actorId : String} {f : ActorRecord → ActorRecord}
    {hf : ∀ r, key (f r) = key r} {New : ActorRecord → Prop} {db db' : Db}
    (h : ActorStore.updateInTx actorId f hf db = .ok db') (hkept : ∀ r, SameStanding r (f r)) :
    Evolves SameStanding New db.actors.find? db'.actors.find? := by
  obtain ⟨-, rfl⟩ := ActorStore.updateInTx_eq_ok h
  exact .modify (t := db.actors) (k := actorId) (f := f) hf fun r _ => hkept r

omit [Externals] in
/-- A cascade changes one row after the other, each only in its status. -/
theorem freezeAll_evolves {actorIds : List String} {New : ActorRecord → Prop} {db db' : Db}
    (h : freezeAll actorIds db = .ok db') :
    Evolves SameStanding New db.actors.find? db'.actors.find? := by
  induction actorIds generalizing db with
  | nil =>
    cases h
    exact .refl _
  | cons actorId rest ih =>
    obtain ⟨db₁, hstatus, h⟩ := bind_eq_ok.mp h
    exact (updateInTx_evolves hstatus fun r => ⟨⟨rfl, rfl, rfl, rfl, rfl⟩, rfl, rfl⟩).trans (ih h)

/-- Actors come by a commit that creates them, and keep their standing. There is no
third way for a row to get into the table or to change in it. -/
theorem transaction_actors {op : Op} {db db' : Db} {v : Val op}
    (h : transaction op db = .ok (v, db')) :
    Evolves SameStanding (fun row => ∃ spec, op.creation = some spec ∧ row = spec.row)
      db.actors.find? db'.actors.find? := by
  have hidle : db'.actors = db.actors →
      Evolves SameStanding (fun row => ∃ spec, op.creation = some spec ∧ row = spec.row)
        db.actors.find? db'.actors.find? := by
    intro hsame
    rw [hsame]
    exact .refl _
  cases op with
  | finalize tx =>
    rcases finalize_insertsActor h with ⟨-, hsame⟩ | ⟨spec, hcreate, hins⟩
    · exact hidle hsame
    · exact .insert hins ⟨spec, hcreate, rfl⟩
  | executeFreeze targetId => exact freezeAll_evolves (executeFreeze_eq_ok h).2
  | executeUnfreeze targetId =>
    exact updateInTx_evolves (unitTx_eq_ok h) fun r => ⟨⟨rfl, rfl, rfl, rfl, rfl⟩, rfl, rfl⟩
  | executeUpdateEnergyShare targetId energyShare =>
    have hshare := unitTx_eq_ok h
    unfold ActorStore.updateEnergyShareInTx at hshare
    split at hshare
    · cases hshare
    · exact updateInTx_evolves hshare fun r => ⟨⟨rfl, rfl, rfl, rfl, rfl⟩, rfl, rfl⟩
  | setEnvelopeStatus envelopeId status =>
    obtain ⟨-, rfl⟩ := EnvelopeStore.setStatusInTx_eq_ok (unitTx_eq_ok h)
    exact hidle rfl
  | consumeBudget tx =>
    rcases consumeBudget_eq_ok h with ⟨-, rfl⟩ | ⟨total, db₁, -, hconsume, hrest⟩
    · exact hidle rfl
    obtain ⟨row, -, -, -, rfl⟩ := EnvelopeStore.consumeBudgetInTx_eq_ok hconsume
    rcases hrest with rfl | hstatus
    · exact hidle rfl
    · obtain ⟨-, rfl⟩ := EnvelopeStore.setStatusInTx_eq_ok hstatus
      exact hidle rfl
  | _ => exact hidle (keepsGrants_frame rfl h).1

omit [Externals] in
/-- The one change of status that is made, to expired, lets every envelope go on. -/
theorem setStatusInTx_evolves {envelopeId : String} {New : EnvelopeRecord → Prop} {db db' : Db}
    (h : EnvelopeStore.setStatusInTx envelopeId .expired db = .ok db') :
    Evolves EnvelopeGoesOn New db.envelopes.find? db'.envelopes.find? := by
  obtain ⟨-, rfl⟩ := EnvelopeStore.setStatusInTx_eq_ok h
  exact .modify (t := db.envelopes) (k := envelopeId)
    (f := fun r => { r with status := .expired }) (fun _ => rfl) fun e _ => ⟨rfl, le_rfl, .inr rfl⟩

/-- Envelopes come by a commit that grants them, and go on, as long as what is charged is
not negative and what is set is the status of one that has ended. -/
theorem transaction_envelopes {op : Op} {db db' : Db} {v : Val op}
    (h : transaction op db = .ok (v, db'))
    (hcharge : ∀ tx, op = .consumeBudget tx → 0 ≤ tx.amount)
    (hended : ∀ envelopeId status, op = .setEnvelopeStatus envelopeId status → status = .expired) :
    Evolves EnvelopeGoesOn (fun row => op.grant = some row)
      db.envelopes.find? db'.envelopes.find? := by
  have hidle : db'.envelopes = db.envelopes →
      Evolves EnvelopeGoesOn (fun row => op.grant = some row)
        db.envelopes.find? db'.envelopes.find? := by
    intro hsame
    rw [hsame]
    exact .refl _
  cases op with
  | finalize tx =>
    rcases finalize_insertsEnvelope h with ⟨-, hsame⟩ | ⟨envelopeId, spec, parentId, hcreate, hins⟩
    · exact hidle hsame
    · refine .insert hins ?_
      show tx.createEnvelope.map _ = some _
      rw [hcreate]
      rfl
  | setEnvelopeStatus envelopeId status =>
    obtain rfl := hended envelopeId status rfl
    exact setStatusInTx_evolves (unitTx_eq_ok h)
  | consumeBudget tx =>
    have hpos := hcharge tx rfl
    rcases consumeBudget_eq_ok h with ⟨-, rfl⟩ | ⟨total, db₁, -, hconsume, hrest⟩
    · exact hidle rfl
    obtain ⟨row, hrow, rfl, -, hdb₁⟩ := EnvelopeStore.consumeBudgetInTx_eq_ok hconsume
    have hcharged : Evolves EnvelopeGoesOn (fun row => Op.grant (.consumeBudget tx) = some row)
        db.envelopes.find? db₁.envelopes.find? := by
      rw [hdb₁]
      refine .modify (t := db.envelopes) (k := tx.envelopeId)
        (f := fun r => { r with budgetConsumed := row.budgetConsumed + tx.amount }) (fun _ => rfl)
        fun e he => ⟨rfl, ?_, .inl rfl⟩
      obtain rfl := Option.some.inj (hrow.symm.trans he)
      show row.budgetConsumed ≤ row.budgetConsumed + tx.amount
      omega
    rcases hrest with rfl | hstatus
    · exact hcharged
    · exact hcharged.trans (setStatusInTx_evolves hstatus)
  | executeFreeze targetId => exact hidle (freezeAll_envelopes (executeFreeze_eq_ok h).2)
  | executeUnfreeze targetId =>
    obtain ⟨-, rfl⟩ := ActorStore.updateInTx_eq_ok (unitTx_eq_ok h)
    exact hidle rfl
  | executeUpdateEnergyShare targetId energyShare =>
    have hshare := unitTx_eq_ok h
    unfold ActorStore.updateEnergyShareInTx at hshare
    split at hshare
    · cases hshare
    · obtain ⟨-, rfl⟩ := ActorStore.updateInTx_eq_ok hshare
      exact hidle rfl
  | _ => exact hidle (keepsGrants_frame rfl h).2

/-- What one effect does to the hold requests: a trigger adds one, and a decision
changes one that was pending. -/
theorem Effect.holds {op : Op} {db db' : Db} (h : Effect op db db') :
    Evolves HoldGoesOn (fun row => op.Holds row)
      db.holdRequests.find? db'.holdRequests.find? := by
  cases h with
  | newHold row holds hop hins => exact .insert hins hop
  | resolveHold row decision instruction now _ hrow hpending =>
    refine .modify (t := db.holdRequests) (k := row.holdId)
      (f := EnvelopeStore.resolved decision instruction now) (fun _ => rfl) fun r hr => ?_
    obtain rfl := Option.some.inj (hrow.symm.trans hr)
    exact ⟨.resolved _ _ _ _, fun hdecided => absurd hpending hdecided⟩
  | _ => exact .refl _

/-- Hold requests come by a trigger, and go on, whether the operation succeeds or
fails. -/
theorem exec_holds (op : Op) (db : Db) :
    Evolves HoldGoesOn (fun row => op.Holds row)
      db.holdRequests.find? (exec op db).2.holdRequests.find? :=
  (exec_effects op db).relate
    (R := fun a b => Evolves HoldGoesOn (fun row => op.Holds row)
      a.holdRequests.find? b.holdRequests.find?)
    (fun _ => .refl _) Evolves.trans Effect.holds

omit [Externals] in
/-- What a database lost nothing of: every row of the earlier one is still there in the
later one, and has gone on as rows of its kind do. -/
structure GoesOn (db db' : Db) : Prop where
  events : db.events.rows <+: db'.events.rows
  actors : ∀ actorId actor, db.actors.find? actorId = some actor →
    ∃ actor', db'.actors.find? actorId = some actor' ∧ SameStanding actor actor'
  envelopes : ∀ envelopeId envelope, db.envelopes.find? envelopeId = some envelope →
    ∃ envelope', db'.envelopes.find? envelopeId = some envelope' ∧
      EnvelopeGoesOn envelope envelope'
  holds : ∀ holdId hold, db.holdRequests.find? holdId = some hold →
    ∃ hold', db'.holdRequests.find? holdId = some hold' ∧ HoldGoesOn hold hold'
  ledger : ∀ actorId, (db.energyLedger.find? actorId).isSome →
    (db'.energyLedger.find? actorId).isSome

omit [Externals] in
/-- A database to which nothing happens has lost nothing. -/
theorem GoesOn.refl (db : Db) : GoesOn db db where
  events := List.prefix_rfl
  actors _ actor h := ⟨actor, h, .refl actor⟩
  envelopes _ envelope h := ⟨envelope, h, .refl envelope⟩
  holds _ hold h := ⟨hold, h, .refl hold⟩
  ledger _ h := h

omit [Externals] in
/-- What was not lost in two stretches of a run was not lost in the whole. -/
theorem GoesOn.trans {a b c : Db} (h : GoesOn a b) (h' : GoesOn b c) : GoesOn a c where
  events := h.events.trans h'.events
  actors actorId actor hfind := by
    obtain ⟨actor₁, hfind₁, hsame₁⟩ := h.actors actorId actor hfind
    obtain ⟨actor₂, hfind₂, hsame₂⟩ := h'.actors actorId actor₁ hfind₁
    exact ⟨actor₂, hfind₂, hsame₁.trans hsame₂⟩
  envelopes envelopeId envelope hfind := by
    obtain ⟨envelope₁, hfind₁, hon₁⟩ := h.envelopes envelopeId envelope hfind
    obtain ⟨envelope₂, hfind₂, hon₂⟩ := h'.envelopes envelopeId envelope₁ hfind₁
    exact ⟨envelope₂, hfind₂, hon₁.trans hon₂⟩
  holds holdId hold hfind := by
    obtain ⟨hold₁, hfind₁, hon₁⟩ := h.holds holdId hold hfind
    obtain ⟨hold₂, hfind₂, hon₂⟩ := h'.holds holdId hold₁ hfind₁
    exact ⟨hold₂, hfind₂, hon₁.trans hon₂⟩
  ledger actorId hsome := h'.ledger actorId (h.ledger actorId hsome)

omit [Externals] in
/-- A charge that the protocol allows takes something, so consumption only grows. -/
theorem ChargeAllowed.amount_pos {past : Past} {tx : ConsumeTx} (h : ChargeAllowed past tx) :
    0 < tx.amount := by
  obtain ⟨ftx, actor, envelope, older, -, -, -, rfl, hpos, -⟩ := h
  exact hpos

end PunkgoKernel
