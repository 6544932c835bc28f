import PunkgoKernel.Laws.Budget
import PunkgoKernel.Laws.Resolution
import PunkgoKernel.Laws.HoldSafety

/-!
# What is promised of a budget

Besides what was consumed of it, an envelope's budget is promised to others: to
the holds that are pending under it, and to the envelopes its owner granted from
it. The kernel compares each trigger and each grant with what is not consumed,
and leaves out what it has promised before.

Both are counted in the same way here (`WithinBudget`): a budget covers what is
consumed and promised in every state of a run if and only if no step takes more
than was left (`Exceeds`).
-/

namespace PunkgoKernel

open Json (Value)
open Relational (Table key)
open Resumption

variable [Externals]

/-! ## Consumed and promised -/

omit [Externals] in
/-- What a step charges to an envelope. -/
def Label.charges (envelopeId : String) :
    Label KernelSig (KernelResult Outcome) Request → Int
  | .act _ ⟨.consumeBudget tx, .ok (.ok _)⟩ => if envelopeId = tx.envelopeId then tx.amount else 0
  | _ => 0

omit [Externals] in
/-- What is consumed of every budget and what is promised of it fit together. -/
def WithinBudget (promised : Db → String → Int) (db : Db) : Prop :=
  ∀ envelopeId row, db.envelopes.find? envelopeId = some row →
    row.budgetConsumed + promised db envelopeId ≤ row.budget

omit [Externals] in
/-- The step takes from an envelope more than is left of its budget. -/
def Exceeds (promised : Db → String → Int)
    (taken : String → Label KernelSig (KernelResult Outcome) Request → Int)
    (t : KernelTransition) : Prop :=
  ∃ envelopeId row, t.before.store.envelopes.find? envelopeId = some row ∧
    0 < taken envelopeId t.label ∧
    row.budget - row.budgetConsumed - promised t.before.store envelopeId < taken envelopeId t.label

/-- What an operation does to what is consumed and promised: it takes an amount,
or takes nothing. -/
structure Accounted (promised : Db → String → Int) (taken : String → Int) (op : Op) (db : Db) :
    Prop where
  unknown : ∀ x, db.envelopes.find? x = none → promised db x = 0 ∧ taken x = 0
  change : ∀ x, (taken x = 0 ∧ (exec op db).2.consumed x + promised (exec op db).2 x ≤
      db.consumed x + promised db x) ∨
    (exec op db).2.consumed x + promised (exec op db).2 x =
      db.consumed x + promised db x + taken x

theorem Accounted.withinBudget_iff {promised : Db → String → Int} {taken : String → Int} {op : Op}
    {db : Db} (h : Accounted promised taken op db)
    (hgrants : ∀ grant, op.Grants grant → 0 ≤ grant.budget) (hwithin : WithinBudget promised db) :
    WithinBudget promised (exec op db).2 ↔
      ∀ x row, db.envelopes.find? x = some row → 0 < taken x →
        taken x ≤ row.budget - row.budgetConsumed - promised db x := by
  constructor
  · intro hafter x row hrow hpos
    obtain ⟨row', hrow', hsame⟩ := (exec_later op db).envelopes x row hrow
    have hfits := hafter x row' hrow'
    have hchange := h.change x
    rw [consumed_of_find hrow, consumed_of_find hrow'] at hchange
    have hbudget : row'.budget = row.budget := hsame.budget
    omega
  · intro hleft x row' hrow'
    have hchange := h.change x
    rw [consumed_of_find hrow'] at hchange
    rcases exec_granted op db x row' hrow' with ⟨row, hrow, hbudget⟩ | ⟨hnone, grant, hgrant, hbudget⟩
    · have hfits := hwithin x row hrow
      rw [consumed_of_find hrow] at hchange
      by_cases hpos : 0 < taken x
      · have hle := hleft x row hrow hpos
        omega
      · omega
    · -- a new envelope: nothing was taken from it before it was granted
      obtain ⟨hpromised, htaken⟩ := h.unknown x hnone
      have hzero : db.consumed x = 0 := by
        unfold Db.consumed
        rw [hnone]
        rfl
      have hpos := hgrants grant hgrant
      omega

/-- An operation that changes nothing takes nothing. -/
theorem Accounted.idle {promised : Db → String → Int} {op : Op} {db : Db}
    (hunknown : ∀ x, db.envelopes.find? x = none → promised db x = 0)
    (hsame : (exec op db).2 = db) : Accounted promised (fun _ => 0) op db := by
  refine ⟨fun x hnone => ⟨hunknown x hnone, rfl⟩, fun x => .inl ⟨rfl, ?_⟩⟩
  rw [hsame]

/-- An operation that charges nothing, and after which no more is promised, takes
nothing. -/
theorem Accounted.quiet {promised : Db → String → Int} {op : Op} {db : Db}
    (hcharges : ∀ envelopeId amount, ¬ op.Charges envelopeId amount)
    (hunknown : ∀ x, db.envelopes.find? x = none → promised db x = 0)
    (hle : ∀ x, promised (exec op db).2 x ≤ promised db x) :
    Accounted promised (fun _ => 0) op db := by
  refine ⟨fun x hnone => ⟨hunknown x hnone, rfl⟩, fun x => .inl ⟨rfl, ?_⟩⟩
  have hpromised := hle x
  rw [exec_consumed hcharges]
  omega

/-- A charge takes its amount if it is made. -/
theorem Accounted.charge {promised : Db → String → Int} {ctx : ConsumeTx} {db : Db} (id : Nat)
    (hunknown : ∀ x, db.envelopes.find? x = none → promised db x = 0)
    (hsame : ∀ x db', consumeBudget ctx db = .ok (x, db') → ∀ y, promised db' y = promised db y) :
    Accounted promised
      (fun x => Label.charges x (.act id ⟨.consumeBudget ctx, (exec (.consumeBudget ctx) db).1⟩))
      (.consumeBudget ctx) db := by
  rcases exec_cases (.consumeBudget ctx) db with ⟨answer, db', htx, hexec⟩ | ⟨e, -, hexec⟩
  · have hanswer : (exec (.consumeBudget ctx) db).1 = .ok answer := by rw [hexec]
    have hafter : (exec (.consumeBudget ctx) db).2 = db' := by rw [hexec]
    rw [hanswer]
    rcases consumeBudget_eq_ok htx with ⟨⟨e, rfl⟩, rfl⟩ | ⟨total, db₁, rfl, hconsume, -⟩
    · exact Accounted.idle hunknown hafter
    refine ⟨fun x hnone => ⟨hunknown x hnone, if_neg ?_⟩, fun x => .inr ?_⟩
    · rintro rfl
      obtain ⟨row, hrow, -⟩ := EnvelopeStore.consumeBudgetInTx_eq_ok hconsume
      rw [hnone] at hrow
      cases hrow
    · have hcharged : db'.consumed x =
          db.consumed x + Label.charges x (.act id ⟨.consumeBudget ctx, .ok (.ok total)⟩) :=
        consumeBudget_consumed htx x
      rw [hafter, hcharged, hsame _ _ htx]
      omega
  · have hanswer : (exec (.consumeBudget ctx) db).1 = .error e := by rw [hexec]
    rw [hanswer]
    exact Accounted.idle hunknown (by rw [hexec])

/-- What is granted has a budget. -/
theorem allowed_grants {past : Past} {op : Op} (h : allowed past op) :
    ∀ grant, op.Grants grant → 0 ≤ grant.budget := by
  intro grant hgrant
  cases op with
  | finalize tx =>
    obtain ⟨env, action, artifactHash, -, -, -, -, hpositive, -⟩ := h
    obtain ⟨envelopeId, spec, parent, hcreate, -, -, hbudget, -⟩ := hgrant
    have hpos := hpositive envelopeId spec parent hcreate
    omega
  | _ => cases hgrant

/-- A budget covers what is consumed and promised of it in every state of a run,
if and only if no step takes more than is left. -/
theorem KernelRun.withinBudget_iff {promised : Db → String → Int}
    {taken : String → Label KernelSig (KernelResult Outcome) Request → Int}
    (haccounts : ∀ tr pool id op k past, KernelRun tr pool →
      (⟨id, .vis op k, past⟩ : Task KernelSig (KernelResult Outcome)) ∈ pool.tasks →
      allowed past op → (∀ d ∈ past, known pool.store d) →
      Accounted promised (fun x => taken x (.act id ⟨op, (exec op pool.store).1⟩)) op pool.store)
    (hacts : ∀ x l, taken x l ≠ 0 → ∃ id d, l = .act id d)
    {tr : List KernelTransition} {pool : KernelPool} (h : KernelRun tr pool) :
    (∀ db ∈ history tr pool, WithinBudget promised db) ↔
      ∀ t ∈ tr, ¬ Exceeds promised taken t := by
  refine kernelContract.always_iff (I := WithinBudget promised)
    ?_ ?_ ?_ ?_ h (fun _ _ _ _ _ => trivial)
  · intro x row hrow
    cases hrow
  · intro tr pool id op k past hr hmem hinv hme hwithin
    have hiff := (haccounts tr pool id op k past hr hmem hme.honors.1 hme.known).withinBudget_iff
      (allowed_grants hme.honors.1) hwithin
    refine hiff.trans ?_
    constructor
    · rintro hleft ⟨x, row, hrow, hpos, hlt⟩
      exact not_le.mpr hlt (hleft x row hrow hpos)
    · intro hgood x row hrow hpos
      by_contra hlt
      exact hgood ⟨x, row, hrow, hpos, not_le.mp hlt⟩
  · rintro ⟨before, label⟩ ⟨x, row, -, hpos, -⟩
    exact hacts x label (ne_of_gt hpos)
  · intro db db' hinv hboot hwithin
    rw [bootstrap_eq hinv.1 hboot]
    exact hwithin

/-! ## Pending holds -/

omit [Externals] in
/-- What a hold request locks of an envelope's budget. -/
def HoldRequest.lockedUnder (hold : HoldRequest) (envelopeId : String) : Int :=
  if hold.status = .pending ∧ hold.envelopeId = envelopeId then hold.reservedCost else 0

omit [Externals] in
/-- What the pending holds lock of an envelope's budget. -/
def Db.locked (db : Db) (envelopeId : String) : Int :=
  db.holdRequests.total fun hold => hold.lockedUnder envelopeId

omit [Externals] in
/-- What a step reserves for a hold under an envelope, or charges to it. -/
def Label.draws (envelopeId : String) :
    Label KernelSig (KernelResult Outcome) Request → Int
  | .act _ ⟨.triggerHold tx, .ok _⟩ =>
    if envelopeId = tx.request.envelopeId then tx.reservedCost else 0
  | l => Label.charges envelopeId l

/-- Every hold request names an envelope there is. -/
def HoldsPlaced (db : Db) : Prop :=
  AllHolds (fun db hold => (db.envelopes.find? hold.envelopeId).isSome) db

omit [Externals] in
theorem envelope_later {db db' : Db} (h : Later db db') {envelopeId : String}
    (hsome : (db.envelopes.find? envelopeId).isSome) : (db'.envelopes.find? envelopeId).isSome := by
  obtain ⟨envelope, hfind⟩ := Option.isSome_iff_exists.mp hsome
  obtain ⟨envelope', hfind', -⟩ := h.envelopes envelopeId envelope hfind
  exact Option.isSome_iff_exists.mpr ⟨envelope', hfind'⟩

theorem HoldsPlaced.exec {past : Past} {op : Op} {db : Db} (hknown : ∀ d ∈ past, known db d)
    (hallowed : allowed past op) (h : HoldsPlaced db) : HoldsPlaced (exec op db).2 := by
  refine AllHolds.effects (P := fun db hold => (db.envelopes.find? hold.envelopeId).isSome) ?_ ?_
    (exec_effects op db) h
  · intro db db' hold hold' hlater hsame hsome
    rw [hsame.envelopeId]
    exact envelope_later hlater hsome
  · intro row hrow
    cases op with
    | triggerHold tx =>
      obtain ⟨env, action, envelope, actor, -, -, -, hsaw, -⟩ := hallowed
      cases hrow
      obtain ⟨⟨envelope', hfind, -⟩, -⟩ := hknown _ hsaw
      exact Option.isSome_iff_exists.mpr ⟨envelope', hfind⟩
    | _ => cases hrow

theorem KernelRun.holdsPlaced {tr : List KernelTransition} {pool : KernelPool}
    (h : KernelRun tr pool) : HoldsPlaced pool.store := by
  refine kernelContract.invariant (P := fun _ pool => HoldsPlaced pool.store) (G := fun _ => True)
    (fun _ _ hfind => by cases hfind) ?_ h (fun _ _ _ _ _ => trivial) (fun _ _ => trivial)
  intro tr pool l pool' hr hs hinv hkeeps _ hP
  cases hs with
  | act store before after id op k past =>
    have hme := hkeeps ⟨id, .vis op k, past⟩ (by simp)
    exact hP.exec hme.known hme.honors.1
  | restart store store' tasks hboot =>
    show HoldsPlaced store'
    rw [bootstrap_eq hinv.1 hboot]
    exact hP
  | _ => exact hP

omit [Externals] in
/-- No hold locks anything of an envelope there is not. -/
theorem locked_unknown {db : Db} (hplaced : HoldsPlaced db) {x : String}
    (hnone : db.envelopes.find? x = none) : db.locked x = 0 := by
  refine Table.total_eq_zero ?_
  intro hold hmem
  refine if_neg ?_
  rintro ⟨-, rfl⟩
  have hsome : (db.envelopes.find? hold.envelopeId).isSome :=
    hplaced _ hold (Table.find?_of_mem hmem)
  rw [hnone] at hsome
  cases hsome

/-- Whatever is done but a trigger, no more is locked than before. -/
theorem Effect.locked_le {op : Op} (hop : ∀ row, ¬ op.Holds row) {db db' : Db}
    (h : Effect op db db') (hwf : AllHolds (fun _ hold => hold.WellFormed) db) (x : String) :
    db'.locked x ≤ db.locked x := by
  cases h with
  | newHold row holds hholds => exact absurd hholds (hop row)
  | resolveHold row decision instruction now _ hrow hpending =>
    have hkey : ∀ r, key (EnvelopeStore.resolved decision instruction now r) = key r := fun _ => rfl
    have htotal := Table.total_modify hkey hrow fun hold => hold.lockedUnder x
    have hafter : (EnvelopeStore.resolved decision instruction now row).lockedUnder x = 0 := by
      refine if_neg ?_
      rintro ⟨hstatus, -⟩
      have hstatus' : decision.status = .pending := hstatus
      cases decision <;> cases hstatus'
    have hbefore : 0 ≤ row.lockedUnder x := by
      unfold HoldRequest.lockedUnder
      split
      · exact (hwf _ row hrow).reservedCost.1.le
      · exact le_rfl
    have hlocked : db.locked x = db.holdRequests.total fun hold => hold.lockedUnder x := rfl
    show Table.total _ _ ≤ _
    rw [htotal, hafter, hlocked]
    omega
  | _ => exact le_rfl

theorem exec_locked_le {op : Op} (hop : ∀ row, ¬ op.Holds row) {db : Db} (hsound : HoldsSound db)
    (x : String) : (exec op db).2.locked x ≤ db.locked x := by
  have hwf : AllHolds (fun _ hold => hold.WellFormed) db := fun _ hold hfind =>
    (hsound _ hold hfind).1
  refine ((exec_effects op db).keep (P := fun db' =>
    AllHolds (fun _ hold => hold.WellFormed) db' ∧ db'.locked x ≤ db.locked x) ?_
    ⟨hwf, le_rfl⟩).2
  rintro a b hstep ⟨ha, hle⟩
  refine ⟨ha.effect ?_ (fun row hrow => absurd hrow (hop row)) hstep, ?_⟩
  · exact fun _ hsame hwf => hsame.wellFormed hwf
  · exact (hstep.locked_le hop ha x).trans hle

omit [Externals] in
theorem reserveIfPositive_eq_ok {actorId : String} {cost : Int} {db db' : Db}
    (h : reserveIfPositive actorId cost db = .ok db') :
    ∃ ledger, db' = { db with energyLedger := ledger } := by
  unfold reserveIfPositive at h
  split at h
  · obtain ⟨⟨res, db₁⟩, hres, heq⟩ := bind_eq_ok.mp h
    cases heq
    obtain ⟨row, -, -, -, -, rfl⟩ := EnergyLedger.reserve_eq_ok hres
    exact ⟨_, rfl⟩
  · cases h
    exact ⟨db.energyLedger, rfl⟩

/-- A trigger locks what it reserves. -/
theorem triggerHold_locked {past : Past} {tx : HoldTriggerTx} (hallowed : TriggerAllowed past tx)
    {db db' : Db} {ev : EventRecord} (h : triggerHold tx db = .ok (ev, db')) (x : String) :
    db'.locked x = db.locked x + if x = tx.request.envelopeId then tx.reservedCost else 0 := by
  obtain ⟨env, action, envelope, actor, -, -, -, -, -⟩ := hallowed
  obtain ⟨db₁, events, hashes, holds, hreserve, -, -, hins, rfl⟩ := triggerHold_eq_ok h
  obtain ⟨ledger, rfl⟩ := reserveIfPositive_eq_ok hreserve
  have htotal := Table.total_insert hins fun hold => hold.lockedUnder x
  have hrow : ((holdTriggerTx env action envelope).request.row
      (holdTriggerTx env action envelope).now).lockedUnder x =
      if x = envelope.envelopeId then (quoteCost action : Int) else 0 := by
    unfold HoldRequest.lockedUnder
    rw [reservedCost_holdTriggerTx]
    by_cases hx : x = envelope.envelopeId
    · rw [if_pos hx]
      exact if_pos ⟨rfl, hx.symm⟩
    · rw [if_neg hx]
      exact if_neg fun h => hx h.2.symm
  rw [hrow] at htotal
  exact htotal

/-- What the triggers and the charges take, and nothing else does. -/
theorem accounted_locked {past : Past} {op : Op} {db : Db} (hallowed : allowed past op)
    (hsound : HoldsSound db) (hplaced : HoldsPlaced db) (id : Nat) :
    Accounted Db.locked (fun x => Label.draws x (.act id ⟨op, (exec op db).1⟩)) op db := by
  have hunknown : ∀ x, db.envelopes.find? x = none → db.locked x = 0 :=
    fun x hnone => locked_unknown hplaced hnone
  cases op with
  | triggerHold tx =>
    rcases exec_cases (.triggerHold tx) db with ⟨ev, db', htx, hexec⟩ | ⟨e, -, hexec⟩
    · rw [hexec]
      refine ⟨fun x hnone => ⟨hunknown x hnone, if_neg ?_⟩, fun x => .inr ?_⟩
      · rintro rfl
        obtain ⟨-, -, -, -, -, -, hsome, -⟩ := triggerHold_eq_ok htx
        rw [hnone] at hsome
        cases hsome
      · have hconsumed := @exec_consumed _ (.triggerHold tx) (by intro _ _ h; exact h) db
        rw [hconsumed, hexec, triggerHold_locked hallowed htx]
        exact (add_assoc _ _ _).symm
    · rw [hexec]
      exact Accounted.idle hunknown (by rw [hexec])
  | consumeBudget ctx =>
    refine Accounted.charge id hunknown ?_
    intro x db' htx y
    show db'.holdRequests.total _ = db.holdRequests.total _
    rw [(consumeBudget_frame htx).2.1]
  | _ =>
    exact Accounted.quiet (by intro _ _ h; exact h) hunknown
      (exec_locked_le (by intro _ h; exact h) hsound)

/-- The hold of a trigger that is committed reserves what its envelope can still
pay for. -/
def ReservesPayable (t : KernelTransition) : Prop :=
  ∀ id tx event row, t.label = .act id ⟨.triggerHold tx, .ok event⟩ →
    t.before.store.envelopes.find? tx.request.envelopeId = some row →
    tx.reservedCost ≤ row.budget - row.budgetConsumed - t.before.store.locked tx.request.envelopeId

/-- In every run, whoever triggers, approves, rejects, times out and spends: what
is consumed of each budget and locked by the pending holds is within it, and a
hold reserves only what is left, if and only if no step draws more on an envelope
than is neither consumed nor locked. -/
theorem run_locked_within_iff {tr : List KernelTransition} {pool : KernelPool}
    (h : KernelRun tr pool) :
    ((∀ db ∈ history tr pool, WithinBudget Db.locked db) ∧ ∀ t ∈ tr, ReservesPayable t) ↔
      ∀ t ∈ tr, ¬ Exceeds Db.locked Label.draws t := by
  have hiff : (∀ db ∈ history tr pool, WithinBudget Db.locked db) ↔
      ∀ t ∈ tr, ¬ Exceeds Db.locked Label.draws t := by
    refine KernelRun.withinBudget_iff ?_ ?_ h
    · intro tr pool id op k past hr _ hallowed _
      exact accounted_locked hallowed (KernelRun.keeps hr).1 (KernelRun.holdsPlaced hr) id
    · intro x l hdraws
      cases l with
      | act id d => exact ⟨id, d, rfl⟩
      | _ => exact absurd rfl hdraws
  refine ⟨fun hall => hiff.mp hall.1, fun hgood => ⟨hiff.mpr hgood, ?_⟩⟩
  intro t ht id tx event row hlabel hrow
  have hdraws : Label.draws tx.request.envelopeId t.label = tx.reservedCost := by
    rw [hlabel]
    exact if_pos rfl
  have hfits : WithinBudget Db.locked t.before.store := by
    refine hiff.mpr hgood _ (List.mem_cons_of_mem _ ?_)
    exact List.mem_map_of_mem ht
  by_contra hmore
  refine hgood t ht ⟨tx.request.envelopeId, row, hrow, ?_, ?_⟩
  · have hle := hfits _ row hrow
    rw [hdraws]
    omega
  · rw [hdraws]
    exact not_le.mp hmore

/-- Whether the step takes no more from any envelope than is left. -/
def takesWithin (promised : Db → String → Int)
    (taken : String → Label KernelSig (KernelResult Outcome) Request → Int)
    (t : KernelTransition) : Bool :=
  t.before.store.envelopes.rows.all fun row =>
    decide (taken row.envelopeId t.label ≤ 0) || decide (taken row.envelopeId t.label ≤
      row.budget - row.budgetConsumed - promised t.before.store row.envelopeId)

omit [Externals] in
theorem takesWithin_sound {promised : Db → String → Int}
    {taken : String → Label KernelSig (KernelResult Outcome) Request → Int}
    {tr : List KernelTransition} (h : tr.all (takesWithin promised taken) = true) :
    ∀ t ∈ tr, ¬ Exceeds promised taken t := by
  rintro t ht ⟨x, row, hrow, hpos, hlt⟩
  obtain rfl : row.envelopeId = x := Table.key_of_find? hrow
  have hwithin := List.all_eq_true.mp (List.all_eq_true.mp h t ht) row (Table.mem_of_find? hrow)
  rcases Bool.or_eq_true _ _ ▸ hwithin with hnone | hle
  · exact absurd (of_decide_eq_true hnone) (not_le.mpr hpos)
  · exact absurd (of_decide_eq_true hle) (not_le.mpr hlt)

omit [Externals] in
/-- A change on hold that is approved and charged stays within its envelope. -/
theorem locked_holdApprovedByRoot :
    letI := reference
    (∀ db ∈ history (kernelPlayed holdApprovedByRoot).trace (kernelPlayed holdApprovedByRoot).pool,
        WithinBudget Db.locked db) ∧
      ∀ t ∈ (kernelPlayed holdApprovedByRoot).trace, ReservesPayable t := by
  have hclean : (kernelPlayed holdApprovedByRoot).trace.all (takesWithin Db.locked Label.draws) =
      true := by
    rw [kernelPlayed_eq]
    decide +kernel
  have hiff := @run_locked_within_iff reference _ _ (kernelRun_played holdApprovedByRoot)
  exact hiff.mpr (takesWithin_sound hclean)

/-- An agent has two changes put on hold under an envelope that covers the cost
of one. -/
def twiceOnHold : List (Turn Request) :=
  alone 30 (createAgent 0 "agent-1" 500) ++
    alone 30 (grantEnvelope 1 "agent-1" 20 [holdMutates]) ++
    alone 30 (submitAt 2 "agent-1" .mutate "workspace/a" (.obj [])) ++
    alone 30 (submitAt 3 "agent-1" .mutate "workspace/a" (.obj []))

omit [Externals] in
/-- Two pending holds lock more than the budget of their envelope, since the trigger
compares with what is consumed only. -/
theorem twiceOnHold_exceeds :
    letI := reference
    ¬ ∀ tr pool, KernelRun tr pool → ∀ db ∈ history tr pool, WithinBudget Db.locked db := by
  intro hclaim
  have hplayed : ((kernelPlayed twiceOnHold).pool.store.envelopes.find? "envelope-1").map
        (fun row => (row.budget, row.budgetConsumed)) = some (20, 0) ∧
      (kernelPlayed twiceOnHold).pool.store.locked "envelope-1" = 32 := by
    rw [kernelPlayed_eq]
    decide +kernel
  obtain ⟨hrow, hlocked⟩ := hplayed
  obtain ⟨row, hfind, hamounts⟩ := Option.map_eq_some_iff.mp hrow
  obtain ⟨hbudget, hconsumed⟩ := Prod.mk.inj hamounts
  have hle := hclaim _ _ (kernelRun_played twiceOnHold) _ List.mem_cons_self "envelope-1" row hfind
  rw [hlocked, hbudget, hconsumed] at hle
  exact absurd hle (by decide)

end PunkgoKernel
