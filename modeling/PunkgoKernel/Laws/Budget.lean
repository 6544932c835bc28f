import PunkgoKernel.Laws.Contract
import PunkgoKernel.Runtime.Evaluation

/-!
# Envelope budgets

A commit is authorised by an envelope that has something left, whatever the
commit costs, and it is charged afterwards, in a transaction of its own, to the
envelope that is then the active one. A charge that fails is only logged.

So three things decide whether an envelope's events stay within its budget: a
commit must not cost more than is left (`Overdraws`), its charge must reach the
envelope that authorised it (`Misdirects`), and no request may end without the
charge (`EndsUnpaid`). In a run in which none of these goes wrong, what an
envelope has authorised is what was consumed of it and what the requests in
flight still owe (`owes`), and both together stay within the budget.
-/

namespace PunkgoKernel

open Json (Value)
open Relational (Table key)
open Resumption

/-! ## What was spent, and what is owed -/

/-- Whether an envelope authorised a commit. -/
def FinalizeTx.under (tx : FinalizeTx) (envelopeId : String) : Prop :=
  tx.authorisedBy.map EnvelopeRecord.envelopeId = some envelopeId

instance (tx : FinalizeTx) (envelopeId : String) : Decidable (tx.under envelopeId) :=
  inferInstanceAs (Decidable (_ = _))

/-- The settled energy of the event a step commits under an envelope. -/
def Label.spent (envelopeId : String) :
    Label KernelSig (KernelResult Outcome) Request → Int
  | .act _ ⟨.finalize tx, .ok event⟩ =>
    if tx.under envelopeId then EventRecord.settledEnergy event else 0
  | _ => 0

/-- The settled energy of all events committed under an envelope. -/
def spent (tr : List KernelTransition) (envelopeId : String) : Int :=
  (tr.map fun t => Label.spent envelopeId t.label).sum

/-- What was charged to an envelope; nothing, if there is none. -/
def Db.consumed (db : Db) (envelopeId : String) : Int :=
  ((db.envelopes.find? envelopeId).map EnvelopeRecord.budgetConsumed).getD 0

/-- What a request has committed under an envelope and not charged. -/
def owes (envelopeId : String) (past : Past) : Int :=
  match uncharged past with
  | some tx => if tx.under envelopeId ∧ 0 < tx.settledCost then tx.settledCost else 0
  | none => 0

/-! ## What can go wrong -/

/-- The step commits under an envelope more than is left of it. What the
requests in flight owe is not left. -/
def Overdraws (t : KernelTransition) : Prop :=
  ∃ past tx ev envelopeId row, t.Performs past ⟨.finalize tx, .ok ev⟩ ∧ tx.under envelopeId ∧
    t.before.store.envelopes.find? envelopeId = some row ∧ 0 < tx.settledCost ∧
    row.budget - row.budgetConsumed - carried (owes envelopeId) t.before.tasks < tx.settledCost

/-- The step charges an envelope that did not authorise the commit. -/
def Misdirects (t : KernelTransition) : Prop :=
  ∃ past ctx total tx, t.Performs past ⟨.consumeBudget ctx, .ok (.ok total)⟩ ∧
    uncharged past = some tx ∧ ¬ tx.under ctx.envelopeId

/-- The step ends a request that still owes something. -/
def EndsUnpaid (t : KernelTransition) : Prop :=
  ∃ task envelopeId, t.Ends task ∧ owes envelopeId task.past ≠ 0

/-! ## Envelopes -/

/-- What a request still has to charge is a commit it has seen succeed. -/
theorem uncharged_saw {past : Past} {tx : FinalizeTx} (h : uncharged past = some tx) :
    ∃ event, Saw past (.finalize tx) event := by
  induction past with
  | nil => cases h
  | cons d rest ih =>
    unfold uncharged at h
    split at h
    · next heq => cases heq
    · next tx' event rest' heq =>
      cases heq
      cases h
      exact ⟨event, List.mem_cons_self⟩
    · cases h
    · next heq =>
      cases heq
      obtain ⟨event, hsaw⟩ := ih h
      exact ⟨event, List.mem_cons_of_mem _ hsaw⟩

/-- An operation that fails leaves what is still to be charged. -/
theorem uncharged_error {op : Op} {e : KernelError} {past : Past} :
    uncharged (⟨op, .error e⟩ :: past) = uncharged past := by
  cases op <;> rfl

/-- So does one that the store refuses. -/
theorem uncharged_fault {op : Op} {x : KernelResult (Val op)} (h : refuses op x) {past : Past} :
    uncharged (⟨op, x⟩ :: past) = uncharged past := by
  cases op with
  | consumeBudget tx =>
    obtain ⟨e, -, rfl | rfl⟩ := h <;> rfl
  | _ =>
    obtain ⟨e, -, rfl⟩ := h
    exact uncharged_error

variable [Externals]

/-- A request that owes an envelope something knows that the envelope exists. -/
theorem owes_unknown {past : Past} {db : Db} (hknown : ∀ d ∈ past, known db d)
    {envelopeId : String} (hnone : db.envelopes.find? envelopeId = none) :
    owes envelopeId past = 0 := by
  unfold owes
  split
  · next tx htx =>
    refine if_neg ?_
    rintro ⟨hunder, -⟩
    obtain ⟨event, hsaw⟩ := uncharged_saw htx
    obtain ⟨envelope, hauth, rfl⟩ := Option.map_eq_some_iff.mp hunder
    obtain ⟨row, hrow, -⟩ := hknown _ hsaw envelope hauth
    rw [hnone] at hrow
    cases hrow
  · rfl

/-- Only a charge changes what was charged. -/
theorem Effect.consumed {op : Op} (hop : ∀ envelopeId amount, ¬ op.Charges envelopeId amount)
    {db db' : Db} (h : Effect op db db') : db'.consumed = db.consumed := by
  funext x
  unfold Db.consumed
  cases h with
  | newEnvelope row envelopes _ hzero hins =>
    show ((envelopes.find? x).map _).getD 0 = _
    rw [Table.find?_insert hins]
    split
    · next hx =>
      have hnone : db.envelopes.find? x = none := hx ▸ (Table.insert?_eq_some hins).1
      rw [hnone, Option.map_some, Option.getD_some, hzero]
      rfl
    · rfl
  | envelopeStatus envelopeId status =>
    have hfind := Table.find?_modify db.envelopes envelopeId x
      (fun r => { r with status := status }) (fun _ => rfl)
    refine (congrArg (fun o => (Option.map EnvelopeRecord.budgetConsumed o).getD 0) hfind).trans ?_
    split
    · next hx =>
      subst hx
      rw [Option.map_map]
      rfl
    · rfl
  | charge row amount hcharges => exact absurd hcharges (hop _ _)
  | _ => rfl

/-- What is consumed of the envelopes changes only where one is charged. -/
theorem exec_consumed {op : Op} (hop : ∀ envelopeId amount, ¬ op.Charges envelopeId amount)
    (db : Db) : (exec op db).2.consumed = db.consumed :=
  (exec_effects op db).keep (P := fun db' => db'.consumed = db.consumed)
    (fun hstep ha => (hstep.consumed hop).trans ha) rfl

/-- An envelope of the database was there before, with the same budget, or is
newly granted. -/
def GrantedBefore (op : Op) (db db' : Db) : Prop :=
  ∀ envelopeId row, db'.envelopes.find? envelopeId = some row →
    (∃ row₀, db.envelopes.find? envelopeId = some row₀ ∧ row.budget = row₀.budget) ∨
      (db.envelopes.find? envelopeId = none ∧ ∃ grant, op.Grants grant ∧ row.budget = grant.budget)

/-- An operation grants no envelope but the one a commit creates, and takes none
away. -/
theorem exec_granted (op : Op) (db : Db) : GrantedBefore op db (exec op db).2 := by
  refine ((exec_effects op db).keep (P := fun db' => Later db db' ∧ GrantedBefore op db db') ?_
    ⟨.refl db, fun _ row h => .inl ⟨row, h, rfl⟩⟩).2
  intro a b hstep ⟨hlater, ha⟩
  refine ⟨hlater.trans hstep.later, ?_⟩
  intro envelopeId row hrow
  have hold : (∃ row₀, a.envelopes.find? envelopeId = some row₀ ∧ row.budget = row₀.budget) →
      (∃ row₀, db.envelopes.find? envelopeId = some row₀ ∧ row.budget = row₀.budget) ∨
      (db.envelopes.find? envelopeId = none ∧
        ∃ grant, op.Grants grant ∧ row.budget = grant.budget) := by
    rintro ⟨row₁, hrow₁, hbudget₁⟩
    rw [hbudget₁]
    exact ha envelopeId row₁ hrow₁
  cases hstep with
  | newEnvelope grant envelopes hgrants _ hins =>
    have hfind : envelopes.find? envelopeId = some row := hrow
    rw [Table.find?_insert hins] at hfind
    split at hfind
    · next hx =>
      cases hfind
      have hnone : a.envelopes.find? envelopeId = none := hx ▸ (Table.insert?_eq_some hins).1
      cases hbefore : db.envelopes.find? envelopeId with
      | none => exact .inr ⟨rfl, _, hgrants, rfl⟩
      | some row₀ =>
        obtain ⟨row₁, hrow₁, -⟩ := hlater.envelopes envelopeId row₀ hbefore
        rw [hnone] at hrow₁
        cases hrow₁
    · exact hold ⟨row, hfind, rfl⟩
  | envelopeStatus id status =>
    obtain ⟨row₀, hrow₀, rfl | rfl⟩ :=
      Table.find?_of_modify (f := fun r : EnvelopeRecord => { r with status := status })
        (fun _ => rfl) hrow
    · exact hold ⟨_, hrow₀, rfl⟩
    · exact hold ⟨_, hrow₀, rfl⟩
  | charge row' amount =>
    obtain ⟨row₀, hrow₀, rfl | rfl⟩ := Table.find?_of_modify
      (f := fun r : EnvelopeRecord => { r with budgetConsumed := row'.budgetConsumed + amount })
      (fun _ => rfl) hrow
    · exact hold ⟨_, hrow₀, rfl⟩
    · exact hold ⟨_, hrow₀, rfl⟩
  | _ => exact hold ⟨row, hrow, rfl⟩

/-! ## One step -/

/-- The account of an envelope: what it authorised is charged or owed, and
both together are within the budget. -/
structure Balanced (x : String) (tr : List KernelTransition) (db : Db) (owed : Int) : Prop where
  paid : spent tr x ≤ db.consumed x + owed
  within : ∀ row, db.envelopes.find? x = some row → db.consumed x + owed ≤ row.budget

omit [Externals] in
/-- What is spent in a run: in its last step, and before. -/
theorem spent_cons (t : KernelTransition) (tr : List KernelTransition) (x : String) :
    spent (t :: tr) x = Label.spent x t.label + spent tr x := rfl

omit [Externals] in
/-- A step that spends nothing leaves the account of an envelope as it is. -/
theorem Balanced.idle {x : String} {tr : List KernelTransition} {db : Db} {owed : Int}
    {t : KernelTransition} (hzero : Label.spent x t.label = 0) (h : Balanced x tr db owed) :
    Balanced x (t :: tr) db owed := by
  refine ⟨?_, h.within⟩
  rw [spent_cons, hzero, zero_add]
  exact h.paid

/-- The operations that neither commit an action nor charge one. -/
def Op.keepsOwed : Op → Bool
  | .finalize _ | .consumeBudget _ => false
  | _ => true

omit [Externals] in
/-- An operation that neither commits nor charges leaves what is still to be charged. -/
theorem uncharged_keepsOwed {op : Op} (hop : op.keepsOwed = true) (y : KernelResult (Val op))
    {past : Past} : uncharged (⟨op, y⟩ :: past) = uncharged past := by
  cases op <;> first | rfl | cases hop

omit [Externals] in
/-- An operation that neither commits nor charges spends nothing. -/
theorem spent_keepsOwed {op : Op} (hop : op.keepsOwed = true) (y : KernelResult (Val op))
    (id : Nat) (x : String) : Label.spent x (.act id ⟨op, y⟩) = 0 := by
  cases op <;> first | rfl | cases hop

/-- An operation that neither commits nor charges leaves the account of an envelope as
it is. -/
theorem Balanced.other {x : String} {tr : List KernelTransition} {db : Db} {owed : Int} {op : Op}
    {t : KernelTransition} (hop : op.keepsOwed = true) (hzero : Label.spent x t.label = 0)
    (h : Balanced x tr db owed) : Balanced x (t :: tr) (exec op db).2 owed := by
  have hcharges : ∀ envelopeId amount, ¬ op.Charges envelopeId amount := by
    intro envelopeId amount hcharges
    cases op <;> first | exact hcharges | cases hop
  have hgrants : ∀ grant, ¬ op.Grants grant := by
    intro grant hgrants
    cases op <;> first | exact hgrants | cases hop
  refine Balanced.idle hzero ⟨?_, ?_⟩
  · rw [exec_consumed hcharges]
    exact h.paid
  · intro row hrow
    rw [exec_consumed hcharges]
    rcases exec_granted op db x row hrow with ⟨row₀, hrow₀, hbudget⟩ | ⟨-, grant, hgrant, -⟩
    · rw [hbudget]
      exact h.within row₀ hrow₀
    · exact absurd hgrant (hgrants grant)

omit [Externals] in
/-- A commit is made under one envelope at most. -/
theorem FinalizeTx.under_unique {tx : FinalizeTx} {a b : String} (ha : tx.under a)
    (hb : tx.under b) : a = b := Option.some.inj (ha.symm.trans hb)

/-- An envelope that authorised a commit exists. -/
theorem FinalizeAllowed.under_exists {past : Past} {tx : FinalizeTx} {db : Db}
    (h : FinalizeAllowed past tx) (hknown : ∀ d ∈ past, known db d) {x : String}
    (hunder : tx.under x) : db.envelopes.find? x ≠ none := by
  obtain ⟨env, action, artifactHash, -, -, -, hauth, -, -⟩ := h
  obtain ⟨envelope, hsome, rfl⟩ := Option.map_eq_some_iff.mp hunder
  rw [hsome] at hauth
  cases hauth with
  | covered actor _ _ _ hfresh =>
    obtain ⟨⟨row, hrow, -⟩, -⟩ := hknown _ hfresh.saw
    rw [hrow]
    exact Option.some_ne_none row

omit [Externals] in
/-- What is consumed of an envelope stands in its row. -/
theorem consumed_of_find {db : Db} {x : String} {row : EnvelopeRecord}
    (h : db.envelopes.find? x = some row) : db.consumed x = row.budgetConsumed := by
  unfold Db.consumed
  rw [h]
  rfl

/-- A commit within what is left keeps the account balanced. -/
theorem Balanced.commit {x : String} {tr : List KernelTransition} {db db' : Db} {owed : Int}
    {past : Past} {tx : FinalizeTx} {ev : EventRecord} {t : KernelTransition} {id : Nat}
    (hallowed : FinalizeAllowed past tx) (hknown : ∀ d ∈ past, known db d)
    (hothers : db.envelopes.find? x = none → owed = 0)
    (hleft : ∀ row, tx.under x → 0 < tx.settledCost → db.envelopes.find? x = some row →
      tx.settledCost ≤ row.budget - row.budgetConsumed - owed)
    (htx : finalizeEnergyAndEvent tx db = .ok (ev, db'))
    (hexec : exec (.finalize tx) db = (.ok ev, db'))
    (hlabel : t.label = .act id ⟨.finalize tx, .ok ev⟩) (h : Balanced x tr db owed) :
    Balanced x (t :: tr) db'
      (owed + owes x (⟨.finalize tx, .ok ev⟩ :: past)) := by
  have hconsumed : db'.consumed = db.consumed := by
    have hsame : (exec (.finalize tx) db).2.consumed = db.consumed :=
      exec_consumed (by intro _ _ h; exact h) db
    rwa [hexec] at hsame
  have howes : owes x (⟨.finalize tx, .ok ev⟩ :: past) =
      if tx.under x ∧ 0 < tx.settledCost then tx.settledCost else 0 := rfl
  have hsettled : ev.settledEnergy = tx.settledCost := by
    obtain ⟨env, action, artifactHash, hevent, -, -, -, -, -⟩ := hallowed
    obtain ⟨db₁, db₂, db₃, events, hashes, -, -, -, hcommit, -⟩ := finalize_eq_ok htx
    rw [hcommit.placed, hevent]
    rfl
  have hspent : Label.spent x t.label = if tx.under x then tx.settledCost else 0 := by
    rw [hlabel, ← hsettled]
    rfl
  constructor
  · have hpaid := h.paid
    rw [spent_cons, hspent, hconsumed, howes]
    by_cases hunder : tx.under x
    · by_cases hpos : 0 < tx.settledCost
      · rw [if_pos hunder, if_pos ⟨hunder, hpos⟩]
        omega
      · rw [if_pos hunder, if_neg fun h => hpos h.2]
        omega
    · rw [if_neg hunder, if_neg fun h => hunder h.1]
      omega
  · intro row hrow
    rw [hconsumed, howes]
    have hgranted := exec_granted (.finalize tx) db
    rw [hexec] at hgranted
    rcases hgranted x row hrow with ⟨row₀, hrow₀, hbudget⟩ | ⟨hnone, grant, hgrant, hbudget⟩
    · rw [hbudget]
      split
      · next hunder =>
        have hcost := hleft row₀ hunder.1 hunder.2 hrow₀
        rw [consumed_of_find hrow₀]
        omega
      · rw [add_zero]
        exact h.within row₀ hrow₀
    · -- a new envelope has authorised nothing yet
      have hunder : ¬ tx.under x := fun hunder => hallowed.under_exists hknown hunder hnone
      have hzero : db.consumed x = 0 := by
        unfold Db.consumed
        rw [hnone]
        rfl
      obtain ⟨env, action, artifactHash, -, -, -, -, hpositive, -⟩ := hallowed
      obtain ⟨envelopeId, spec, parent, hcreate, -, -, hspec, -⟩ := hgrant
      have hpos := hpositive envelopeId spec parent hcreate
      rw [if_neg fun h => hunder h.1, hzero, hothers hnone]
      omega

/-- A charge that is made is made to one envelope. -/
theorem consumeBudget_consumed {ctx : ConsumeTx} {db db' : Db} {total : Int}
    (htx : consumeBudget ctx db = .ok (.ok total, db')) (x : String) :
    db'.consumed x = db.consumed x + if x = ctx.envelopeId then ctx.amount else 0 := by
  rcases consumeBudget_eq_ok htx with ⟨⟨e, he⟩, -⟩ | ⟨total', db₁, -, hconsume, hdb⟩
  · cases he
  obtain ⟨row, hrow, rfl, -, rfl⟩ := EnvelopeStore.consumeBudgetInTx_eq_ok hconsume
  have hcharged : Db.consumed { db with
      envelopes := db.envelopes.modify ctx.envelopeId fun r =>
        { r with budgetConsumed := row.budgetConsumed + ctx.amount } } x =
      db.consumed x + if x = ctx.envelopeId then ctx.amount else 0 := by
    have hfind := Table.find?_modify db.envelopes ctx.envelopeId x
      (fun r => { r with budgetConsumed := row.budgetConsumed + ctx.amount }) (fun _ => rfl)
    refine (congrArg (fun o => (Option.map EnvelopeRecord.budgetConsumed o).getD 0) hfind).trans ?_
    split
    · next hx =>
      subst hx
      rw [consumed_of_find hrow, hrow]
      rfl
    · exact (add_zero _).symm
  rcases hdb with rfl | hstatus
  · exact hcharged
  · have hstep : Effect .countEvents _ db' := setEnvelopeStatus_effect hstatus
    rw [hstep.consumed (by intro _ _ h; exact h)]
    exact hcharged

/-- A charge to the envelope that authorised the commit keeps the account
balanced. -/
theorem Balanced.charge {x : String} {tr : List KernelTransition} {db db' : Db} {owed : Int}
    {past : Past} {ctx : ConsumeTx} {tx : FinalizeTx} {total : Int} {t : KernelTransition}
    (huncharged : uncharged past = some tx) (hamount : tx.settledCost = ctx.amount)
    (hpos : 0 < ctx.amount) (hunder : tx.under ctx.envelopeId)
    (htx : consumeBudget ctx db = .ok (.ok total, db')) (hzero : Label.spent x t.label = 0)
    (h : Balanced x tr db (owed + owes x past)) :
    Balanced x (t :: tr) db' (owed + owes x (⟨.consumeBudget ctx, .ok (.ok total)⟩ :: past)) := by
  have hafter : owes x (⟨.consumeBudget ctx, .ok (.ok total)⟩ :: past) = 0 := rfl
  have hbefore : owes x past = if x = ctx.envelopeId then ctx.amount else 0 := by
    unfold owes
    rw [huncharged]
    simp only
    by_cases hx : x = ctx.envelopeId
    · rw [if_pos hx, if_pos ⟨hx ▸ hunder, hamount ▸ hpos⟩, hamount]
    · rw [if_neg hx, if_neg fun h => hx (FinalizeTx.under_unique h.1 hunder)]
  have hconsumed := consumeBudget_consumed htx x
  have hbudget : ∀ row, db'.envelopes.find? x = some row →
      ∃ row₀, db.envelopes.find? x = some row₀ ∧ row.budget = row₀.budget := by
    intro row hrow
    have hexec : exec (.consumeBudget ctx) db = (.ok (.ok total), db') := by
      unfold exec
      rw [show transaction (.consumeBudget ctx) db = _ from htx]
    have hgranted := exec_granted (.consumeBudget ctx) db
    rw [hexec] at hgranted
    rcases hgranted x row hrow with hold | ⟨-, grant, hgrant, -⟩
    · exact hold
    · cases hgrant
  refine Balanced.idle hzero ⟨?_, ?_⟩
  · have hpaid := h.paid
    rw [hconsumed, hafter]
    rw [hbefore] at hpaid
    omega
  · intro row hrow
    obtain ⟨row₀, hrow₀, hsame⟩ := hbudget row hrow
    have hwithin := h.within row₀ hrow₀
    rw [hconsumed, hafter, hsame]
    rw [hbefore] at hwithin
    omega

/-! ## Along every run -/

/-- In a run whose steps all meet the condition, what is spent under an envelope is what
is consumed of it and what requests in flight still have to charge to it. -/
theorem KernelRun.balanced {tr : List KernelTransition} {pool : KernelPool} (h : KernelRun tr pool)
    (hgood : ∀ t ∈ tr, ¬ Overdraws t ∧ ¬ Misdirects t ∧ ¬ EndsUnpaid t) (x : String) :
    Balanced x tr pool.store (carried (owes x) pool.tasks) := by
  refine kernelContract.accounts (W := owes x) (B := Balanced x)
    (G := fun t => ¬ Overdraws t ∧ ¬ Misdirects t ∧ ¬ EndsUnpaid t) rfl
    ⟨le_refl 0, fun row hrow => nomatch hrow⟩ ?_ ?_ ?_ ?_ ?_ h (fun _ _ _ _ _ => trivial) hgood
  · intro tr db owed t hidle hB
    refine hB.idle ?_
    unfold Label.spent
    split
    · next hlabel => exact absurd hlabel (hidle _ _)
    · rfl
  · intro tr db before after id op k past pool hinv hkeeps ⟨hoverdraws, hmisdirects, _⟩ hB
    have hmem : (⟨id, .vis op k, past⟩ : Task KernelSig (KernelResult Outcome)) ∈ pool.tasks := by
      simp [pool]
    have hme := hkeeps _ hmem
    have hcarried : carried (owes x) pool.tasks =
        carried (owes x) (before ++ after) + owes x past := carried_append _ _ _ _
    -- by the kind of the operation: only commits and charges touch the account
    by_cases hop : op.keepsOwed = true
    · have hsame : owes x (⟨op, (exec op db).1⟩ :: past) = owes x past := by
        unfold owes
        rw [uncharged_keepsOwed hop]
      show Balanced x _ (exec op db).2 (_ + owes x (⟨op, (exec op db).1⟩ :: past))
      rw [hsame]
      exact hB.other hop (spent_keepsOwed hop _ id x)
    rcases exec_cases op db with ⟨v, db', htx, hexec⟩ | ⟨e, -, hexec⟩
    swap
    · show Balanced x (⟨pool, .act id ⟨op, (exec op db).1⟩⟩ :: tr) (exec op db).2
        (_ + owes x (⟨op, (exec op db).1⟩ :: past))
      rw [hexec]
      have hsame : owes x (⟨op, .error e⟩ :: past) = owes x past := by
        unfold owes
        rw [uncharged_error]
      rw [hsame]
      refine hB.idle ?_
      cases op <;> rfl
    show Balanced x (⟨pool, .act id ⟨op, (exec op db).1⟩⟩ :: tr) (exec op db).2
      (_ + owes x (⟨op, (exec op db).1⟩ :: past))
    rw [hexec]
    have hperforms : Transition.Performs
        (⟨pool, .act id ⟨op, (exec op db).1⟩⟩ : KernelTransition) past ⟨op, .ok v⟩ :=
      ⟨id, _, by rw [hexec], hmem⟩
    cases op with
    | finalize tx =>
      have hallowed : FinalizeAllowed past tx := hme.honors.1
      have hnothing : owes x past = 0 := by
        obtain ⟨env, action, artifactHash, -, -, -, -, -, huncharged⟩ := hallowed
        unfold owes
        rw [huncharged]
      rw [hnothing, add_zero] at hB hcarried
      refine hB.commit hallowed hme.known ?_ ?_ htx hexec rfl
      · intro hnone
        exact carried_eq_zero fun t ht => owes_unknown (hkeeps t (by
          rcases List.mem_append.mp ht with ht | ht
          · exact List.mem_append_left _ ht
          · exact List.mem_append_right _ (List.mem_cons_of_mem _ ht))).known hnone
      · intro row hunder hpos hrow
        by_contra hover
        refine hoverdraws ⟨past, tx, v, x, row, hperforms, hunder, hrow, hpos, ?_⟩
        show row.budget - row.budgetConsumed - carried (owes x) pool.tasks < tx.settledCost
        omega
    | consumeBudget ctx =>
      obtain ⟨tx, actor, envelope, older, -, -, huncharged, hctx, hpos, -⟩ := hme.honors.1
      have hamount : tx.settledCost = ctx.amount := by rw [hctx]
      cases v with
      | error e =>
        rcases consumeBudget_eq_ok htx with ⟨-, rfl⟩ | ⟨total, db₁, heq, -, -⟩
        · exact hB.idle rfl
        · cases heq
      | ok total =>
        have hunder : tx.under ctx.envelopeId := by
          by_contra hwrong
          exact hmisdirects ⟨past, ctx, total, tx, hperforms, huncharged, hwrong⟩
        exact hB.charge huncharged hamount (hamount ▸ hpos) hunder htx rfl
    | _ => exact absurd rfl hop
  · intro op y past hy
    show owes x (⟨op, y⟩ :: past) = owes x past
    unfold owes
    rw [uncharged_fault hy]
  · intro tr db w t task ⟨_, _, hunpaid⟩ hends hB
    have hnothing : owes x task.past = 0 := by
      by_contra howes
      exact hunpaid ⟨task, x, hends, howes⟩
    rwa [hnothing, add_zero] at hB
  · intro db db' hboot hinv
    exact bootstrap_eq hinv.1 hboot

/-- In every run in which no commit costs more than is left of its envelope,
every charge reaches the envelope that authorised the commit, and no request
ends without its charge, the events of every envelope stay within its
budget. -/
theorem run_spent_le_budget {tr : List KernelTransition} {pool : KernelPool}
    (h : KernelRun tr pool)
    (hgood : ∀ t ∈ tr, ¬ Overdraws t ∧ ¬ Misdirects t ∧ ¬ EndsUnpaid t)
    (envelopeId : String) (row : EnvelopeRecord)
    (hrow : pool.store.envelopes.find? envelopeId = some row) :
    spent tr envelopeId ≤ row.budget := by
  obtain ⟨hpaid, hwithin⟩ := h.balanced hgood envelopeId
  exact hpaid.trans (hwithin row hrow)

/-- A step that keeps the charges in order, as can be read off it: it commits at
most what is left of the envelope, charges the envelope that authorised the
commit, and ends no request that owes anything. -/
def chargesCleanly (t : KernelTransition) : Bool :=
  match t.label with
  | .act _ ⟨.finalize tx, .ok _⟩ =>
    match tx.authorisedBy with
    | none => true
    | some envelope =>
      match t.before.store.envelopes.find? envelope.envelopeId with
      | none => true
      | some row => tx.settledCost ≤ row.budget - row.budgetConsumed -
          carried (owes envelope.envelopeId) t.before.tasks
  | .act id ⟨.consumeBudget ctx, .ok (.ok _)⟩ =>
    t.before.tasks.all fun task => task.id ≠ id ||
      match uncharged task.past with
      | some tx => decide (tx.under ctx.envelopeId)
      | none => true
  | .finish .. | .cancel _ | .restart =>
    t.before.tasks.all fun task =>
      match uncharged task.past with
      | some tx => tx.authorisedBy.isNone || tx.settledCost ≤ 0
      | none => true
  | _ => true

omit [Externals] in
/-- The test finds every charge that overdraws or goes elsewhere, and every request that
ends without its charge. -/
theorem chargesCleanly_sound {t : KernelTransition} (h : chargesCleanly t = true) :
    ¬ Overdraws t ∧ ¬ Misdirects t ∧ ¬ EndsUnpaid t := by
  refine ⟨?_, ?_, ?_⟩
  · rintro ⟨past, tx, ev, envelopeId, row, ⟨id, prog, hlabel, -⟩, hunder, hrow, -, hover⟩
    obtain ⟨envelope, hauth, rfl⟩ := Option.map_eq_some_iff.mp hunder
    unfold chargesCleanly at h
    rw [hlabel] at h
    simp only [hauth, hrow, decide_eq_true_eq] at h
    omega
  · rintro ⟨past, ctx, total, tx, ⟨id, prog, hlabel, hmem⟩, huncharged, hwrong⟩
    unfold chargesCleanly at h
    rw [hlabel] at h
    have htask := List.all_eq_true.mp h _ hmem
    simp only [huncharged] at htask
    simp [hwrong] at htask
  · rintro ⟨task, envelopeId, ⟨hmem, hend⟩, howes⟩
    have hall : t.before.tasks.all (fun task =>
        match uncharged task.past with
        | some tx => tx.authorisedBy.isNone || tx.settledCost ≤ 0
        | none => true) = true := by
      unfold chargesCleanly at h
      rcases hend with ⟨a, hlabel⟩ | hlabel | hlabel <;> rw [hlabel] at h <;> exact h
    have htask := List.all_eq_true.mp hall task hmem
    unfold owes at howes
    split at howes
    · next tx huncharged =>
      split at howes
      · next hunder =>
        obtain ⟨envelope, hauth, -⟩ := Option.map_eq_some_iff.mp hunder.1
        simp only [huncharged, hauth, Option.isNone_some, Bool.false_or, decide_eq_true_eq] at htask
        omega
      · exact howes rfl
    · exact howes rfl

omit [Externals] in
/-- What the agent's first change cost its envelope, which is also what the log has
spent under it. -/
theorem spent_agentAtWork :
    ∃ row, (kernelPlayed agentAtWork).pool.store.envelopes.find? "envelope-1" = some row ∧
      spent (kernelPlayed agentAtWork).trace "envelope-1" = 16 ∧
      spent (kernelPlayed agentAtWork).trace "envelope-1" ≤ row.budget := by
  have hplayed : ((kernelPlayed agentAtWork).pool.store.envelopes.find? "envelope-1").isSome = true ∧
      spent (kernelPlayed agentAtWork).trace "envelope-1" = 16 ∧
      (kernelPlayed agentAtWork).trace.all chargesCleanly = true := by
    rw [kernelPlayed_eq]
    decide +kernel
  obtain ⟨hrow, hspent, hclean⟩ := hplayed
  obtain ⟨row, hfind⟩ := Option.isSome_iff_exists.mp hrow
  refine ⟨row, hfind, hspent, ?_⟩
  exact @run_spent_le_budget reference _ _ (kernelRun_played agentAtWork)
    (fun t ht => chargesCleanly_sound (List.all_eq_true.mp hclean t ht)) "envelope-1" row hfind

/-- An agent acts twice under an envelope that covers the cost of once. -/
def actsTwice : List (Turn Request) :=
  alone 30 (createAgent 0 "agent-1" 500) ++ alone 30 (grantEnvelope 1 "agent-1" 20 []) ++
    alone 30 (submitAt 2 "agent-1" .mutate "workspace/a" (.obj [])) ++
    alone 30 (submitAt 3 "agent-1" .mutate "workspace/a" (.obj []))

omit [Externals] in
/-- An envelope that is overspent: the second change costs more than is left, is
committed all the same, and is not charged. -/
theorem actsTwice_overspends :
    letI := reference
    ¬ ∀ tr pool, KernelRun tr pool → ∀ envelopeId row,
      pool.store.envelopes.find? envelopeId = some row → spent tr envelopeId ≤ row.budget := by
  intro hclaim
  have hplayed : ((kernelPlayed actsTwice).pool.store.envelopes.find? "envelope-1").map
        EnvelopeRecord.budget = some 20 ∧
      spent (kernelPlayed actsTwice).trace "envelope-1" = 32 := by
    rw [kernelPlayed_eq]
    decide +kernel
  obtain ⟨hrow, hspent⟩ := hplayed
  obtain ⟨row, hfind, hbudget⟩ := Option.map_eq_some_iff.mp hrow
  have hle := hclaim _ _ (kernelRun_played actsTwice) "envelope-1" row hfind
  rw [hspent, hbudget] at hle
  exact absurd hle (by decide)

end PunkgoKernel
