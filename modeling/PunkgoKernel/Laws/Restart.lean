import PunkgoKernel.Laws.Conservation
import PunkgoKernel.Laws.Ledger

/-!
# Restarting

The startup checks look at every ledger row and every event, and a log that
once fails them fails them for ever. Nothing on the write path makes the same
checks. Every event the kernel writes passes them all the same, with one
exception: the energy of an action whose payload claims a reservation is the
claim, and a claim of nothing or less is not refused (`ClaimsNothing`). A run
can be restarted exactly when no such action was committed.
-/

namespace PunkgoKernel

open Json (Value)
open Relational (Table key)
open Resumption

/-- An event the startup checks accept. -/
def EventRecord.Sound (event : EventRecord) : Prop :=
  event.actionType ∈ StateStore.supportedActionTypes ∧
    StateStore.eventEnergyViolation event = false

/-- The payload claims a reservation the startup checks reject for the action:
a negative one, or none at all for a mutate or an execute. -/
def ClaimsNothing (actionType : String) (payload : Value) : Prop :=
  ∃ cost, holdReservedCost payload = some cost ∧
    (cost < 0 ∨ cost = 0 ∧ (actionType = "mutate" ∨ actionType = "execute"))

/-- The step commits an action whose payload claims nothing. -/
def CommitsClaimOfNothing (t : KernelTransition) : Prop :=
  ∃ id tx ev, t.label = .act id ⟨.finalize tx, .ok ev⟩ ∧
    ClaimsNothing tx.event.actionType tx.event.payload

/-! ## The events of each commit path -/

/-- An event of a hold is sound if none of its amounts is negative. -/
theorem EventRecord.sound_of_nonneg {event : EventRecord}
    (hkind : event.actionType = "hold_request" ∨ event.actionType = "hold_response" ∨
      event.actionType = "hold_timeout")
    (hreserved : 0 ≤ event.reservedEnergy) (hsettled : 0 ≤ event.settledEnergy) : event.Sound := by
  unfold Sound StateStore.eventEnergyViolation StateStore.supportedActionTypes
  rcases hkind with h | h | h <;> rw [h] <;> simp <;> omega

/-- What a response takes is no gain. -/
theorem HoldResolveTx.cost_nonneg (tx : HoldResolveTx) : 0 ≤ tx.cost := by
  unfold HoldResolveTx.cost
  split
  · exact commitmentCost_nonneg _
  · exact le_refl 0

variable [Externals]

/-- An event with one energy is sound exactly when the energy is not negative,
and positive for a mutate or an execute. -/
theorem sound_draftEvent (env : Env) (action : Action) (cost : Int) (artifactHash : Option String)
    (idx : Nat) :
    ((draftEvent env action cost artifactHash).placed idx).Sound ↔
      0 ≤ cost ∧ (action.actionType.asStr = "mutate" ∨ action.actionType.asStr = "execute" →
        0 < cost) := by
  unfold EventRecord.Sound StateStore.eventEnergyViolation StateStore.supportedActionTypes
    draftEvent EventRecord.placed
  cases action.actionType <;> simp [ActionType.asStr] <;> omega

/-- The event of a commit is sound unless the payload claims nothing. -/
theorem FinalizeAllowed.sound_iff {past : Past} {tx : FinalizeTx} (h : FinalizeAllowed past tx)
    (idx : Nat) :
    (tx.event.placed idx).Sound ↔ ¬ ClaimsNothing tx.event.actionType tx.event.payload := by
  obtain ⟨env, action, artifactHash, hevent, hsettle, -, -, -, -⟩ := h
  rw [hevent, sound_draftEvent]
  show _ ↔ ¬ ClaimsNothing action.actionType.asStr action.payload
  generalize tx.settledCost = cost at hsettle ⊢
  generalize tx.reservation = reservation at hsettle
  unfold ClaimsNothing
  cases hsettle with
  | quoted hnone =>
    have hpos : (0 : Int) < quoteCost action := by exact_mod_cast quoteCost_pos action
    constructor
    · rintro - ⟨cost, hclaim, -⟩
      rw [hnone] at hclaim
      cases hclaim
    · intro _
      exact ⟨hpos.le, fun _ => hpos⟩
  | claimed cost hclaim =>
    simp only [hclaim, Option.some.injEq, exists_eq_left']
    constructor
    · rintro ⟨h0, hkind⟩ (hneg | ⟨hzero, hmust⟩)
      · omega
      · have := hkind hmust
        omega
    · intro hfine
      refine ⟨not_lt.mp fun hneg => hfine (.inl hneg), fun hmust => ?_⟩
      by_contra hle
      have : cost < 0 ∨ cost = 0 := by omega
      exact hfine (this.imp_right fun hzero => ⟨hzero, hmust⟩)
  | approved htx hresumed =>
    have hpos := hresumed.positive
    constructor
    · rintro - ⟨cost, hclaim, hle⟩
      obtain rfl := Option.some.inj (hresumed.sentinel.symm.trans hclaim)
      omega
    · intro _
      exact ⟨hpos.le, fun _ => hpos⟩

/-- The event of any other commit path is sound. -/
theorem allowed_sound {past : Past} {op : Op} (h : allowed past op) {draft : EventRecord}
    (hdraft : op.Commits draft) (idx : Nat) :
    (draft.placed idx).Sound ∨
      ∃ tx, op = .finalize tx ∧ ClaimsNothing tx.event.actionType tx.event.payload := by
  cases op with
  | finalize tx =>
    obtain rfl : draft = tx.event := hdraft
    by_cases hclaim : ClaimsNothing tx.event.actionType tx.event.payload
    · exact .inr ⟨tx, rfl, hclaim⟩
    · exact .inl ((FinalizeAllowed.sound_iff h idx).mpr hclaim)
  | triggerHold tx =>
    obtain rfl : draft = tx.event := hdraft
    obtain ⟨env, action, envelope, actor, -, -, -, -, -⟩ := h
    exact .inl (EventRecord.sound_of_nonneg (.inl rfl) (Int.natCast_nonneg _) (le_refl 0))
  | resolveHold tx =>
    obtain rfl : draft = { tx.event with settledEnergy := tx.cost } := hdraft
    obtain ⟨env, humanAction, holdId, decision, instruction, hold, caller, -, -, -, hwf, -, -, -⟩ := h
    exact .inl (EventRecord.sound_of_nonneg (.inr (.inl rfl)) hwf.reservedCost.1.le
      (HoldResolveTx.cost_nonneg _))
  | expireHold tx =>
    obtain rfl : draft = tx.event := hdraft
    obtain ⟨env, round, hold, envelopeId, holds, -, -, hwf⟩ := h
    refine .inl (EventRecord.sound_of_nonneg (.inr (.inr rfl)) hwf.reservedCost.1.le ?_)
    show 0 ≤ if 0 < hold.reservedCost then commitmentCost hold.reservedCost else 0
    rw [if_pos hwf.reservedCost.1]
    exact commitmentCost_nonneg _
  | _ => cases hdraft

/-! ## The events of a run -/

/-- The event of a commit is in the log. -/
theorem finalize_mem {tx : FinalizeTx} {db db' : Db} {ev : EventRecord}
    (h : finalizeEnergyAndEvent tx db = .ok (ev, db')) :
    ev ∈ db'.events.rows ∧ ∃ idx, ev = tx.event.placed idx := by
  obtain ⟨db₁, db₂, db₃, events, hashes, -, -, -, hcommit, rfl⟩ := finalize_eq_ok h
  refine ⟨?_, _, hcommit.placed⟩
  show ev ∈ events.rows
  rw [(Table.insert?_eq_some hcommit.inserted).2]
  exact List.mem_append_right _ (List.mem_singleton_self _)

/-- An unsound event comes from a claim of nothing, and such a claim leaves an
unsound event. -/
structure ClaimsTraced (tr : List KernelTransition) (db : Db) : Prop where
  traced : ∀ event ∈ db.events.rows, event.Sound ∨ ∃ t ∈ tr, CommitsClaimOfNothing t
  left : ∀ t ∈ tr, CommitsClaimOfNothing t → ∃ event ∈ db.events.rows, ¬ event.Sound

omit [Externals] in
/-- A step that writes no event leaves every claim traced. -/
theorem ClaimsTraced.unchanged {tr : List KernelTransition} {db db' : Db} {t : KernelTransition}
    (h : ClaimsTraced tr db) (hevents : db'.events = db.events)
    (ht : ¬ CommitsClaimOfNothing t) : ClaimsTraced (t :: tr) db' := by
  obtain ⟨htraced, hleft⟩ := h
  constructor
  · rw [hevents]
    intro event hmem
    rcases htraced event hmem with hsound | ⟨t', ht', hclaim⟩
    · exact .inl hsound
    · exact .inr ⟨t', List.mem_cons_of_mem _ ht', hclaim⟩
  · rw [hevents]
    intro t' ht' hclaim
    rcases List.mem_cons.mp ht' with rfl | ht'
    · exact absurd hclaim ht
    · exact hleft t' ht' hclaim

/-- Whatever an operation of the kernel does, an event that is not sound comes from a
claim of nothing, and the claim leaves one. -/
theorem ClaimsTraced.act {tr : List KernelTransition} {pool : KernelPool} {past : Past} {op : Op}
    {id : Nat} (h : ClaimsTraced tr pool.store) (hallowed : allowed past op) :
    ClaimsTraced (⟨pool, .act id ⟨op, (exec op pool.store).1⟩⟩ :: tr) (exec op pool.store).2 := by
  obtain ⟨htraced, hleft⟩ := h
  have hbegins := exec_events_extend op pool.store
  rcases exec_cases op pool.store with ⟨v, db', htx, hexec⟩ | ⟨e, -, hexec⟩
  swap
  · -- a refused operation changes nothing and commits nothing
    rw [hexec]
    refine ClaimsTraced.unchanged ⟨htraced, hleft⟩ rfl ?_
    rintro ⟨id', tx, ev, hlabel, -⟩
    cases hlabel
  constructor
  · intro event hmem
    rcases exec_new_event op pool.store hmem with hmem | ⟨draft, idx, hdraft, rfl⟩
    · rcases htraced event hmem with hsound | ⟨t', ht', hclaim⟩
      · exact .inl hsound
      · exact .inr ⟨t', List.mem_cons_of_mem _ ht', hclaim⟩
    · rcases allowed_sound hallowed hdraft idx with hsound | ⟨tx, rfl, hclaim⟩
      · exact .inl hsound
      · exact .inr ⟨_, List.mem_cons_self, id, tx, v, by rw [hexec], hclaim⟩
  · intro t' ht' hclaim
    rcases List.mem_cons.mp ht' with rfl | ht'
    · obtain ⟨id', tx, ev, hlabel, hclaim⟩ := hclaim
      rw [hexec] at hlabel
      cases hlabel
      obtain ⟨hmem, idx, rfl⟩ := finalize_mem htx
      rw [hexec]
      exact ⟨_, hmem, fun hsound => (FinalizeAllowed.sound_iff hallowed idx).mp hsound hclaim⟩
    · obtain ⟨event, hmem, hunsound⟩ := hleft t' ht' hclaim
      exact ⟨event, hbegins.subset hmem, hunsound⟩

/-- In every run there is an unsound event in the log exactly where a claim of nothing
was committed. -/
theorem KernelRun.claimsTraced {tr : List KernelTransition} {pool : KernelPool}
    (h : KernelRun tr pool) : ClaimsTraced tr pool.store := by
  refine kernelContract.invariant (P := fun tr pool => ClaimsTraced tr pool.store)
    (G := fun _ => True) ⟨fun _ h => (nomatch h), fun _ h => (nomatch h)⟩ ?_ h
    (fun _ _ _ _ _ => trivial) (fun _ _ => trivial)
  intro tr pool l pool' _ hs hinv hkeeps _ hP
  -- only a performed operation can commit
  have hidle : ∀ {t : KernelTransition}, (∀ id d, t.label ≠ .act id d) →
      ¬ CommitsClaimOfNothing t := by
    rintro t hne ⟨id, tx, ev, hlabel, -⟩
    exact hne id _ hlabel
  cases hs with
  | act store before after id op k past =>
    have hme := hkeeps ⟨id, .vis op k, past⟩ (by simp)
    exact hP.act hme.honors.1
  | restart store store' tasks hboot =>
    exact hP.unchanged (bootstrap_events hboot) (hidle fun _ _ h => by cases h)
  | _ => exact hP.unchanged rfl (hidle fun _ _ h => by cases h)

omit [Externals] in
/-- A ledger within its bounds passes the check of every start. -/
theorem LedgerSafe.no_violation {db : Db} (h : LedgerSafe db) :
    ∀ row ∈ db.energyLedger.rows, StateStore.ledgerViolation row = false := by
  intro row hmem
  obtain ⟨h0, h1⟩ := h.sound _ row (Table.find?_of_mem hmem)
  unfold StateStore.ledgerViolation
  simp only [Bool.or_eq_false_iff, decide_eq_false_iff_not, not_lt]
  omega

/-- A run can be restarted exactly when it committed no action whose payload claims a
reservation of nothing. All the other startup checks pass on every store that a run
reaches. -/
theorem run_restarts_iff {tr : List KernelTransition} {pool : KernelPool}
    (h : KernelRun tr pool) :
    StateStore.runStartupIntegrityChecks pool.store = .ok () ↔
      ∀ t ∈ tr, ¬ CommitsClaimOfNothing t := by
  have hledger := (KernelRun.keep ledgerSafe_genesis LedgerSafe.effect h).no_violation
  obtain ⟨htraced, hleft⟩ := h.claimsTraced
  rw [StateStore.runStartupIntegrityChecks_eq_ok]
  constructor
  · rintro ⟨-, htypes, henergy⟩ t ht hclaim
    obtain ⟨event, hmem, hunsound⟩ := hleft t ht hclaim
    exact hunsound ⟨htypes event hmem, henergy event hmem⟩
  · intro hnone
    have hsound : ∀ event ∈ pool.store.events.rows, event.Sound := by
      intro event hmem
      rcases htraced event hmem with hsound | ⟨t, ht, hclaim⟩
      · exact hsound
      · exact absurd hclaim (hnone t ht)
    exact ⟨hledger, fun event hmem => (hsound event hmem).1, fun event hmem => (hsound event hmem).2⟩

omit [Externals] in
/-- After a run in which an agent has worked under its envelope the startup checks pass,
since no payload of the run claimed anything. -/
theorem restarts_agentAtWork :
    letI := reference
    StateStore.runStartupIntegrityChecks (kernelPlayed agentAtWork).pool.store = .ok () := by
  have hunclaimed : (kernelPlayed agentAtWork).trace.all commitsUnclaimed = true := by
    rw [kernelPlayed_eq]
    decide +kernel
  refine (@run_restarts_iff reference _ _ (kernelRun_played agentAtWork)).mpr ?_
  rintro t ht ⟨id, tx, ev, hlabel, reserved, hclaim, -⟩
  rw [commitsUnclaimed_none (List.all_eq_true.mp hunclaimed t ht) hlabel] at hclaim
  cases hclaim

/-- Root mutates with a payload that claims a reservation of nothing. -/
def claimOfNothing : List (Turn Request) :=
  alone 30 (submitAt 0 "root" .mutate "workspace/a"
    (.obj [("_hold_reserved_cost", .num (.int 0))]))

omit [Externals] in
/-- A kernel that cannot be restarted: root's mutate claims a reservation of nothing and
is logged with it, which the startup checks do not accept. -/
theorem claimOfNothing_stops_restart :
    letI := reference
    ¬ ∀ tr pool, KernelRun tr pool →
      StateStore.runStartupIntegrityChecks pool.store = .ok () := by
  intro hrestarts
  have hok := hrestarts _ _ (kernelRun_played claimOfNothing)
  have hfails : (StateStore.runStartupIntegrityChecks (kernelPlayed claimOfNothing).pool.store).isOk =
      false := by
    rw [kernelPlayed_eq]
    decide +kernel
  rw [hok] at hfails
  cases hfails

end PunkgoKernel
