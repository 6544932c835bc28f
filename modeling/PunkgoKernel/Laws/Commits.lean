import PunkgoKernel.Laws.Payment
import PunkgoKernel.Laws.Preflight
import PunkgoKernel.Laws.Response

/-!
# What a commit goes by

Some laws need to know one thing more of the request that commits an action:
what it has read, or how it came by a value it writes. Whatever the database
answers, such a promise is about the commit alone (`Minds`), and no other part of
a request can break it. So it is enough to look at `commitAction`
(`program_minds`), and the requests keep it along every run
(`KernelRun.mindful`).
-/

namespace PunkgoKernel

open Relational (Table key)
open Resumption

variable [Externals]

/-! ## Programs that commit no action -/

omit [Externals] in
/-- The operations that commit no action: all but the one transaction that appends an
action's event. -/
def Op.keepsCommitted : Op → Bool
  | .finalize _ => false
  | _ => true

omit [Externals] in
/-- A program that commits no action, whatever the database answers it. -/
def Uncommitting {α : Type} (p : KernelProg α) : Prop :=
  Attempt.Uses (fun op : Op => op.keepsCommitted = true) p

omit [Externals] in
/-- What only looks things up commits nothing. -/
theorem Reading.uncommitting {α : Type} {p : KernelProg α} (h : Reading p) : Uncommitting p := by
  refine Prog.Uses.mono h.uses ?_
  intro op hop
  cases op <;> first | rfl | cases hop

omit [Externals] in
/-- A single operation that is no commit. -/
theorem uncommitting_call {op : Op} (h : op.keepsCommitted = true) : Uncommitting (call op) :=
  uses_call h

omit [Externals] in
/-- What a scan for late holds asks for commits no action, though it appends events:
those of the holds that time out. -/
theorem Op.keepsCommitted_of_timesOut {op : Op} (h : op.timesOut = true) :
    op.keepsCommitted = true := by
  cases op <;> first | rfl | cases h

omit [Externals] in
/-- Bringing the checkpoints up to date commits no action. -/
theorem uncommitting_upkeep {α : Type} {p : KernelProg α}
    (h : Attempt.Uses (fun op : Op => op.upkeeps = true) p) : Uncommitting p := by
  refine Prog.Uses.mono h ?_
  intro op hop
  cases op <;> first | rfl | cases hop

/-- Authorising a change may mark an envelope as expired, time holds out and put the
action on hold, but it does not commit it. -/
theorem uncommitting_authorizeStateChange (env : Env) (action : Action) (actor : ActorRecord) :
    Uncommitting (authorizeStateChange env action actor) := by
  refine (uncommitting_call rfl).bind fun envelope => ?_
  have hexpiry : Uncommitting (expireEnvelope env envelope) := by
    unfold expireEnvelope
    split
    · trivial
    · split
      · exact (uncommitting_call rfl).bind fun _ => trivial
      · trivial
  refine hexpiry.bind fun found => ?_
  refine Attempt.Uses.bind trivial fun mode => ?_
  split
  · refine Attempt.Uses.bind trivial fun _ => ?_
    have hholds : ∀ e, Uncommitting (expireHoldsOf env e) := by
      intro e
      refine Prog.Uses.mono (uses_expireHoldsOf env e) ?_
      intro op hop
      cases op <;> first | rfl | cases hop
    have hcheck : ∀ e, Uncommitting (checkHold env action e) := by
      intro e
      unfold checkHold
      split
      · exact (uncommitting_call rfl).bind fun _ => trivial
      · trivial
    exact (hholds _).bind fun _ => (hcheck _).bind fun _ => trivial
  · trivial

/-- The checks on the actor commit nothing. Their parts are of three kinds: lookups,
pure checks, and the authorisation of a change. -/
theorem uncommitting_authorizeActor (env : Env) (action : Action) :
    Uncommitting (authorizeActor env action) := by
  refine (uncommitting_call rfl).bind fun found => ?_
  cases found with
  | none => trivial
  | some actor =>
    refine Attempt.Uses.bind trivial fun _ => ?_
    refine Attempt.Uses.bind trivial fun _ => ?_
    refine (reading_checkLineage action actor).uncommitting.bind fun _ => ?_
    split
    · exact uncommitting_authorizeStateChange env action actor
    · trivial

/-- Answering a hold commits no action. What an approval lets through is committed by
the request that goes on after it. -/
theorem uncommitting_executeHoldResponse (envs : Nat → Env) (action : Action) (holdId : String)
    (decision : HoldDecision) (instruction : Option String) :
    Uncommitting (executeHoldResponse envs action holdId decision instruction) := by
  refine (reading_findActor _).uncommitting.bind fun caller => ?_
  refine Attempt.Uses.bind trivial fun _ => ?_
  refine (reading_findHold holdId).uncommitting.bind fun hold => ?_
  refine Attempt.Uses.bind trivial fun _ => ?_
  have hrefuse : Uncommitting (refuseTimedOut (envs 0) hold) :=
    Prog.Uses.mono (uses_refuseTimedOut (envs 0) hold) fun _ => Op.keepsCommitted_of_timesOut
  refine hrefuse.bind fun _ => ?_
  refine (uncommitting_call rfl).bind fun resolved => ?_
  show Uncommitting (if decision = .approve then _ else _)
  split
  · trivial
  · trivial

omit [Externals] in
/-- What follows a commit (the policy version, the charge, the lifecycle operation)
commits no second action. -/
theorem uncommitting_aftermath {α : Type} {p : KernelProg α} (h : p.Uses Op.Aftermath) :
    Uncommitting p := by
  refine Prog.Uses.mono h ?_
  intro op hop
  cases op <;> first | rfl | cases hop

omit [Externals] in
/-- Paying comes before the commit and is no commit itself. -/
theorem uncommitting_quoteAndReserve (action : Action) : Uncommitting (quoteAndReserve action) := by
  refine Prog.Uses.mono (uses_quoteAndReserve action) ?_
  rintro op ⟨actorId, cost, rfl⟩
  rfl

/-! ## Promises about the commit -/

/-- Each operation the program asks for is one its past allows, whatever the
database answers. -/
def Minds {α : Type} (Φ : Past → Op → Prop) (p : KernelProg α) (past : Past) : Prop :=
  Attempt.Honors Φ (fun _ _ => True) (fun _ _ => True) p past

section Minds

variable {Φ : Past → Op → Prop} (hΦ : ∀ past op, op.keepsCommitted = true → Φ past op)
include hΦ

omit [Externals] in
/-- What commits nothing, and then goes on: only the rest of the program has anything to
show, under a past that has grown. -/
theorem Uncommitting.minds_bind {α β : Type} {p : KernelProg β} {f : β → KernelProg α}
    {past : Past} (hp : Uncommitting p) (hf : ∀ past' b, past <:+ past' → Minds Φ (f b) past') :
    Minds Φ (p >>= f) past := by
  have hhonors : Attempt.Honors Φ (fun _ _ => True) (fun past' _ => past <:+ past') p past :=
    Prog.Uses.honors hp hΦ past
  refine Attempt.Honors.bind (Prog.Honors.mono hhonors ?_)
  rintro past' (e | b) hpast
  · trivial
  · exact hf past' b hpast

omit [Externals] in
/-- A program that commits nothing has nothing to show. -/
theorem Uncommitting.minds {α : Type} {p : KernelProg α} (hp : Uncommitting p) (past : Past) :
    Minds Φ p past :=
  Prog.Honors.mono (Prog.Uses.honors hp hΦ past) fun _ _ _ => trivial

omit [Externals] in
/-- The commit itself, and what follows it. All that has to be shown of the path is what
the past then allows `finalize`. -/
theorem finalize_minds {tx : FinalizeTx} {action : Action} {cost : Int}
    {artifactHash : Option String} {past : Past} (htx : Φ past (.finalize tx)) :
    Minds Φ (do
      let event : EventRecord ← call (.finalize tx)
      recordPolicyVersion (parsePolicyVersion action)
      chargeEnvelope action cost
      executeLifecycle (lifecycleOp? action)
      pure (Outcome.receipt ⟨event.id, event.logIndex, event.eventHash, cost, cost, artifactHash⟩))
      past := by
  refine ⟨htx, ?_⟩
  rintro (e | event) -
  · trivial
  refine Uncommitting.minds hΦ ?_ _
  refine (uncommitting_aftermath (uses_recordPolicyVersion _)).bind fun _ => ?_
  refine (uncommitting_aftermath (uses_chargeEnvelope action cost)).bind fun _ => ?_
  exact (uncommitting_aftermath (uses_executeLifecycle _)).bind fun _ => trivial

/-- A submit commits on one path only, so what holds of that path holds of the
submit. -/
theorem submitAction_minds
    (hcommit : ∀ env action auth past, Minds Φ (commitAction env action auth) past)
    (envs : Nat → Env) (action : Action) (past : Past) : Minds Φ (submitAction envs action) past := by
  unfold submitAction
  cases validateAction action with
  | error e => trivial
  | ok u =>
    refine (reading_requireActor action.actorId).uncommitting.minds_bind hΦ ?_
    intro past₁ _ _
    refine (uncommitting_authorizeActor (envs 0) action).minds_bind hΦ ?_
    intro past₂ authorisedBy _
    cases holdResponse? action with
    | none => exact hcommit _ _ _ _
    | some response =>
      obtain ⟨holdId, decision, instruction⟩ := response
      exact (uncommitting_executeHoldResponse envs action holdId decision instruction).minds hΦ _

/-- And of every request, since only a submit commits anything. -/
theorem program_minds
    (hcommit : ∀ env action auth past, Minds Φ (commitAction env action auth) past) (r : Request) :
    Minds Φ (program r) [] := by
  rcases uses_program r with ⟨envs, action, rfl⟩ | huses
  · exact submitAction_minds hΦ hcommit envs action []
  · exact (uncommitting_upkeep huses).minds hΦ []

/-- What requests mind, whatever the database answers. With the contract every run is
covered, also where a request goes on after an approval. -/
def mindfulContract
    (hcommit : ∀ env action auth past, Minds Φ (commitAction env action auth) past) :
    Contract kernelSystem StateStore.genesis where
  inv _ := True
  known _ _ := True
  allowed := Φ
  answers _ _ := True
  returns _ _ := True
  admits _ := True
  start := trivial
  exec _ _ _ _ _ _ := ⟨trivial, trivial, trivial, fun _ _ => trivial⟩
  fault _ _ _ _ := ⟨trivial, trivial⟩
  reboot _ _ _ _ := trivial
  spawn r _ := program_minds hΦ hcommit r
  again := by
    intro past answer p _ hagain
    cases answer with
    | error e => cases hagain
    | ok outcome =>
      cases outcome with
      | resubmit envs action =>
        cases hagain
        exact submitAction_minds hΦ hcommit envs action past
      | _ => cases hagain

/-- Along every run each operation is one that its past allows. This is how a fact about
the commit path becomes one about the steps of a run. -/
theorem KernelRun.mindful
    (hcommit : ∀ env action auth past, Minds Φ (commitAction env action auth) past)
    {tr : List KernelTransition} {pool : KernelPool} (h : KernelRun tr pool) {id : Nat} {op : Op}
    {k : KernelResult (Val op) → KernelProg Outcome} {past : Past}
    (hmem : (⟨id, .vis op k, past⟩ : Task KernelSig (KernelResult Outcome)) ∈ pool.tasks) :
    Φ past op :=
  (((mindfulContract hΦ hcommit).run h (fun _ _ _ _ _ => trivial)).2 _ hmem).honors.1

end Minds

end PunkgoKernel
