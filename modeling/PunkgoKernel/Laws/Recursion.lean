import PunkgoKernel.Lib.Reentry
import PunkgoKernel.Laws.Lapse
import PunkgoKernel.Laws.Reexecution

/-!
# How often an approval goes on

An approved action is submitted again, and that submit may be one that responds to
a hold. Nothing in the call gets smaller: the action held may name a hold and say
`approve`. What ends it is who owns a hold. Every hold request is an agent's, for
an envelope of that agent (`HoldsOwned`), and only a human responds to a hold. So
the action approved is never a response, and a request goes on at most once
(`run_reenters_once`).
-/

namespace PunkgoKernel

open Resumption

variable [Externals]

/-! ## Who responds to a hold -/

/-- A request that has approved a hold acts for its agent, and no agent responds to
a hold. -/
theorem ResolveAllowed.unapproved {past : Past} {tx : HoldResolveTx} {db : Db}
    (h : ResolveAllowed past tx) (hknown : ∀ d ∈ past, known db d) (hsound : HoldsSound db) :
    approval past = none := by
  obtain ⟨env, humanAction, holdId, decision, instruction, hold, caller, hcaller, hhuman, -, -, -,
    -, hfirst⟩ := h
  rcases hfirst with ⟨happroval, -⟩ | ⟨holdId', hold', hsaw, hagent⟩
  · exact happroval
  -- the caller's row is the agent of a stored hold request
  obtain ⟨row, hrow, hsame, -⟩ : HoldLasts db holdId' hold' := hknown _ hsaw
  obtain ⟨-, agent, hfind, htype⟩ := hsound holdId' row hrow
  obtain ⟨caller', hfind', htype'⟩ : ActorLasts db humanAction.actorId caller := hknown _ hcaller
  rw [hsame.agentId, hagent] at hfind
  rw [hfind] at hfind'
  cases hfind'
  rw [htype, hhuman] at htype'
  cases htype'

omit [Externals] in
/-- A request that has approved a hold has done so for good. -/
theorem approval_keep (d : Performed KernelSig) (past : Past) (h : approval past ≠ none) :
    approval (d :: past) ≠ none := by
  unfold approval
  split
  · next heq => cases heq
  · next tx v rest heq =>
    obtain ⟨-, rfl⟩ := List.cons.inj heq
    split
    · simp
    · exact h
  · next heq =>
    obtain ⟨-, rfl⟩ := List.cons.inj heq
    exact h

/-- What a request that responds to a hold had done before was no approval. -/
def RespondsFirst (past : Past) : Prop :=
  ∀ recent tx v older, past = recent ++ ⟨.resolveHold tx, .ok v⟩ :: older → approval older = none

omit [Externals] in
/-- Whatever a request performs next, it has approved nothing before it responds. -/
theorem RespondsFirst.cons {d : Performed KernelSig} {past : Past} (h : RespondsFirst past)
    (hd : ∀ tx v, d = ⟨.resolveHold tx, .ok v⟩ → approval past = none) :
    RespondsFirst (d :: past) := by
  intro recent tx v older heq
  cases recent with
  | nil =>
    obtain ⟨rfl, rfl⟩ := List.cons.inj heq
    exact hd tx v rfl
  | cons d' rest =>
    obtain ⟨-, rfl⟩ := List.cons.inj heq
    exact h rest tx v older rfl

/-- In every run a request that responds to a hold had approved none before. -/
theorem KernelRun.respondsFirst {tr : List KernelTransition} {pool : KernelPool}
    (h : KernelRun tr pool) : ∀ task ∈ pool.tasks, RespondsFirst task.past := by
  refine kernelContract.pasts (W := RespondsFirst) ?_ ?_ ?_ h (fun _ _ _ _ _ => trivial)
  · intro recent tx v older heq
    simp at heq
  · intro past op db hinv hknown hallowed hpast
    refine hpast.cons ?_
    intro tx v heq
    obtain ⟨rfl, -⟩ := Performed.mk.inj heq
    exact ResolveAllowed.unapproved hallowed hknown hinv.2
  · intro past op x hx hpast
    refine hpast.cons ?_
    intro tx v heq
    obtain ⟨rfl, hv⟩ := Performed.mk.inj heq
    obtain ⟨e, -, rfl⟩ := hx
    cases hv

/-- What goes on has just approved a hold, its first. -/
theorem KernelRun.approved {tr : List KernelTransition} {pool : KernelPool} (h : KernelRun tr pool)
    {id : Nat} {a : KernelResult Outcome} {p : KernelProg Outcome} {past : Past}
    (hmem : (⟨id, .ret a, past⟩ : Task KernelSig (KernelResult Outcome)) ∈ pool.tasks)
    (hagain : again a = some p) :
    approval past ≠ none ∧ ∃ d older, past = d :: older ∧ ¬ approval older ≠ none := by
  have hhands := ((handsContract.run h (fun _ _ _ _ _ => trivial)).2 _ hmem).honors
  have hfirst := KernelRun.respondsFirst h _ hmem
  cases a with
  | error e => cases hagain
  | ok outcome =>
    cases outcome with
    | resubmit envs action =>
      obtain ⟨env, humanAction, holdId, instruction, hold, v, older, rfl, -, -⟩ := hhands
      refine ⟨?_, _, older, rfl, not_not.mpr (hfirst [] _ v older rfl)⟩
      simp [approval, holdResolveTx]
    | _ => cases hagain

/-- A submit asks the database for something before it goes on, or fails. -/
theorem again_performs (a b : KernelResult Outcome) (h : again a = some (.ret b)) :
    again b = none := by
  cases a with
  | error e => cases h
  | ok outcome =>
    cases outcome with
    | resubmit envs action =>
      have hsubmit : submitAction envs action = .ret b := Option.some.inj h
      unfold submitAction at hsubmit
      cases hvalid : validateAction action with
      | error e =>
        rw [hvalid] at hsubmit
        obtain rfl : .error e = b := Prog.ret.inj hsubmit
        rfl
      | ok u =>
        rw [hvalid] at hsubmit
        exact nomatch hsubmit
    | _ => cases h

/-- In every run a request goes on at most once, and once it has gone on its past holds
the approval. -/
theorem KernelRun.onceOnly {tr : List KernelTransition} {pool : KernelPool} (h : KernelRun tr pool) :
    OnceOnly kernelSystem (fun past => approval past ≠ none) tr pool :=
  Run.reenters_once approval_keep (fun _ _ _ _ _ _ hr hmem => KernelRun.approved hr hmem)
    again_performs h

/-- Every hold request is for an envelope there is, of its agent, and that agent is
one. A request goes on at most once, whatever it held and whatever runs beside it;
having gone on it never responds to a hold; and served alone it ends. -/
theorem run_reenters_once {tr : List KernelTransition} {pool : KernelPool} (h : KernelRun tr pool) :
    (HoldsOwned pool.store ∧ HoldsSound pool.store) ∧ (∀ id, reentries id tr ≤ 1) ∧
      (∀ task ∈ pool.tasks, reentries task.id tr ≠ 0 →
        ∀ tx k, task.prog ≠ .vis (.resolveHold tx) k) ∧
      (pool.tasks = [] → ∀ r, EndsWithin kernelSystem 1 (program r) pool.store ∧
        ∃ a db, Completes kernelSystem (program r) pool.store a db) := by
  have honce := KernelRun.onceOnly h
  refine ⟨⟨KernelRun.holdsOwned h, (KernelRun.keeps h).1⟩, honce.bound, ?_, ?_⟩
  · rintro ⟨id, prog, past⟩ htask hgone tx k rfl
    have hmarked := ((honce.marked _ htask).resolve_left hgone).marked approval_keep
    obtain ⟨hsound, hkeeps⟩ := KernelRun.keeps h
    have hme := hkeeps _ htask
    exact hmarked (ResolveAllowed.unapproved hme.honors.1 hme.known hsound)
  · intro hquiet r
    obtain ⟨db, tasks⟩ := pool
    obtain rfl : tasks = [] := hquiet
    have hends := Run.endsWithin (fun _ _ hr => (KernelRun.onceOnly hr).bound) h r
    exact ⟨hends, hends.completes⟩

/-- The step submits an answer to a hold again. -/
def reentersAsAnswer (t : KernelTransition) : Bool :=
  match t.label with
  | .again _ (.ok (.resubmit _ action)) => (holdResponse? action).isSome
  | _ => false

/-- An agent's answer to a hold is itself put on hold, and root approves it. -/
def approvalOfApproval : List (Turn Request) :=
  agentOnHold ++
    alone 40 (submitAt 3 "agent-1" .mutate "ledger/hold/hold-2"
      (.obj [("decision", .str "approve")])) ++
    alone 40 (submitAt 4 "root" .mutate "ledger/hold/hold-3"
      (.obj [("decision", .str "approve")]))

omit [Externals] in
/-- The answer held is submitted again, once, and refused: an agent may have a response
of its own on hold, but answering a hold is for humans. -/
theorem approvalOfApproval_reenters_once :
    letI := reference
    (kernelPlayed approvalOfApproval).trace.any reentersAsAnswer = true ∧
    (HoldsOwned (kernelPlayed approvalOfApproval).pool.store ∧
      HoldsSound (kernelPlayed approvalOfApproval).pool.store) ∧
    reentries 0 (kernelPlayed approvalOfApproval).trace = 1 ∧
    ∀ id, reentries id (kernelPlayed approvalOfApproval).trace ≤ 1 := by
  have hplayed : (kernelPlayed approvalOfApproval).trace.any reentersAsAnswer = true ∧
      reentries 0 (kernelPlayed approvalOfApproval).trace = 1 := by
    rw [kernelPlayed_eq]
    decide +kernel
  obtain ⟨hanswer, honce⟩ := hplayed
  obtain ⟨hholds, hbound, -, -⟩ :=
    @run_reenters_once reference _ _ (kernelRun_played approvalOfApproval)
  exact ⟨hanswer, hholds, honce, hbound⟩

end PunkgoKernel
