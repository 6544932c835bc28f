import PunkgoKernel.Laws.Budget
import PunkgoKernel.Laws.HoldSafety
import PunkgoKernel.Laws.Newest

/-!
# Which envelope is charged

The envelope that authorises a commit and the one that is charged for it are looked up apart, the
first before the commit and the second after it, and each lookup takes the agent's newest active
envelope. Nothing ties the second to the first. An envelope granted in between, or one that
expires, moves the charge; and an action that waited on hold is authorised and charged under what
is newest when it is approved, whatever envelope the hold was triggered under.

What was charged to an envelope changes in one kind of step only (`consumed_changes`), and such a
step comes right after the request looked the envelope up. So in a run in which nothing takes the
place of an envelope between the lookup that authorised an action under it, or held it, and the
lookup for the charge (`StillInForce`), every charge is the right one (`run_charges_authoriser`).
-/

namespace PunkgoKernel

open Relational (Table)
open Resumption

/-! ## Charges -/

/-- What the step takes from the envelope is the cost of a commit that the envelope authorised,
and where the request had approved a hold, the hold was triggered under this envelope. -/
def ChargesAuthoriser (t : KernelTransition) (envelopeId : String) (amount : Int) : Prop :=
  ∃ past ctx total tx, t.Performs past ⟨.consumeBudget ctx, .ok (.ok total)⟩ ∧
    uncharged past = some tx ∧ tx.settledCost = amount ∧ tx.under envelopeId ∧
    ∀ resolved hold, approval past = some resolved →
      t.before.store.holdRequests.find? resolved.holdId = some hold → hold.envelopeId = envelopeId

/-- The step is the lookup of a request that has committed, for the envelope to charge. -/
def LooksUpToCharge (t : KernelTransition) (id : Nat) (past : Past) (tx : FinalizeTx) : Prop :=
  ∃ prog actorId x, t.label = .act id ⟨.getActiveForActor actorId, x⟩ ∧
    (⟨id, prog, past⟩ : Task KernelSig (KernelResult Outcome)) ∈ t.before.tasks ∧
    uncharged past = some tx

/-- The step is a lookup that found the envelope as its agent's newest active one. -/
def Found (t : KernelTransition) (id : Nat) (e : EnvelopeRecord) : Prop :=
  t.label = .act id ⟨.getActiveForActor e.actorId, .ok (some e)⟩

/-- Where the step is a lookup for a charge, after the run before it: nothing has taken the place
of the envelope that authorised the commit since the request found it, nor, where the request
approved a hold, the place of the envelope the hold was triggered under since the request that
triggered it found that one. -/
structure StillInForce (older : List KernelTransition) (t : KernelTransition) : Prop where
  authoriser : ∀ id past tx, LooksUpToCharge t id past tx →
    ∀ between found rest e, older = between ++ found :: rest → Found found id e →
    Unspawned id between → tx.authorisedBy = some e → ¬ Displaced e between t.before.store
  trigger : ∀ id past tx, LooksUpToCharge t id past tx →
    ∀ resolved, approval past = some resolved →
    ∀ newer (trigger : KernelTransition) between found rest id' held ev e,
      older = newer ++ trigger :: (between ++ found :: rest) →
      trigger.label = .act id' ⟨.triggerHold held, .ok ev⟩ → held.request.holdId = resolved.holdId →
      Found found id' e → Unspawned id' between → held.request.envelopeId = e.envelopeId →
      ¬ Displaced e (newer ++ trigger :: between) t.before.store

theorem approval_saw {past : Past} {tx : HoldResolveTx} (h : approval past = some tx) :
    ∃ v, Saw past (.resolveHold tx) v := by
  induction past with
  | nil => cases h
  | cons d rest ih =>
    unfold approval at h
    split at h
    · next heq => cases heq
    · next tx' v rest' heq =>
      cases heq
      split at h
      · cases h
        exact ⟨v, List.mem_cons_self⟩
      · obtain ⟨v', hsaw⟩ := ih h
        exact ⟨v', List.mem_cons_of_mem _ hsaw⟩
    · next heq =>
      cases heq
      obtain ⟨v, hsaw⟩ := ih h
      exact ⟨v, List.mem_cons_of_mem _ hsaw⟩

variable [Externals]

/-- The step that performs a charge changes what was charged to its envelope, and nothing else
that was charged. -/
theorem charge_consumed {pool pool' : KernelPool} {id : Nat} {ctx : ConsumeTx} {total : Int}
    (h : Step kernelSystem pool (.act id ⟨.consumeBudget ctx, .ok (.ok total)⟩) pool') (x : String) :
    pool'.store.consumed x =
      pool.store.consumed x + if x = ctx.envelopeId then ctx.amount else 0 := by
  obtain ⟨-, hanswer, hstore⟩ := h.act_inv
  have hexec : (exec (.consumeBudget ctx) pool.store).1 = .ok (.ok total) :=
    (eq_of_heq (Performed.mk.inj hanswer).2).symm
  rw [hstore]
  rcases exec_cases (.consumeBudget ctx) pool.store with ⟨v, db', htx, heq⟩ | ⟨e, -, heq⟩
  · rw [heq] at hexec
    obtain rfl : v = .ok total := Except.ok.inj hexec
    show (exec (.consumeBudget ctx) pool.store).2.consumed x = _
    rw [heq]
    exact consumeBudget_consumed htx x
  · rw [heq] at hexec
    cases hexec

/-- What was charged to an envelope changes only in a step that charges it, and that step comes
right after the request looked the envelope up. -/
theorem consumed_changes {tr : List KernelTransition} {pool pool' : KernelPool}
    {l : Label KernelSig (KernelResult Outcome) Request} (hr : KernelRun tr pool)
    (hs : Step kernelSystem pool l pool') {x : String}
    (hchanged : pool'.store.consumed x ≠ pool.store.consumed x) :
    ∃ id prog past ctx total, l = .act id ⟨.consumeBudget ctx, .ok (.ok total)⟩ ∧
      (⟨id, prog, past⟩ : Task KernelSig (KernelResult Outcome)) ∈ pool.tasks ∧
      ChargeAllowed past ctx ∧ x = ctx.envelopeId := by
  obtain ⟨⟨hseed, -⟩, hkeeps⟩ := kernelContract.run hr (fun _ _ _ _ _ => trivial)
  have hs' := hs
  cases hs with
  | act store before after id op k past =>
    have hmem : (⟨id, .vis op k, past⟩ : Task KernelSig (KernelResult Outcome)) ∈
        before ++ ⟨id, .vis op k, past⟩ :: after := by simp
    cases op with
    | consumeBudget ctx =>
      have hwrites : (exec (.consumeBudget ctx) store).2 ≠ store :=
        fun hsame => hchanged (congrArg (Db.consumed · x) hsame)
      -- a charge that is refused, or that fails, leaves the database as it was
      have hmade : ∃ total, (exec (.consumeBudget ctx) store).1 = .ok (.ok total) := by
        rcases exec_cases (.consumeBudget ctx) store with ⟨v, db', htx, hexec⟩ | ⟨e, -, hexec⟩
        · rcases consumeBudget_eq_ok htx with ⟨-, hsame⟩ | ⟨total, db₁, hv, -, -⟩
          · exact absurd (by rw [hexec, hsame]) hwrites
          · exact ⟨total, by rw [hexec, hv]⟩
        · exact absurd (by rw [hexec]) hwrites
      obtain ⟨total, hmade⟩ := hmade
      have hlabel : (.act id ⟨.consumeBudget ctx, (exec (.consumeBudget ctx) store).1⟩ :
          Label KernelSig (KernelResult Outcome) Request) =
          .act id ⟨.consumeBudget ctx, .ok (.ok total)⟩ := by rw [hmade]
      refine ⟨id, _, past, ctx, total, hlabel, hmem, (hkeeps _ hmem).honors.1, ?_⟩
      by_contra hother
      have hcharge : Step kernelSystem _ (.act id ⟨.consumeBudget ctx, .ok (.ok total)⟩) _ :=
        hlabel ▸ hs'
      refine hchanged ((charge_consumed hcharge x).trans ?_)
      rw [if_neg hother, add_zero]
    | _ => exact absurd (congrFun (exec_consumed (by intro _ _ h; exact h) store) x) hchanged
  | restart store store' tasks hboot =>
    refine absurd ?_ hchanged
    rw [bootstrap_eq hseed hboot]
  | _ => exact absurd rfl hchanged

/-! ## What was authorised, and what was held -/

omit [Externals] in
theorem uncharged_split {past : Past} {tx : FinalizeTx} (h : uncharged past = some tx) :
    ∃ recent ev older, past = recent ++ ⟨.finalize tx, .ok ev⟩ :: older := by
  induction past with
  | nil => cases h
  | cons d rest ih =>
    unfold uncharged at h
    split at h
    · next heq => cases heq
    · next tx' ev rest' heq =>
      cases heq
      cases h
      exact ⟨[], ev, rest, rfl⟩
    · cases h
    · next heq =>
      cases heq
      obtain ⟨recent, ev, older, rfl⟩ := ih h
      exact ⟨d :: recent, ev, older, rfl⟩

/-- A commit in the past of a request was one the protocol allows. -/
theorem KernelRun.commit_allowed {tr : List KernelTransition} {pool : KernelPool}
    (h : KernelRun tr pool) : ∀ task ∈ pool.tasks, ∀ recent tx ev older,
      task.past = recent ++ ⟨.finalize tx, .ok ev⟩ :: older → FinalizeAllowed older tx := by
  refine kernelContract.pasts (W := fun past => ∀ recent tx ev older,
    past = recent ++ ⟨.finalize tx, .ok ev⟩ :: older → FinalizeAllowed older tx) ?_ ?_ ?_ h
    (fun _ _ _ _ _ => trivial)
  · intro recent tx ev older hpast
    simp at hpast
  · intro past op db _ _ hallowed hold recent tx ev older hpast
    cases recent with
    | nil =>
      obtain ⟨hd, rfl⟩ := List.cons.inj hpast
      obtain rfl : op = .finalize tx := congrArg Performed.op hd
      exact hallowed
    | cons d recent => exact hold recent tx ev older (List.cons.inj hpast).2
  · intro past op x hx hold recent tx ev older hpast
    cases recent with
    | nil =>
      cases hpast
      obtain ⟨e, -, he⟩ := hx
      cases he
    | cons d recent => exact hold recent tx ev older (List.cons.inj hpast).2

/-- A change that an agent is to be charged for was authorised by an envelope of the agent, which
the request had found. -/
theorem FinalizeAllowed.authoriser {past : Past} {tx : FinalizeTx} (h : FinalizeAllowed past tx)
    {db : Db} (hknown : ∀ d ∈ past, known db d) (hconsistent : Consistent past) {agent : ActorRecord}
    (hagent : db.actors.find? tx.event.actorId = some agent) (htype : agent.actorType = .agent)
    (hchange : tx.event.actionType ≠ ActionType.observe.asStr) :
    ∃ e, tx.authorisedBy = some e ∧ Saw past (.getActiveForActor tx.event.actorId) (some e) := by
  obtain ⟨env, action, artifactHash, hevent, -, -, hauthorised, -⟩ := h
  have hname : tx.event.actorId = action.actorId := by
    rw [hevent]
    rfl
  have hchange' : action.actionType ≠ .observe := by
    intro hobserve
    refine hchange ?_
    rw [hevent, ← hobserve]
    rfl
  rw [hname] at hagent ⊢
  generalize tx.authorisedBy = authorisedBy at hauthorised ⊢
  cases hauthorised with
  | unknown newer older hfresh hpast hexists =>
    rw [hpast] at hconsistent
    exact absurd hexists (hconsistent.suffix.1 action.actorId rfl)
  | free actor hsaw hfree hpassed =>
    obtain ⟨actor', hactor', hsame⟩ := hknown _ hsaw
    rw [hagent] at hactor'
    cases hactor'
    rcases hfree with hhuman | hobserve
    · rw [htype, hhuman] at hsame
      cases hsame
    · exact absurd hobserve hchange'
  | covered actor envelope hsaw htype' hfresh hcovers hhold hpassed =>
    exact ⟨envelope, rfl, hfresh.saw⟩

/-- Every hold request was triggered in a step of the run, under the envelope it names. -/
theorem KernelRun.hold_triggered {tr : List KernelTransition} {pool : KernelPool}
    (h : KernelRun tr pool) : ∀ holdId hold, pool.store.holdRequests.find? holdId = some hold →
      ∃ newer t older id tx ev, tr = newer ++ t :: older ∧
        t.label = .act id ⟨.triggerHold tx, .ok ev⟩ ∧ tx.request.holdId = holdId ∧
        hold.envelopeId = tx.request.envelopeId ∧ hold.agentId = tx.request.agentId := by
  induction h with
  | start =>
    intro holdId hold hfind
    cases hfind
  | @step tr pool pool' l hr hs ih =>
    -- what was triggered before, was triggered in an older step
    have hold : ∀ {holdId : String} {hold hold' : HoldRequest},
        pool.store.holdRequests.find? holdId = some hold → SameHold hold hold' →
        ∃ newer t older id tx ev, ⟨pool, l⟩ :: tr = newer ++ t :: older ∧
          t.label = .act id ⟨.triggerHold tx, .ok ev⟩ ∧ tx.request.holdId = holdId ∧
          hold'.envelopeId = tx.request.envelopeId ∧ hold'.agentId = tx.request.agentId := by
      intro holdId hold hold' hfind hsame
      obtain ⟨newer, t, older, id, tx, ev, rfl, hlabel, hid, henvelope, hagent⟩ :=
        ih holdId hold hfind
      exact ⟨⟨pool, l⟩ :: newer, t, older, id, tx, ev, rfl, hlabel, hid,
        hsame.envelopeId.trans henvelope, hsame.agentId.trans hagent⟩
    intro holdId hold' hfind
    cases hs with
    | act store before after id op k past =>
      rcases (exec_holds op store).source holdId hold' hfind with
        ⟨hold₀, hfind₀, hgoesOn⟩ | ⟨hnone, row, hrow, hgoesOn⟩
      · exact hold hfind₀ hgoesOn.same
      · cases op with
        | triggerHold tx =>
          obtain rfl : row = tx.request.row tx.now := hrow
          rcases exec_cases (.triggerHold tx) store with ⟨ev, db', htx, hexec⟩ | ⟨e, -, hexec⟩
          · refine ⟨[], _, tr, id, tx, ev, rfl, ?_, ?_, hgoesOn.same.envelopeId,
              hgoesOn.same.agentId⟩
            · have hlabel : (Label.act id ⟨.triggerHold tx, (exec (.triggerHold tx) store).1⟩ :
                  Label KernelSig (KernelResult Outcome) Request) =
                  .act id ⟨.triggerHold tx, .ok ev⟩ := by rw [hexec]
              exact hlabel
            · exact hgoesOn.same.holdId.symm.trans (Table.key_of_find? hfind)
          · replace hfind : (exec (.triggerHold tx) store).2.holdRequests.find? holdId = some hold' :=
              hfind
            rw [hexec, hnone] at hfind
            cases hfind
        | _ => cases hrow
    | restart store store' tasks hboot =>
      rw [bootstrap_eq (KernelRun.seeded hr) hboot] at hfind
      exact hold hfind (.refl _)
    | _ => exact hold hfind (.refl _)

/-- A hold that a request approved is stored, and keeps its envelope. -/
theorem approved_hold {past : Past} {db db' : Db} {resolved : HoldResolveTx} {hold : HoldRequest}
    (hknown : ∀ d ∈ past, known db d) (hlater : Later db db')
    (happroval : approval past = some resolved)
    (hhold : db'.holdRequests.find? resolved.holdId = some hold) :
    ∃ hold₀, db.holdRequests.find? resolved.holdId = some hold₀ ∧
      hold.envelopeId = hold₀.envelopeId := by
  obtain ⟨⟨event, cost⟩, hsaw⟩ := approval_saw happroval
  obtain ⟨⟨hold₁, -, hold₀, hfind₀, -, -⟩, -, -⟩ := hknown _ hsaw
  obtain ⟨hold', hfind', hsame, -⟩ := hlater.holds _ hold₀ hfind₀
  rw [hhold] at hfind'
  cases hfind'
  exact ⟨hold₀, hfind₀, hsame.envelopeId⟩

/-- What a request has approved is a hold it had read, and what it has committed since is an
action of the hold's agent. -/
structure ForAgent (past : Past) : Prop where
  held : ∀ resolved, approval past = some resolved →
    ∃ hold, Saw past (.getHoldRequest resolved.holdId) (some hold) ∧
      resolved.agentId = hold.agentId
  commits : ∀ resolved tx, approval past = some resolved → uncharged past = some tx →
    tx.event.actorId = resolved.agentId

omit [Externals] in
theorem ForAgent.keep {past : Past} {d : Performed KernelSig} (h : ForAgent past)
    (happroval : approval (d :: past) = approval past)
    (huncharged : ∀ tx, uncharged (d :: past) = some tx → uncharged past = some tx) :
    ForAgent (d :: past) where
  held resolved hresolved := by
    obtain ⟨hold, hsaw, hagent⟩ := h.held resolved (happroval ▸ hresolved)
    exact ⟨hold, List.mem_cons_of_mem _ hsaw, hagent⟩
  commits resolved tx hresolved htx := h.commits resolved tx (happroval ▸ hresolved) (huncharged tx htx)

theorem ForAgent.exec {past : Past} {op : Op} (hallowed : allowed past op) (h : ForAgent past)
    (x : KernelResult (Val op)) : ForAgent (⟨op, x⟩ :: past) := by
  cases x with
  | error e => exact h.keep approval_error fun tx htx => by cases op <;> exact htx
  | ok v =>
    cases op with
    | resolveHold tx =>
      obtain ⟨env, humanAction, holdId, decision, instruction, hold, caller, -, -, hsaw, -, -, -, -,
        huncommitted⟩ := hallowed
      have hnone : uncharged past = none := uncharged_of_uncommitted huncommitted
      by_cases happrove : decision = .approve
      · refine ⟨?_, ?_⟩
        · intro resolved hresolved
          obtain rfl : holdResolveTx env humanAction holdId decision instruction hold = resolved :=
            Option.some.inj ((if_pos happrove).symm.trans hresolved)
          exact ⟨hold, List.mem_cons_of_mem _ hsaw, rfl⟩
        · intro resolved tx _ htx
          exact absurd (hnone.symm.trans htx) nofun
      · exact h.keep (if_neg happrove) fun tx htx => htx
    | finalize tx =>
      obtain ⟨env, action, artifactHash, hevent, hsettlement, -⟩ := hallowed
      refine ⟨?_, ?_⟩
      · intro resolved hresolved
        obtain ⟨hold, hsaw, hagent⟩ := h.held resolved hresolved
        exact ⟨hold, List.mem_cons_of_mem _ hsaw, hagent⟩
      · intro resolved tx' hresolved htx
        obtain rfl : tx = tx' := Option.some.inj htx
        replace hresolved : approval past = some resolved := hresolved
        rw [hevent]
        generalize tx.settledCost = cost at hsettlement
        generalize tx.reservation = reservation at hsettlement
        cases hsettlement with
        | quoted _ happroval => exact absurd (happroval.symm.trans hresolved) nofun
        | claimed _ _ happroval => exact absurd (happroval.symm.trans hresolved) nofun
        | approved tx' hresumed =>
          obtain rfl : tx' = resolved := Option.some.inj (hresumed.approval.symm.trans hresolved)
          exact hresumed.agent.symm
    | consumeBudget tx =>
      refine h.keep rfl fun tx' htx => ?_
      cases v with
      | ok total => cases htx
      | error e => exact htx
    | _ => exact h.keep rfl fun tx htx => htx

theorem KernelRun.forAgent {tr : List KernelTransition} {pool : KernelPool} (h : KernelRun tr pool) :
    ∀ task ∈ pool.tasks, ForAgent task.past := by
  refine kernelContract.pasts (W := ForAgent) ?_ ?_ ?_ h (fun _ _ _ _ _ => trivial)
  · refine ⟨?_, ?_⟩
    · intro resolved hresolved
      cases hresolved
    · intro resolved tx hresolved
      cases hresolved
  · intro past op db _ _ hallowed hpast
    exact hpast.exec hallowed _
  · intro past op x hx hpast
    refine hpast.keep ?_ fun tx htx => by rwa [uncharged_fault hx] at htx
    cases op with
    | consumeBudget tx => rfl
    | _ =>
      obtain ⟨e, -, rfl⟩ := hx
      exact approval_error

/-! ## Along every run -/

/-- The envelope that a lookup for a charge finds is the one that authorised the commit. -/
theorem KernelRun.finds_authoriser {older : List KernelTransition} {pool : KernelPool}
    (h : KernelRun older pool) {id : Nat} {prog : KernelProg Outcome} {past : Past} {tx : FinalizeTx}
    {x : KernelResult (Option EnvelopeRecord)} {envelope : EnvelopeRecord} {agent : ActorRecord}
    (hmem : (⟨id, prog, past⟩ : Task KernelSig (KernelResult Outcome)) ∈ pool.tasks)
    (huncharged : uncharged past = some tx)
    (hagent : pool.store.actors.find? tx.event.actorId = some agent)
    (htype : agent.actorType = .agent) (hchange : tx.event.actionType ≠ ActionType.observe.asStr)
    (hnow : EnvelopeStore.getActiveForActor tx.event.actorId pool.store = some envelope)
    (hforce : StillInForce older ⟨pool, .act id ⟨.getActiveForActor tx.event.actorId, x⟩⟩) :
    tx.under envelope.envelopeId := by
  obtain ⟨recent, ev, committed, hpast⟩ := uncharged_split huncharged
  have hallowed := KernelRun.commit_allowed h _ hmem recent tx ev committed hpast
  have hknown : ∀ d ∈ committed, known pool.store d := fun d hd =>
    ((KernelRun.keeps h).2 _ hmem).known d (by rw [hpast]; simp [hd])
  have hconsistent : Consistent committed := by
    have hall := KernelRun.consistent h _ hmem
    rw [show past = (recent ++ [⟨.finalize tx, .ok ev⟩]) ++ committed by rw [hpast]; simp] at hall
    exact hall.suffix
  obtain ⟨e, hauthorised, hsaw⟩ := hallowed.authoriser hknown hconsistent hagent htype hchange
  have hsaw' : Saw past (.getActiveForActor tx.event.actorId) (some e) := by
    rw [hpast]
    exact List.mem_append_right _ (List.mem_cons_of_mem _ hsaw)
  obtain ⟨recent', before, hpast'⟩ := List.append_of_mem hsaw'
  obtain ⟨between, found, rest, -, rfl, hlabel, -, hanswer, hsame⟩ :=
    KernelRun.read h hmem rfl hpast'
  have hfound : EnvelopeStore.getActiveForActor tx.event.actorId found.before.store = some e :=
    Except.ok.inj hanswer
  have hactor : e.actorId = tx.event.actorId := (EnvelopeStore.getActiveForActor_some hfound).2.1
  rw [← hactor] at hlabel hfound hnow
  have hkept := hforce.authoriser id past tx ⟨prog, _, x, rfl, hmem, huncharged⟩ between found rest e
    rfl hlabel hsame hauthorised
  unfold FinalizeTx.under
  rw [hauthorised, KernelRun.newest_kept h hlabel hfound hnow hkept]
  rfl

/-- The envelope that a lookup for a charge finds is the one under which the hold that the request
approved was triggered. -/
theorem KernelRun.finds_held {older : List KernelTransition} {pool : KernelPool}
    (h : KernelRun older pool) {id : Nat} {prog : KernelProg Outcome} {past : Past} {tx : FinalizeTx}
    {x : KernelResult (Option EnvelopeRecord)} {envelope : EnvelopeRecord} {resolved : HoldResolveTx}
    {hold : HoldRequest}
    (hmem : (⟨id, prog, past⟩ : Task KernelSig (KernelResult Outcome)) ∈ pool.tasks)
    (huncharged : uncharged past = some tx) (happroval : approval past = some resolved)
    (hhold : pool.store.holdRequests.find? resolved.holdId = some hold)
    (hnow : EnvelopeStore.getActiveForActor tx.event.actorId pool.store = some envelope)
    (hforce : StillInForce older ⟨pool, .act id ⟨.getActiveForActor tx.event.actorId, x⟩⟩) :
    hold.envelopeId = envelope.envelopeId := by
  obtain ⟨newer, trigger, earlier, id', held, ev, rfl, hlabel, hid, henvelope, hagent⟩ :=
    KernelRun.hold_triggered h _ hold hhold
  -- the agent of the hold is the one whose action was committed
  have hforAgent := KernelRun.forAgent h _ hmem
  obtain ⟨read, hsaw, hreadAgent⟩ := hforAgent.held resolved happroval
  obtain ⟨row, hrow, hsameHold, -⟩ := ((KernelRun.keeps h).2 _ hmem).known _ hsaw
  rw [hhold] at hrow
  cases hrow
  have hactor : held.request.agentId = tx.event.actorId := by
    rw [hforAgent.commits resolved tx happroval huncharged, hreadAgent, ← hagent, hsameHold.agentId]
  -- the step in which the request that triggered the hold found its envelope
  obtain ⟨hr, pool', hs⟩ := Run.upTo h
  rw [hlabel] at hs
  obtain ⟨⟨k, past', htask⟩, -, -⟩ := hs.act_inv
  have hallowed : TriggerAllowed past' held := ((KernelRun.keeps hr).2 _ htask).honors.1
  obtain ⟨env, action, e, agent, -, -, -, hsaw', -⟩ := hallowed
  obtain ⟨recent, before, hpast⟩ := List.append_of_mem hsaw'
  obtain ⟨between, found, rest, -, rfl, hfoundLabel, -, hanswer, hsame⟩ :=
    KernelRun.read hr htask rfl hpast
  have hfound : EnvelopeStore.getActiveForActor action.actorId found.before.store = some e :=
    Except.ok.inj hanswer
  have hname : e.actorId = action.actorId := (EnvelopeStore.getActiveForActor_some hfound).2.1
  have hname' : e.actorId = tx.event.actorId := hname.trans hactor
  rw [← hname] at hfoundLabel hfound
  rw [← hname'] at hnow
  have hkept := hforce.trigger id past tx ⟨prog, _, x, rfl, hmem, huncharged⟩ resolved happroval newer
    trigger between found rest id' _ ev e rfl hlabel hid hfoundLabel hsame rfl
  have hsplit : newer ++ trigger :: (between ++ found :: rest) =
      (newer ++ trigger :: between) ++ found :: rest := by simp
  rw [henvelope, KernelRun.newest_kept (hsplit ▸ h) hfoundLabel hfound hnow hkept]
  rfl

/-- Whatever is granted, expired or approved: in a run in which nothing takes the place of an
envelope between the lookup that authorised a commit under it, or held an action under it, and the
lookup for the charge, what is charged to an envelope is always the cost of a commit which that
envelope authorised, and which was held under it if it was held. -/
theorem run_charges_authoriser {tr : List KernelTransition} {pool : KernelPool}
    (h : KernelRun tr pool) (hforce : ∀ newer t older, tr = newer ++ t :: older → StillInForce older t) :
    ∀ t ∈ tr, ∀ pool', Step kernelSystem t.before t.label pool' → ∀ envelopeId,
      pool'.store.consumed envelopeId ≠ t.before.store.consumed envelopeId →
      ChargesAuthoriser t envelopeId
        (pool'.store.consumed envelopeId - t.before.store.consumed envelopeId) := by
  intro t ht pool' hs x hchanged
  obtain ⟨newer, older, rfl⟩ := List.append_of_mem ht
  obtain ⟨hr, -⟩ := Run.upTo h
  obtain ⟨id, prog, past, ctx, total, hlabel, hmem, hallowed, rfl⟩ := consumed_changes hr hs hchanged
  obtain ⟨tx, actor, envelope, rest, hpast, htype, huncharged, hctx, -, hchange⟩ := hallowed
  have hamount : tx.settledCost =
      pool'.store.consumed ctx.envelopeId - t.before.store.consumed ctx.envelopeId := by
    have hcost : ctx.amount = tx.settledCost := by rw [hctx]
    rw [hlabel] at hs
    rw [charge_consumed hs, if_pos rfl, hcost]
    omega
  have henvelope : envelope.envelopeId = ctx.envelopeId := by rw [hctx]
  -- the step in which the envelope was looked up
  obtain ⟨between, u, older', prog', rfl, hlookup, hmem', hanswer, -⟩ :=
    KernelRun.read hr hmem rfl (show past = [] ++ _ :: _ from hpast)
  obtain ⟨hr', -⟩ := Run.upTo hr
  obtain ⟨before, label⟩ := u
  obtain rfl : label = .act id ⟨.getActiveForActor tx.event.actorId, .ok (some envelope)⟩ := hlookup
  have hsplit : newer ++ t :: (between ++ ⟨before, .act id ⟨.getActiveForActor tx.event.actorId,
      .ok (some envelope)⟩⟩ :: older') = (newer ++ t :: between) ++
        ⟨before, .act id ⟨.getActiveForActor tx.event.actorId, .ok (some envelope)⟩⟩ :: older' := by
    simp
  have hnow : EnvelopeStore.getActiveForActor tx.event.actorId before.store = some envelope :=
    Except.ok.inj hanswer
  have hinForce := hforce (newer ++ t :: between) _ older' hsplit
  have huncharged' : uncharged (⟨.getActor tx.event.actorId, .ok (some actor)⟩ :: rest) = some tx := by
    rw [hpast] at huncharged
    exact huncharged
  have hkeeps := (KernelRun.keeps hr').2 _ hmem'
  refine ⟨past, ctx, total, tx, ⟨id, prog, hlabel, hmem⟩, huncharged, hamount, ?_, ?_⟩
  · obtain ⟨agent, hagent, hsame⟩ := hkeeps.known _ (List.mem_cons_self)
    rw [← henvelope]
    exact KernelRun.finds_authoriser hr' hmem' huncharged' hagent (hsame.trans htype) hchange hnow
      hinForce
  · intro resolved hold happroval hhold
    have happroval' :
        approval (⟨.getActor tx.event.actorId, .ok (some actor)⟩ :: rest) = some resolved := by
      rw [hpast] at happroval
      exact happroval
    obtain ⟨hold₀, hfind, hsame⟩ := approved_hold hkeeps.known (KernelRun.later hr _ (by simp))
      happroval' hhold
    rw [hsame, ← henvelope]
    exact KernelRun.finds_held hr' hmem' huncharged' happroval' hfind hnow hinForce

/-! ## What comes in between -/

/-- Whether the steps grant the agent of an envelope another that is created later. -/
def grantsLater (e : EnvelopeRecord) (t : KernelTransition) : Bool :=
  match t.label with
  | .act _ ⟨.finalize tx, .ok _⟩ => ((Op.finalize tx).grant).any fun row =>
      decide (row.actorId = e.actorId) && !decide (textLe row.createdAt e.createdAt)
  | _ => false

/-- Whether nothing has taken the place of any envelope that was ever found, if the step is a
lookup after a commit. -/
def stillInForce (older : List KernelTransition) (t : KernelTransition) : Bool :=
  match t.label with
  | .act id ⟨.getActiveForActor _, _⟩ =>
    (t.before.tasks.all fun task => decide (task.id ≠ id) || (uncharged task.past).isNone) ||
      older.all fun found =>
        match found.label with
        | .act _ ⟨.getActiveForActor _, .ok (some e)⟩ =>
          (older.all fun u => !grantsLater e u) &&
            (t.before.store.envelopes.find? e.envelopeId).any fun row => decide (row.status = .active)
        | _ => true
  | _ => true

omit [Externals] in
/-- Where no later envelope was ever granted and the envelope is active, it is not displaced. -/
theorem not_displaced {e : EnvelopeRecord} {older between : List KernelTransition} {db : Db}
    (hsub : ∀ t ∈ between, t ∈ older) (hgrants : older.all (fun u => !grantsLater e u) = true)
    (hactive : (db.envelopes.find? e.envelopeId).any (fun row => decide (row.status = .active)) = true) :
    ¬ Displaced e between db := by
  rintro (⟨t, ht, id, tx, ev, row, hlabel, hgrant, hactor, hlater⟩ | ⟨hended, -⟩)
  · have hnot := List.all_eq_true.mp hgrants t (hsub t ht)
    unfold grantsLater at hnot
    rw [hlabel] at hnot
    simp [hgrant, hactor, hlater] at hnot
  · cases hfind : db.envelopes.find? e.envelopeId with
    | none =>
      rw [hfind] at hactive
      cases hactive
    | some row =>
      rw [hfind] at hactive
      exact hended row hfind (of_decide_eq_true hactive)

omit [Externals] in
theorem stillInForce_sound {older : List KernelTransition} {t : KernelTransition}
    (h : stillInForce older t = true) : StillInForce older t := by
  have hclear : ∀ {id past tx}, LooksUpToCharge t id past tx → ∀ {found id' e}, found ∈ older →
      Found found id' e → ∀ {between}, (∀ u ∈ between, u ∈ older) →
      ¬ Displaced e between t.before.store := by
    rintro id past tx ⟨prog, actorId, x, hlabel, hmem, huncharged⟩ found id' e hfound hlookup between hsub
    unfold stillInForce at h
    rw [hlabel] at h
    rcases Bool.or_eq_true _ _ ▸ h with hnone | hall
    · have htask := List.all_eq_true.mp hnone _ hmem
      simp [huncharged] at htask
    · have hthis := List.all_eq_true.mp hall found hfound
      rw [show found.label = _ from hlookup] at hthis
      obtain ⟨hgrants, hactive⟩ := Bool.and_eq_true _ _ ▸ hthis
      exact not_displaced hsub hgrants hactive
  constructor
  · rintro id past tx hlooks between found rest e rfl hfound - -
    exact hclear hlooks (by simp) hfound fun u hu => List.mem_append_left _ hu
  · rintro id past tx hlooks resolved - newer trigger between found rest id' held ev e rfl - - hfound - -
    refine hclear hlooks (by simp) hfound fun u hu => ?_
    rcases List.mem_append.mp hu with hu | hu
    · simp [hu]
    rcases List.mem_cons.mp hu with rfl | hu
    · simp
    · simp [hu]

/-- Whether every lookup for a charge of a run, the newest first, comes in time. -/
def allInForce : List KernelTransition → Bool
  | [] => true
  | t :: older => stillInForce older t && allInForce older

omit [Externals] in
theorem allInForce_sound {tr : List KernelTransition} (h : allInForce tr = true) :
    ∀ newer t older, tr = newer ++ t :: older → StillInForce older t := by
  rintro newer t older rfl
  induction newer with
  | nil => exact stillInForce_sound (Bool.and_eq_true_iff.mp h).1
  | cons v newer ih => exact ih (Bool.and_eq_true_iff.mp h).2

/-- Whether the step charges an envelope, for a request whose past passes a test. -/
def chargesTo (envelopeId : String) (test : Past → Bool) (t : KernelTransition) : Bool :=
  match t.label with
  | .act id ⟨.consumeBudget ctx, .ok (.ok _)⟩ =>
    decide (ctx.envelopeId = envelopeId) && decide (0 < ctx.amount) &&
      t.before.tasks.all fun task => decide (task.id ≠ id) || test task.past
  | _ => false

/-- A step that charges an envelope changes what was charged to it. -/
theorem chargesTo_sound {envelopeId : String} {test : Past → Bool} {tr : List KernelTransition}
    {pool : KernelPool} (h : KernelRun tr pool) (hcharges : tr.any (chargesTo envelopeId test) = true) :
    ∃ t ∈ tr, ∃ pool', Step kernelSystem t.before t.label pool' ∧
      pool'.store.consumed envelopeId ≠ t.before.store.consumed envelopeId ∧
      ∀ past d, t.Performs past d → test past = true := by
  obtain ⟨t, ht, htest⟩ := List.any_eq_true.mp hcharges
  obtain ⟨newer, older, rfl⟩ := List.append_of_mem ht
  obtain ⟨-, pool', hs⟩ := Run.upTo h
  unfold chargesTo at htest
  split at htest
  · next id ctx total hlabel =>
    simp only [Bool.and_eq_true, decide_eq_true_eq] at htest
    obtain ⟨⟨rfl, hpos⟩, hall⟩ := htest
    refine ⟨t, ht, pool', hs, ?_, ?_⟩
    · rw [hlabel] at hs
      rw [charge_consumed hs, if_pos rfl]
      omega
    · rintro past d ⟨id', prog, hlabel', hmem⟩
      rw [hlabel] at hlabel'
      cases hlabel'
      simpa using List.all_eq_true.mp hall _ hmem
  · cases htest

/-- An agent's change is committed, and before the request goes on root grants the agent another
envelope. -/
def grantedBeforeCharge : List (Turn Request) :=
  alone 30 (createAgent 0 "agent-1" 500) ++ alone 30 (grantEnvelope 1 "agent-1" 100 []) ++
    [.spawn 1 (submitAt 2 "agent-1" .mutate "workspace/a" (.obj []))] ++ List.replicate 6 (.go 1) ++
    alone 30 (grantEnvelope 3 "agent-1" 100 []) ++ List.replicate 10 (.go 1)

omit [Externals] in
/-- The approved change is charged to the envelope its hold was triggered under, since
nothing came in between. -/
theorem holdApprovedByRoot_charges :
    letI := reference
    ∃ t ∈ (kernelPlayed holdApprovedByRoot).trace, ∃ pool',
      Step kernelSystem t.before t.label pool' ∧
      (∀ past d, t.Performs past d → (approval past).isSome = true) ∧
      ChargesAuthoriser t "envelope-1"
        (pool'.store.consumed "envelope-1" - t.before.store.consumed "envelope-1") := by
  have hplayed : allInForce (kernelPlayed holdApprovedByRoot).trace = true ∧
      (kernelPlayed holdApprovedByRoot).trace.any
        (chargesTo "envelope-1" fun past => (approval past).isSome) = true := by
    rw [kernelPlayed_eq]
    decide +kernel
  obtain ⟨hclean, hcharges⟩ := hplayed
  have hrun := kernelRun_played holdApprovedByRoot
  obtain ⟨t, ht, pool', hs, hchanged, happroved⟩ :=
    @chargesTo_sound reference _ _ _ _ hrun hcharges
  refine ⟨t, ht, pool', hs, happroved, ?_⟩
  exact @run_charges_authoriser reference _ _ hrun (allInForce_sound hclean) t ht pool' hs
    "envelope-1" hchanged

omit [Externals] in
/-- A commit under one envelope is charged to another, granted in between, which was
created later and is therefore found first. -/
theorem grantedBeforeCharge_charges_another :
    letI := reference
    ¬ ∀ tr pool, KernelRun tr pool → ∀ t ∈ tr, ∀ pool', Step kernelSystem t.before t.label pool' →
      ∀ envelopeId, pool'.store.consumed envelopeId ≠ t.before.store.consumed envelopeId →
      ChargesAuthoriser t envelopeId
        (pool'.store.consumed envelopeId - t.before.store.consumed envelopeId) := by
  intro hclaim
  have hcharges : (kernelPlayed grantedBeforeCharge).trace.any (chargesTo "envelope-3" fun past =>
      (uncharged past).all fun tx => decide (tx.under "envelope-1")) = true := by
    rw [kernelPlayed_eq]
    decide +kernel
  have hrun := kernelRun_played grantedBeforeCharge
  obtain ⟨t, ht, pool', hs, hchanged, htest⟩ := @chargesTo_sound reference _ _ _ _ hrun hcharges
  obtain ⟨past, ctx, total, tx, hperforms, huncharged, -, hunder, -⟩ :=
    hclaim _ _ hrun t ht pool' hs "envelope-3" hchanged
  have hfirst := htest past _ hperforms
  rw [huncharged] at hfirst
  have hsame := FinalizeTx.under_unique hunder (of_decide_eq_true hfirst)
  exact absurd hsame (by decide)

end PunkgoKernel
