import PunkgoKernel.Laws.Protocol
import PunkgoKernel.Runtime.System

/-!
# Every program follows the protocol

One lemma for each part of the pipeline, in the order of the program: what it
may add to the past, and what is known when it ends. `submitAction_follows` is
their composition, and covers a submit that starts a request as well as one
that continues an approval.
-/

namespace PunkgoKernel

open Json (Value)
open Resumption

variable [Externals]

/-- Operations that leave open what was open and touch no grant. What the lazy expiry
does between two checks is of this kind: it ends holds, but none that this request has
approved, and no envelope. -/
def Op.isCalm (op : Op) : Bool := op.isQuiet && op.keepsGrants

omit [Externals] in
/-- A read is calm, since it changes no row at all. -/
theorem Op.isCalm_of_isRead {op : Op} (h : op.isRead = true) : op.isCalm = true := by
  unfold Op.isCalm
  rw [Op.isQuiet_of_isRead h, Op.keepsGrants_of_isRead h]
  rfl

omit [Externals] in
/-- What a request has added by calm operations leaves open what it had reserved,
approved or committed before. -/
theorem Since.quiet_of_calm {past past' : Past} (h : Since Op.isCalm past past') :
    Since Op.isQuiet past past' :=
  h.mono fun _ hop => (Bool.and_eq_true_iff.mp hop).1

omit [Externals] in
/-- After calm operations a row that the request has looked up is as fresh as it was: it
has itself ended and granted nothing in between. -/
theorem Since.keepsGrants_of_calm {past past' : Past} (h : Since Op.isCalm past past') :
    Since Op.keepsGrants past past' :=
  h.mono fun _ hop => (Bool.and_eq_true_iff.mp hop).2

omit [Externals] in
theorem Since.calm_of_read {past past' : Past} (h : Since Op.isRead past past') :
    Since Op.isCalm past past' :=
  h.mono fun _ hop => Op.isCalm_of_isRead hop

omit [Externals] in
/-- The two steps together, for the many parts that only look things up. -/
theorem Since.quiet_of_read {past past' : Past} (h : Since Op.isRead past past') :
    Since Op.isQuiet past past' :=
  h.calm_of_read.quiet_of_calm

/-- The protocol asks nothing of a read. Its guards stand before the operations that
write, where the code has made its checks. -/
theorem allowed_of_isRead {past : Past} {op : Op} (h : op.isRead = true) : allowed past op := by
  cases op <;> trivial

/-! ## Parts that only read -/

/-- A program that only looks things up, and passes every failure on. Half of the checks
of a submit are of this form, and one lemma then serves them all (`Reading.follows`). -/
def Reading {α : Type} : KernelProg α → Prop
  | .ret _ => True
  | .vis op k => op.looksUp = true ∧ (∀ e, k (.error e) = .ret (.error e)) ∧
      ∀ x, Reading (α := α) (k x)

omit [Externals] in
/-- Reading programs compose. The failure of the first part ends the whole, which is why
passing failures on belongs to the definition. -/
theorem Reading.bind {α β : Type} {p : KernelProg β} {f : β → KernelProg α} (hp : Reading p)
    (hf : ∀ b, Reading (f b)) : Reading (p >>= f) := by
  induction p with
  | ret x =>
    cases x with
    | error e => trivial
    | ok b => exact hf b
  | vis op k ih =>
    refine ⟨hp.1, ?_, fun x => ih x (hp.2.2 x)⟩
    intro e
    show Prog.bind (k (.error e)) (Attempt.andThen f) = _
    rw [hp.2.1 e]
    rfl

omit [Externals] in
/-- A single lookup. -/
theorem reading_call {op : Op} (h : op.looksUp = true) : Reading (call op) :=
  ⟨h, fun _ => rfl, fun _ => trivial⟩

omit [Externals] in
/-- A check that asks the database nothing. -/
theorem reading_check {α : Type} (x : KernelResult α) : Reading (check x) := trivial

/-- A reading program follows the protocol from any past, and adds nothing to it but
reads. The induction is on the program, with the past it began with kept fixed. -/
theorem Reading.follows {α : Type} {p : KernelProg α} (h : Reading p) (past : Past) :
    Follows p (fun past' _ => Since Op.isRead past past') past := by
  suffices hgen : ∀ q : Past, Since Op.isRead past q →
      Follows p (fun past' _ => Since Op.isRead past past') q from hgen past (.refl _ _)
  induction p with
  | ret x =>
    intro q hq
    cases x with
    | error e => trivial
    | ok a => exact hq
  | vis op k ih =>
    intro q hq
    have hread := Op.isRead_of_looksUp h.1
    exact ⟨allowed_of_isRead hread, fun x _ => ih x (h.2.2 x) _ (hq.cons hread)⟩

omit [Externals] in
/-- The walk up the lineage asks for one ancestor after the other, and stops at the
first that is not active. -/
theorem reading_checkLineageActive (lineage : List String) : Reading (checkLineageActive lineage) := by
  induction lineage with
  | nil => trivial
  | cons ancestorId rest ih =>
    refine Reading.bind (reading_call rfl) ?_
    intro active
    show Reading (if (active : Bool) = true then checkLineageActive rest else throw _)
    split
    · exact ih
    · trivial

omit [Externals] in
/-- Only an agent's action is checked against its lineage; every other actor passes
without a lookup. -/
theorem reading_checkLineage (action : Action) (actor : ActorRecord) :
    Reading (checkLineage action actor) := by
  unfold checkLineage
  split
  · exact reading_checkLineageActive _
  · trivial

omit [Externals] in
theorem reading_findActor (actorId : String) : Reading (findActor actorId) := by
  refine Reading.bind (reading_call rfl) ?_
  intro answer
  cases answer with
  | none => trivial
  | some actor => trivial

omit [Externals] in
/-- A lifecycle operation is authorised by two rows, the initiator's and the target's,
and by a check on them that asks for nothing more. -/
theorem reading_authorizeLifecycle (action : Action) (op : Option (String × LifecycleOp)) :
    Reading (authorizeLifecycle action op) := by
  cases op with
  | none => trivial
  | some lifecycle =>
    refine Reading.bind (reading_findActor _) ?_
    intro initiator
    refine Reading.bind (reading_findActor _) ?_
    intro target
    exact reading_check _

omit [Externals] in
/-- The identifier of a new agent is made from the purpose and a number that is counted
in the store; every other actor is named by the payload. -/
theorem reading_newActorId (action : Action) (purpose : String) :
    Reading (newActorId action purpose) := by
  unfold newActorId
  split
  · trivial
  · split
    · trivial
    · refine Reading.bind (reading_call rfl) ?_
      intro seq
      trivial

/-- Parsing what is to be created asks at most for a sequence number and the creator's
row, and writes nothing: the row is inserted with the commit. -/
theorem reading_parseCreateActorSpec (action : Action) : Reading (parseCreateActorSpec action) := by
  unfold parseCreateActorSpec
  split
  · trivial
  split
  · trivial
  refine Reading.bind (reading_check _) ?_
  intro actorType
  refine Reading.bind (reading_newActorId action _) ?_
  intro actorId
  refine Reading.bind (reading_call rfl) ?_
  intro creator
  refine Reading.bind (reading_check _) ?_
  intro spec
  trivial

/-- The row that `findActor` hands on is one that this request was answered with, by a
read that is now the newest of its past. -/
theorem findActor_follows (actorId : String) (past : Past) :
    Follows (findActor actorId) (fun past' actor => Since Op.isRead past past' ∧
      Saw past' (.getActor actorId) (some actor)) past := by
  refine follows_call_bind trivial ?_
  intro found _
  cases found with
  | none => exact follows_throw
  | some actor => exact ⟨(Since.refl _ _).cons rfl, List.mem_cons_self⟩

/-- Once a lifecycle operation is authorised, the past has the rows of both parties, and
the check on them succeeded. This is what the operation is later carried out under. -/
theorem authorizeLifecycle_follows (action : Action) (lifecycle : Option (String × LifecycleOp))
    (past : Past) :
    Follows (authorizeLifecycle action lifecycle) (fun past' _ => Since Op.isRead past past' ∧
      ∀ targetId op, lifecycle = some (targetId, op) → Managed past' action targetId op) past := by
  cases lifecycle with
  | none => exact ⟨.refl _ _, fun _ _ h => by cases h⟩
  | some lifecycle =>
    refine (findActor_follows _ _).bind ?_
    intro past₁ initiator ⟨hs₁, hinitiator⟩
    refine (findActor_follows _ _).bind ?_
    intro past₂ target ⟨hs₂, htarget⟩
    refine follows_check ?_
    intro _ hvalid
    refine ⟨hs₁.trans hs₂, ?_⟩
    rintro targetId op h
    cases h
    exact ⟨initiator, target, hs₂.saw hinitiator, htarget, hvalid⟩

/-- What is to be created is made from the row of the action's actor, who was
seen to exist. -/
theorem parseCreateActorSpec_follows {action : Action} {past : Past}
    (hexists : Saw past (.actorExists action.actorId) true) :
    Follows (parseCreateActorSpec action) (fun past' create => Since Op.isRead past past' ∧
      ∀ spec, create = some spec → Proposed past' action spec) past := by
  unfold parseCreateActorSpec
  split
  · exact ⟨.refl _ _, fun _ h => by cases h⟩
  split
  · exact follows_throw
  refine follows_check_bind ?_
  intro actorType _
  refine ((reading_newActorId action _).follows _).bind ?_
  intro past₁ actorId hs₁
  refine follows_call_bind trivial ?_
  intro creator _
  refine follows_check_bind ?_
  intro spec hspec
  refine ⟨hs₁.cons rfl, ?_⟩
  rintro spec' h
  cases h
  exact ⟨[], past₁, actorId, _, actorType, creator, rfl, hs₁.saw hexists, hspec⟩

/-- A granted envelope has a positive budget. -/
theorem parseCreateEnvelopeSpec_follows (env : Env) (action : Action) (past : Past) :
    Follows (parseCreateEnvelopeSpec env action) (fun past' create => Since Op.isRead past past' ∧
      ∀ envelopeId spec parent, create = some (envelopeId, spec, parent) → 0 < spec.budget)
      past := by
  unfold parseCreateEnvelopeSpec
  split
  · exact ⟨.refl _ _, fun _ _ _ h => by cases h⟩
  · refine follows_check_bind ?_
    intro spec hspec
    refine follows_call_bind trivial ?_
    intro grantorEnvelope _
    refine follows_check_bind ?_
    intro parentId _
    refine ⟨(Since.refl _ _).cons rfl, ?_⟩
    rintro envelopeId spec' parent h
    cases h
    exact (parseEnvelopeFields_ok hspec).1

/-! ## Authorisation -/

/-- Past this check the request was told that the actor exists, which is all that is
asked for here: the row itself is read later. -/
theorem requireActor_follows (actorId : String) (past : Past) :
    Follows (requireActor actorId)
      (fun past' _ => Since Op.isRead past past' ∧ Saw past' (.actorExists actorId) true) past := by
  refine follows_call_bind trivial ?_
  intro known _
  cases (known : Bool) with
  | true => exact ⟨(Since.refl _ _).cons rfl, List.mem_cons_self⟩
  | false => exact follows_throw

/-- Along the loop over the listed holds: each timeout is one the protocol allows,
because its hold is an element of a list that was read. The induction carries the whole
list along, and settles its tail. -/
theorem expireListed_follows (env : Env) (timeoutSecs : Int) (envelopeId : String)
    {holds : List HoldRequest} (hall : AllWellFormed holds) (round : Nat) {past : Past}
    {listed : List HoldRequest} (hlisted : ∀ hold ∈ listed, hold ∈ holds)
    (hsaw : Saw past (.listPendingHoldsForEnvelope envelopeId) holds) :
    Follows (expireListed env timeoutSecs round listed)
      (fun past' _ => Since Op.isCalm past past') past := by
  induction listed generalizing round past with
  | nil => exact Since.refl _ _
  | cons hold rest ih =>
    have hrest : ∀ h ∈ rest, h ∈ holds := fun h hh => hlisted h (List.mem_cons_of_mem _ hh)
    have hhold := hlisted hold List.mem_cons_self
    unfold expireListed
    split
    · refine follows_call_bind
        (ExpireAllowed.intro env round hold envelopeId holds hsaw hhold (hall hold hhold)) ?_
      intro event _
      refine (ih (round + 1) hrest (List.mem_cons_of_mem _ hsaw)).mono ?_
      intro past' _ hs
      exact ((Since.refl _ _).cons rfl).trans hs
    · exact ih (round + 1) hrest hsaw

/-- The lazy expiry lists the pending holds of the envelope and times out the late ones.
What it adds is calm, so what was read before it may be relied on after it. -/
theorem expireTimedOutHolds_follows (env : Env) (envelopeId : String) (timeoutSecs : Int)
    (past : Past) :
    Follows (expireTimedOutHolds env envelopeId timeoutSecs)
      (fun past' _ => Since Op.isCalm past past') past := by
  refine follows_call_bind trivial ?_
  intro holds hwf
  refine (expireListed_follows env timeoutSecs envelopeId hwf 0 (fun _ h => h)
    List.mem_cons_self).mono ?_
  intro past' _ hs
  exact ((Since.refl _ _).cons rfl).trans hs

/-- The same under an envelope that may have no timeout configured, in which case
nothing is listed and nothing expires. -/
theorem expireHoldsOf_follows (env : Env) (envelope : EnvelopeRecord) (past : Past) :
    Follows (expireHoldsOf env envelope) (fun past' _ => Since Op.isCalm past past') past := by
  unfold expireHoldsOf
  split
  · split
    · exact expireTimedOutHolds_follows env _ _ past
    · exact Since.refl _ _
  · exact Since.refl _ _

/-- The hold check ends in a value only if the action goes on: either the payload says
that it was approved, or no rule of the envelope matches. Otherwise the trigger it asks
for is one the protocol allows, and the submit ends there. -/
theorem checkHold_follows (env : Env) {action : Action} {actor : ActorRecord}
    {envelope : EnvelopeRecord} {past : Past}
    (hchanging : action.actionType.isStateChanging = true)
    (hactor : Saw past (.getActor action.actorId) (some actor)) (htype : actor.actorType = .agent)
    (henvelope : Saw past (.getActiveForActor action.actorId) (some envelope)) :
    Follows (checkHold env action envelope) (fun past' _ => Since Op.isCalm past past' ∧
      (holdApproved action.payload = true ∨
        checkHoldTrigger envelope.holdOn action.target action.actionType.asStr = false)) past := by
  unfold checkHold
  split
  · next htrigger =>
    obtain ⟨-, htrigger⟩ := Bool.and_eq_true_iff.mp htrigger
    refine follows_call_bind
      (TriggerAllowed.intro env action envelope actor hchanging hactor htype henvelope htrigger) ?_
    intro event _
    exact follows_throw
  · next hpass =>
    refine ⟨.refl _ _, ?_⟩
    cases happroved : holdApproved action.payload with
    | true => exact .inl rfl
    | false => exact .inr (by simpa [happroved] using hpass)

omit [Externals] in
/-- An agent is authorised by an envelope, everyone else without one. The mode is read
off the actor's type alone, so there is no third case. -/
theorem checkAuthorization_ok {actor : ActorRecord} {envelope : Option EnvelopeRecord}
    {mode : AuthorizationMode} (h : checkAuthorization actor envelope = .ok mode) :
    (actor.actorType = .human ∧ mode = .manInTheLoop) ∨
      (actor.actorType = .agent ∧ mode = .manOnTheLoop ∧ ∃ e, envelope = some e) := by
  unfold checkAuthorization determineAuthorizationMode at h
  cases htype : actor.actorType with
  | human =>
    rw [htype] at h
    cases h
    exact .inl ⟨rfl, rfl⟩
  | agent =>
    rw [htype] at h
    cases envelope with
    | none => cases h
    | some e =>
      simp only at h
      split at h
      · cases h
      · cases h
        exact .inr ⟨rfl, rfl, e, rfl⟩

/-- An envelope that is still good after the expiry check was just read: where the check
marks one as expired it hands on none, and where it does not it asks the database
nothing. -/
theorem expireEnvelope_follows (env : Env) (envelope : Option EnvelopeRecord) (past : Past) :
    Follows (expireEnvelope env envelope) (fun past' found => Since Op.isQuiet past past' ∧
      ∀ e, found = some e → envelope = some e ∧ past' = past) past := by
  cases envelope with
  | none => exact ⟨.refl _ _, fun _ h => by cases h⟩
  | some e =>
    unfold expireEnvelope
    simp only
    split
    · refine follows_call_bind trivial ?_
      intro _ _
      exact ⟨(Since.refl _ _).cons rfl, fun _ h => by cases h⟩
    · exact ⟨.refl _ _, fun _ h => ⟨h, rfl⟩⟩

/-- What a state-changing action is authorised by: for a human the row alone, for an
agent the envelope it has just looked up, which covers the action and whose hold rules
let it pass. -/
theorem authorizeStateChange_follows (env : Env) {action : Action} {actor : ActorRecord}
    {past : Past} (hchanging : action.actionType.isStateChanging = true)
    (hactor : Saw past (.getActor action.actorId) (some actor))
    (hactive : checkFrozen actor action = .ok ()) :
    Follows (authorizeStateChange env action actor) (fun past' auth =>
      Since Op.isQuiet past past' ∧ Authorised past' action auth) past := by
  refine follows_call_bind trivial ?_
  intro envelope _
  refine (expireEnvelope_follows env envelope _).bind ?_
  intro past₁ found ⟨hexpiry, hfound⟩
  have hsince : Since Op.isQuiet past past₁ := ((Since.refl _ _).cons rfl).trans hexpiry
  refine follows_check_bind ?_
  intro mode hmode
  rcases checkAuthorization_ok hmode with ⟨htype, rfl⟩ | ⟨htype, rfl, e, rfl⟩
  · exact ⟨hsince, .free actor (hsince.saw hactor) (.inl htype) hactive⟩
  · obtain ⟨rfl, rfl⟩ := hfound e rfl
    refine follows_check_bind ?_
    intro _ hcovers
    refine (expireHoldsOf_follows env e _).bind ?_
    intro past₂ _ hs₂
    have hactor₂ := hs₂.saw (hsince.saw hactor)
    have hfresh₂ : Fresh past₂ (.getActiveForActor action.actorId) (some e) :=
      fresh_cons.since hs₂.keepsGrants_of_calm
    refine (checkHold_follows env hchanging hactor₂ htype hfresh₂.saw).bind ?_
    intro past₃ _ ⟨hs₃, hhold⟩
    exact ⟨hsince.trans (hs₂.quiet_of_calm.trans hs₃.quiet_of_calm),
      .covered actor e (hs₃.saw hactor₂) htype (hfresh₂.since hs₃.keepsGrants_of_calm) hcovers hhold
        hactive⟩

omit [Externals] in
/-- Of the four types of action only an observation changes nothing. -/
theorem eq_observe_of_not_isStateChanging {t : ActionType} (h : t.isStateChanging ≠ true) :
    t = .observe := by
  cases t with
  | observe => rfl
  | create => exact absurd rfl h
  | mutate => exact absurd rfl h
  | execute => exact absurd rfl h

/-- The checks on the actor in the order of the code: the row, the frozen check, the
targets it may write to, its lineage, and then the authorisation of a change. An actor
without a row passes, as the code lets it. -/
theorem authorizeActor_follows (env : Env) {action : Action} {past : Past}
    (hexists : Saw past (.actorExists action.actorId) true) :
    Follows (authorizeActor env action) (fun past' auth =>
      Since Op.isQuiet past past' ∧ Authorised past' action auth) past := by
  refine follows_call_bind trivial ?_
  intro found _
  cases found with
  | none => exact ⟨(Since.refl _ _).cons rfl, .unknown [] past fresh_cons rfl hexists⟩
  | some actor =>
    refine follows_check_bind ?_
    intro _ hactive
    refine follows_check_bind ?_
    intro _ _
    refine ((reading_checkLineage action actor).follows _).bind ?_
    intro past₁ _ hs₁
    have hsince : Since Op.isQuiet past past₁ :=
      ((Since.refl _ _).cons rfl).trans hs₁.quiet_of_read
    have hactor : Saw past₁ (.getActor action.actorId) (some actor) := hs₁.saw List.mem_cons_self
    split
    · next hchanging =>
      refine (authorizeStateChange_follows env hchanging hactor hactive).mono ?_
      intro past' auth ⟨hs, hauth⟩
      exact ⟨hsince.trans hs, hauth⟩
    · next hchanging =>
      exact ⟨hsince, .free actor hactor (.inr (eq_observe_of_not_isStateChanging hchanging))
        hactive⟩

/-! ## Commit -/

omit [Externals] in
/-- Reads leave every grant as it was. -/
theorem Since.keepsGrants_of_read {past past' : Past} (h : Since Op.isRead past past') :
    Since Op.keepsGrants past past' :=
  h.calm_of_read.keepsGrants_of_calm

/-- How an action is paid for: by the reservation its payload claims, or by one of its
own for the quote. A request that goes on after an approval always claims, since the
kernel itself wrote the claim into its payload. -/
theorem quoteAndReserve_follows {action : Action} {past : Past} (hentry : Entry past action) :
    Follows (quoteAndReserve action) (fun past' paid => Since Op.keepsGrants past past' ∧
      committed past' = committed past ∧ Settlement past' action paid.1 paid.2) past := by
  unfold quoteAndReserve
  cases hclaim : holdReservedCost action.payload with
  | some cost =>
    refine ⟨.refl _ _, rfl, ?_⟩
    cases hentry with
    | fresh happroval hheld _ => exact .claimed cost hclaim happroval hheld
    | resumed tx hresumed =>
      obtain rfl : cost = tx.reservedCost :=
        Option.some.inj (hclaim.symm.trans hresumed.sentinel)
      show Settlement past action _ (if _ then _ else _)
      rw [if_pos hresumed.positive]
      exact .approved tx hresumed
  | none =>
    have hpos : (0 : Int) < quoteCost action := by exact_mod_cast quoteCost_pos action
    show Follows (if (0 : Int) < quoteCost action then _ else _) _ past
    rw [if_pos hpos]
    cases hentry with
    | fresh happroval hheld _ =>
      refine follows_call_bind ⟨hpos, happroval, hheld⟩ ?_
      rintro reservation rfl
      exact ⟨(Since.refl _ _).cons rfl, rfl, .quoted hclaim happroval rfl⟩
    | resumed tx hresumed =>
      rw [hresumed.sentinel] at hclaim
      cases hclaim

/-- The lifecycle operation that a log entry stands for is the one its action asks for,
as both are read from the type, the target and the payload. -/
theorem lifecycle_draftEvent (env : Env) (action : Action) (cost : Int)
    (artifactHash : Option String) :
    EventRecord.lifecycle (draftEvent env action cost artifactHash) = lifecycleOp? action := by
  unfold EventRecord.lifecycle lifecycleOp?
  by_cases hmutate : action.actionType = .mutate
  · rw [if_pos hmutate]
    exact if_pos (congrArg ActionType.asStr hmutate)
  · rw [if_neg hmutate]
    exact if_neg fun h => hmutate (ActionType.asStr_injective h)

/-- What follows a commit and is only logged on failure. The outcome is looked at and
dropped, so the protocol has to allow the operation whatever comes of it. -/
theorem recordPolicyVersion_follows (version : Option String) (past : Past) :
    Follows (recordPolicyVersion version) (fun past' _ => Since Op.isQuiet past past' ∧
      Since Op.keepsUncarried past past') past := by
  cases version with
  | none => exact ⟨.refl _ _, .refl _ _⟩
  | some version =>
    refine follows_outcome_bind trivial ?_
    intro x _
    exact ⟨(Since.refl _ _).cons rfl, (Since.refl _ _).cons rfl⟩

/-- The charge after a commit: it is of an agent's change that is not yet charged, and
goes to the envelope that the lookup just before it found active. Where a lookup fails
the charge is dropped and the submit still succeeds. -/
theorem chargeEnvelope_follows {env : Env} {action : Action} {artifactHash : Option String}
    {tx : FinalizeTx} {past : Past} (hevent : tx.event = draftEvent env action tx.settledCost artifactHash)
    (hunpaid : uncharged past = some tx) :
    Follows (chargeEnvelope action tx.settledCost)
      (fun past' _ => Since Op.keepsUncarried past past') past := by
  unfold chargeEnvelope
  split
  swap
  · exact Since.refl _ _
  next hcond =>
  refine follows_outcome_bind trivial ?_
  intro found _
  have hs₁ : Since Op.keepsUncarried past (⟨.getActor action.actorId, found⟩ :: past) :=
    (Since.refl _ _).cons rfl
  split
  swap
  · exact hs₁
  next actor _ =>
  split
  swap
  · exact hs₁
  next htype =>
  refine follows_outcome_bind trivial ?_
  intro active _
  have hs₂ := hs₁.cons (d := ⟨.getActiveForActor action.actorId, active⟩) rfl
  split
  swap
  · exact hs₂
  next envelope _ =>
  have hactor : tx.event.actorId = action.actorId := by
    rw [hevent]
    rfl
  have hchanging : tx.event.actionType ≠ ActionType.observe.asStr := by
    rw [hevent]
    intro hobserve
    have hsame : action.actionType = .observe := ActionType.asStr_injective hobserve
    rw [hsame] at hcond
    exact Bool.false_ne_true hcond.1
  refine follows_call_bind (ChargeAllowed.intro tx actor envelope past (by rw [hactor]) htype hunpaid
    rfl hcond.2 hchanging) ?_
  intro _ _
  exact hs₂.cons rfl

/-- A lifecycle operation is carried out after its commit and only once, which the past
shows: its newest commit is still uncarried. -/
theorem executeLifecycle_follows {lifecycle : Option (String × LifecycleOp)} {past : Past}
    (hcommitted : uncarried past = lifecycle) :
    Follows (executeLifecycle lifecycle) (fun _ _ => True) past := by
  cases lifecycle with
  | none => trivial
  | some lifecycle =>
    obtain ⟨targetActorId, op⟩ := lifecycle
    have hop : allowed past (lifecycleCall targetActorId op) := by
      cases op <;> exact ⟨targetActorId, _, hcommitted, rfl⟩
    refine follows_outcome_bind hop ?_
    intro _ _
    trivial

/-- The commit path as a whole. Everything that was checked before it is still in the
past when `finalize` is asked for, and that operation demands it all at once
(`FinalizeAllowed`). -/
theorem commitAction_follows (env : Env) {action : Action} {auth : Option EnvelopeRecord}
    {past : Past} (hentry : Entry past action)
    (hexists : Saw past (.actorExists action.actorId) true) (hauth : Authorised past action auth) :
    Follows (commitAction env action auth) Answer past := by
  unfold commitAction
  refine (authorizeLifecycle_follows action _ _).bind ?_
  intro past₁ _ ⟨hs₁, hmanaged⟩
  refine (parseCreateActorSpec_follows (hs₁.saw hexists)).bind ?_
  intro past₂ createActor ⟨hs₂, hproposed⟩
  refine (parseCreateEnvelopeSpec_follows env action _).bind ?_
  intro past₃ createEnvelope ⟨hs₃, hbudget⟩
  have hread : Since Op.isRead past past₃ := (hs₁.trans hs₂).trans hs₃
  refine (quoteAndReserve_follows (hentry.since hread.quiet_of_read)).bind ?_
  rintro past₄ ⟨cost, reservation⟩ ⟨hs₄, hsame, hsettle⟩
  have huncommitted : committed past₄ = false :=
    hsame.trans (hentry.since hread.quiet_of_read).uncommitted
  have hgrants : Since Op.keepsGrants past past₄ := hread.keepsGrants_of_read.trans hs₄
  refine follows_check_bind ?_
  intro artifactHash _
  refine follows_call_bind (FinalizeAllowed.intro env action artifactHash rfl hsettle
    (hgrants.saw hexists) (hauth.since hgrants) hbudget
    (uncharged_of_uncommitted huncommitted) huncommitted
    (fun spec hspec => ((hproposed spec hspec).since hs₃).since hs₄)
    (fun targetId op hop => ((hmanaged targetId op hop).since (hs₂.trans hs₃)).since hs₄)) ?_
  intro event _
  refine (recordPolicyVersion_follows _ _).bind ?_
  intro past₅ _ ⟨hs₅, hkeeps₅⟩
  refine (@chargeEnvelope_follows _ env action artifactHash _ _ rfl
    (hs₅.keeps uncharged_quiet)).bind ?_
  intro past₆ _ hkeeps₆
  have hcommitted : uncarried past₆ = lifecycleOp? action := by
    rw [(hkeeps₅.trans hkeeps₆).keeps uncarried_keeps]
    exact lifecycle_draftEvent env action cost artifactHash
  refine (executeLifecycle_follows hcommitted).bind ?_
  intro past₇ _ _
  trivial

/-! ## Hold responses -/

/-- The hold is one this request was answered with, and its row is well formed, which
the store guarantees of every row it hands out. -/
theorem findHold_follows (holdId : String) (past : Past) :
    Follows (findHold holdId) (fun past' hold => Since Op.isRead past past' ∧
      Saw past' (.getHoldRequest holdId) (some hold) ∧ hold.WellFormed) past := by
  refine follows_call_bind trivial ?_
  intro found hfound
  cases found with
  | none => exact follows_throw
  | some hold => exact ⟨(Since.refl _ _).cons rfl, List.mem_cons_self, hfound.2⟩

/-- A response to a hold that is past its timeout does not get past this check: it has
the late holds settled and then fails. If it does get past, it has only read. -/
theorem refuseTimedOut_follows (env : Env) (hold : HoldRequest) (past : Past) :
    Follows (refuseTimedOut env hold) (fun past' _ => Since Op.isRead past past') past := by
  refine follows_outcome_bind trivial ?_
  intro found _
  split
  · split
    · split
      · refine (expireTimedOutHolds_follows env _ _ _).bind ?_
        intro _ _ _
        exact follows_throw
      · exact (Since.refl _ _).cons rfl
    · exact (Since.refl _ _).cons rfl
  · exact (Since.refl _ _).cons rfl

omit [Externals] in
/-- Only a human's response passes the check. -/
theorem requireHuman_ok {caller : ActorRecord} {actorId : String}
    (h : requireHuman caller actorId = .ok ()) : caller.actorType = .human := by
  unfold requireHuman at h
  split at h
  · cases h
  · next hhuman => exact not_not.mp hhuman

omit [Externals] in
/-- The check passes only while the hold, as it was read, is still pending. -/
theorem requirePending_ok {hold : HoldRequest} {holdId : String}
    (h : requirePending hold holdId = .ok ()) : hold.status = .pending := by
  unfold requirePending at h
  split at h
  · cases h
  · next hpending => exact not_not.mp hpending

/-- What a response may rely on: it is the first the request makes, or the hold that let
the request go on is of an agent, and that agent submitted it. -/
theorem Entry.first_or_agent {past : Past} {action : Action} (h : Entry past action) :
    (approval past = none ∧ held past = none) ∨
      ∃ holdId hold, Saw past (.getHoldRequest holdId) (some hold) ∧
        hold.agentId = action.actorId := by
  cases h with
  | fresh happroval hheld _ => exact .inl ⟨happroval, hheld⟩
  | resumed tx hresumed =>
    obtain ⟨hold, hsaw, hagent, -, -⟩ := hresumed.hold
    exact .inr ⟨tx.holdId, hold, hsaw, hagent⟩

omit [Externals] in
/-- A client's response approves or rejects. That a hold has timed out is no answer one
can send: only the kernel says so. -/
theorem holdResponse?_decision {action : Action} {holdId : String} {decision : HoldDecision}
    {instruction : Option String} (h : holdResponse? action = some (holdId, decision, instruction)) :
    decision ≠ .timedOut := by
  unfold holdResponse? at h
  split at h
  swap
  · cases h
  unfold parseHoldResponse at h
  obtain ⟨rest, -, h⟩ := Option.bind_eq_some_iff.mp h
  split at h
  · cases h
  obtain ⟨text, -, h⟩ := Option.bind_eq_some_iff.mp h
  split at h
  · cases h
    intro hd
    cases hd
  split at h
  · cases h
    intro hd
    cases hd
  · cases h

/-- The response path as a whole. An approval hands back the action that was on hold,
together with all that the protocol asks of a request that continues with it
(`Resumed`). -/
theorem executeHoldResponse_follows (envs : Nat → Env) {humanAction : Action} (holdId : String)
    {decision : HoldDecision} (instruction : Option String) {past : Past}
    (hentry : Entry past humanAction) (hdecision : decision ≠ .timedOut) :
    Follows (executeHoldResponse envs humanAction holdId decision instruction) Answer past := by
  unfold executeHoldResponse
  refine (findActor_follows _ _).bind ?_
  intro past₁ caller ⟨hs₁, hcaller⟩
  refine follows_check_bind ?_
  intro _ hhuman
  refine (findHold_follows _ _).bind ?_
  intro past₂ hold ⟨hs₂, hhold, hwf⟩
  refine follows_check_bind ?_
  intro _ hpending
  refine (refuseTimedOut_follows _ _ _).bind ?_
  intro past₃ _ hs₃
  have hread : Since Op.isRead past past₃ := (hs₁.trans hs₂).trans hs₃
  have hcaller₃ := (hs₂.trans hs₃).saw hcaller
  have hhold₃ := hs₃.saw hhold
  have hentry₃ := hentry.since hread.quiet_of_read
  refine follows_call_bind (ResolveAllowed.intro (envs 0) humanAction holdId decision instruction
    hold caller hcaller₃ (requireHuman_ok hhuman) hhold₃ hwf (requirePending_ok hpending)
    hdecision hentry₃.first_or_agent hentry₃.uncommitted) ?_
  rintro ⟨event, commitment⟩ _
  simp only
  split
  · next happrove =>
    obtain ⟨hpos, hlt⟩ := hwf.reservedCost
    obtain ⟨htarget, hkind, -⟩ := hwf.pendingAction instruction
    exact
      ⟨holdResolveTx (envs 0) humanAction holdId decision instruction hold,
        { approval := if_pos happrove
          agent := rfl
          held := if_pos happrove
          uncommitted := hentry₃.uncommitted
          positive := hpos
          sentinel := holdReservedCost_approvedPayload _ hpos hlt instruction
          approved := holdApproved_approvedPayload _ _ instruction
          hold := ⟨hold, List.mem_cons_of_mem _ hhold₃, rfl, htarget.symm, hkind.symm⟩
          resolver := ⟨caller, List.mem_cons_of_mem _ hcaller₃, requireHuman_ok hhuman⟩
          answered := ⟨_, List.mem_cons_self⟩
          response := ⟨envs 0, humanAction, holdId, instruction, hold, by rw [happrove]⟩ }⟩
  · trivial

/-! ## Requests -/

/-- A submit follows the protocol, as a request of its own and after an approval. The
two differ in what the past says at the start, which is what `Entry` collects. -/
theorem submitAction_follows (envs : Nat → Env) {action : Action} {past : Past}
    (hentry : Entry past action) : Follows (submitAction envs action) Answer past := by
  unfold submitAction
  refine follows_check_bind ?_
  intro _ _
  refine (requireActor_follows _ _).bind ?_
  intro past₁ _ ⟨hs₁, hexists⟩
  refine (authorizeActor_follows _ hexists).bind ?_
  intro past₂ auth ⟨hs₂, hauth⟩
  have hentry₂ := (hentry.since hs₁.quiet_of_read).since hs₂
  split
  · next holdId decision instruction hresponse =>
    exact executeHoldResponse_follows envs holdId instruction hentry₂
      (holdResponse?_decision hresponse)
  · exact commitAction_follows (envs 0) hentry₂ (hs₂.saw hexists) hauth

/-- A checkpoint is made only of events that were counted in this request, and of at
least one. -/
theorem ensureCheckpoint_follows {eventCount : Nat} (now : Nat) {past : Past}
    (hcount : Saw past .countEvents eventCount) :
    Follows (ensureCheckpoint eventCount now) (fun _ _ => True) past := by
  unfold ensureCheckpoint
  split
  · trivial
  next hne =>
  refine follows_call_bind trivial ?_
  intro current _
  split
  · trivial
  · refine follows_call_bind ⟨Nat.pos_of_ne_zero hne, List.mem_cons_of_mem _ hcount⟩ ?_
    intro _ _
    trivial

/-- A proof is asked for at a given size of the tree, or at that of a checkpoint brought
up to date first. -/
theorem proofTreeSize_follows (treeSize : Option Int) (now : Nat) (past : Past) :
    Follows (proofTreeSize treeSize now) (fun _ _ => True) past := by
  cases treeSize with
  | some size => trivial
  | none =>
    refine follows_call_bind trivial ?_
    intro eventCount _
    refine (ensureCheckpoint_follows now List.mem_cons_self).bind ?_
    intro past' _ _
    exact follows_call trivial fun _ _ => trivial

/-- Every request the kernel serves follows the protocol from the empty past. This is
the one fact about programs that the invariants of runs rest on. -/
theorem program_follows (r : Request) : Follows (program r) Answer [] := by
  cases r with
  | quote action =>
    refine follows_check_bind ?_
    intro _ _
    trivial
  | submit envs action => exact submitAction_follows envs (.fresh rfl rfl rfl)
  | auditCheckpoint now =>
    refine follows_call_bind trivial ?_
    intro eventCount _
    refine (ensureCheckpoint_follows now List.mem_cons_self).bind ?_
    intro past' _ _
    refine follows_call_bind trivial ?_
    intro _ _
    trivial
  | snapshot now =>
    refine follows_call_bind trivial ?_
    intro eventCount _
    refine (ensureCheckpoint_follows now List.mem_cons_self).bind ?_
    intro past' _ _
    refine follows_call_bind trivial ?_
    intro _ _
    trivial
  | auditInclusionProof logIndex treeSize now =>
    cases logIndex with
    | none => trivial
    | some logIndex =>
      refine (proofTreeSize_follows treeSize now []).bind ?_
      intro past' size _
      refine follows_call_bind trivial ?_
      intro _ _
      trivial
  | tick energyPerTick =>
    refine follows_call_bind trivial ?_
    intro actors _
    split
    · trivial
    · refine follows_call_bind ⟨actors, rfl⟩ ?_
      intro _ _
      trivial

end PunkgoKernel
