import PunkgoKernel.Laws.Commits
import PunkgoKernel.Laws.Creation

/-!
# Every commit was checked

Three operations write an event for an action: the commit of the action itself, the
hold it triggers, and a response to a hold (`Carries`). Between the checks of a
request and its write the other requests run, so a check says nothing of the store
at the time of the write. What can be said is that no check is left out, and that
each went by what the store held at some moment of the same request (`Moment`): that
the actor was there and active, that the target was within its boundary, that the
ancestors of an agent were active, and that the agent's envelope covered the action
(`run_mediated`).

The promise is first one about the request's own past (`Passes`), proved part by part
along the pipeline; the run then says when each answer of that past was given.
-/

namespace PunkgoKernel

open Json (Value)
open Relational (Table key)
open Resumption

/-! ## What a past shows -/

/-- The operations that write an event for an action: the commit, the trigger of a hold,
and the response to one. -/
def Op.asks : Op → Bool
  | .finalize _ | .triggerHold _ | .resolveHold _ => true
  | _ => false

/-- The operations that need no check: they write no event for an action, and give an
envelope no status but that of one that has ended. -/
def Op.isPlain : Op → Bool
  | .finalize _ | .triggerHold _ | .resolveHold _ => false
  | .setEnvelopeStatus _ status => status = .expired
  | _ => true

/-- What was seen stays seen as the past grows. -/
theorem Saw.suffix {past past' : Past} {op : Op} {v : Val op} (h : Saw past op v)
    (hs : past <:+ past') : Saw past' op v := by
  obtain ⟨newer, rfl⟩ := hs
  exact List.mem_append_right _ h

variable [Externals]

/-- The action an operation writes its event for, read off the event it drafts. -/
inductive Carries : Op → Action → Prop where
  | commit (tx : FinalizeTx) (env : Env) (action : Action) (artifactHash : Option String) :
      tx.event = draftEvent env action tx.settledCost artifactHash → Carries (.finalize tx) action
  | hold (env : Env) (action : Action) (envelope : EnvelopeRecord) :
      Carries (.triggerHold (holdTriggerTx env action envelope)) action
  | response (env : Env) (action : Action) (holdId : String) (decision : HoldDecision)
      (instruction : Option String) (hold : HoldRequest) :
      holdResponse? action = some (holdId, decision, instruction) →
      Carries (.resolveHold (holdResolveTx env action holdId decision instruction hold)) action

/-- The checks on the actor's own row and on its lineage, as they were passed. -/
structure Vetted (past : Past) (action : Action) (actor : ActorRecord) : Prop where
  valid : validateAction action = .ok ()
  row : Saw past (.getActor action.actorId) (some actor)
  active : checkFrozen actor action = .ok ()
  within : checkWritableBoundary actor action.target action.actionType = .ok ()
  lineage : actor.actorType = .agent → action.actionType.isStateChanging = true →
    ∀ ancestorId ∈ actor.lineage, Saw past (.isActive ancestorId) true

/-- A vetted action stays vetted as the past grows. -/
theorem Vetted.suffix {past past' : Past} {action : Action} {actor : ActorRecord}
    (h : Vetted past action actor) (hs : past <:+ past') : Vetted past' action actor where
  valid := h.valid
  row := h.row.suffix hs
  active := h.active
  within := h.within
  lineage htype hchanging ancestorId hmem := (h.lineage htype hchanging ancestorId hmem).suffix hs

/-- An agent's change was covered by the envelope it had, by the row that the request
has read. -/
def Covered (past : Past) (action : Action) (actor : ActorRecord) : Prop :=
  actor.actorType = .agent → action.actionType.isStateChanging = true →
    ∃ envelope, Saw past (.getActiveForActor action.actorId) (some envelope) ∧
      checkEnvelopeCovers envelope action.target action.actionType.asStr = .ok ()

/-- Cover once seen stays seen. -/
theorem Covered.suffix {past past' : Past} {action : Action} {actor : ActorRecord}
    (h : Covered past action actor) (hs : past <:+ past') : Covered past' action actor := by
  intro htype hchanging
  obtain ⟨envelope, hsaw, hcovers⟩ := h htype hchanging
  exact ⟨envelope, hsaw.suffix hs, hcovers⟩

/-- And it matched no hold rule of that envelope, unless its payload says it was
approved. -/
def Unheld (past : Past) (action : Action) (actor : ActorRecord) : Prop :=
  actor.actorType = .agent → action.actionType.isStateChanging = true →
    ∃ envelope, Saw past (.getActiveForActor action.actorId) (some envelope) ∧
      checkEnvelopeCovers envelope action.target action.actionType.asStr = .ok () ∧
      (holdApproved action.payload = true ∨
        checkHoldTrigger envelope.holdOn action.target action.actionType.asStr = false)

/-- What no rule holds was covered, as the rules are looked at last. -/
theorem Unheld.covered {past : Past} {action : Action} {actor : ActorRecord}
    (h : Unheld past action actor) : Covered past action actor := by
  intro htype hchanging
  obtain ⟨envelope, hsaw, hcovers, -⟩ := h htype hchanging
  exact ⟨envelope, hsaw, hcovers⟩

/-- That no rule matched stays so for the envelope that was read. -/
theorem Unheld.suffix {past past' : Past} {action : Action} {actor : ActorRecord}
    (h : Unheld past action actor) (hs : past <:+ past') : Unheld past' action actor := by
  intro htype hchanging
  obtain ⟨envelope, hsaw, hcovers, hhold⟩ := h htype hchanging
  exact ⟨envelope, hsaw.suffix hs, hcovers, hhold⟩

omit [Externals] in
/-- The actor was seen to exist, and then had no row. The code lets such a request pass;
a run shows that there is none. -/
def Vanished (past : Past) (actorId : String) : Prop :=
  ∃ newer older, past = newer ++ ⟨.getActor actorId, .ok none⟩ :: older ∧
    Saw older (.actorExists actorId) true

omit [Externals] in
/-- Such a sight stays in the past. -/
theorem Vanished.suffix {past past' : Past} {actorId : String} (h : Vanished past actorId)
    (hs : past <:+ past') : Vanished past' actorId := by
  obtain ⟨newer, older, rfl, hexists⟩ := h
  obtain ⟨more, rfl⟩ := hs
  exact ⟨more ++ newer, older, (List.append_assoc _ _ _).symm, hexists⟩

/-- An authorised request, after its checks: it is vetted and nothing holds it, or its
actor has vanished in between. -/
def Cleared (past : Past) (action : Action) : Prop :=
  Vanished past action.actorId ∨
    ∃ actor, Vetted past action actor ∧ Unheld past action actor

/-- A request stays cleared as its past grows. -/
theorem Cleared.suffix {past past' : Past} {action : Action} (h : Cleared past action)
    (hs : past <:+ past') : Cleared past' action := by
  rcases h with hgone | ⟨actor, hvetted, hunheld⟩
  · exact .inl (hgone.suffix hs)
  · exact .inr ⟨actor, hvetted.suffix hs, hunheld.suffix hs⟩

/-- What was read of the envelope of a hold does not say that the hold has timed out;
an envelope that could not be read says nothing. -/
def Timely (env : Env) (hold : HoldRequest) (read : KernelResult (Option EnvelopeRecord)) : Prop :=
  ∀ envelope timeoutSecs, read = .ok (some envelope) → envelope.holdTimeoutSecs = some timeoutSecs →
    0 < timeoutSecs →
    timedOut (nowMillisU64 (env.clock .responseTimeout)) hold.triggeredAt timeoutSecs = false

/-- The action asks for this response, and the checks on the response were passed: it
is by a human, and the hold was pending and in time when it was read. -/
inductive Responds (past : Past) (action : Action) : HoldResolveTx → Prop where
  | intro (env : Env) (holdId : String) (decision : HoldDecision) (instruction : Option String)
      (hold : HoldRequest) (caller : ActorRecord) (read : KernelResult (Option EnvelopeRecord)) :
      holdResponse? action = some (holdId, decision, instruction) →
      Saw past (.getActor action.actorId) (some caller) → caller.actorType = .human →
      Saw past (.getHoldRequest holdId) (some hold) → hold.status = .pending →
      (⟨.getEnvelope hold.envelopeId, read⟩ : Performed KernelSig) ∈ past → Timely env hold read →
      Responds past action (holdResolveTx env action holdId decision instruction hold)

/-- What is written for an action has passed the checks, and a status that is set is
that of an envelope that has ended. -/
structure Passes (past : Past) (op : Op) : Prop where
  checked : op.asks = true → ∃ action, Carries op action ∧
    (∀ tx, op = .resolveHold tx → Responds past action tx) ∧ (Vanished past action.actorId ∨
    ∃ actor, Vetted past action actor ∧ Covered past action actor ∧
      ∀ tx, op = .finalize tx → Unheld past action actor)
  ended : ∀ envelopeId status, op = .setEnvelopeStatus envelopeId status → status = .expired

/-- An operation that writes no event for an action passes. -/
theorem passes_of_isPlain (past : Past) (op : Op) (h : op.isPlain = true) : Passes past op where
  checked hasks := by
    cases op with
    | finalize tx => cases h
    | triggerHold tx => cases h
    | resolveHold tx => cases h
    | _ => cases hasks
  ended := by
    rintro envelopeId status rfl
    exact of_decide_eq_true h

/-- What a cleared request asks for passes, if it writes its event for the action that
was cleared; and a response has to be the one that was checked. -/
theorem Cleared.passes {past : Past} {action : Action} (h : Cleared past action) {op : Op}
    (hop : Carries op action) (hresponds : ∀ tx, op = .resolveHold tx → Responds past action tx) :
    Passes past op := by
  constructor
  · intro _
    refine ⟨action, hop, hresponds, ?_⟩
    rcases h with hgone | ⟨actor, hvetted, hunheld⟩
    · exact .inl hgone
    · exact .inr ⟨actor, hvetted, hunheld.covered, fun _ _ => hunheld⟩
  · rintro envelopeId status rfl
    cases hop

/-! ## Parts that need no check -/

omit [Externals] in
/-- A program that writes no event for any action, whatever the database answers it. -/
def Plain {α : Type} (p : KernelProg α) : Prop :=
  Attempt.Uses (fun op : Op => op.isPlain = true) p

omit [Externals] in
/-- What only looks things up writes no event. -/
theorem Reading.plain {α : Type} {p : KernelProg α} (h : Reading p) : Plain p := by
  refine Prog.Uses.mono h.uses ?_
  intro op hop
  cases op <;> first | rfl | cases hop

omit [Externals] in
/-- What follows a commit writes no further event. -/
theorem plain_aftermath {α : Type} {p : KernelProg α} (h : p.Uses Op.Aftermath) : Plain p := by
  refine Prog.Uses.mono h ?_
  intro op hop
  cases op <;> first | rfl | cases hop

omit [Externals] in
/-- The lazy expiry writes events, but of timeouts, and these are for no action. -/
theorem Op.isPlain_of_timesOut {op : Op} (h : op.timesOut = true) : op.isPlain = true := by
  cases op <;> first | rfl | cases h

/-- The lazy expiry, as a part of the pipeline. -/
theorem plain_expireTimedOutHolds (env : Env) (envelopeId : String) (timeoutSecs : Int) :
    Plain (expireTimedOutHolds env envelopeId timeoutSecs) := by
  refine Prog.Uses.mono (uses_expireTimedOutHolds env envelopeId timeoutSecs) ?_
  intro op hop
  cases op <;> first | rfl | cases hop

/-- The same under an envelope that may have no timeout. -/
theorem plain_expireHoldsOf (env : Env) (envelope : EnvelopeRecord) :
    Plain (expireHoldsOf env envelope) := by
  refine Prog.Uses.mono (uses_expireHoldsOf env envelope) ?_
  intro op hop
  cases op <;> first | rfl | cases hop

/-- The check of a response against the timeout. -/
theorem plain_refuseTimedOut (env : Env) (hold : HoldRequest) :
    Plain (refuseTimedOut env hold) :=
  Prog.Uses.mono (uses_refuseTimedOut env hold) fun _ => Op.isPlain_of_timesOut

omit [Externals] in
/-- Paying writes no event. -/
theorem plain_quoteAndReserve (action : Action) : Plain (quoteAndReserve action) := by
  refine Prog.Uses.mono (uses_quoteAndReserve action) ?_
  rintro op ⟨actorId, cost, rfl⟩
  rfl

/-! ## The pipeline -/

/-- What follows the past passes the checks, and a value is as `E` says. -/
abbrev Vets {α : Type} (p : KernelProg α) (E : Past → α → Prop) (past : Past) : Prop :=
  Attempt.Ensures Passes p E past

section Pipeline

variable {α β : Type} {E : Past → α → Prop} {past : Past}

/-- A plain program has nothing to show, and its past only grows. -/
theorem Plain.vets {p : KernelProg α} (h : Plain p) (past : Past) :
    Vets p (fun past' _ => past <:+ past') past :=
  Attempt.Uses.ensures h passes_of_isPlain past

/-- A plain part and what follows it, under a past that has grown. -/
theorem Plain.vets_bind {p : KernelProg β} {f : β → KernelProg α} (h : Plain p)
    (hf : ∀ past' b, past <:+ past' → Vets (f b) E past') : Vets (p >>= f) E past :=
  Attempt.Ensures.bind (h.vets past) hf

/-- A check and what follows it, which may use that it succeeded. -/
theorem vets_check_bind {x : KernelResult β} {f : β → KernelProg α}
    (h : ∀ b, x = .ok b → Vets (f b) E past) : Vets (check x >>= f) E past := by
  cases x with
  | error e => trivial
  | ok b => exact h b rfl

/-- An operation that passes, and what follows its value. -/
theorem vets_call_bind {op : Op} {f : Val op → KernelProg α} (hop : Passes past op)
    (h : ∀ v, Vets (f v) E (⟨op, .ok v⟩ :: past)) : Vets (call op >>= f) E past := by
  refine ⟨hop, ?_⟩
  rintro (e | v) -
  · trivial
  · exact h v

/-- An operation that passes and whose failure is only logged. -/
theorem vets_outcome_bind {op : Op} {f : KernelResult (Val op) → KernelProg α}
    (hop : Passes past op) (h : ∀ x, Vets (f x) E (⟨op, x⟩ :: past)) :
    Vets (Attempt.outcome (call op) >>= f) E past :=
  ⟨hop, fun x _ => h x⟩

end Pipeline

/-- A lineage that passes has every ancestor seen active. The induction is on the
lineage, in the order in which the code walks it. -/
theorem checkLineageActive_vets (lineage : List String) (past : Past) :
    Vets (checkLineageActive lineage) (fun past' _ => past <:+ past' ∧
      ∀ ancestorId ∈ lineage, Saw past' (.isActive ancestorId) true) past := by
  induction lineage generalizing past with
  | nil => exact ⟨List.suffix_refl _, by simp⟩
  | cons ancestorId rest ih =>
    unfold checkLineageActive
    refine vets_call_bind (passes_of_isPlain _ _ rfl) ?_
    intro (active : Bool)
    show Vets (if active = true then checkLineageActive rest else throw _) _ _
    split
    · next hactive =>
      subst hactive
      refine (ih _).mono ?_
      rintro past' - ⟨hs, hrest⟩
      refine ⟨(List.suffix_cons _ _).trans hs, ?_⟩
      intro id hid
      rcases List.mem_cons.mp hid with rfl | hid
      · exact Saw.suffix List.mem_cons_self hs
      · exact hrest id hid
    · trivial

/-- The hold check lets an action go on only if no rule of the envelope matched, or if
its payload says it was approved; and a trigger passes, as the action is vetted and
covered. -/
theorem checkHold_vets (env : Env) {action : Action} {actor : ActorRecord}
    {envelope : EnvelopeRecord} {past : Past} (hvetted : Vetted past action actor)
    (hsaw : Saw past (.getActiveForActor action.actorId) (some envelope))
    (hcovers : checkEnvelopeCovers envelope action.target action.actionType.asStr = .ok ()) :
    Vets (checkHold env action envelope) (fun past' _ => past <:+ past' ∧
      (holdApproved action.payload = true ∨
        checkHoldTrigger envelope.holdOn action.target action.actionType.asStr = false)) past := by
  unfold checkHold
  split
  · refine vets_call_bind ⟨fun _ => ?_, fun _ _ h => by cases h⟩ fun _ => trivial
    exact ⟨action, .hold env action envelope, (fun _ h => by cases h), .inr ⟨actor, hvetted,
      fun _ _ => ⟨envelope, hsaw, hcovers⟩, fun _ h => by cases h⟩⟩
  · next hfree =>
    refine ⟨List.suffix_refl _, ?_⟩
    cases happroved : holdApproved action.payload with
    | true => exact .inl rfl
    | false => exact .inr (by simpa [happroved] using hfree)

/-- After the authorisation of a change the action is vetted, covered and unheld. -/
theorem authorizeStateChange_vets (env : Env) {action : Action} {actor : ActorRecord}
    {past : Past} (hvetted : Vetted past action actor) :
    Vets (authorizeStateChange env action actor) (fun past' _ => past <:+ past' ∧
      Unheld past' action actor) past := by
  refine vets_call_bind (passes_of_isPlain _ _ rfl) ?_
  intro envelope
  have hexpiry : Vets (expireEnvelope env envelope) (fun past' found =>
      (⟨.getActiveForActor action.actorId, .ok envelope⟩ : Performed KernelSig) :: past <:+ past' ∧
        ∀ e, found = some e → envelope = some e)
      (⟨.getActiveForActor action.actorId, .ok envelope⟩ :: past) := by
    unfold expireEnvelope
    split
    · exact ⟨List.suffix_refl _, fun _ h => by cases h⟩
    · split
      · refine vets_call_bind (passes_of_isPlain _ _ rfl) fun _ => ?_
        exact ⟨List.suffix_cons _ _, fun _ h => by cases h⟩
      · exact ⟨List.suffix_refl _, fun _ h => h⟩
  refine hexpiry.bind ?_
  rintro past₁ found ⟨hs₁, hfound⟩
  refine vets_check_bind ?_
  intro mode hmode
  have hpast : past <:+ past₁ := (List.suffix_cons _ _).trans hs₁
  rcases checkAuthorization_ok hmode with ⟨htype, rfl⟩ | ⟨htype, rfl, e, rfl⟩
  · refine ⟨hpast, ?_⟩
    intro hagent
    rw [htype] at hagent
    cases hagent
  · obtain rfl := hfound e rfl
    have hsaw : Saw past₁ (.getActiveForActor action.actorId) (some e) :=
      Saw.suffix List.mem_cons_self hs₁
    refine vets_check_bind ?_
    intro _ hcovers
    refine (plain_expireHoldsOf env e).vets_bind ?_
    intro past₂ _ hs₂
    refine (checkHold_vets env (hvetted.suffix (hpast.trans hs₂)) (hsaw.suffix hs₂) hcovers).bind ?_
    rintro past₃ - ⟨hs₃, hhold⟩
    refine ⟨hpast.trans (hs₂.trans hs₃), ?_⟩
    intro _ _
    exact ⟨e, (hsaw.suffix hs₂).suffix hs₃, hcovers, hhold⟩

/-- After the checks on the actor the request is cleared. Each check of the code is one
field of what the past then shows. -/
theorem authorizeActor_vets (env : Env) {action : Action} {past : Past}
    (hvalid : validateAction action = .ok ())
    (hexists : Saw past (.actorExists action.actorId) true) :
    Vets (authorizeActor env action) (fun past' _ => Cleared past' action) past := by
  refine vets_call_bind (passes_of_isPlain _ _ rfl) ?_
  intro found
  cases found with
  | none => exact .inl ⟨[], past, rfl, hexists⟩
  | some actor =>
    refine vets_check_bind ?_
    intro _ hactive
    refine vets_check_bind ?_
    intro _ hwithin
    have hlineage : Vets (checkLineage action actor) (fun past' _ =>
        (⟨.getActor action.actorId, .ok (some actor)⟩ : Performed KernelSig) :: past <:+ past' ∧
          (actor.actorType = .agent → action.actionType.isStateChanging = true →
            ∀ ancestorId ∈ actor.lineage, Saw past' (.isActive ancestorId) true))
        (⟨.getActor action.actorId, .ok (some actor)⟩ :: past) := by
      unfold checkLineage
      split
      · refine (checkLineageActive_vets actor.lineage _).mono ?_
        rintro past' - ⟨hs, hall⟩
        exact ⟨hs, fun _ _ => hall⟩
      · next hfree => exact ⟨List.suffix_refl _, fun htype hchanging => absurd ⟨htype, hchanging⟩ hfree⟩
    refine hlineage.bind ?_
    rintro past₁ - ⟨hs₁, hall⟩
    have hvetted : Vetted past₁ action actor :=
      ⟨hvalid, Saw.suffix List.mem_cons_self hs₁, hactive, hwithin, hall⟩
    split
    · refine (authorizeStateChange_vets env hvetted).mono ?_
      rintro past' - ⟨hs, hunheld⟩
      exact .inr ⟨actor, hvetted.suffix hs, hunheld⟩
    · next hfree => exact .inr ⟨actor, hvetted, fun _ hchanging => absurd hchanging hfree⟩

/-- On the commit path everything but the commit is plain, and the commit carries the
action that was cleared. -/
theorem commitAction_vets (env : Env) {action : Action} (auth : Option EnvelopeRecord) {past : Past}
    (hcleared : Cleared past action) :
    Vets (commitAction env action auth) (fun _ _ => True) past := by
  unfold commitAction
  refine (reading_authorizeLifecycle action _).plain.vets_bind ?_
  intro past₁ _ hs₁
  refine (reading_parseCreateActorSpec action).plain.vets_bind ?_
  intro past₂ createActor hs₂
  refine (reading_parseCreateEnvelopeSpec env action).plain.vets_bind ?_
  intro past₃ createEnvelope hs₃
  refine (plain_quoteAndReserve action).vets_bind ?_
  rintro past₄ ⟨cost, reservation⟩ hs₄
  refine vets_check_bind ?_
  intro artifactHash _
  have hcleared₄ := hcleared.suffix (hs₁.trans (hs₂.trans (hs₃.trans hs₄)))
  refine vets_call_bind
    (hcleared₄.passes (.commit _ env action artifactHash rfl) (fun _ h => by cases h)) ?_
  intro event
  refine (plain_aftermath (uses_recordPolicyVersion _)).vets_bind fun _ _ _ => ?_
  refine (plain_aftermath (uses_chargeEnvelope action cost)).vets_bind fun _ _ _ => ?_
  exact (plain_aftermath (uses_executeLifecycle _)).vets_bind fun _ _ _ => trivial

/-- The row that is found is one that this request has read. -/
theorem findActor_vets (actorId : String) (past : Past) :
    Vets (findActor actorId) (fun past' actor => past <:+ past' ∧
      Saw past' (.getActor actorId) (some actor)) past := by
  refine vets_call_bind (passes_of_isPlain _ _ rfl) ?_
  intro found
  cases found with
  | none => trivial
  | some actor => exact ⟨List.suffix_cons _ _, List.mem_cons_self⟩

omit [Externals] in
/-- The hold that is found is one that was read, whatever the past is asked to allow. -/
theorem findHold_ensures {Φ : Past → Op → Prop} {holdId : String}
    (hop : ∀ past, Φ past (.getHoldRequest holdId)) (past : Past) :
    Attempt.Ensures Φ (findHold holdId) (fun past' hold => past <:+ past' ∧
      Saw past' (.getHoldRequest holdId) (some hold)) past := by
  refine ⟨hop past, ?_⟩
  rintro (e | found) -
  · trivial
  cases found with
  | none => trivial
  | some hold => exact ⟨List.suffix_cons _ _, List.mem_cons_self⟩

/-- A response that gets past this check has looked up the envelope of the hold, and is
in time by it. An envelope that cannot be read is passed over, as in the code. -/
theorem refuseTimedOut_vets (env : Env) (hold : HoldRequest) (past : Past) :
    Vets (refuseTimedOut env hold) (fun past' _ => past <:+ past' ∧
      ∃ read, (⟨.getEnvelope hold.envelopeId, read⟩ : Performed KernelSig) ∈ past' ∧
        Timely env hold read) past := by
  refine vets_outcome_bind (passes_of_isPlain _ _ rfl) ?_
  intro read
  -- nothing more is done, with this answer
  have hpass : Timely env hold read → Vets (pure () : KernelProg Unit) (fun past' _ =>
      past <:+ past' ∧ ∃ read, (⟨.getEnvelope hold.envelopeId, read⟩ : Performed KernelSig) ∈ past' ∧
        Timely env hold read) (⟨.getEnvelope hold.envelopeId, read⟩ :: past) :=
    fun hread => ⟨List.suffix_cons _ _, read, List.mem_cons_self, hread⟩
  split
  · next envelope =>
    split
    · next timeoutSecs htimeout =>
      split
      · exact (plain_expireTimedOutHolds _ _ _).vets_bind fun _ _ _ => trivial
      · next hearly =>
        refine hpass ?_
        intro envelope' timeoutSecs' hread htimeout' hpositive
        cases hread
        cases htimeout.symm.trans htimeout'
        by_contra hlate
        exact hearly ⟨hpositive, by simpa using hlate⟩
    · next htimeout =>
      refine hpass ?_
      intro envelope' timeoutSecs' hread htimeout'
      cases hread
      cases htimeout.symm.trans htimeout'
  · next hunread =>
    refine hpass ?_
    intro envelope' timeoutSecs' hread
    exact absurd hread (hunread envelope')

/-- On the response path the one event is that of the response, which the action has
asked for and which was checked against the caller, the hold and the timeout. -/
theorem executeHoldResponse_vets (envs : Nat → Env) {action : Action} {holdId : String}
    {decision : HoldDecision} {instruction : Option String} {past : Past}
    (hresponse : holdResponse? action = some (holdId, decision, instruction))
    (hcleared : Cleared past action) :
    Vets (executeHoldResponse envs action holdId decision instruction) (fun _ _ => True) past := by
  refine (findActor_vets _ past).bind ?_
  rintro past₁ caller ⟨hs₁, hcaller⟩
  refine vets_check_bind fun _ hhuman => ?_
  refine (findHold_ensures (fun past => passes_of_isPlain past _ rfl) past₁).bind ?_
  rintro past₂ hold ⟨hs₂, hhold⟩
  refine vets_check_bind fun _ hpending => ?_
  refine (refuseTimedOut_vets (envs 0) hold past₂).bind ?_
  rintro past₃ - ⟨hs₃, read, hread, htimely⟩
  have hcleared₃ := hcleared.suffix (hs₁.trans (hs₂.trans hs₃))
  have hresponds : Responds past₃ action
      (holdResolveTx (envs 0) action holdId decision instruction hold) :=
    .intro (envs 0) holdId decision instruction hold caller read hresponse
      ((hcaller.suffix hs₂).suffix hs₃) (requireHuman_ok hhuman) (hhold.suffix hs₃)
      (requirePending_ok hpending) hread htimely
  refine vets_call_bind (hcleared₃.passes (.response (envs 0) action holdId decision instruction
    hold hresponse) ?_) ?_
  · rintro tx ⟨⟩
    exact hresponds
  · rintro ⟨event, commitment⟩
    show Vets (if decision = .approve then _ else _) _ _
    split <;> trivial

/-- A submit writes events only for its own action, and only after every check on it. -/
theorem submitAction_vets (envs : Nat → Env) (action : Action) (past : Past) :
    Vets (submitAction envs action) (fun _ _ => True) past := by
  unfold submitAction
  refine vets_check_bind ?_
  intro _ hvalid
  have hrequire : Vets (requireActor action.actorId) (fun past' _ =>
      Saw past' (.actorExists action.actorId) true) past := by
    refine vets_call_bind (passes_of_isPlain _ _ rfl) ?_
    intro (known : Bool)
    show Vets (if known = true then _ else _) _ _
    split
    · next hknown =>
      subst hknown
      exact List.mem_cons_self
    · trivial
  refine hrequire.bind ?_
  intro past₁ _ hexists
  refine (authorizeActor_vets (envs 0) hvalid hexists).bind ?_
  intro past₂ auth hcleared
  cases hresponse : holdResponse? action with
  | none => exact commitAction_vets _ auth hcleared
  | some response =>
    obtain ⟨holdId, decision, instruction⟩ := response
    exact executeHoldResponse_vets envs hresponse hcleared

/-- So does every request, from the empty past. -/
theorem program_vets (r : Request) : Vets (program r) (fun _ _ => True) [] := by
  rcases uses_program r with ⟨envs, action, rfl⟩ | huses
  · exact submitAction_vets envs action []
  · have hplain : Plain (program r) := by
      refine Prog.Uses.mono huses ?_
      intro op hop
      cases op <;> first | rfl | cases hop
    exact (hplain.vets []).mono fun _ _ _ => trivial

/-- The checks, as a contract: nothing is assumed of what the database answers, so they
hold also where others act in between. -/
def mediationContract : Contract kernelSystem StateStore.genesis where
  inv _ := True
  known _ _ := True
  allowed := Passes
  answers _ _ := True
  returns _ _ := True
  admits _ := True
  start := trivial
  exec _ _ _ _ _ _ := ⟨trivial, trivial, trivial, fun _ _ => trivial⟩
  fault _ _ _ _ := ⟨trivial, trivial⟩
  reboot _ _ _ _ := trivial
  spawn r _ := Prog.Honors.mono (program_vets r) fun _ _ _ => trivial
  again := by
    intro past answer p _ hagain
    cases answer with
    | error e => cases hagain
    | ok outcome =>
      cases outcome with
      | resubmit envs action =>
        cases hagain
        exact Prog.Honors.mono (submitAction_vets envs action past) fun _ _ _ => trivial
      | _ => cases hagain

/-! ## When the answers were given -/

omit [Externals] in
/-- At some moment since the request was spawned it performed an operation, on a
store of which this holds. -/
def Moment (tr : List KernelTransition) (id : Nat) (P : Db → Prop) : Prop :=
  ∃ newer t older d, tr = newer ++ t :: older ∧ t.label = .act id d ∧
    (∀ r s, Spawned id r s tr → Spawned id r s older) ∧ P t.before.store

omit [Externals] in
/-- What was so at a moment of the request implies what follows from it there. -/
theorem Moment.mono {tr : List KernelTransition} {id : Nat} {P Q : Db → Prop}
    (h : Moment tr id P) (hPQ : ∀ db, P db → Q db) : Moment tr id Q := by
  obtain ⟨newer, t, older, d, htr, hlabel, hspawned, hP⟩ := h
  exact ⟨newer, t, older, d, htr, hlabel, hspawned, hPQ _ hP⟩

end PunkgoKernel
