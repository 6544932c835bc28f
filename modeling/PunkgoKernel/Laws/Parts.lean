import PunkgoKernel.Laws.Follows

/-!
# What the parts of the pipeline can ask for

Most laws need of a part of the pipeline only which operations it can ask for:
the loop over the timed-out holds, the checkpoint a read brings up to date, a
request that is no submit. Each part is walked through once, here, with its own
operations; a law that asks for less says so of those operations, by
`Prog.Uses.mono`.
-/

namespace PunkgoKernel

open Resumption

variable [Externals]

omit [Externals] in
/-- A single operation of the class. -/
theorem uses_call {Q : Op → Prop} {op : Op} (h : Q op) : (call op).Uses Q :=
  ⟨h, fun _ => trivial⟩

omit [Externals] in
/-- A part that only looks things up asks for nothing else, whatever it is told. -/
theorem Reading.uses {α : Type} {p : KernelProg α} (h : Reading p) :
    Attempt.Uses (fun op : Op => op.looksUp = true) p := by
  induction p with
  | ret x => trivial
  | vis op k ih => exact ⟨h.1, fun x => ih x (h.2.2 x)⟩

omit [Externals] in
/-- The payment of an action asks at most for the reservation of its quote. -/
theorem uses_quoteAndReserve (action : Action) :
    (quoteAndReserve action).Uses fun op : Op => ∃ actorId cost, op = .reserve actorId cost := by
  unfold quoteAndReserve
  split
  · trivial
  · show Attempt.Uses _ (if _ then _ else _)
    split
    · exact (uses_call ⟨_, _, rfl⟩).bind fun _ => trivial
    · trivial

/-! ## The holds that time out -/

/-- What holds of nothing to do, and of a timeout followed by what it holds of,
holds of the loop over the listed holds. -/
theorem expireListed_induction {P : KernelProg Unit → Prop} (done : P (pure ()))
    (settle : ∀ tx rest, P rest → P (call (.expireHold tx) >>= fun _ => rest))
    (env : Env) (timeoutSecs : Int) (round : Nat) (holds : List HoldRequest) :
    P (expireListed env timeoutSecs round holds) := by
  induction holds generalizing round with
  | nil => exact done
  | cons hold rest ih =>
    unfold expireListed
    split
    · exact settle _ _ (ih (round + 1))
    · exact ih (round + 1)

/-- The operations of the lazy expiry: the listing, and the timeouts. No other part of a
request asks for either. -/
def Op.expires : Op → Bool
  | .listPendingHoldsForEnvelope _ | .expireHold _ => true
  | _ => false

omit [Externals] in
/-- A single operation of the lazy expiry. -/
theorem expires_call {op : Op} (h : op.expires = true) :
    (call op).Uses fun op : Op => op.expires = true := uses_call h

/-- The lazy expiry lists once and then times out hold after hold. -/
theorem uses_expireTimedOutHolds (env : Env) (envelopeId : String) (timeoutSecs : Int) :
    (expireTimedOutHolds env envelopeId timeoutSecs).Uses fun op : Op => op.expires = true := by
  refine (expires_call rfl).bind fun holds => ?_
  exact expireListed_induction (P := Attempt.Uses fun op : Op => op.expires = true) trivial
    (fun _ _ hrest => (expires_call rfl).bind fun _ => hrest) env timeoutSecs 0 holds

/-- Under an envelope without a timeout not even that. -/
theorem uses_expireHoldsOf (env : Env) (envelope : EnvelopeRecord) :
    (expireHoldsOf env envelope).Uses fun op : Op => op.expires = true := by
  unfold expireHoldsOf
  split
  · split
    · exact uses_expireTimedOutHolds _ _ _
    · trivial
  · trivial

/-- The operations of a response that may have come too late: the lazy expiry,
and the envelope that says how long its holds wait. -/
def Op.timesOut : Op → Bool
  | .getEnvelope _ => true
  | op => op.expires

/-- A response to a late hold looks at the envelope, has the late holds timed out, and
ends. -/
theorem uses_refuseTimedOut (env : Env) (hold : HoldRequest) :
    (refuseTimedOut env hold).Uses fun op : Op => op.timesOut = true := by
  have hread : (call (.getEnvelope hold.envelopeId)).Uses fun op : Op => op.timesOut = true :=
    uses_call rfl
  refine hread.outcome.bind fun found => ?_
  split
  · split
    · split
      · refine Attempt.Uses.bind (Prog.Uses.mono (uses_expireTimedOutHolds _ _ _) ?_) fun _ => trivial
        intro op hop
        cases op <;> first | rfl | cases hop
      · trivial
    · trivial
  · trivial

/-! ## Requests that are no submits -/

/-- The operations of the reads that keep the checkpoint up to date, and of the
ticks. -/
def Op.upkeeps : Op → Bool
  | .countEvents | .treeSize | .makeCheckpoint .. | .latestCheckpoint | .inclusionProof ..
  | .listActiveWithShares | .creditAll _ => true
  | _ => false

omit [Externals] in
/-- A single operation of the upkeep of checkpoints. -/
theorem upkeep_call {op : Op} (h : op.upkeeps = true) :
    (call op).Uses fun op : Op => op.upkeeps = true := uses_call h

omit [Externals] in
/-- Bringing the checkpoints up to date compares two counts and makes at most one
checkpoint. -/
theorem uses_ensureCheckpoint (eventCount now : Nat) :
    (ensureCheckpoint eventCount now).Uses fun op : Op => op.upkeeps = true := by
  unfold ensureCheckpoint
  split
  · trivial
  · refine (upkeep_call rfl).bind fun current => ?_
    split
    · trivial
    · exact (upkeep_call rfl).bind fun _ => trivial

omit [Externals] in
/-- The size of the tree for a proof takes the same upkeep, if the client names none. -/
theorem uses_proofTreeSize (treeSize : Option Int) (now : Nat) :
    (proofTreeSize treeSize now).Uses fun op : Op => op.upkeeps = true := by
  cases treeSize with
  | some size => trivial
  | none =>
    refine (upkeep_call rfl).bind fun eventCount => ?_
    exact (uses_ensureCheckpoint _ now).bind fun _ => upkeep_call rfl

/-- A request is a submit, or asks only for upkeep. For a property of operations it is
then enough to go through the submit. -/
theorem uses_program (r : Request) : (∃ envs action, r = .submit envs action) ∨
    Attempt.Uses (fun op : Op => op.upkeeps = true) (program r) := by
  cases r with
  | submit envs action => exact .inl ⟨envs, action, rfl⟩
  | quote action => exact .inr (Attempt.Uses.bind trivial fun _ => trivial)
  | auditCheckpoint now =>
    refine .inr ((upkeep_call rfl).bind fun eventCount => ?_)
    refine (uses_ensureCheckpoint eventCount now).bind fun _ => ?_
    exact (upkeep_call rfl).bind fun _ => trivial
  | snapshot now =>
    refine .inr ((upkeep_call rfl).bind fun eventCount => ?_)
    refine (uses_ensureCheckpoint eventCount now).bind fun _ => ?_
    exact (upkeep_call rfl).bind fun _ => trivial
  | auditInclusionProof logIndex treeSize now =>
    cases logIndex with
    | none => exact .inr trivial
    | some logIndex =>
      refine .inr ((uses_proofTreeSize treeSize now).bind fun size => ?_)
      exact (upkeep_call rfl).bind fun _ => trivial
  | tick energyPerTick =>
    refine .inr ?_
    show Attempt.Uses _ (produceTick doubles energyPerTick)
    unfold produceTick
    refine (upkeep_call rfl).bind ?_
    intro (actors : List (String × ℚ))
    show Attempt.Uses _ (if _ then _ else _)
    split
    · trivial
    · exact (upkeep_call rfl).bind fun _ => trivial

end PunkgoKernel
