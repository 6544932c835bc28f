import PunkgoKernel.Core.Actor

/-!
# Consent: envelopes and holds (`consent.rs`)

An agent acts under an envelope: a budget, target patterns, action types, an
optional deadline and the rules that put a matching action on hold for a human
to decide. The checks here are pure; the store and the pipeline decide when
each is made and on which row.
-/

namespace PunkgoKernel

/-- Who stands behind an action: a human acts for itself, and an agent under an
envelope. -/
inductive AuthorizationMode where
  | manInTheLoop
  | manOnTheLoop
deriving DecidableEq

/-- The states of an envelope. Only active ones authorise, and none becomes active
again. -/
inductive EnvelopeStatus where
  | active
  | expired
  | revoked
deriving DecidableEq

/-- The text that the status column has. -/
def EnvelopeStatus.asStr : EnvelopeStatus → String
  | .active => "active"
  | .expired => "expired"
  | .revoked => "revoked"

/-- What a charge says of how far an envelope has been used. -/
inductive CheckpointLevel where
  | report
  | halt
deriving DecidableEq

/-- A rule that puts a matching action on hold: a pattern, and the actions it is
about. -/
structure HoldRule where
  target : String
  actions : List String
deriving DecidableEq

/-- What a grant asks for, after the defaults were filled in and the checks were
passed. -/
structure EnvelopeSpec where
  actorId : String
  grantorId : String
  budget : Int
  targets : List String
  actions : List String
  durationSecs : Option Int
  reportEvery : Option Int
  holdOn : List HoldRule
  holdTimeoutSecs : Option Int
deriving DecidableEq

/-- A row of the `envelopes` table. The time columns hold the decimal text of a
number of milliseconds, which is what is carried; `created_at` is compared as
text (`textBefore`). `last_report_at` and `updated_at` are written and never
read. -/
structure EnvelopeRecord where
  envelopeId : String
  actorId : String
  grantorId : String
  parentEnvelopeId : Option String
  budget : Int
  budgetConsumed : Int
  targets : List String
  actions : List String
  durationSecs : Option Int
  reportEvery : Option Int
  holdOn : List HoldRule
  holdTimeoutSecs : Option Int
  status : EnvelopeStatus
  createdAt : Nat
  expiresAt : Option Nat
deriving DecidableEq

/-! ## Authorization -/

/-- The mode, by the actor's type alone. -/
def determineAuthorizationMode (actor : ActorRecord) : AuthorizationMode :=
  match actor.actorType with
  | .human => .manInTheLoop
  | .agent => .manOnTheLoop

/-- An agent needs an active envelope, and a human needs nothing. -/
def checkAuthorization (actor : ActorRecord) (envelope : Option EnvelopeRecord) :
    KernelResult AuthorizationMode :=
  match determineAuthorizationMode actor with
  | .manInTheLoop => .ok .manInTheLoop
  | .manOnTheLoop =>
    match envelope with
    | none => .error (.authorizationRequired
        s!"agent {actor.actorId} requires an active envelope to perform state-changing actions (PIP-001 §11)")
    | some env =>
      if env.status ≠ .active then
        let status := env.status.asStr
        .error (.authorizationRequired
          s!"agent {actor.actorId} envelope {env.envelopeId} is {status} (not active)")
      else .ok .manOnTheLoop

variable [Externals]

/-- Whether an action matches one of the hold rules, by its target and its type. -/
def checkHoldTrigger (holdOn : List HoldRule) (target actionType : String) : Bool :=
  holdOn.any fun rule => globMatch rule.target target && rule.actions.any (· = actionType)

/-- Whether an envelope covers an action: its type, its target, and a budget
that is not used up. The cost of the action is not looked at. -/
def checkEnvelopeCovers (env : EnvelopeRecord) (target action : String) : KernelResult Unit :=
  if !env.actions.any (· = action) then
    let allowed := Externals.debugStrings env.actions
    .error (.authorizationRequired
      s!"envelope {env.envelopeId} does not permit action '{action}' (allowed: {allowed})")
  else if !env.targets.any (fun pattern => globMatch pattern target) then
    let allowed := Externals.debugStrings env.targets
    .error (.authorizationRequired
      s!"envelope {env.envelopeId} does not cover target '{target}' (allowed patterns: {allowed})")
  else if env.budget - env.budgetConsumed ≤ 0 then
    .error (.authorizationRequired
      s!"envelope {env.envelopeId} budget exhausted (budget={env.budget}, consumed={env.budgetConsumed})")
  else .ok ()

omit [Externals] in
/-- The checkpoint due after consuming: halt when the budget is used up, report
when a multiple of the reporting interval is crossed. -/
def checkCheckpoint (env : EnvelopeRecord) (newConsumed : Int) : Option CheckpointLevel :=
  let totalConsumed := env.budgetConsumed + newConsumed
  if totalConsumed ≥ env.budget then some .halt
  else
    match env.reportEvery with
    | some interval =>
      if 0 < interval ∧ totalConsumed.tdiv interval > env.budgetConsumed.tdiv interval then
        some .report
      else none
    | none => none

/-- The child's actions are the parent's, of which the first that is not ends the check
with its name. -/
def reduceActions (parent : EnvelopeRecord) : List String → KernelResult Unit
  | [] => .ok ()
  | a :: rest =>
    if parent.actions.any (· = a) then reduceActions parent rest
    else
      let allowed := Externals.debugStrings parent.actions
      .error (.authorizationRequired
        s!"child envelope action '{a}' not in parent actions {allowed} (PIP-001 §11)")

/-- Each of the child's targets is covered by one of the parent's. -/
def reduceTargets (parent : EnvelopeRecord) : List String → KernelResult Unit
  | [] => .ok ()
  | t :: rest =>
    if parent.targets.any (fun p => globMatch p t || p = "**" || p = t) then
      reduceTargets parent rest
    else
      let allowed := Externals.debugStrings parent.targets
      .error (.authorizationRequired
        s!"child envelope target '{t}' not covered by parent targets {allowed} (PIP-001 §11)")

/-- The comparison of a grant with the envelope of the grantor: budget, targets,
actions. Neither hold rules nor the deadline are compared. -/
def validateEnvelopeReduction (parent : EnvelopeRecord) (child : EnvelopeSpec) :
    KernelResult Unit :=
  let parentRemaining := parent.budget - parent.budgetConsumed
  if child.budget > parentRemaining then
    .error (.authorizationRequired
      s!"child envelope budget {child.budget} exceeds parent remaining {parentRemaining} (PIP-001 §11)")
  else do
    reduceActions parent child.actions
    reduceTargets parent child.targets

omit [Externals] in
/-- Expiry by time, as of the clock of the request. -/
def isEnvelopeExpired (env : EnvelopeRecord) (nowMillis : Nat) : Bool :=
  match env.expiresAt with
  | some expiresMs => expiresMs ≤ nowMillis
  | none => false

end PunkgoKernel
