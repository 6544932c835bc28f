import PunkgoKernel.State.Store

/-!
# What a payload asks for (`kernel.rs`, `lifecycle.rs`)

The parts of a submit that only look at the action: which special operation it
is, whether an execute payload is complete, and what the sentinels that the
approval of a hold writes into a payload say. The sentinels are ordinary
payload fields, and a client can write them too.
-/

namespace PunkgoKernel

open Json (Value)

/-! ## Sentinels -/

/-- `_hold_approved`: with this field true the action skips the hold check, whoever
wrote it. -/
def holdApproved (payload : Value) : Bool :=
  ((payload.get? "_hold_approved").bind Value.asBool?).getD false

/-- `_hold_reserved_cost`: energy already reserved for the action, so that it is neither
quoted nor reserved again. Any integer a client writes there is taken for it. -/
def holdReservedCost (payload : Value) : Option Int :=
  (payload.get? "_hold_reserved_cost").bind Value.asI64?

/-! ## Execute payloads -/

/-- `is_ascii_hexdigit`: a digit of either case. -/
def isAsciiHexdigit (c : Char) : Bool := (hexValue c).isSome

/-- A field of the form `sha256:` and 64 hexadecimal digits. The length is the
number of bytes. -/
def requireValidOid (payload : Value) (field : String) : KernelResult String :=
  match (payload.get? field).bind Value.asStr? with
  | none => .error (.executePayloadInvalid s!"missing {field}")
  | some val =>
    if ¬ "sha256:".toList.isPrefixOf val.toList ∨ val.utf8ByteSize ≠ 71 then
      .error (.executePayloadInvalid s!"{field} must be sha256:<64 hex chars>, got: {val}")
    else if ¬ (val.toList.drop 7).all isAsciiHexdigit then
      .error (.executePayloadInvalid s!"{field} contains non-hex characters: {val}")
    else .ok val

/-- The artifact hash of a complete execute payload: the three object ids have the form
they must, and the exit code is an integer. -/
def validateExecutePayload (payload : Value) : KernelResult String := do
  let _ ← requireValidOid payload "input_oid"
  let _ ← requireValidOid payload "output_oid"
  if ((payload.get? "exit_code").bind Value.asI64?).isNone then
    .error (.executePayloadInvalid "missing or invalid exit_code (must be integer)")
  else requireValidOid payload "artifact_hash"

/-- The artifact hash of an action: only execute actions have one. -/
def artifactHashOf (action : Action) : KernelResult (Option String) :=
  if action.actionType = .execute then do
    let artifactHash ← validateExecutePayload action.payload
    .ok (some artifactHash)
  else .ok none

/-! ## Special operations -/

/-- The version of the policy that a create on `system/policy` names. -/
def parsePolicyVersion (action : Action) : Option String :=
  if action.actionType ≠ .create ∨ action.target ≠ "system/policy" then none
  else (action.payload.get? "version").bind Value.asStr?

/-- A decision on a hold: `mutate` on `ledger/hold/<hold_id>`, with a decision that is
one of the two and an instruction, if any. Whatever does not parse is an ordinary
action. -/
def parseHoldResponse (target : String) (payload : Value) :
    Option (String × HoldDecision × Option String) := do
  let rest ← stripPrefix "ledger/hold/" target
  if rest = "" ∨ '/' ∈ rest.toList then none
  else
    let decision ← (payload.get? "decision").bind Value.asStr?
    let instruction := (payload.get? "instruction").bind Value.asStr?
    if decision = "approve" then some (rest, .approve, instruction)
    else if decision = "reject" then some (rest, .reject, instruction)
    else none

/-- The hold response an action is, if it is one: only a mutate can be. -/
def holdResponse? (action : Action) : Option (String × HoldDecision × Option String) :=
  if action.actionType = .mutate then parseHoldResponse action.target action.payload else none

/-- A lifecycle operation: `mutate` on `actor/<actor_id>` with an `op` that is one of
the four. An op that is none of them leaves an ordinary action. -/
def parseLifecycleOp (target : String) (payload : Value) : Option (String × LifecycleOp) := do
  let actorId ← stripPrefix "actor/" target
  if actorId = "" then none
  else
    let opStr ← (payload.get? "op").bind Value.asStr?
    let reason := (payload.get? "reason").bind Value.asStr?
    if opStr = "freeze" then some (actorId, .freeze reason)
    else if opStr = "unfreeze" then some (actorId, .unfreeze)
    else if opStr = "terminate" then some (actorId, .terminate reason)
    else if opStr = "update_energy_share" then
      let energyShare ← (payload.get? "energy_share").bind Value.asF64?
      some (actorId, .updateEnergyShare energyShare)
    else none

/-- The lifecycle operation an action is, if it is one: only a mutate can be. -/
def lifecycleOp? (action : Action) : Option (String × LifecycleOp) :=
  if action.actionType = .mutate then parseLifecycleOp action.target action.payload else none

/-- Only the human in an agent's lineage manages it, and no human is managed. The
operation itself decides nothing. -/
def validateLifecycleAuthorization (initiator target : ActorRecord) (_op : LifecycleOp) :
    KernelResult Unit :=
  if target.actorType = .human then
    .error (.policyViolation "cannot perform lifecycle operations on human actors")
  else
    match initiator.actorType with
    | .agent => .error (.policyViolation
        s!"agent {initiator.actorId} cannot perform lifecycle operations — only humans can manage agents (PIP-001 §5)")
    | .human =>
      if initiator.actorId ∈ target.lineage then .ok ()
      else .error (.policyViolation
        s!"human {initiator.actorId} cannot manage actor {target.actorId} (not in lineage)")

/-! ## Deserialised lists -/

/-- A list of strings, as serde reads one: every item has to be a string. -/
def stringList? (v : Value) : Option (List String) :=
  match v with
  | .arr items => items.mapM Value.asStr?
  | _ => none

/-- A pattern with action types, as serde reads the two structures that have
these two fields: from an object, or from an array of the two. -/
def patternRule? (v : Value) : Option (String × List String) :=
  match v with
  | .obj _ => do
    let target ← (v.get? "target").bind Value.asStr?
    let actions ← (v.get? "actions").bind stringList?
    some (target, actions)
  | .arr [target, actions] => do
    let target ← target.asStr?
    let actions ← stringList? actions
    some (target, actions)
  | _ => none

/-- A list of patterns with action types, as serde reads one. -/
def patternRules? (v : Value) : Option (List (String × List String)) :=
  match v with
  | .arr items => items.mapM patternRule?
  | _ => none

variable [Externals]

/-- `serde_json::from_value`, with what the caller says of a failure. -/
def fromValue {α : Type} (read : Value → Option α) (expected what : String) (v : Value) :
    KernelResult α :=
  match read v with
  | some a => .ok a
  | none =>
    let detail := Externals.serdeError expected v
    .error (.invalidRequest s!"{what}: {detail}")

/-- The writable targets a create asks for, none where it names none. -/
def parseWritableTargets (payload : Value) : KernelResult (List WritableTarget) :=
  match payload.get? "writable_targets" with
  | some v => do
    let rules ← fromValue patternRules? "Vec<WritableTarget>" "invalid writable_targets" v
    .ok (rules.map fun r => ⟨r.1, r.2⟩)
  | none => .ok []

/-- The hold rules an envelope asks for, none where it names none. -/
def parseHoldOn (payload : Value) : KernelResult (List HoldRule) :=
  match payload.get? "hold_on" with
  | some v => do
    let rules ← fromValue patternRules? "Vec<HoldRule>" "invalid hold_on rules" v
    .ok (rules.map fun r => ⟨r.1, r.2⟩)
  | none => .ok []

/-- A required list of strings of an envelope payload, with the texts of the two
errors. -/
def requireStrings (payload : Value) (field missing what : String) : KernelResult (List String) :=
  match payload.get? field with
  | some v => fromValue stringList? "Vec<String>" what v
  | none => .error (.invalidRequest missing)

/-- The envelope an action asks for, before it is compared with the grantor's own. The
grantor is the actor of the action. -/
def parseEnvelopeFields (action : Action) : KernelResult EnvelopeSpec := do
  let payload := action.payload
  if payload.asObject?.isNone then
    .error (.invalidRequest "envelope payload must be an object")
  else
    match (payload.get? "actor_id").bind Value.asStr? with
    | none => .error (.invalidRequest "actor_id is required to create an envelope")
    | some actorId =>
      match (payload.get? "budget").bind Value.asI64? with
      | none => .error (.invalidRequest "budget is required to create an envelope")
      | some budget =>
        if budget ≤ 0 then .error (.invalidRequest "envelope budget must be positive")
        else do
          let targets ← requireStrings payload "targets"
            "targets are required to create an envelope" "invalid envelope targets"
          let actions ← requireStrings payload "actions"
            "actions are required to create an envelope" "invalid envelope actions"
          let holdOn ← parseHoldOn payload
          .ok
            { actorId := actorId
              grantorId := action.actorId
              budget := budget
              targets := targets
              actions := actions
              durationSecs := (payload.get? "duration_secs").bind Value.asI64?
              reportEvery := (payload.get? "report_every").bind Value.asI64?
              holdOn := holdOn
              holdTimeoutSecs := (payload.get? "hold_timeout_secs").bind Value.asI64? }

/-- The budget of a parsed envelope is positive, and its grantor is the actor. -/
theorem parseEnvelopeFields_ok {action : Action} {spec : EnvelopeSpec}
    (h : parseEnvelopeFields action = .ok spec) :
    0 < spec.budget ∧ spec.grantorId = action.actorId := by
  unfold parseEnvelopeFields at h
  simp only at h
  split at h
  · cases h
  split at h
  · cases h
  split at h
  · cases h
  split at h
  · cases h
  next hpos =>
  obtain ⟨targets, -, h⟩ := bind_eq_ok.mp h
  obtain ⟨actions, -, h⟩ := bind_eq_ok.mp h
  obtain ⟨holdOn, -, h⟩ := bind_eq_ok.mp h
  cases h
  exact ⟨not_le.mp hpos, rfl⟩

end PunkgoKernel
