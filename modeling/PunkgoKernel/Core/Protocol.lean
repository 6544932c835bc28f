import PunkgoKernel.Core.Action
import PunkgoKernel.Lib.JsonLines

/-!
# Requests and responses (`protocol.rs`, `errors.rs`)

What a client sends is an envelope with an id of its own choice; what it gets back has that id,
a status and a payload, written as one line of JSON. An error is answered with its payload
(`KernelError.toErrorPayload`), which names the kind of the error and shows its text.
-/

namespace PunkgoKernel

open Json (Value)

/-! ## Requests -/

/-- The three requests of a client: a quote and a submit carry an action, a read carries
a query. -/
inductive RequestType where
  | quote
  | submit
  | read
deriving DecidableEq

/-- What a client sends on a line of its own. The id is of the client's choice and comes
back with the response; the payload is decoded only once the type of the request is
known. -/
structure RequestEnvelope where
  requestId : String
  requestType : RequestType
  payload : Value
deriving DecidableEq

/-! ## Errors -/

/-- `to_string`: the text of an error, its kind first and then what it is about. The
errors of the database, of files and of JSON are shown as they came. -/
def KernelError.display : KernelError → String
  | .invalidRequest detail => s!"invalid request: {detail}"
  | .policyViolation detail => s!"policy violation: {detail}"
  | .actorNotFound actorId => s!"actor not found: {actorId}"
  | .insufficientEnergy actorId required available =>
    s!"insufficient energy: actor={actorId}, required={required}, available={available}"
  | .actorFrozen actorId => s!"actor frozen: {actorId}"
  | .boundaryViolation detail => s!"boundary violation: {detail}"
  | .authorizationRequired detail => s!"authorization required: {detail}"
  | .holdTriggered holdId agentId => s!"hold triggered: hold_id={holdId}, agent={agentId}"
  | .executePayloadInvalid detail => s!"execute payload invalid: {detail}"
  | .audit detail => s!"audit error: {detail}"
  | .io detail => detail
  | .db detail => detail
  | .json detail => detail

/-- The name a client knows the kind of an error by, one for each constructor. -/
def KernelError.errorType : KernelError → String
  | .invalidRequest _ => "InvalidRequest"
  | .policyViolation _ => "PolicyViolation"
  | .actorNotFound _ => "ActorNotFound"
  | .insufficientEnergy _ _ _ => "InsufficientEnergy"
  | .actorFrozen _ => "ActorFrozen"
  | .boundaryViolation _ => "BoundaryViolation"
  | .authorizationRequired _ => "AuthorizationRequired"
  | .holdTriggered _ _ => "HoldTriggered"
  | .executePayloadInvalid _ => "ExecutePayloadInvalid"
  | .audit _ => "Audit"
  | .io _ => "Io"
  | .db _ => "Db"
  | .json _ => "Json"

/-- What an error shows beside its kind and its text: the values its constructor
carries, under names of their own. -/
def KernelError.errorFields : KernelError → List (String × Value)
  | .invalidRequest detail => [("detail", .str detail)]
  | .policyViolation detail => [("detail", .str detail)]
  | .actorNotFound actorId => [("actor_id", .str actorId)]
  | .insufficientEnergy actorId required available =>
    [("actor_id", .str actorId), ("required", .num (.int required)),
      ("available", .num (.int available))]
  | .actorFrozen actorId => [("actor_id", .str actorId)]
  | .boundaryViolation detail => [("detail", .str detail)]
  | .authorizationRequired detail => [("detail", .str detail)]
  | .holdTriggered holdId agentId => [("hold_id", .str holdId), ("agent_id", .str agentId)]
  | .executePayloadInvalid detail => [("detail", .str detail)]
  | .audit detail => [("detail", .str detail)]
  | .io _ => []
  | .db _ => []
  | .json _ => []

/-- The payload of the response to a request that failed: the kind of the error, its
text, and the values it carries. -/
def KernelError.toErrorPayload (err : KernelError) : Value :=
  Json.object
    ([("error_type", .str err.errorType), ("message", .str err.display)] ++ err.errorFields)

/-! ## Responses -/

/-- What the daemon answers on a line of its own: the id of the request, the status, and
the payload that the status stands for. -/
structure ResponseEnvelope where
  requestId : String
  status : String
  payload : Value
deriving DecidableEq

namespace ResponseEnvelope

/-- The response to a request that succeeded, with what it came to. -/
def ok (requestId : String) (payload : Value) : ResponseEnvelope := ⟨requestId, "ok", payload⟩

/-- The response to a request that the kernel failed, with the payload of the error. -/
def errStructured (requestId : String) (error : KernelError) : ResponseEnvelope :=
  ⟨requestId, "error", error.toErrorPayload⟩

/-- The response to a line that never reached the kernel; its error has no kind of its
own. -/
def err (requestId message : String) : ResponseEnvelope :=
  ⟨requestId, "error", Json.object [("error_type", .str "Unknown"), ("message", .str message)]⟩

/-- The response as it is spelled: the fields in the order they are declared. -/
def toJson (response : ResponseEnvelope) : Value :=
  .obj
    [("request_id", .str response.requestId), ("status", .str response.status),
      ("payload", response.payload)]

/-- Two responses that are spelled alike are the same response. -/
theorem toJson_injective : Function.Injective toJson := by
  rintro ⟨id, status, payload⟩ ⟨id', status', payload'⟩ h
  simp only [toJson, Value.obj.injEq, List.cons.injEq, Prod.mk.injEq, true_and, and_true,
    Value.str.injEq] at h
  obtain ⟨rfl, rfl, rfl⟩ := h
  rfl

/-- What is written to a connection: each response on a line of its own. -/
def stream (responses : List ResponseEnvelope) : List Char := Json.lines (responses.map toJson)

end ResponseEnvelope

end PunkgoKernel
