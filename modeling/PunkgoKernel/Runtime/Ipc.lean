import PunkgoKernel.Lib.Server
import PunkgoKernel.Runtime.Queries

/-!
# The daemon (`ipc.rs`, `handle_request`)

The daemon takes lines from its connections, each of which it answers line by line. A blank line
is passed over, a line that is no request is answered as such, a shutdown is answered and closes
the connection, and every other request goes to the kernel. The ticks of the energy producer run
beside them, and the daemon may be stopped at any time and started again (`DaemonRun`).
-/

namespace PunkgoKernel

open Json (Value)
open Resumption

/-- A line a client sends, with the clock readings and identifiers that serving it takes. -/
structure Arrival where
  line : String
  envs : Nat → Env
  now : Nat

/-- A read of the kind `shutdown`, which need not be a well-formed query. -/
def RequestEnvelope.isShutdown (req : RequestEnvelope) : Bool :=
  req.requestType = .read && (req.payload.get? "kind").bind Value.asStr? = some "shutdown"

/-- The end of `handle_request`: the response to what a request came to. -/
def respond (requestId : String) : KernelResult Value → ResponseEnvelope
  | .ok payload => .ok requestId payload
  | .error err => .errStructured requestId err

variable [Externals] [Wire]

/-- What a line of a client asks the daemon to do. -/
abbrev DaemonIntake := Intake Db (KernelResult Outcome) Request ResponseEnvelope

omit [Externals] [Wire] in
/-- A read, for the client that asked. A query the database fails is answered with its
error. -/
def ReadPlan.intake (requestId : String) : ReadPlan → DaemonIntake
  | .answer x => .reply (respond requestId x) false
  | .look read =>
    .look (fun db => respond requestId (read db))
      fun b => ∃ e, DatabaseFailure e ∧ b = .errStructured requestId e
  | .run r => .serve r fun x => respond requestId (x.map Outcome.toJson)

/-- `handle_request` and `dispatch`: the payload is decoded by the type of the request,
and a payload that does not decode is answered with the error of the decoder. -/
def handleRequest (arrival : Arrival) (req : RequestEnvelope) : DaemonIntake :=
  match req.requestType with
  | .quote =>
    match Wire.action req.payload with
    | .error detail => .reply (.errStructured req.requestId (.json detail)) false
    | .ok action => .serve (.quote action) fun x => respond req.requestId (x.map Outcome.toJson)
  | .submit =>
    match Wire.action req.payload with
    | .error detail => .reply (.errStructured req.requestId (.json detail)) false
    | .ok action =>
      .serve (.submit arrival.envs action) fun x => respond req.requestId (x.map Outcome.toJson)
  | .read =>
    match Wire.readQuery req.payload with
    | .error detail => .reply (.errStructured req.requestId (.json detail)) false
    | .ok query => (readQuery arrival.now query).intake req.requestId

/-- One round of `handle_connection`: a blank line is skipped, a line that is no
envelope is answered under an id of its own, and a shutdown is answered before the
daemon ends. -/
def handleLine (arrival : Arrival) : DaemonIntake :=
  if isBlank arrival.line then .skip
  else
    match Wire.requestEnvelope arrival.line with
    | .error detail => .reply (.err "unknown" s!"invalid request envelope: {detail}") false
    | .ok req =>
      if req.isShutdown then
        .reply (.ok req.requestId (Json.object [("message", .str "shutting down")])) true
      else handleRequest arrival req

/-- What the daemon runs of itself: the ticks of the energy producer. -/
def isTick : Request → Prop
  | .tick _ => True
  | _ => False

/-- A connection of a client. -/
abbrev DaemonConn := Conn Db (KernelResult Outcome) Arrival ResponseEnvelope

/-- The daemon: the kernel with the connections of its clients. -/
abbrev Daemon := Server KernelSig (KernelResult Outcome) Db Arrival ResponseEnvelope

/-- A run of the daemon from a first start: the steps of its kernel, and the connections with
what was taken from them and written to them. -/
abbrev DaemonRun : List KernelTransition → Daemon → Prop :=
  Serving kernelSystem StateStore.genesis handleLine isTick

/-- The responses written to a connection, the first first. -/
def responses (conn : DaemonConn) : List ResponseEnvelope := (conn.sent.map Exchange.reply).reverse

end PunkgoKernel
