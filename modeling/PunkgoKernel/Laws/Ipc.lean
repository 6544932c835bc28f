import PunkgoKernel.Runtime.Evaluation
import PunkgoKernel.Runtime.Ipc

/-!
# Lines and their answers

Whatever a line is answered with has the id of its request (`handleLine_answers`), a line that is
passed over is blank (`isSkip_handleLine`), and a line is served with a submit exactly if it is one
(`handleLine_submits`, `submits_of_handleLine`). A run of two clients of the daemon
(`clients_served`) meets what is said of all runs.
-/

namespace PunkgoKernel

open Json (Value)
open Resumption

section Lines

variable [Externals] [Wire]

/-! ## The id a line is answered under -/

omit [Externals] in
def Arrival.requestId (arrival : Arrival) : String :=
  match Wire.requestEnvelope arrival.line with
  | .ok req => req.requestId
  | .error _ => "unknown"

omit [Externals] in
theorem Arrival.requestId_ok {arrival : Arrival} {req : RequestEnvelope}
    (h : Wire.requestEnvelope arrival.line = .ok req) : arrival.requestId = req.requestId := by
  unfold Arrival.requestId
  rw [h]

omit [Externals] [Wire] in
theorem respond_requestId (requestId : String) (x : KernelResult Value) :
    (respond requestId x).requestId = requestId := by
  cases x <;> rfl

omit [Externals] [Wire] in
theorem intake_answers (requestId : String) (plan : ReadPlan) :
    (plan.intake requestId).Answers fun b => b.requestId = requestId := by
  cases plan with
  | answer x => exact respond_requestId requestId x
  | look read =>
    refine ⟨fun db => respond_requestId requestId (read db), ?_⟩
    rintro b ⟨e, -, rfl⟩
    rfl
  | run r => exact fun x => respond_requestId requestId _

theorem handleRequest_answers (arrival : Arrival) (req : RequestEnvelope) :
    (handleRequest arrival req).Answers fun b => b.requestId = req.requestId := by
  unfold handleRequest
  split
  · split
    · rfl
    · exact fun x => respond_requestId req.requestId _
  · split
    · rfl
    · exact fun x => respond_requestId req.requestId _
  · split
    · rfl
    · exact intake_answers req.requestId _

/-- Whatever a line is answered with has the id of its request. -/
theorem handleLine_answers (arrival : Arrival) :
    (handleLine arrival).Answers fun b => b.requestId = arrival.requestId := by
  unfold handleLine
  split
  · trivial
  split
  · next detail hline =>
    have hid : arrival.requestId = "unknown" := by
      unfold Arrival.requestId
      rw [hline]
    exact hid.symm
  · next req hline =>
    rw [Arrival.requestId_ok hline]
    split
    · rfl
    · exact handleRequest_answers arrival req

omit [Externals] [Wire] in
theorem isSkip_intake (requestId : String) (plan : ReadPlan) :
    (plan.intake requestId).isSkip = false := by
  cases plan <;> rfl

/-- The blank lines are passed over, and no other. -/
theorem isSkip_handleLine (arrival : Arrival) :
    (handleLine arrival).isSkip = isBlank arrival.line := by
  unfold handleLine
  split
  · next hblank => exact hblank.symm
  · next hblank =>
    have hfalse : isBlank arrival.line = false := Bool.eq_false_of_not_eq_true hblank
    rw [hfalse]
    split
    · rfl
    split
    · rfl
    unfold handleRequest
    split
    · split <;> rfl
    · split <;> rfl
    · split
      · rfl
      · exact isSkip_intake _ _

/-! ## Shutdowns and submits -/

omit [Externals] in
/-- The line asks the daemon to stop. -/
def Arrival.AsksShutdown (arrival : Arrival) : Prop :=
  isBlank arrival.line = false ∧
    ∃ req, Wire.requestEnvelope arrival.line = .ok req ∧ req.isShutdown = true

theorem handleLine_shutdown {arrival : Arrival} (h : arrival.AsksShutdown) :
    handleLine arrival = .reply (.ok arrival.requestId (Json.object
      [("message", .str "shutting down")])) true := by
  obtain ⟨hblank, req, hreq, hstop⟩ := h
  unfold handleLine
  rw [hblank, hreq, Arrival.requestId_ok hreq]
  simp [hstop]

omit [Externals] in
/-- The line is a submit of an action. -/
def Arrival.Submits (arrival : Arrival) (action : Action) : Prop :=
  ∃ req, Wire.requestEnvelope arrival.line = .ok req ∧ req.requestType = .submit ∧
    Wire.action req.payload = .ok action

theorem handleLine_submits {arrival : Arrival} {action : Action} (h : arrival.Submits action)
    (hblank : isBlank arrival.line = false) :
    handleLine arrival = .serve (.submit arrival.envs action) fun x =>
      respond arrival.requestId (x.map Outcome.toJson) := by
  obtain ⟨req, hreq, htype, haction⟩ := h
  have hrunning : req.isShutdown = false := by
    unfold RequestEnvelope.isShutdown
    rw [htype]
    rfl
  unfold handleLine
  rw [hblank, hreq, Arrival.requestId_ok hreq]
  simp only [hrunning, Bool.false_eq_true, if_false]
  unfold handleRequest
  simp only [htype, haction]

omit [Externals] [Wire] in
/-- What a read spawns is no submit. -/
theorem readKind_run [Externals] [Wire] {now : Nat} {query : ReadQuery} {r : Request}
    (h : readKind now query = .run r) (envs : Nat → Env) (action : Action) :
    r ≠ .submit envs action := by
  rintro rfl
  have hneeds : ∀ {α : Type} {field : String} {x : Option α} {plan : α → ReadPlan},
      (∀ a, plan a ≠ .run (.submit envs action)) →
      query.needs field x plan ≠ .run (.submit envs action) := by
    intro α field x plan hplan
    cases x with
    | none => exact fun heq => by cases heq
    | some a => exact hplan a
  unfold readKind at h
  split at h
  all_goals first
    | cases h
    | exact hneeds (fun _ heq => by cases heq) h
    | exact hneeds (fun _ => hneeds fun _ heq => by cases heq) h

/-- A line that is served with a submit is one. -/
theorem submits_of_handleLine {arrival : Arrival} {envs : Nat → Env} {action : Action}
    {render : KernelResult Outcome → ResponseEnvelope}
    (h : handleLine arrival = .serve (.submit envs action) render) :
    arrival.Submits action ∧ envs = arrival.envs := by
  unfold handleLine at h
  split at h
  · cases h
  split at h
  · cases h
  next req hline =>
  split at h
  · cases h
  unfold handleRequest at h
  split at h
  · split at h <;> cases h
  · next htype =>
    split at h
    · cases h
    · next action' haction =>
      cases h
      exact ⟨⟨req, hline, htype, haction⟩, rfl⟩
  · split at h
    · cases h
    · next query hquery =>
      unfold readQuery checkReadAccess at h
      cases hplan : readKind arrival.now query with
      | answer x =>
        rw [hplan] at h
        cases h
      | look read =>
        rw [hplan] at h
        cases h
      | run r =>
        rw [hplan] at h
        injection h with hr
        exact absurd hr (readKind_run hplan envs action)

end Lines

/-! ## Two clients -/

def RequestType.asStr : RequestType → String
  | .quote => "quote"
  | .submit => "submit"
  | .read => "read"

/-- What a client writes for a request. -/
def RequestEnvelope.toLine (req : RequestEnvelope) : String :=
  (Value.obj
    [("request_id", .str req.requestId), ("type", .str req.requestType.asStr),
     ("payload", req.payload)]).toText

def Action.toJson (action : Action) : Value :=
  Json.object
    [("actor_id", .str action.actorId), ("action_type", .str action.actionType.asStr),
     ("target", .str action.target), ("payload", action.payload)]

def newAgent (agentId : String) : Action :=
  ⟨"root", .create, "ledger/actor",
    Json.object [("actor_id", .str agentId), ("energy_balance", .num (.int 500))], none⟩

/-- Two clients create an agent each, and the first then stops the daemon. -/
def clientRequests : List RequestEnvelope :=
  [⟨"r1", .submit, (newAgent "agent-1").toJson⟩,
   ⟨"r2", .submit, (newAgent "agent-2").toJson⟩,
   ⟨"r3", .read, Json.object [("kind", .str "shutdown")]⟩]

/-- The decoders on what these clients write. -/
@[reducible] def clientWire : Wire where
  requestEnvelope line :=
    match clientRequests.find? fun req => req.toLine = line with
    | some req => .ok req
    | none => .error "expected value at line 1 column 1"
  action payload :=
    match [newAgent "agent-1", newAgent "agent-2"].find? fun action => action.toJson = payload with
    | some action => .ok action
    | none => .error "missing field"
  readQuery _ := .error "missing field"
  actorRecord _ := .null
  envelopeRecord _ := .null
  proveTree _ _ _ := .error "indexes not in tree"
  paths := .null
  stellarInfo := .null
  pubkeyHex := ""

/-- The `n`-th line of the clients. -/
def clientLine (n : Nat) : Arrival :=
  ⟨(clientRequests.map RequestEnvelope.toLine).getD n "", fun k => envAt (n + k), 0⟩

theorem clientLine_submits :
    letI := clientWire
    (clientLine 0).Submits (newAgent "agent-1") ∧ (clientLine 1).Submits (newAgent "agent-2") := by
  refine ⟨⟨⟨"r1", .submit, (newAgent "agent-1").toJson⟩, ?_, rfl, ?_⟩,
    ⟨⟨"r2", .submit, (newAgent "agent-2").toJson⟩, ?_, rfl, ?_⟩⟩
  all_goals decide +kernel

theorem clientLine_asksShutdown :
    letI := clientWire
    (clientLine 2).AsksShutdown := by
  refine ⟨by decide +kernel, ⟨"r3", .read, Json.object [("kind", .str "shutdown")]⟩, ?_, ?_⟩
  all_goals decide +kernel

/-- How a request is answered that is submitted alone, and what it leaves. -/
def clientServed (n : Nat) (agentId : String) (db : Db) : KernelResult Outcome × Db :=
  lazyServe 0 (@submitAction reference (clientLine n).envs (newAgent agentId)) db

/-- What the exchanges of a connection are, the newest first. -/
def exchanged (conn : DaemonConn) : List (String × String × String) :=
  conn.sent.map fun e => (e.arrival.line, e.reply.requestId, e.reply.status)

/-- The two agents are created, on two connections, and the daemon is stopped. -/
theorem clients_served :
    letI := reference
    letI := clientWire
    ∃ tr daemon, DaemonRun tr daemon ∧
      exchanged (daemon.conns 0) =
        [((clientLine 2).line, "r3", "ok"), ((clientLine 0).line, "r1", "ok")] ∧
      exchanged (daemon.conns 1) = [((clientLine 1).line, "r2", "ok")] ∧
      daemon.pool.store.events.rows.length = 2 := by
  let _ := reference
  let _ := clientWire
  have hserved : (receiptOf (clientServed 0 "agent-1" StateStore.genesis).1).isSome = true ∧
      (receiptOf (clientServed 1 "agent-2" (clientServed 0 "agent-1" StateStore.genesis).2).1).isSome =
        true ∧
      (clientServed 1 "agent-2" (clientServed 0 "agent-1" StateStore.genesis).2).2.events.rows.length =
        2 := by
    decide +kernel
  have hids : (clientLine 0).requestId = "r1" ∧ (clientLine 1).requestId = "r2" ∧
      (clientLine 2).requestId = "r3" := by
    decide +kernel
  generalize hdb₁ : (clientServed 0 "agent-1" StateStore.genesis).2 = db₁ at hserved
  obtain ⟨hfirst, hsecond, hrows⟩ := hserved
  obtain ⟨receipt₁, hreceipt₁⟩ := Option.isSome_iff_exists.mp hfirst
  obtain ⟨receipt₂, hreceipt₂⟩ := Option.isSome_iff_exists.mp hsecond
  unfold clientServed at hreceipt₁ hreceipt₂ hrows hdb₁
  have hcompletes₁ := completes_of_receipt hreceipt₁
  have hcompletes₂ := completes_of_receipt hreceipt₂
  rw [hdb₁] at hcompletes₁
  generalize (lazyServe 0 (@submitAction reference (clientLine 1).envs (newAgent "agent-2")) db₁).2 =
    db₂ at hcompletes₂ hrows
  have hline₁ := handleLine_submits clientLine_submits.1 (by decide +kernel)
  have hline₂ := handleLine_submits clientLine_submits.2 (by decide +kernel)
  have hline₃ := handleLine_shutdown clientLine_asksShutdown
  rw [hids.1] at hline₁
  rw [hids.2.1] at hline₂
  rw [hids.2.2] at hline₃
  have hopen : DaemonRun [] ⟨⟨StateStore.genesis, []⟩, Function.update (Function.update
      (fun _ => Conn.fresh) 0 ⟨[], [], .idle⟩) 1 ⟨[], [], .idle⟩⟩ :=
    (Serving.start.moves rfl .accept).moves rfl .accept
  obtain ⟨tr₁, stamp₁, hrun₁⟩ := hopen.served 0 rfl hline₁ hcompletes₁
  obtain ⟨tr₂, stamp₂, hrun₂⟩ := hrun₁.served 1 rfl hline₂ hcompletes₂
  exact ⟨tr₂, _, hrun₂.answered 0 rfl hline₃, rfl, rfl, hrows⟩

end PunkgoKernel
