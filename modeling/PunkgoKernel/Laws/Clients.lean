import PunkgoKernel.Laws.Ipc
import PunkgoKernel.Laws.Receipts

/-!
# What the clients of the daemon see

The daemon is a run of the kernel under a server (`DaemonRun`), so all that holds along every
run of the kernel holds under it. On each connection every request is answered, in order and
under its own id, and what a client has read of its connection, wherever it was cut, spells the
first of the responses and nothing else (`daemon_attends`). A submit that was answered with
success is an event in the log, and stays one (`clients_acknowledged`), and no two of them, on
whatever connections, are told of one event (`clients_receipts_distinct`). In turn every event
was written for a line that some client sent (`events_asked`).
-/

namespace PunkgoKernel

open Json (Value)
open Resumption

variable [Externals] [Wire]

/-! ## In order -/

/-- A connection as its client sees it: the lines that are not blank are answered one by one,
in order, each under its own id, all but at most the newest; whatever part of the stream has been
read is the spelling of exactly one list of responses, the first ones, and all of them once all is
read; and after a shutdown there is nothing more to answer. -/
structure Attended (conn : DaemonConn) : Prop where
  inOrder : ∃ pending, pending.length ≤ 1 ∧
    (conn.taken.reverse.filter fun a => !isBlank a.line).map Arrival.requestId =
      (responses conn).map (·.requestId) ++ pending
  readable : ∀ cs, cs <+: ResponseEnvelope.stream (responses conn) →
    ∃ rs, rs <+: responses conn ∧
      Json.completeFrames '\n' cs = rs.map (fun r => r.toJson.toChars) ∧
      (∀ rs', Json.completeFrames '\n' cs = rs'.map (fun r => r.toJson.toChars) → rs' = rs) ∧
      (cs = ResponseEnvelope.stream (responses conn) → rs = responses conn)
  stops : ∀ newer e older, conn.sent = newer ++ e :: older → e.arrival.AsksShutdown →
    newer = [] ∧ e.reply = .ok e.arrival.requestId (Json.object [("message", .str "shutting down")])

omit [Externals] [Wire] in
/-- What has been read of a stream spells the first of its responses. -/
theorem stream_readable {rs : List ResponseEnvelope} {cs : List Char}
    (h : cs <+: ResponseEnvelope.stream rs) :
    ∃ rs₀, rs₀ <+: rs ∧ Json.completeFrames '\n' cs = rs₀.map (fun r => r.toJson.toChars) ∧
      (∀ rs', Json.completeFrames '\n' cs = rs'.map (fun r => r.toJson.toChars) → rs' = rs₀) ∧
      (cs = ResponseEnvelope.stream rs → rs₀ = rs) := by
  have hinj : Function.Injective (List.map ResponseEnvelope.toJson) :=
    List.map_injective_iff.mpr ResponseEnvelope.toJson_injective
  obtain ⟨ws, hprefix, heq, hone, hall⟩ := Json.lines_readable h
  obtain ⟨rs₀, hprefix', rfl⟩ := List.prefix_map_iff.mp hprefix
  rw [List.map_map] at heq
  refine ⟨rs₀, hprefix', heq, fun rs' h' => hinj (hone _ ?_), fun heq' => hinj (hall heq')⟩
  rw [h', List.map_map]
  rfl

variable {tr : List KernelTransition} {daemon : Daemon}

/-- **Every connection is served in order.** The kernel under the daemon runs as it does
anywhere, and each client is answered line by line, under the ids it gave. -/
theorem daemon_attends (h : DaemonRun tr daemon) :
    KernelRun tr daemon.pool ∧ ∀ id, Attended (daemon.conns id) := by
  refine ⟨h.run, fun id => ⟨?_, fun cs hcs => stream_readable hcs, ?_⟩⟩
  · obtain ⟨pending, hall, hlen⟩ := (h.orderly id).at_phase.answered
    refine ⟨pending.reverse.map Arrival.requestId, by simpa using hlen, ?_⟩
    have hrequests : (daemon.conns id).taken.reverse.filter (fun a => !isBlank a.line) =
        (requests handleLine (daemon.conns id).taken).reverse := by
      unfold requests
      rw [List.filter_reverse]
      simp only [isSkip_handleLine]
    have hids : (daemon.conns id).sent.map (fun e => e.arrival.requestId) =
        (daemon.conns id).sent.map fun e => e.reply.requestId := by
      refine List.map_congr_left fun e he => ?_
      exact ((h.replied he).answers (handleLine_answers e.arrival)).symm
    rw [hrequests, hall, List.reverse_append, List.map_append]
    refine congrArg (· ++ _) ?_
    rw [← List.map_reverse, List.map_map]
    unfold responses
    rw [← List.map_reverse, List.map_map, List.map_reverse, List.map_reverse]
    exact congrArg List.reverse hids
  · intro newer e older hsent hstop
    have hline := handleLine_shutdown hstop
    refine ⟨(h.last hsent (by rw [hline]; rfl)).1, ?_⟩
    have hreplied : Replied kernelSystem StateStore.genesis handleLine tr e.arrival e.reply e.stamp :=
      h.replied (show e ∈ (daemon.conns id).sent by rw [hsent]; simp)
    refine hreplied.answers (P := fun b => b = _) ?_
    rw [hline]
    exact rfl

omit [Externals] [Wire] in
/-- Two clients of a daemon, each of whose lines is answered in turn. -/
theorem attended_clients :
    letI := reference
    letI := clientWire
    ∃ tr daemon, DaemonRun tr daemon ∧
      exchanged (daemon.conns 0) =
        [((clientLine 2).line, "r3", "ok"), ((clientLine 0).line, "r1", "ok")] ∧
      KernelRun tr daemon.pool ∧ ∀ id, Attended (daemon.conns id) := by
  obtain ⟨tr, daemon, h, hsent, -, -⟩ := clients_served
  exact ⟨tr, daemon, h, hsent, @daemon_attends reference clientWire _ _ h⟩

/-! ## What a receipt is to a client -/

/-- A submit that was answered was served by a request that has ended. -/
theorem submit_ended (h : DaemonRun tr daemon) {id : Nat}
    {e : Exchange Arrival ResponseEnvelope} (he : e ∈ (daemon.conns id).sent) {action : Action}
    (hsubmits : e.arrival.Submits action) :
    ∃ newer older t task x s, tr = newer ++ t :: older ∧ t.label = .finish task x ∧
      Spawned task (.submit e.arrival.envs action) s older ∧
      e.reply = respond e.arrival.requestId (x.map Outcome.toJson) ∧
      e.stamp = some older.length := by
  have hreplied := h.replied he
  have hblank : isBlank e.arrival.line = false := by
    rw [← isSkip_handleLine]
    exact hreplied.not_skip
  exact hreplied.served (handleLine_submits hsubmits hblank)

omit [Externals] [Wire] in
/-- A task was spawned for one request, on one store. -/
theorem Spawned.unique {id : Nat} {r r' : Request} {s s' : Db} {tr : List KernelTransition}
    (h : Spawned id r s tr) (h' : Spawned id r' s' tr) : r = r' ∧ s = s' := by
  induction h with
  | here tasks tr =>
    obtain ⟨rfl, rfl⟩ := h'.newest
    exact ⟨rfl, rfl⟩
  | earlier t tr hother _ ih => exact ih (h'.tail hother)

omit [Wire] in
/-- A submit that ends well ends with a receipt of what it wrote. -/
theorem KernelRun.submit_receipted {tr : List KernelTransition} {pool pool' : KernelPool}
    (h : KernelRun tr pool) {id : Nat} {envs : Nat → Env} {action : Action} {s : Db}
    (hspawned : Spawned id (.submit envs action) s tr) {outcome : Outcome}
    (hstep : Step kernelSystem pool (.finish id (.ok outcome)) pool') :
    ∃ receipt past served event, outcome = .receipt receipt ∧
      ⟨id, .ret (.ok (.receipt receipt)), past⟩ ∈ pool.tasks ∧ Serves action past served ∧
      EventFor past served event ∧ Names receipt event ∧ Wrote tr id event := by
  obtain ⟨past, htask⟩ := hstep.finish_inv
  have hreturns : (Request.submit envs action).Returns past (.ok outcome) :=
    KernelRun.returns h htask hspawned
  have hreceipt : ∃ receipt, outcome = .receipt receipt := by
    cases hreturns with
    | receipt served op v receipt => exact ⟨receipt, rfl⟩
    | resubmit envs' pending =>
      -- a request that goes on has not ended
      cases hstep with
      | finish store before after id x past hnone => cases hnone
  obtain ⟨receipt, rfl⟩ := hreceipt
  obtain ⟨envs', action', s', past', served, event, hspawned', htask', hserves, hfor, hnames,
    hwrote⟩ := KernelRun.receipted h hstep
  obtain ⟨heq, -⟩ := Spawned.unique hspawned hspawned'
  cases heq
  exact ⟨receipt, past', served, event, rfl, htask', hserves, hfor, hnames, hwrote⟩

omit [Externals] [Wire] in
/-- A request that is answered well has come to an outcome. -/
theorem respond_ok {requestId : String} {x : KernelResult Outcome}
    (h : (respond requestId (x.map Outcome.toJson)).status = "ok") : ∃ outcome, x = .ok outcome := by
  cases x with
  | ok outcome => exact ⟨outcome, rfl⟩
  | error e =>
    have hstatus : "error" = "ok" := h
    exact absurd hstatus (by decide)

/-- How a submit that was answered with success was served: a request for its action,
spawned in the run, ended with the receipt that was answered, and wrote the event that the
receipt names for what it served by the past it ended with. -/
structure ServedBy (e : Exchange Arrival ResponseEnvelope) (action : Action)
    (t : KernelTransition) (older : List KernelTransition) (task : Nat) (receipt : SubmitReceipt)
    (event : EventRecord) : Prop where
  reply : e.reply = .ok e.arrival.requestId receipt.toJson
  stamp : e.stamp = some older.length
  ended : t.label = .finish task (.ok (.receipt receipt))
  spawned : ∃ s, Spawned task (.submit e.arrival.envs action) s older
  served : ∃ past served, ⟨task, .ret (.ok (.receipt receipt)), past⟩ ∈ t.before.tasks ∧
    Serves action past served ∧ EventFor past served event
  names : Names receipt event
  wrote : Wrote older task event

/-- A submit that is answered well was served: its event was written in a step of its
own task, and the reply is the receipt of it. -/
theorem submit_acknowledged (h : DaemonRun tr daemon) {id : Nat}
    {e : Exchange Arrival ResponseEnvelope} (he : e ∈ (daemon.conns id).sent) {action : Action}
    (hsubmits : e.arrival.Submits action) (hok : e.reply.status = "ok") :
    ∃ newer t older task receipt event, tr = newer ++ t :: older ∧
      ServedBy e action t older task receipt event := by
  obtain ⟨newer, older, t, task, x, s, rfl, hlabel, hspawned, hreply, hstamp⟩ :=
    submit_ended h he hsubmits
  rw [hreply] at hok
  obtain ⟨outcome, rfl⟩ := respond_ok hok
  obtain ⟨hrun, pool', hstep⟩ := h.run.upTo
  rw [hlabel] at hstep
  obtain ⟨receipt, past, served, event, rfl, htask, hserves, hfor, hnames, hwrote⟩ :=
    KernelRun.submit_receipted hrun hspawned hstep
  exact ⟨newer, t, older, task, receipt, event, rfl, hreply, hstamp, hlabel, ⟨s, hspawned⟩,
    ⟨past, served, htask, hserves, hfor⟩, hnames, hwrote⟩

/-- **What a client was told is in the log.** A submit that was answered with success shows the
receipt of an event. The request that served it wrote that event, for the action or for the
pending action of a hold that the action approved, and the event is in the log from then on,
through whatever else is served, lost or restarted. -/
theorem clients_acknowledged (h : DaemonRun tr daemon) :
    ∀ id, ∀ e ∈ (daemon.conns id).sent, ∀ action, e.arrival.Submits action →
      e.reply.status = "ok" → ∃ newer t older task receipt event, tr = newer ++ t :: older ∧
        ServedBy e action t older task receipt event ∧
        daemon.pool.store.events.rows[receipt.logIndex]? = some event := by
  intro id e he action hsubmits hok
  obtain ⟨newer, t, older, task, receipt, event, rfl, hserved⟩ :=
    submit_acknowledged h he hsubmits hok
  refine ⟨newer, t, older, task, receipt, event, rfl, hserved, ?_⟩
  rw [hserved.names.logIndex]
  exact hserved.wrote.row h.run

omit [Externals] [Wire] in
/-- The receipts of two creations, on two connections, and the events that stand in the
log for them. -/
theorem acknowledged_clients :
    letI := reference
    letI := clientWire
    (clientLine 0).Submits (newAgent "agent-1") ∧ (clientLine 1).Submits (newAgent "agent-2") ∧
    ∃ tr daemon, DaemonRun tr daemon ∧
      exchanged (daemon.conns 0) =
        [((clientLine 2).line, "r3", "ok"), ((clientLine 0).line, "r1", "ok")] ∧
      exchanged (daemon.conns 1) = [((clientLine 1).line, "r2", "ok")] ∧
      ∀ id, ∀ e ∈ (daemon.conns id).sent, ∀ action, e.arrival.Submits action →
        e.reply.status = "ok" → ∃ newer t older task receipt event, tr = newer ++ t :: older ∧
          ServedBy e action t older task receipt event ∧
          daemon.pool.store.events.rows[receipt.logIndex]? = some event := by
  obtain ⟨tr, daemon, h, hsent, hsent', -⟩ := clients_served
  exact ⟨clientLine_submits.1, clientLine_submits.2, tr, daemon, h, hsent, hsent',
    @clients_acknowledged reference clientWire _ _ h⟩

omit [Externals] [Wire] in
/-- A receipt shows the index of its event. -/
theorem SubmitReceipt.get?_logIndex (receipt : SubmitReceipt) :
    receipt.toJson.get? "log_index" = some (number receipt.logIndex) := by
  unfold SubmitReceipt.toJson
  rw [Json.get?_object]
  rfl

omit [Externals] [Wire] in
/-- Of two steps of a run that are not the same, one came first. -/
theorem came_first {n₁ n₂ o₁ o₂ : List KernelTransition} {t₁ t₂ : KernelTransition}
    (heq : n₁ ++ t₁ :: o₁ = n₂ ++ t₂ :: o₂) (hlt : o₁.length < o₂.length) :
    ∃ between, o₂ = between ++ t₁ :: o₁ := by
  have hsuffix : t₁ :: o₁ <:+ n₂ ++ t₂ :: o₂ := ⟨n₁, heq⟩
  have hlater : o₂ <:+ n₂ ++ t₂ :: o₂ := (List.suffix_cons t₂ o₂).trans (List.suffix_append n₂ _)
  obtain ⟨between, hbetween⟩ := List.suffix_of_suffix_length_le hsuffix hlater hlt
  exact ⟨between, hbetween.symm⟩

/-- **No event is told of twice.** Two submits that were answered with success, on whatever
connections, show different places in the log. -/
theorem clients_receipts_distinct (h : DaemonRun tr daemon) :
    ∀ (id i id' i' : Nat) (e e' : Exchange Arrival ResponseEnvelope) (action action' : Action),
      (daemon.conns id).sent[i]? = some e →
      (daemon.conns id').sent[i']? = some e' → e.arrival.Submits action →
      e'.arrival.Submits action' → e.reply.status = "ok" → e'.reply.status = "ok" →
      e.reply.payload.get? "log_index" = e'.reply.payload.get? "log_index" →
      id = id' ∧ i = i' := by
  intro id i id' i' e e' action action' he he' hsubmits hsubmits' hok hok' hplace
  obtain ⟨n₁, t₁, o₁, task₁, receipt₁, event₁, htr₁, hserved₁⟩ :=
    submit_acknowledged h (List.mem_of_getElem? he) hsubmits hok
  obtain ⟨n₂, t₂, o₂, task₂, receipt₂, event₂, htr₂, hserved₂⟩ :=
    submit_acknowledged h (List.mem_of_getElem? he') hsubmits' hok'
  obtain ⟨s₁, hspawned₁⟩ := hserved₁.spawned
  obtain ⟨s₂, hspawned₂⟩ := hserved₂.spawned
  have hindex : event₁.logIndex = event₂.logIndex := by
    rw [hserved₁.reply, hserved₂.reply] at hplace
    have hnumbers := (receipt₁.get?_logIndex).symm.trans (hplace.trans receipt₂.get?_logIndex)
    injection hnumbers with hnumbers
    injection hnumbers with hnumbers
    injection hnumbers with hnumbers
    rw [← hserved₁.names.logIndex, ← hserved₂.names.logIndex]
    exact Int.ofNat.inj hnumbers
  -- one end answers one request, and of two ends each has an event of its own
  rcases lt_trichotomy o₁.length o₂.length with hlt | hsame | hlt
  · obtain ⟨between, rfl⟩ := came_first (htr₁.symm.trans htr₂) hlt
    rw [htr₂] at h
    exact absurd hindex (wrote_apart h.run hserved₁.ended hserved₂.ended hspawned₂ hserved₁.wrote
      hserved₂.wrote)
  · refine h.distinct he he' hserved₁.stamp ?_
    rw [hserved₂.stamp, hsame]
  · obtain ⟨between, rfl⟩ := came_first (htr₂.symm.trans htr₁) hlt
    rw [htr₁] at h
    exact absurd hindex.symm (wrote_apart h.run hserved₂.ended hserved₁.ended hspawned₁
      hserved₂.wrote hserved₁.wrote)

omit [Externals] [Wire] in
/-- The same two receipts, which show different places in the log. -/
theorem receiptsDistinct_clients :
    letI := reference
    letI := clientWire
    (clientLine 0).Submits (newAgent "agent-1") ∧ (clientLine 1).Submits (newAgent "agent-2") ∧
    ∃ tr daemon, DaemonRun tr daemon ∧
      exchanged (daemon.conns 0) =
        [((clientLine 2).line, "r3", "ok"), ((clientLine 0).line, "r1", "ok")] ∧
      exchanged (daemon.conns 1) = [((clientLine 1).line, "r2", "ok")] ∧
      ∀ (id i id' i' : Nat) (e e' : Exchange Arrival ResponseEnvelope) (action action' : Action),
        (daemon.conns id).sent[i]? = some e → (daemon.conns id').sent[i']? = some e' →
        e.arrival.Submits action → e'.arrival.Submits action' → e.reply.status = "ok" →
        e'.reply.status = "ok" →
        e.reply.payload.get? "log_index" = e'.reply.payload.get? "log_index" →
        id = id' ∧ i = i' := by
  obtain ⟨tr, daemon, h, hsent, hsent', -⟩ := clients_served
  exact ⟨clientLine_submits.1, clientLine_submits.2, tr, daemon, h, hsent, hsent',
    @clients_receipts_distinct reference clientWire _ _ h⟩

/-! ## Who asked for an event -/

omit [Externals] [Wire] in
/-- The operations that write an event of the log. -/
def Op.writesEvent : Op → Bool
  | .finalize _ | .triggerHold _ | .resolveHold _ | .expireHold _ => true
  | _ => false

omit [Externals] [Wire] in
/-- What commits an event writes one. -/
theorem Op.Commits.writesEvent {op : Op} {draft : EventRecord} (h : op.Commits draft) :
    op.writesEvent = true := by
  cases op <;> first | rfl | cases h

omit [Externals] [Wire] in
/-- A program that writes no event. -/
def Quiet {α : Type} (p : KernelProg α) : Prop :=
  Attempt.Uses (fun op : Op => op.writesEvent = false) p

omit [Wire] in
/-- Only a submit writes events. -/
theorem program_quiet (r : Request) : (∃ envs action, r = .submit envs action) ∨ Quiet (program r) := by
  refine (uses_program r).imp_right fun huses => Prog.Uses.mono huses ?_
  intro op hop
  cases op <;> first | rfl | cases hop

omit [Wire] in
/-- A request in flight is a submit, or it writes no event and answers as its kind
does. -/
theorem KernelRun.quiet {tr : List KernelTransition} {pool : KernelPool} (h : KernelRun tr pool)
    {task : Task KernelSig (KernelResult Outcome)} (htask : task ∈ pool.tasks) {r : Request} {s : Db}
    (hspawned : Spawned task.id r s tr) :
    (∃ envs action, r = .submit envs action) ∨
      Quiet task.prog ∧
        task.prog.Honors (fun _ _ => True) (fun _ _ => True) r.Returns task.past := by
  refine kernelContract.each (K := fun r _ task => (∃ envs action, r = .submit envs action) ∨
    Quiet task.prog ∧ task.prog.Honors (fun _ _ => True) (fun _ _ => True) r.Returns task.past)
    ?_ ?_ ?_ ?_ h (fun _ _ _ _ _ => trivial) task htask r s hspawned
  · intro id r s
    exact (program_quiet r).imp_right fun hquiet => ⟨hquiet, program_returns r⟩
  · intro tr pool r s id op k past _ _ _ _ hK
    exact hK.imp_right fun ⟨hquiet, hhonors⟩ => ⟨hquiet.2 _, hhonors.2 _ trivial⟩
  · intro r s id op k past x _ _ hK
    exact hK.imp_right fun ⟨hquiet, hhonors⟩ => ⟨hquiet.2 _, hhonors.2 _ trivial⟩
  · intro r s id answer p past hagain hK
    rcases hK with hsubmit | ⟨_, hreturns⟩
    · exact .inl hsubmit
    -- what is no submit does not go on
    cases answer with
    | error e => cases hagain
    | ok outcome =>
      cases outcome with
      | resubmit envs pending =>
        cases r with
        | submit envs' action => exact .inl ⟨envs', action, rfl⟩
        | _ => cases hreturns
      | _ => cases hagain

omit [Wire] in
/-- An event of the log was there before, or the operation has appended it. -/
theorem exec_appends {op : Op} {db : Db} {event : EventRecord}
    (h : event ∈ (exec op db).2.events.rows) :
    event ∈ db.events.rows ∨
      op.writesEvent = true ∧ (exec op db).2.events.rows = db.events.rows ++ [event] := by
  rcases exec_cases op db with ⟨v, db', htx, hexec⟩ | ⟨e, -, hexec⟩
  · rw [hexec] at h ⊢
    rcases transaction_commits htx with hsame | ⟨draft, hcommits, hrows⟩
    · exact .inl (hsame ▸ h)
    · rw [hrows] at h
      rcases List.mem_append.mp h with hold | hnew
      · exact .inl hold
      · obtain rfl := List.mem_singleton.mp hnew
        exact .inr ⟨hcommits.writesEvent, hrows⟩
  · rw [hexec] at h
    exact .inl h

omit [Wire] in
/-- Every event was written by a request to submit an action. -/
theorem KernelRun.written {tr : List KernelTransition} {pool : KernelPool} (h : KernelRun tr pool) :
    ∀ event ∈ pool.store.events.rows, ∃ newer t older task d envs action s, tr = newer ++ t :: older ∧
      t.label = .act task d ∧ Spawned task (.submit envs action) s older ∧
      (exec d.op t.before.store).2.events.rows = t.before.store.events.rows ++ [event] := by
  induction h with
  | start => exact fun _ hmem => nomatch hmem
  | @step tr pool pool' l hr hs ih =>
    -- the events that were there were written before
    have hold : ∀ event ∈ pool.store.events.rows, ∃ newer t older task d envs action s,
        ⟨pool, l⟩ :: tr = newer ++ t :: older ∧ t.label = .act task d ∧
        Spawned task (.submit envs action) s older ∧
        (exec d.op t.before.store).2.events.rows = t.before.store.events.rows ++ [event] := by
      intro event hmem
      obtain ⟨newer, t, older, task, d, envs, action, s, rfl, hrest⟩ := ih event hmem
      exact ⟨⟨pool, l⟩ :: newer, t, older, task, d, envs, action, s, rfl, hrest⟩
    intro event hmem
    cases hs with
    | act store before after id op k past =>
      rcases exec_appends hmem with hmem | ⟨hwrites, hrows⟩
      · exact hold event hmem
      have htask : (⟨id, .vis op k, past⟩ : Task KernelSig (KernelResult Outcome)) ∈
          before ++ ⟨id, .vis op k, past⟩ :: after := by simp
      obtain ⟨r, s, hspawned⟩ := hr.spawned _ htask
      rcases KernelRun.quiet hr htask hspawned with ⟨envs, action, rfl⟩ | ⟨hquiet, -⟩
      · exact ⟨[], _, tr, id, _, envs, action, s, rfl, rfl, hspawned, hrows⟩
      · rw [hquiet.1] at hwrites
        cases hwrites
    | restart store store' tasks hboot =>
      refine hold event ?_
      have hsame : store'.events = store.events := bootstrap_events hboot
      exact hsame ▸ hmem
    | _ => exact hold event hmem

/-- **Every event was asked for.** What is in the log was written by a request that a client of
the daemon asked for in a line it sent; the daemon itself writes none. -/
theorem events_asked (h : DaemonRun tr daemon) :
    ∀ event ∈ daemon.pool.store.events.rows, ∃ id, ∃ arrival ∈ (daemon.conns id).taken,
      ∃ action newer t older task d s, arrival.Submits action ∧ tr = newer ++ t :: older ∧
        Spawned task (.submit arrival.envs action) s older ∧ t.label = .act task d ∧
        (exec d.op t.before.store).2.events.rows = t.before.store.events.rows ++ [event] := by
  intro event hmem
  obtain ⟨newer, t, older, task, d, envs, action, s, rfl, hact, hspawned, hrows⟩ :=
    KernelRun.written h.run event hmem
  obtain ⟨t', ht', -, hlabel⟩ := hspawned.mem
  have hmem' : t' ∈ newer ++ t :: older :=
    List.mem_append_right _ (List.mem_cons_of_mem _ ht')
  rcases h.asked t' hmem' task _ hlabel with hown | ⟨id, arrival, harrival, render, hline⟩
  · cases hown
  · obtain ⟨hsubmits, rfl⟩ := submits_of_handleLine hline
    exact ⟨id, arrival, harrival, action, newer, t, older, task, d, s, hsubmits, rfl, hspawned,
      hact, hrows⟩

omit [Externals] [Wire] in
/-- The events of that run, each with the line that asked for it. -/
theorem eventsAsked_clients :
    letI := reference
    letI := clientWire
    ∃ tr daemon, DaemonRun tr daemon ∧ daemon.pool.store.events.rows.length = 2 ∧
      ∀ event ∈ daemon.pool.store.events.rows, ∃ id, ∃ arrival ∈ (daemon.conns id).taken,
        ∃ action newer t older task d s, arrival.Submits action ∧ tr = newer ++ t :: older ∧
          Spawned task (.submit arrival.envs action) s older ∧ t.label = .act task d ∧
          (exec d.op t.before.store).2.events.rows = t.before.store.events.rows ++ [event] := by
  obtain ⟨tr, daemon, h, -, -, hrows⟩ := clients_served
  exact ⟨tr, daemon, h, hrows, @events_asked reference clientWire _ _ h⟩

end PunkgoKernel
