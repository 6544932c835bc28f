import PunkgoKernel.Laws.Freezing
import PunkgoKernel.Laws.Resolution

/-!
# Freezing in the order of the log

Three steps of different requests decide whether a frozen agent still acts: the
read of its row, on which its status is checked, the commit of the freeze, and the
write of the status that follows the commit. A check that passes shows the agent
active at the read, and so, if nobody then had a freeze of it to carry out, the log
did not say that it was frozen. The log is in order as long as nothing is
committed in between (`KeepsLogOrder`): no freeze of the agent between the read of
its row and the commit of its change, no freeze while somebody has an unfreeze of
the agent to carry out, and no request ends with a freeze undone
(`run_freezes_in_log_order`).
-/

namespace PunkgoKernel

open Json (Value)
open Relational (Table key)
open Resumption

/-! ## What an event says of an agent -/

/-- The event is an action of the actor that changes something. -/
def EventRecord.actionOf (event : EventRecord) (actorId : String) : Bool :=
  event.actorId = actorId &&
    (event.actionType = "create" || event.actionType = "mutate" || event.actionType = "execute")

/-- The operations that freeze. -/
def LifecycleOp.freezes : LifecycleOp → Bool
  | .freeze _ | .terminate _ => true
  | _ => false

def LifecycleOp.unfreezes : LifecycleOp → Bool
  | .unfreeze => true
  | _ => false

/-- The event is a freeze of the agent, or its termination. -/
def EventRecord.freezes (event : EventRecord) (actorId : String) : Bool :=
  match event.lifecycle with
  | some (targetId, op) => targetId = actorId && op.freezes
  | none => false

def EventRecord.unfreezes (event : EventRecord) (actorId : String) : Bool :=
  match event.lifecycle with
  | some (targetId, op) => targetId = actorId && op.unfreezes
  | none => false

/-- Whether an agent is frozen after a log, by what the log says. -/
def frozenAfter (actorId : String) (events : List EventRecord) : Bool :=
  events.foldl (fun frozen event =>
    if event.freezes actorId then true
    else if event.unfreezes actorId then false else frozen) false

/-- Between a freeze of an actor and a later action of it there is an
unfreeze. -/
def FreezeRespected (actorId : String) (events : List EventRecord) : Prop :=
  ∀ (i j : Nat) (frozen action : EventRecord), events[i]? = some frozen →
    frozen.freezes actorId = true → i < j → events[j]? = some action →
    action.actionOf actorId = true →
    ∃ k thaw, i < k ∧ k < j ∧ events[k]? = some thaw ∧ thaw.unfreezes actorId = true

theorem frozenAfter_append (actorId : String) (events : List EventRecord) (event : EventRecord) :
    frozenAfter actorId (events ++ [event]) =
      if event.freezes actorId then true
      else if event.unfreezes actorId then false else frozenAfter actorId events := by
  unfold frozenAfter
  rw [List.foldl_append]
  rfl

/-- A log after which the actor is not frozen has an unfreeze after every
freeze. -/
theorem unfrozen_after {actorId : String} {events : List EventRecord}
    (h : frozenAfter actorId events = false) {i : Nat} {frozen : EventRecord}
    (hi : events[i]? = some frozen) (hfreezes : frozen.freezes actorId = true) :
    ∃ k thaw, i < k ∧ k < events.length ∧ events[k]? = some thaw ∧
      thaw.unfreezes actorId = true := by
  induction events using List.reverseRecOn with
  | nil => cases hi
  | append_singleton rest event ih =>
    rw [frozenAfter_append] at h
    split at h
    · cases h
    next hnot =>
    have hlt : i < rest.length := by
      by_contra hge
      have hlast : i = rest.length := by
        have hbound := (List.getElem?_eq_some_iff.mp hi).1
        rw [List.length_append, List.length_singleton] at hbound
        omega
      rw [hlast, List.getElem?_concat_length] at hi
      cases hi
      exact hnot hfreezes
    rw [List.getElem?_append_left hlt] at hi
    split at h
    · next hthaw =>
      refine ⟨rest.length, event, hlt, ?_, List.getElem?_concat_length, hthaw⟩
      rw [List.length_append, List.length_singleton]
      omega
    · obtain ⟨k, thaw, hik, hk, hget, hthaw⟩ := ih h hi
      refine ⟨k, thaw, hik, ?_, ?_, hthaw⟩
      · rw [List.length_append]
        omega
      · rw [List.getElem?_append_left hk, hget]

/-- A log stays in order if an action is added only while its actor is not
frozen. -/
theorem FreezeRespected.append {actorId : String} {events : List EventRecord} {event : EventRecord}
    (h : FreezeRespected actorId events)
    (hevent : event.actionOf actorId = true → frozenAfter actorId events = false) :
    FreezeRespected actorId (events ++ [event]) := by
  intro i j frozen action hi hfreezes hij hj haction
  have hbound := (List.getElem?_eq_some_iff.mp hj).1
  rw [List.length_append, List.length_singleton] at hbound
  rcases Nat.lt_or_ge j events.length with hold | hnew
  · rw [List.getElem?_append_left (by omega)] at hi
    rw [List.getElem?_append_left hold] at hj
    obtain ⟨k, thaw, hik, hkj, hget, hthaw⟩ := h i j frozen action hi hfreezes hij hj haction
    exact ⟨k, thaw, hik, hkj, by rw [List.getElem?_append_left (by omega), hget], hthaw⟩
  · obtain rfl : j = events.length := by omega
    rw [List.getElem?_concat_length] at hj
    cases hj
    rw [List.getElem?_append_left hij] at hi
    obtain ⟨k, thaw, hik, hk, hget, hthaw⟩ := unfrozen_after (hevent haction) hi hfreezes
    exact ⟨k, thaw, hik, hk, by rw [List.getElem?_append_left hk, hget], hthaw⟩

/-- A freeze is no unfreeze. -/
theorem EventRecord.not_unfreezes_of_freezes {event : EventRecord} {actorId : String}
    (h : event.freezes actorId = true) : event.unfreezes actorId = false := by
  unfold EventRecord.freezes at h
  unfold EventRecord.unfreezes
  split at h
  · next targetId op hop =>
    cases op with
    | unfreeze => simp [LifecycleOp.freezes] at h
    | _ => simp [LifecycleOp.unfreezes]
  · cases h

/-! ## What a request has still to carry out -/

/-- The request has committed a freeze of the agent and not carried it out. -/
def OwesFreeze (actorId : String) (past : Past) : Prop :=
  ∃ op, uncarried past = some (actorId, op) ∧ op.freezes = true

def OwesUnfreeze (actorId : String) (past : Past) : Prop :=
  ∃ op, uncarried past = some (actorId, op) ∧ op.unfreezes = true

def Db.isFrozen (db : Db) (actorId : String) : Prop :=
  ∃ actor, db.actors.find? actorId = some actor ∧ actor.status = .frozen

/-- A request that has not committed has nothing to carry out. -/
theorem uncarried_of_uncommitted {past : Past} (h : committed past = false) :
    uncarried past = none := by
  induction past with
  | nil => rfl
  | cons d rest ih =>
    unfold committed at h
    unfold uncarried
    split at h
    · next heq => cases heq
    · cases h
    · next hnot heq =>
      cases heq
      split
      · next heq => cases heq
      · next heq =>
        cases heq
        exact absurd rfl (hnot _ _)
      · rfl
      · rfl
      · rfl
      · next heq =>
        cases heq
        exact ih h

variable [Externals]

/-- Only a commit of an action adds an action to the log. -/
theorem allowed_commits_action {past : Past} {op : Op} {draft : EventRecord}
    (hallowed : allowed past op) (hcommits : op.Commits draft)
    (haction : draft.actionType = "create" ∨ draft.actionType = "mutate" ∨
      draft.actionType = "execute") : ∃ tx, op = .finalize tx := by
  cases op with
  | finalize tx => exact ⟨tx, rfl⟩
  | triggerHold tx =>
    obtain ⟨env, action, envelope, actor⟩ := hallowed
    cases hcommits
    have htype : (holdTriggerTx env action envelope).event.actionType = "hold_request" := rfl
    rw [htype] at haction
    simp at haction
  | resolveHold tx =>
    obtain ⟨env, action, holdId, decision, instruction, hold, caller⟩ := hallowed
    cases hcommits
    have htype : (holdResolveTx env action holdId decision instruction hold).event.actionType =
        "hold_response" := rfl
    simp only [htype] at haction
    simp at haction
  | expireHold tx =>
    obtain ⟨env, round, hold⟩ := hallowed
    cases hcommits
    have htype : (expireTx env round hold).event.actionType = "hold_timeout" := rfl
    rw [htype] at haction
    simp at haction
  | _ => cases hcommits

/-- What an operation adds to the log. -/
theorem exec_log (op : Op) (db : Db) : (exec op db).2.events.rows = db.events.rows ∨
    ∃ draft v, (exec op db).1 = .ok v ∧ op.Commits draft ∧
      (exec op db).2.events.rows = db.events.rows ++ [draft.placed (nextIdx db)] := by
  rcases exec_cases op db with ⟨v, db', htx, hexec⟩ | ⟨e, -, hexec⟩
  · rw [hexec]
    rcases transaction_commits htx with hsame | ⟨draft, hcommits, hrows⟩
    · exact .inl (congrArg Table.rows hsame)
    · exact .inr ⟨draft, v, rfl, hcommits, hrows⟩
  · rw [hexec]
    exact .inl rfl

omit [Externals] in
theorem actionOf_type {event : EventRecord} {actorId : String}
    (h : event.actionOf actorId = true) : event.actionType = "create" ∨
      event.actionType = "mutate" ∨ event.actionType = "execute" := by
  unfold EventRecord.actionOf at h
  simpa [or_assoc] using (Bool.and_eq_true_iff.mp h).2

omit [Externals] in
theorem lifecycle_type {event : EventRecord} {x : String × LifecycleOp}
    (h : event.lifecycle = some x) : event.actionType = "mutate" := by
  unfold EventRecord.lifecycle at h
  split at h
  · next hmutate => exact hmutate
  · cases h

/-! ## Keeping the order -/

/-- The step commits a freeze of the agent, or its termination. -/
def CommitsFreeze (actorId : String) (t : KernelTransition) : Prop :=
  ∃ id tx ev, t.label = .act id ⟨.finalize tx, .ok ev⟩ ∧ tx.event.freezes actorId = true

/-- The step is one in which the request reads the agent's row. -/
def ReadsAgent (id : Nat) (actorId : String) (t : KernelTransition) : Prop :=
  ∃ actor, t.label = .act id ⟨.getActor actorId, .ok (some actor)⟩ ∧ actor.actorType = .agent

/-- The step, after the run before it, keeps the three apart: where a request read an
agent's row and now commits a change of it, nobody had a freeze of the agent to carry
out at the read and nobody committed one since; a freeze commits while nobody has an
unfreeze of the agent to carry out; and no request ends with a freeze left to carry
out. -/
structure KeepsLogOrder (older : List KernelTransition) (t : KernelTransition) : Prop where
  action : ∀ id tx ev actorId, t.label = .act id ⟨.finalize tx, .ok ev⟩ →
    tx.event.actionOf actorId = true → ∀ between read rest, older = between ++ read :: rest →
    ReadsAgent id actorId read → Unspawned id between →
    (∀ task ∈ read.before.tasks, ¬ OwesFreeze actorId task.past) ∧
      ∀ v ∈ between, ¬ CommitsFreeze actorId v
  freeze : ∀ id tx ev actorId, t.label = .act id ⟨.finalize tx, .ok ev⟩ →
    tx.event.freezes actorId = true → ∀ task ∈ t.before.tasks, ¬ OwesUnfreeze actorId task.past
  ends : ∀ task, t.Ends task → ∀ actorId, ¬ OwesFreeze actorId task.past

/-- What holds of an actor's part of the log, its row, and the requests in
flight: where the log says that it is frozen it is an agent, nobody unfreezes
it, and it is frozen or is about to be. -/
structure LogInOrder (actorId : String) (db : Db) (pasts : List Past) : Prop where
  respected : FreezeRespected actorId db.events.rows
  agent : frozenAfter actorId db.events.rows = true →
    ∃ agent, db.actors.find? actorId = some agent ∧ agent.actorType = .agent
  frozen : frozenAfter actorId db.events.rows = true →
    db.isFrozen actorId ∨ ∃ past ∈ pasts, OwesFreeze actorId past
  settled : frozenAfter actorId db.events.rows = true → ∀ past ∈ pasts,
    ¬ OwesUnfreeze actorId past

omit [Externals] in
theorem isFrozen_kept {op : Op} {db db' : Db} {actorId : String} (h : RowsFrom op db db')
    (hset : ¬ op.SetsStatus actorId .active) (hfrozen : db.isFrozen actorId) :
    db'.isFrozen actorId := by
  obtain ⟨actor, hactor, hstatus⟩ := hfrozen
  obtain ⟨actor', hactor', hchange⟩ := h.kept actorId actor hactor
  refine ⟨actor', hactor', ?_⟩
  rcases hchange.status with hsame | hsets
  · rw [hsame, hstatus]
  · cases hstatus' : actor'.status with
    | frozen => rfl
    | active =>
      rw [hstatus'] at hsets
      exact absurd hsets hset

/-- A frozen row stays frozen, a freeze that was owed is owed still or carried out, and
no unfreeze is owed that was not. -/
structure KeepsFrozen (actorId : String) (db db' : Db) (pasts pasts' : List Past) : Prop where
  row : db.isFrozen actorId → db'.isFrozen actorId
  owed : ∀ past ∈ pasts, OwesFreeze actorId past →
    db'.isFrozen actorId ∨ ∃ past' ∈ pasts', OwesFreeze actorId past'
  thaws : ∀ past ∈ pasts', OwesUnfreeze actorId past → ∃ past' ∈ pasts, OwesUnfreeze actorId past'

omit [Externals] in
/-- The log says what it said, and where the actor is frozen the row and the
requests that owe something account for it as before. -/
theorem LogInOrder.congr {actorId : String} {db db' : Db} {pasts pasts' : List Past}
    (h : LogInOrder actorId db pasts)
    (hrespected : FreezeRespected actorId db.events.rows → FreezeRespected actorId db'.events.rows)
    (hafter : frozenAfter actorId db'.events.rows = frozenAfter actorId db.events.rows)
    (hlater : Later db db')
    (hkept : frozenAfter actorId db.events.rows = true →
      KeepsFrozen actorId db db' pasts pasts') :
    LogInOrder actorId db' pasts' := by
  constructor
  · exact hrespected h.respected
  · rw [hafter]
    intro hfrozen
    exact agent_later hlater (h.agent hfrozen)
  · rw [hafter]
    intro hfrozen
    rcases h.frozen hfrozen with hstatus | ⟨past, hpast, hfreeze⟩
    · exact .inl ((hkept hfrozen).row hstatus)
    · exact (hkept hfrozen).owed past hpast hfreeze
  · rw [hafter]
    intro hfrozen past hpast hunfreeze
    obtain ⟨past', hpast', hunfreeze'⟩ := (hkept hfrozen).thaws past hpast hunfreeze
    exact h.settled hfrozen past' hpast' hunfreeze'

/-- A commit of an action. -/
theorem LogInOrder.commit {actorId : String} {db db' : Db} {others : List Past} {past : Past}
    {tx : FinalizeTx} {ev : EventRecord} {idx : Nat} (hallowed : FinalizeAllowed past tx)
    (hknown : ∀ d ∈ past, known db d)
    (hrows : db'.events.rows = db.events.rows ++ [tx.event.placed idx]) (hlater : Later db db')
    (hactors : RowsFrom (.finalize tx) db db')
    (haction : tx.event.actionOf actorId = true → frozenAfter actorId db.events.rows = false)
    (hfreeze : tx.event.freezes actorId = true → ∀ p ∈ past :: others, ¬ OwesUnfreeze actorId p)
    (h : LogInOrder actorId db (past :: others)) :
    LogInOrder actorId db' ((⟨.finalize tx, .ok ev⟩ :: past) :: others) := by
  have hfreezes : (tx.event.placed idx).freezes actorId = tx.event.freezes actorId := rfl
  have hunfreezes : (tx.event.placed idx).unfreezes actorId = tx.event.unfreezes actorId := rfl
  have hcarries : uncarried (⟨.finalize tx, .ok ev⟩ :: past) = tx.event.lifecycle := rfl
  have hnothing : uncarried past = none := by
    obtain ⟨env, action, artifactHash, -, -, -, -, -, -, huncommitted, -, -⟩ := hallowed
    exact uncarried_of_uncommitted huncommitted
  -- what the event is, the request has to carry out
  have howesFreeze : OwesFreeze actorId (⟨.finalize tx, .ok ev⟩ :: past) ↔
      tx.event.freezes actorId = true := by
    unfold OwesFreeze EventRecord.freezes
    rw [hcarries]
    cases tx.event.lifecycle with
    | none => simp
    | some x =>
      obtain ⟨targetId, op⟩ := x
      simp [and_assoc]
  have howesUnfreeze : OwesUnfreeze actorId (⟨.finalize tx, .ok ev⟩ :: past) ↔
      tx.event.unfreezes actorId = true := by
    unfold OwesUnfreeze EventRecord.unfreezes
    rw [hcarries]
    cases tx.event.lifecycle with
    | none => simp
    | some x =>
      obtain ⟨targetId, op⟩ := x
      simp [and_assoc]
  have hafter : frozenAfter actorId db'.events.rows =
      if tx.event.freezes actorId then true
      else if tx.event.unfreezes actorId then false else frozenAfter actorId db.events.rows := by
    rw [hrows, frozenAfter_append, hfreezes, hunfreezes]
  constructor
  · rw [hrows]
    exact h.respected.append haction
  · rw [hafter]
    intro hfrozen
    split at hfrozen
    · next hfreezes' =>
      unfold EventRecord.freezes at hfreezes'
      split at hfreezes'
      · next targetId op hop =>
        obtain ⟨htarget, -⟩ := Bool.and_eq_true_iff.mp hfreezes'
        obtain rfl : targetId = actorId := of_decide_eq_true htarget
        obtain ⟨-, target, -, -, hsaw, hagent⟩ := hallowed.targets hop
        obtain ⟨agent, hfind, htype⟩ := ActorLasts.later hlater (hknown _ hsaw)
        exact ⟨agent, hfind, htype.trans hagent⟩
      · cases hfreezes'
    · split at hfrozen
      · cases hfrozen
      · exact agent_later hlater (h.agent hfrozen)
  · rw [hafter]
    intro hfrozen
    by_cases hfreezes' : tx.event.freezes actorId = true
    · exact .inr ⟨_, List.mem_cons_self, howesFreeze.mpr hfreezes'⟩
    rw [if_neg hfreezes'] at hfrozen
    split at hfrozen
    · cases hfrozen
    rcases h.frozen hfrozen with hrow | ⟨p, hp, howes⟩
    · exact .inl (isFrozen_kept hactors (fun hset => hset) hrow)
    · rcases List.mem_cons.mp hp with rfl | hp
      · obtain ⟨op, hop, -⟩ := howes
        rw [hnothing] at hop
        cases hop
      · exact .inr ⟨p, List.mem_cons_of_mem _ hp, howes⟩
  · rw [hafter]
    intro hfrozen p hp howes
    by_cases hfreezes' : tx.event.freezes actorId = true
    · rcases List.mem_cons.mp hp with rfl | hp
      · have hnot := EventRecord.not_unfreezes_of_freezes hfreezes'
        rw [howesUnfreeze.mp howes] at hnot
        cases hnot
      · exact hfreeze hfreezes' p (List.mem_cons_of_mem _ hp) howes
    rw [if_neg hfreezes'] at hfrozen
    split at hfrozen
    · cases hfrozen
    next hthaw =>
    rcases List.mem_cons.mp hp with rfl | hp
    · exact hthaw (howesUnfreeze.mp howes)
    · exact h.settled hfrozen p (List.mem_cons_of_mem _ hp) howes

/-- An event that is no action says nothing of anybody's freezing. -/
theorem log_of_no_action {actorId : String} {op : Op} {past : Past} {db : Db}
    (hallowed : allowed past op) (hop : ∀ tx, op ≠ .finalize tx) :
    (FreezeRespected actorId db.events.rows →
      FreezeRespected actorId (exec op db).2.events.rows) ∧
    frozenAfter actorId (exec op db).2.events.rows = frozenAfter actorId db.events.rows := by
  rcases exec_log op db with hsame | ⟨draft, v, -, hcommits, hrows⟩
  · rw [hsame]
    exact ⟨id, rfl⟩
  have hnot : ¬ (draft.actionType = "create" ∨ draft.actionType = "mutate" ∨
      draft.actionType = "execute") := by
    intro haction
    obtain ⟨tx, rfl⟩ := allowed_commits_action hallowed hcommits haction
    exact hop tx rfl
  have hnone : (draft.placed (nextIdx db)).lifecycle = none := by
    cases hlifecycle : (draft.placed (nextIdx db)).lifecycle with
    | none => rfl
    | some x => exact absurd (.inr (.inl (lifecycle_type hlifecycle))) hnot
  have hact : (draft.placed (nextIdx db)).actionOf actorId ≠ true :=
    fun h => hnot (actionOf_type h)
  rw [hrows]
  refine ⟨fun h => h.append fun h => absurd h hact, ?_⟩
  rw [frozenAfter_append]
  unfold EventRecord.freezes EventRecord.unfreezes
  rw [hnone]
  rfl

/-- Every operation but a commit of an action. -/
theorem LogInOrder.other {actorId : String} {db : Db} {others : List Past} {past : Past} {op : Op}
    (hallowed : allowed past op) (hknown : ∀ d ∈ past, known db d) (htargets : Targets past)
    (hop : ∀ tx, op ≠ .finalize tx) (h : LogInOrder actorId db (past :: others)) :
    LogInOrder actorId (exec op db).2 ((⟨op, (exec op db).1⟩ :: past) :: others) := by
  obtain ⟨hrespected, hafter⟩ := @log_of_no_action _ actorId op past db hallowed hop
  have hrows := exec_rows op db
  refine h.congr hrespected hafter (exec_later op db) ?_
  intro hfrozen
  -- what the request still has to carry out, it had before
  have hsame : uncarried (⟨op, (exec op db).1⟩ :: past) = uncarried past →
      (¬ op.SetsStatus actorId .active) →
      KeepsFrozen actorId db (exec op db).2 (past :: others)
        ((⟨op, (exec op db).1⟩ :: past) :: others) := by
    intro hkeeps hset
    refine ⟨isFrozen_kept hrows hset, ?_, ?_⟩
    · intro p hp howes
      rcases List.mem_cons.mp hp with rfl | hp
      · refine .inr ⟨_, List.mem_cons_self, ?_⟩
        unfold OwesFreeze
        rw [hkeeps]
        exact howes
      · exact .inr ⟨p, List.mem_cons_of_mem _ hp, howes⟩
    · intro p hp howes
      rcases List.mem_cons.mp hp with rfl | hp
      · refine ⟨past, List.mem_cons_self, ?_⟩
        unfold OwesUnfreeze at howes
        rw [hkeeps] at howes
        exact howes
      · exact ⟨p, List.mem_cons_of_mem _ hp, howes⟩
  -- what was carried out is no longer to be carried out
  have hdone : uncarried (⟨op, (exec op db).1⟩ :: past) = none →
      (¬ op.SetsStatus actorId .active) →
      (OwesFreeze actorId past → (exec op db).2.isFrozen actorId) →
      KeepsFrozen actorId db (exec op db).2 (past :: others)
        ((⟨op, (exec op db).1⟩ :: past) :: others) := by
    intro hnone hset hfreeze
    refine ⟨isFrozen_kept hrows hset, ?_, ?_⟩
    · intro p hp howes
      rcases List.mem_cons.mp hp with rfl | hp
      · exact .inl (hfreeze howes)
      · exact .inr ⟨p, List.mem_cons_of_mem _ hp, howes⟩
    · intro p hp howes
      rcases List.mem_cons.mp hp with rfl | hp
      · obtain ⟨lifecycleOp, hop', -⟩ := howes
        rw [hnone] at hop'
        cases hop'
      · exact ⟨p, List.mem_cons_of_mem _ hp, howes⟩
  cases op with
  | finalize tx => exact absurd rfl (hop tx)
  | executeFreeze targetId =>
    obtain ⟨targetId', lifecycleOp, agent, hcall, huncarried, hagent, -⟩ :=
      CarryAllowed.agent hallowed htargets hknown
    obtain rfl : targetId = targetId' := by
      cases lifecycleOp <;> cases hcall <;> rfl
    have hexists : (db.actors.find? targetId).isSome := by
      rw [hagent]
      rfl
    rcases exec_executeFreeze hexists with ⟨-, db', hexec, hfind⟩ | ⟨-, e, hexec⟩
    swap
    · exact hsame (by rw [hexec, uncarried_error]) (fun hset => by cases hset)
    refine hdone (by rw [hexec]; rfl) (fun hset => by cases hset) ?_
    rintro ⟨lifecycleOp', hop', -⟩
    rw [huncarried] at hop'
    obtain ⟨rfl, -⟩ := Prod.mk.inj (Option.some.inj hop')
    have hrow := hfind targetId
    rw [if_pos (show targetId ∈ frozenBy targetId db from List.mem_cons_self), hagent] at hrow
    rw [hexec]
    exact ⟨_, hrow, rfl⟩
  | executeUnfreeze targetId =>
    obtain ⟨targetId', lifecycleOp, agent, hcall, huncarried, -, -⟩ :=
      CarryAllowed.agent hallowed htargets hknown
    have hthaws : targetId = targetId' ∧ lifecycleOp.unfreezes = true := by
      cases lifecycleOp <;> cases hcall
      exact ⟨rfl, rfl⟩
    obtain ⟨rfl, hthaws⟩ := hthaws
    have hother : ¬ Op.SetsStatus (.executeUnfreeze targetId) actorId .active := by
      rintro ⟨rfl, -⟩
      exact h.settled hfrozen past List.mem_cons_self ⟨lifecycleOp, huncarried, hthaws⟩
    rcases exec_cases (.executeUnfreeze targetId) db with ⟨v, db', -, hexec⟩ | ⟨e, -, hexec⟩
    · refine hdone (by rw [hexec]; rfl) hother ?_
      rintro ⟨lifecycleOp', hop', hfreezes⟩
      rw [huncarried] at hop'
      cases hop'
      cases lifecycleOp <;> simp [LifecycleOp.unfreezes] at hthaws
      simp [LifecycleOp.freezes] at hfreezes
    · exact hsame (by rw [hexec, uncarried_error]) hother
  | executeUpdateEnergyShare targetId energyShare =>
    obtain ⟨targetId', lifecycleOp, agent, hcall, huncarried, -, -⟩ :=
      CarryAllowed.agent hallowed htargets hknown
    rcases exec_cases (.executeUpdateEnergyShare targetId energyShare) db with
      ⟨v, db', -, hexec⟩ | ⟨e, -, hexec⟩
    · refine hdone (by rw [hexec]; rfl) (fun hset => by cases hset) ?_
      rintro ⟨lifecycleOp', hop', hfreezes⟩
      rw [huncarried] at hop'
      cases hop'
      cases lifecycleOp <;> cases hcall
      simp [LifecycleOp.freezes] at hfreezes
    · exact hsame (by rw [hexec, uncarried_error]) (fun hset => by cases hset)
  | _ => exact hsame (uncarried_keeps rfl) (fun hset => by cases hset)

omit [Externals] in
/-- The order of the requests does not matter. -/
theorem LogInOrder.mem_iff {actorId : String} {db : Db} {pasts pasts' : List Past}
    (hmem : ∀ past, past ∈ pasts' ↔ past ∈ pasts) (h : LogInOrder actorId db pasts) :
    LogInOrder actorId db pasts' where
  respected := h.respected
  agent := h.agent
  frozen hfrozen := by
    rcases h.frozen hfrozen with hrow | ⟨past, hpast, howes⟩
    · exact .inl hrow
    · exact .inr ⟨past, (hmem past).mpr hpast, howes⟩
  settled hfrozen past hpast := h.settled hfrozen past ((hmem past).mp hpast)

omit [Externals] in
/-- A request that owes no freeze may leave. -/
theorem LogInOrder.leave {actorId : String} {db : Db} {pasts pasts' : List Past}
    (hsub : ∀ past ∈ pasts', past ∈ pasts)
    (hleft : ∀ past ∈ pasts, past ∈ pasts' ∨ ¬ OwesFreeze actorId past)
    (h : LogInOrder actorId db pasts) : LogInOrder actorId db pasts' where
  respected := h.respected
  agent := h.agent
  frozen hfrozen := by
    rcases h.frozen hfrozen with hrow | ⟨past, hpast, howes⟩
    · exact .inl hrow
    · rcases hleft past hpast with hstays | hnot
      · exact .inr ⟨past, hstays, howes⟩
      · exact absurd howes hnot
  settled hfrozen past hpast := h.settled hfrozen past (hsub past hpast)

omit [Externals] in
/-- Of a request only what it has still to carry out matters. -/
theorem LogInOrder.uncarried_eq {actorId : String} {db : Db} {others : List Past}
    {past past' : Past} (hsame : uncarried past' = uncarried past)
    (h : LogInOrder actorId db (past :: others)) : LogInOrder actorId db (past' :: others) := by
  have howesFreeze : OwesFreeze actorId past' ↔ OwesFreeze actorId past := by
    unfold OwesFreeze
    rw [hsame]
  have howesUnfreeze : OwesUnfreeze actorId past' ↔ OwesUnfreeze actorId past := by
    unfold OwesUnfreeze
    rw [hsame]
  refine ⟨h.respected, h.agent, ?_, ?_⟩
  · intro hfrozen
    rcases h.frozen hfrozen with hrow | ⟨p, hp, howes⟩
    · exact .inl hrow
    rcases List.mem_cons.mp hp with rfl | hp
    · exact .inr ⟨past', List.mem_cons_self, howesFreeze.mpr howes⟩
    · exact .inr ⟨p, List.mem_cons_of_mem _ hp, howes⟩
  · intro hfrozen p hp
    rcases List.mem_cons.mp hp with rfl | hp
    · rw [howesUnfreeze]
      exact h.settled hfrozen past List.mem_cons_self
    · exact h.settled hfrozen p (List.mem_cons_of_mem _ hp)

/-- The pasts of the requests in flight. -/
def pasts (tasks : List (Task KernelSig (KernelResult Outcome))) : List Past := tasks.map (·.past)

omit [Externals] in
theorem mem_pasts_middle {before after : List (Task KernelSig (KernelResult Outcome))}
    {t : Task KernelSig (KernelResult Outcome)} (past : Past) :
    past ∈ t.past :: pasts (before ++ after) ↔ past ∈ pasts (before ++ t :: after) := by
  unfold pasts
  simp only [List.map_append, List.map_cons, List.mem_cons, List.mem_append]
  tauto

/-! ## What the check shows -/

/-- A request that commits a change of an actor has read its row, and the row said
that the actor is active. -/
theorem FinalizeAllowed.sawActive {past : Past} {tx : FinalizeTx} {actorId : String}
    (h : FinalizeAllowed past tx) (hact : tx.event.actionOf actorId = true) :
    (∃ newer older, past = newer ++ ⟨.getActor actorId, .ok none⟩ :: older ∧
        Saw older (.actorExists actorId) true) ∨
      ∃ actor, Saw past (.getActor actorId) (some actor) ∧ actor.status = .active := by
  obtain ⟨env, action, artifactHash, hevent, -, -, hauthorised, -⟩ := h
  rw [hevent] at hact
  obtain rfl : action.actorId = actorId := of_decide_eq_true (Bool.and_eq_true_iff.mp hact).1
  have hchanges : action.actionType.isStateChanging = true := by
    have htype : action.actionType.asStr = "create" ∨ action.actionType.asStr = "mutate" ∨
      action.actionType.asStr = "execute" := actionOf_type hact
    cases haction : action.actionType <;> rw [haction] at htype
    · simp [ActionType.asStr] at htype
    all_goals rfl
  have hstatus : ∀ actor, checkFrozen actor action = .ok () → actor.status = .active := by
    intro actor hpassed
    cases hactor : actor.status with
    | active => rfl
    | frozen =>
      unfold checkFrozen at hpassed
      rw [if_pos ⟨hactor, hchanges⟩] at hpassed
      cases hpassed
  generalize tx.authorisedBy = authorisedBy at hauthorised
  cases hauthorised with
  | unknown newer older hfresh hpast hexists => exact .inl ⟨newer, older, hpast, hexists⟩
  | free actor hsaw hfree hpassed => exact .inr ⟨actor, hsaw, hstatus actor hpassed⟩
  | covered actor envelope hsaw htype hfresh hcovers hhold hpassed =>
    exact .inr ⟨actor, hsaw, hstatus actor hpassed⟩

/-- A log that says an actor is frozen said so before any step but a commit of a
freeze. -/
theorem KernelRun.frozenAfter_before {tr : List KernelTransition} {pool pool' : KernelPool}
    {l : Label KernelSig (KernelResult Outcome) Request} (h : KernelRun tr pool)
    (hs : Step kernelSystem pool l pool') {actorId : String}
    (hl : ¬ CommitsFreeze actorId ⟨pool, l⟩)
    (hfrozen : frozenAfter actorId pool'.store.events.rows = true) :
    frozenAfter actorId pool.store.events.rows = true := by
  obtain ⟨hinv, hkeeps⟩ := kernelContract.run h (fun _ _ _ _ _ => trivial)
  cases hs with
  | act store before after id op k past =>
    have hme := hkeeps ⟨id, .vis op k, past⟩ (by simp)
    replace hfrozen : frozenAfter actorId (exec op store).2.events.rows = true := hfrozen
    show frozenAfter actorId store.events.rows = true
    by_cases hop : ∃ tx, op = .finalize tx
    swap
    · have hsame := (@log_of_no_action _ actorId op past store hme.honors.1
        fun tx heq => hop ⟨tx, heq⟩).2
      rwa [hsame] at hfrozen
    obtain ⟨tx, rfl⟩ := hop
    rcases exec_cases (.finalize tx) store with ⟨ev, db', htx, hexec⟩ | ⟨e, -, hexec⟩
    swap
    · rwa [hexec] at hfrozen
    have hnot : ¬ tx.event.freezes actorId = true := by
      intro hfreezes
      refine hl ⟨id, tx, ev, ?_, hfreezes⟩
      have hlabel : (Label.act id ⟨.finalize tx, (exec (.finalize tx) store).1⟩ :
          Label KernelSig (KernelResult Outcome) Request) = .act id ⟨.finalize tx, .ok ev⟩ := by
        rw [hexec]
      exact hlabel
    rw [hexec, transaction_appends htx rfl, frozenAfter_append] at hfrozen
    rw [if_neg (show ¬ (tx.event.placed _).freezes actorId = true from hnot)] at hfrozen
    split at hfrozen
    · cases hfrozen
    · exact hfrozen
  | restart store store' tasks hboot => rwa [bootstrap_eq hinv.1 hboot] at hfrozen
  | _ => exact hfrozen

/-- Without a commit of a freeze a log does not come to say that an actor is frozen. -/
theorem KernelRun.frozenAfter_since {between rest : List KernelTransition} {t : KernelTransition}
    {pool : KernelPool} (h : KernelRun (between ++ t :: rest) pool) {actorId : String}
    (hnone : ∀ v ∈ between ++ [t], ¬ CommitsFreeze actorId v)
    (hfrozen : frozenAfter actorId pool.store.events.rows = true) :
    frozenAfter actorId t.before.store.events.rows = true := by
  induction between generalizing pool with
  | nil =>
    cases h with
    | step hr hs => exact KernelRun.frozenAfter_before hr hs (hnone _ (by simp)) hfrozen
  | cons v between ih =>
    cases h with
    | step hr hs =>
      obtain ⟨hv, hnone⟩ := List.forall_mem_cons.mp hnone
      exact ih hr hnone (KernelRun.frozenAfter_before hr hs hv hfrozen)

/-! ## Along every run -/

/-- Every step keeps the three apart, after the run before it. -/
def StepsApart (tr : List KernelTransition) : Prop :=
  ∀ newer t older, tr = newer ++ t :: older → KeepsLogOrder older t

omit [Externals] in
theorem StepsApart.upTo (newer : List KernelTransition) {older : List KernelTransition}
    (h : StepsApart (newer ++ older)) : StepsApart older := by
  rintro newer' t older' rfl
  exact h (newer ++ newer') t older' (List.append_assoc ..).symm

/-- A change that is committed is one of an actor that the log does not say is frozen,
if the log was in order whenever the request read the actor's row. -/
theorem KernelRun.unfrozen_of_checked {older : List KernelTransition} {pool : KernelPool}
    (h : KernelRun older pool) {tx : FinalizeTx} {ev : EventRecord} {actorId : String}
    {task : Task KernelSig (KernelResult Outcome)} (htask : task ∈ pool.tasks)
    (hallowed : FinalizeAllowed task.past tx) (hact : tx.event.actionOf actorId = true)
    (hgood : KeepsLogOrder older ⟨pool, .act task.id ⟨.finalize tx, .ok ev⟩⟩)
    (hreads : ∀ between t rest, older = between ++ t :: rest →
      LogInOrder actorId t.before.store (pasts t.before.tasks))
    (hnow : LogInOrder actorId pool.store (pasts pool.tasks)) :
    frozenAfter actorId pool.store.events.rows = false := by
  by_contra hfrozen
  rw [Bool.not_eq_false] at hfrozen
  obtain ⟨agent, hagent, htype⟩ := hnow.agent hfrozen
  rcases hallowed.sawActive hact with ⟨newer, past, hpast, hexists⟩ | ⟨actor, hsaw, hactive⟩
  · have hconsistent := KernelRun.consistent h task htask
    rw [hpast] at hconsistent
    exact hconsistent.suffix.1 actorId rfl hexists
  obtain ⟨recent, past, hpast⟩ := List.append_of_mem hsaw
  obtain ⟨between, read, rest, prog, rfl, hlabel, -, hanswer, hsame⟩ :=
    KernelRun.read h htask rfl hpast
  have hrow : read.before.store.actors.find? actorId = some actor := Except.ok.inj hanswer
  have hisAgent : actor.actorType = .agent := by
    obtain ⟨actor', hfind, hsameType⟩ := ((KernelRun.keeps h).2 task htask).known _ hsaw
    rw [hagent] at hfind
    cases hfind
    exact hsameType.symm.trans htype
  obtain ⟨hnobody, hsince⟩ := hgood.action task.id tx ev actorId rfl hact between read rest rfl
    ⟨actor, hlabel, hisAgent⟩ hsame
  -- the row said that the actor is active, so the log did not say that it is frozen
  have hthen := hreads between read rest rfl
  have hread : ¬ CommitsFreeze actorId read := by
    rintro ⟨id', tx', ev', hlabel', -⟩
    cases hlabel.symm.trans hlabel'
  have hnone : ∀ v ∈ between ++ [read], ¬ CommitsFreeze actorId v := by
    simpa [or_imp, forall_and] using ⟨hsince, hread⟩
  have hfrozenThen := KernelRun.frozenAfter_since h hnone hfrozen
  rcases hthen.frozen hfrozenThen with ⟨actor', hactor', hstatus⟩ | ⟨p, hp, howes⟩
  · rw [hrow] at hactor'
    cases hactor'
    rw [hactive] at hstatus
    cases hstatus
  · obtain ⟨task', htask', rfl⟩ := List.mem_map.mp hp
    exact hnobody task' htask' howes

/-- One step of a run that is in order. -/
theorem LogInOrder.step {tr : List KernelTransition} {pool pool' : KernelPool}
    {l : Label KernelSig (KernelResult Outcome) Request} {actorId : String} (hr : KernelRun tr pool)
    (hs : Step kernelSystem pool l pool') (hG : KeepsLogOrder tr ⟨pool, l⟩)
    (hreads : ∀ between t rest, tr = between ++ t :: rest →
      LogInOrder actorId t.before.store (pasts t.before.tasks))
    (hP : LogInOrder actorId pool.store (pasts pool.tasks)) :
    LogInOrder actorId pool'.store (pasts pool'.tasks) := by
  obtain ⟨hinv, hkeeps⟩ := kernelContract.run hr (fun _ _ _ _ _ => trivial)
  -- a request that is replaced in the middle of the others
  have hmiddle : ∀ {db db' : Db} {before after : List (Task KernelSig (KernelResult Outcome))}
      {t t' : Task KernelSig (KernelResult Outcome)},
      LogInOrder actorId db (pasts (before ++ t :: after)) →
      (LogInOrder actorId db (t.past :: pasts (before ++ after)) →
        LogInOrder actorId db' (t'.past :: pasts (before ++ after))) →
      LogInOrder actorId db' (pasts (before ++ t' :: after)) := by
    intro db db' before after t t' hold hstep
    exact (hstep (hold.mem_iff mem_pasts_middle)).mem_iff fun past => (mem_pasts_middle past).symm
  -- a request that leaves from the middle of the others
  have hleaves : ∀ {db : Db} {before after : List (Task KernelSig (KernelResult Outcome))}
      {t : Task KernelSig (KernelResult Outcome)}, ¬ OwesFreeze actorId t.past →
      LogInOrder actorId db (pasts (before ++ t :: after)) →
      LogInOrder actorId db (pasts (before ++ after)) := by
    intro db before after t hnot hold
    refine (hold.mem_iff mem_pasts_middle).leave (fun past => List.mem_cons_of_mem _) ?_
    intro past hpast
    rcases List.mem_cons.mp hpast with rfl | hpast
    · exact .inr hnot
    · exact .inl hpast
  cases hs with
  | spawn store tasks id r hfresh =>
    refine ⟨hP.respected, hP.agent, ?_, ?_⟩
    · intro hfrozen
      rcases hP.frozen hfrozen with hrow | ⟨past, hpast, howes⟩
      · exact .inl hrow
      · exact .inr ⟨past, List.mem_cons_of_mem _ hpast, howes⟩
    · intro hfrozen past hpast
      rcases List.mem_cons.mp hpast with rfl | hpast
      · rintro ⟨op, hop, -⟩
        cases hop
      · exact hP.settled hfrozen past hpast
  | act store before after id op k past =>
    have hmem : (⟨id, .vis op k, past⟩ : Task KernelSig (KernelResult Outcome)) ∈
        before ++ ⟨id, .vis op k, past⟩ :: after := by simp
    have hme := hkeeps _ hmem
    refine hmiddle hP ?_
    intro hold
    show LogInOrder actorId (exec op store).2
      ((⟨op, (exec op store).1⟩ :: past) :: pasts (before ++ after))
    by_cases hop : ∃ tx, op = .finalize tx
    swap
    · refine hold.other hme.honors.1 hme.known (KernelRun.targets hr _ hmem) ?_
      rintro tx rfl
      exact hop ⟨tx, rfl⟩
    obtain ⟨tx, rfl⟩ := hop
    rcases exec_cases (.finalize tx) store with ⟨ev, db', htx, hexec⟩ | ⟨e, -, hexec⟩
    swap
    · rw [hexec]
      exact hold.uncarried_eq (uncarried_error ..)
    have hlabel : (Label.act id ⟨.finalize tx, (exec (.finalize tx) store).1⟩ :
        Label KernelSig (KernelResult Outcome) Request) = .act id ⟨.finalize tx, .ok ev⟩ := by
      rw [hexec]
    have hlater := exec_later (.finalize tx) store
    have hactors := exec_rows (.finalize tx) store
    rw [hexec] at hlater hactors ⊢
    refine hold.commit hme.honors.1 hme.known (transaction_appends htx rfl) hlater hactors ?_ ?_
    · intro hact
      have hgood : KeepsLogOrder tr ⟨⟨store, before ++ ⟨id, .vis (.finalize tx) k, past⟩ :: after⟩,
          .act id ⟨.finalize tx, .ok ev⟩⟩ := by
        rw [← hlabel]
        exact hG
      exact KernelRun.unfrozen_of_checked hr hmem hme.honors.1 hact hgood hreads hP
    · intro hfreezes p hp
      have hp : p ∈ pasts (before ++ ⟨id, .vis (.finalize tx) k, past⟩ :: after) :=
        (mem_pasts_middle p).mp hp
      obtain ⟨task, htask, rfl⟩ := List.mem_map.mp hp
      exact hG.freeze id tx ev actorId hlabel hfreezes task htask
  | fault store before after id op k past x hx =>
    refine hmiddle hP ?_
    intro hold
    exact hold.uncarried_eq (uncarried_fault hx)
  | again store before after id a p past hp => exact hmiddle hP fun hold => hold
  | finish store before after id a past hp =>
    exact hleaves (hG.ends ⟨id, .ret a, past⟩ ⟨by simp, .inl ⟨a, rfl⟩⟩ actorId) hP
  | cancel store before after t =>
    exact hleaves (hG.ends t ⟨by simp, .inr (.inl rfl)⟩ actorId) hP
  | restart store store' tasks hboot =>
    rw [bootstrap_eq hinv.1 hboot]
    refine hP.leave (fun past hpast => nomatch hpast) ?_
    intro past hpast
    obtain ⟨task, htask, rfl⟩ := List.mem_map.mp hpast
    exact .inr (hG.ends task ⟨htask, .inr (.inr rfl)⟩ actorId)

/-- The log is in order in every state, by induction on the run: a commit goes back to
the earlier state in which its request read the actor's row. -/
theorem KernelRun.logInOrder (actorId : String) {tr : List KernelTransition} {pool : KernelPool}
    (h : KernelRun tr pool) (hgood : StepsApart tr) :
    LogInOrder actorId pool.store (pasts pool.tasks) := by
  cases h with
  | start =>
    constructor
    · intro i j frozen action hi
      cases hi
    all_goals
      intro hfrozen
      cases hfrozen
  | @step tr before _ l hr hs =>
    have hgood' : StepsApart tr := StepsApart.upTo [⟨before, l⟩] hgood
    refine LogInOrder.step hr hs (hgood [] _ tr rfl) ?_ (KernelRun.logInOrder actorId hr hgood')
    rintro between t rest rfl
    exact KernelRun.logInOrder actorId (Run.upTo hr).1 (StepsApart.upTo (between ++ [t])
      (by simpa using hgood'))
termination_by tr.length
decreasing_by all_goals (subst_vars; simp; try omega)

/-- In every run whose steps keep checks, freezes and unfreezes of an agent
apart, the log has no action of the agent between a freeze and the next
unfreeze. -/
theorem run_freezes_in_log_order {tr : List KernelTransition} {pool : KernelPool}
    (h : KernelRun tr pool) (hgood : StepsApart tr) (actorId : String) :
    FreezeRespected actorId pool.store.events.rows :=
  (KernelRun.logInOrder actorId h hgood).respected

/-- Whether nobody in flight at the step has a freeze of the agent to carry out, and
the step commits none. -/
def noFreeze (actorId : String) (t : KernelTransition) : Bool :=
  (t.before.tasks.all fun task =>
    match uncarried task.past with
    | some (targetId, op) => !(targetId = actorId && op.freezes)
    | none => true) &&
  match t.label with
  | .act _ ⟨.finalize tx, .ok _⟩ => !tx.event.freezes actorId
  | _ => true

/-- A step that keeps the order, as can be read off it and the steps since its request
was spawned. -/
def keepsLogOrder (older : List KernelTransition) (t : KernelTransition) : Bool :=
  match t.label with
  | .act id ⟨.finalize tx, .ok _⟩ =>
    (!tx.event.actionOf tx.event.actorId ||
      (older.takeWhile fun v => match v.label with
        | .spawn id' _ => decide (id' ≠ id)
        | _ => true).all (noFreeze tx.event.actorId)) &&
    (match tx.event.lifecycle with
    | none => true
    | some (actorId, freeze) => !freeze.freezes || t.before.tasks.all fun task =>
        match uncarried task.past with
        | some (targetId, op) => !(targetId = actorId && op.unfreezes)
        | none => true)
  | .finish .. | .cancel _ | .restart =>
    t.before.tasks.all fun task => (uncarried task.past).isNone
  | _ => true

omit [Externals] in
/-- Who owes nothing of a kind to an actor, as can be read off its past. -/
theorem not_owes {actorId : String} {kind : LifecycleOp → Bool} {past : Past}
    (h : (match uncarried past with
      | some (targetId, op) => !(targetId = actorId && kind op)
      | none => true) = true) :
    ¬ ∃ op, uncarried past = some (actorId, op) ∧ kind op = true := by
  rintro ⟨op, hop, hkind⟩
  rw [hop] at h
  simp [hkind] at h

omit [Externals] in
theorem noFreeze_sound {actorId : String} {t : KernelTransition} (h : noFreeze actorId t = true) :
    (∀ task ∈ t.before.tasks, ¬ OwesFreeze actorId task.past) ∧ ¬ CommitsFreeze actorId t := by
  obtain ⟨htasks, hlabel⟩ := Bool.and_eq_true_iff.mp h
  refine ⟨fun task htask => not_owes (List.all_eq_true.mp htasks task htask), ?_⟩
  rintro ⟨id, tx, ev, hcommit, hfreezes⟩
  rw [hcommit] at hlabel
  simp [hfreezes] at hlabel

omit [Externals] in
theorem keepsLogOrder_sound {older : List KernelTransition} {t : KernelTransition}
    (h : keepsLogOrder older t = true) : KeepsLogOrder older t := by
  refine ⟨?_, ?_, ?_⟩
  · intro id tx ev actorId hlabel haction between read rest holder hread hsame
    unfold keepsLogOrder at h
    rw [hlabel] at h
    obtain ⟨hact, -⟩ := Bool.and_eq_true_iff.mp h
    obtain ⟨hname, -⟩ := Bool.and_eq_true_iff.mp haction
    obtain rfl : tx.event.actorId = actorId := of_decide_eq_true hname
    simp only [haction, Bool.not_true, Bool.false_or, holder] at hact
    rw [List.takeWhile_append_of_pos, List.all_append, Bool.and_eq_true] at hact
    swap
    · intro v hv
      split
      · next id' r hspawn =>
        refine decide_eq_true ?_
        rintro rfl
        exact hsame v hv r hspawn
      · rfl
    obtain ⟨actor, hreads, -⟩ := hread
    rw [List.takeWhile_cons_of_pos (by rw [hreads]), List.all_cons, Bool.and_eq_true] at hact
    exact ⟨(noFreeze_sound hact.2.1).1,
      fun v hv => (noFreeze_sound (List.all_eq_true.mp hact.1 v hv)).2⟩
  · intro id tx ev actorId hlabel hfreezes
    unfold keepsLogOrder at h
    rw [hlabel] at h
    obtain ⟨-, hfreeze⟩ := Bool.and_eq_true_iff.mp h
    unfold EventRecord.freezes at hfreezes
    split at hfreezes
    · next targetId op hop =>
      obtain ⟨htarget, hkind⟩ := Bool.and_eq_true_iff.mp hfreezes
      obtain rfl : targetId = actorId := of_decide_eq_true htarget
      simp only [hop, hkind, Bool.not_true, Bool.false_or, List.all_eq_true] at hfreeze
      exact fun task htask => not_owes (hfreeze task htask)
    · cases hfreezes
  · rintro task ⟨hmem, hend⟩ actorId ⟨op, hop, -⟩
    have hall : t.before.tasks.all (fun task => (uncarried task.past).isNone) = true := by
      unfold keepsLogOrder at h
      rcases hend with ⟨a, hlabel⟩ | hlabel | hlabel <;> rw [hlabel] at h <;> exact h
    have htask := List.all_eq_true.mp hall task hmem
    rw [hop] at htask
    cases htask

/-- A run that is in order, as can be read off its steps, the newest first. -/
def stepsApart : List KernelTransition → Bool
  | [] => true
  | t :: older => keepsLogOrder older t && stepsApart older

omit [Externals] in
theorem stepsApart_sound {tr : List KernelTransition} (h : stepsApart tr = true) : StepsApart tr := by
  rintro newer t older rfl
  induction newer with
  | nil => exact keepsLogOrder_sound (Bool.and_eq_true_iff.mp h).1
  | cons v newer ih => exact ih (Bool.and_eq_true_iff.mp h).2

/-- An agent acts, is frozen and unfrozen, and acts again. -/
def frozenAndUnfrozen : List (Turn Request) :=
  agentAtWork ++ alone 30 (lifecycleAt 3 "agent-1" "freeze") ++
    alone 30 (lifecycleAt 4 "agent-1" "unfreeze") ++
    alone 30 (submitAt 5 "agent-1" .mutate "workspace/a" (.obj []))

omit [Externals] in
/-- The agent's second action comes after the unfreeze, in the log as in time. -/
theorem frozenAndUnfrozen_in_order :
    ((kernelPlayed frozenAndUnfrozen).pool.store.events.rows.map
        fun event => (event.freezes "agent-1", event.unfreezes "agent-1",
          event.actionOf "agent-1")) =
      [(false, false, false), (false, false, false), (false, false, true), (true, false, false),
        (false, true, false), (false, false, true)] ∧
      FreezeRespected "agent-1" (kernelPlayed frozenAndUnfrozen).pool.store.events.rows := by
  have hplayed : ((kernelPlayed frozenAndUnfrozen).pool.store.events.rows.map
        fun event => (event.freezes "agent-1", event.unfreezes "agent-1",
          event.actionOf "agent-1")) =
        [(false, false, false), (false, false, false), (false, false, true), (true, false, false),
          (false, true, false), (false, false, true)] ∧
      stepsApart (kernelPlayed frozenAndUnfrozen).trace = true := by
    rw [kernelPlayed_eq]
    decide +kernel
  obtain ⟨hlog, hgood⟩ := hplayed
  exact ⟨hlog, @run_freezes_in_log_order reference _ _ (kernelRun_played frozenAndUnfrozen)
    (stepsApart_sound hgood) "agent-1"⟩

/-- A freeze is committed and carried out between the check of an agent's
status and the commit of the agent's action. -/
def frozenTooLate : List (Turn Request) :=
  alone 30 (createAgent 0 "agent-1" 500) ++ alone 30 (grantEnvelope 1 "agent-1" 100 []) ++
    .spawn 1 (submitAt 2 "agent-1" .mutate "workspace/a" (.obj [])) ::
    (List.replicate 5 (.go 1) ++ alone 30 (lifecycleAt 3 "agent-1" "freeze") ++
      List.replicate 20 (.go 1))

omit [Externals] in
/-- The log has the action of an agent right after its freeze: the request had passed
the frozen check before the freeze was carried out. -/
theorem frozenTooLate_out_of_order :
    letI := reference
    ¬ ∀ tr pool, KernelRun tr pool → ∀ actorId, FreezeRespected actorId pool.store.events.rows := by
  intro hclaim
  have hlog : ((kernelPlayed frozenTooLate).pool.store.events.rows.map
      fun event => (event.freezes "agent-1", event.actionOf "agent-1")) =
      [(false, false), (false, false), (true, false), (false, true)] := by
    rw [kernelPlayed_eq]
    decide +kernel
  have hget : ∀ i : Nat, ((kernelPlayed frozenTooLate).pool.store.events.rows[i]?).map
      (fun event => (event.freezes "agent-1", event.actionOf "agent-1")) =
      [(false, false), (false, false), (true, false), (false, true)][i]? := by
    intro i
    rw [← List.getElem?_map, hlog]
  obtain ⟨frozen, hfrozen, hfreezes⟩ := Option.map_eq_some_iff.mp (hget 2)
  obtain ⟨action, haction, hacts⟩ := Option.map_eq_some_iff.mp (hget 3)
  obtain ⟨k, thaw, hlow, hhigh, -⟩ := hclaim _ _ (kernelRun_played frozenTooLate) "agent-1" 2 3
    frozen action hfrozen (Prod.mk.inj hfreezes).1 (by decide) haction (Prod.mk.inj hacts).2
  omega

end PunkgoKernel
