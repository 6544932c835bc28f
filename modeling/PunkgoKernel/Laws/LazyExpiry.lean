import PunkgoKernel.Lib.Reentry
import PunkgoKernel.Laws.Commits
import PunkgoKernel.Laws.Expiry

/-!
# Who else settles a listed hold

The lazy expiry reads the list of pending holds once and settles the late ones one
by one, each in its own transaction. Between the listing and its last settlement
another request may resolve one of them; then the settlement is refused, and the
innocent request fails (`expiringTogether_refused`).

As long as no request resolves a hold that another has still to settle
(`SettlesAlone`), and no commit takes the energy that a pending hold has reserved
(`CommitsClaim`), nobody notices the others: every settlement goes through, and
every request that has listed holds goes on, once they are settled, as if they had
been timed out before it listed them (`run_expires_quietly`). The proof follows the
program of every request: outside the expiry it neither lists nor settles
(`Disciplined`), inside it the holds that are left are still as they were listed
(`Standing`).
-/

namespace PunkgoKernel

open Relational (Table key)
open Resumption

variable [Externals]

/-! ## What a request may find in its way -/

/-- The request has listed the hold, found it late, and has still to settle it. -/
def StillToSettle (prog : KernelProg Outcome) (holdId : String) : Prop :=
  ∃ env secs round left rest, prog = (expireListed env secs round left >>= rest) ∧
    ∃ hold ∈ left, hold.holdId = holdId ∧ late env secs hold = true

/-- No hold that another request has still to settle is resolved in the step. -/
def SettlesAlone (t : KernelTransition) : Prop :=
  ∀ id op v holdId, t.label = .act id ⟨op, .ok v⟩ → op.ends holdId = true →
    ∀ task ∈ t.before.tasks, task.id ≠ id → ¬ StillToSettle task.prog holdId

/-! ## The outcome of a listing -/

/-- A request that has listed the pending holds of an envelope: what it found, and
what it goes on with once the late ones are settled. -/
structure Listing where
  id : Nat
  env : Env
  envelopeId : String
  secs : Int
  holds : List HoldRequest
  rest : Unit → KernelProg Outcome

/-- The holds that are not late: what the request would have listed, had the late
ones been timed out before. -/
def Listing.inTime (l : Listing) : List HoldRequest :=
  l.holds.filter fun hold => !late l.env l.secs hold

/-- The task of the request, with this program. -/
def Listing.at (l : Listing) (prog : KernelProg Outcome) (past : Past) :
    Task KernelSig (KernelResult Outcome) := ⟨l.id, prog, past⟩

/-- The step is the listing, and the lazy expiry asked for it. -/
def Listing.Lists (l : Listing) (t : KernelTransition) : Prop :=
  t.label = .act l.id ⟨.listPendingHoldsForEnvelope l.envelopeId, .ok l.holds⟩ ∧
    ∃ past, l.at (expireTimedOutHolds l.env l.envelopeId l.secs >>= l.rest) past ∈ t.before.tasks

/-- The late ones of these holds have each timed out once. -/
def Listing.Settled (l : Listing) (holds : List HoldRequest) (tr : List KernelTransition)
    (pool : KernelPool) : Prop :=
  ∀ hold ∈ holds, late l.env l.secs hold = true → TimedOutOnce tr pool hold.holdId

/-- What has become of a request since it listed holds: it is still settling them,
it went on as if the late ones had been timed out before, the database denied it
service, or it was cut off while settling. -/
inductive Passage (l : Listing) (since newer : List KernelTransition) (pool : KernelPool) : Prop where
  | settling (done left : List HoldRequest) (past : Past) : l.holds = done ++ left →
      l.at (expireListed l.env l.secs done.length left >>= l.rest) past ∈ pool.tasks →
      l.Settled done (newer ++ since) pool → Passage l since newer pool
  | through (recent between : List KernelTransition) (mid : KernelPool) (past : Past) :
      newer = recent ++ between → KernelRun (between ++ since) mid →
      l.at (expireListed l.env l.secs 0 l.inTime >>= l.rest) past ∈ mid.tasks →
      l.Settled l.holds (between ++ since) mid → l.Settled l.holds (newer ++ since) pool →
      Passage l since newer pool
  | denied (recent between : List KernelTransition) (mid : KernelPool) (past : Past)
      (e : KernelError) : newer = recent ++ between → KernelRun (between ++ since) mid →
      l.at (.ret (.error e)) past ∈ mid.tasks → DatabaseFailure e → Passage l since newer pool
  | cutOff (recent between : List KernelTransition) (t : KernelTransition) (round : Nat)
      (left : List HoldRequest) (past : Past) : newer = recent ++ t :: between →
      t.Ends (l.at (expireListed l.env l.secs round left >>= l.rest) past) →
      Passage l since newer pool

/-- No request notices that others settle holds: each settlement goes through, and
its hold times out once; and whoever lists holds gets past them. -/
structure ExpiresQuietly (tr : List KernelTransition) (pool : KernelPool) : Prop where
  served : ∀ t ∈ tr, ∀ tx x, Expiring t tx x →
    Denied x ∨ (∃ event, x = .ok event) ∧ TimedOutOnce tr pool tx.holdId
  passes : ∀ newer t older, tr = newer ++ t :: older → ∀ id envelopeId holds,
    t.label = .act id ⟨.listPendingHoldsForEnvelope envelopeId, .ok holds⟩ →
    ∃ l : Listing, l.id = id ∧ l.holds = holds ∧ l.Lists t ∧ Passage l (t :: older) newer pool

/-! ## The loop over the listed holds -/

/-- Either nothing of a list is left to settle, or the loop is about to settle the
first of its late holds. -/
theorem expireListed_cases (env : Env) (secs : Int) (round : Nat) (left : List HoldRequest) :
    ((∀ hold ∈ left, late env secs hold = false) ∧ expireListed env secs round left = pure ()) ∨
      ∃ skipped hold rest, left = skipped ++ hold :: rest ∧
        (∀ other ∈ skipped, late env secs other = false) ∧ late env secs hold = true ∧
        expireListed env secs round left =
          (call (.expireHold (expireTx env (round + skipped.length) hold)) >>= fun _ =>
            expireListed env secs (round + skipped.length + 1) rest) := by
  induction left generalizing round with
  | nil => exact .inl ⟨fun _ h => (nomatch h), rfl⟩
  | cons hold rest ih =>
    by_cases hlate : late env secs hold = true
    · exact .inr ⟨[], hold, rest, rfl, fun _ h => (nomatch h), hlate, if_pos hlate⟩
    · have hskip : expireListed env secs round (hold :: rest) =
          expireListed env secs (round + 1) rest := if_neg hlate
      have hfalse : late env secs hold = false := Bool.eq_false_iff.mpr hlate
      rw [hskip]
      rcases ih (round + 1) with ⟨hnone, hpure⟩ | ⟨skipped, next, rest', rfl, hskipped, hnext, hprog⟩
      · exact .inl ⟨List.forall_mem_cons.mpr ⟨hfalse, hnone⟩, hpure⟩
      · refine .inr ⟨hold :: skipped, next, rest', rfl, List.forall_mem_cons.mpr ⟨hfalse, hskipped⟩,
          hnext, ?_⟩
        rw [hprog, List.length_cons]
        have hround : round + 1 + skipped.length = round + (skipped.length + 1) := by omega
        rw [hround]

/-- Without late holds the loop has nothing to do. -/
theorem expireListed_idle {env : Env} {secs : Int} {left : List HoldRequest}
    (h : ∀ hold ∈ left, late env secs hold = false) (round : Nat) :
    expireListed env secs round left = pure () := by
  rcases expireListed_cases env secs round left with ⟨-, hpure⟩ | ⟨skipped, hold, rest, rfl, -, hlate, -⟩
  · exact hpure
  · rw [h hold (by simp)] at hlate
    cases hlate

omit [Externals] in
/-- Of the holds that are in time none is late, so the loop over them has nothing
to do. -/
theorem Listing.inTime_idle (l : Listing) : ∀ hold ∈ l.inTime, late l.env l.secs hold = false := by
  intro hold hmem
  have hnot := (List.mem_filter.mp hmem).2
  exact (Bool.not_eq_true' _).mp hnot

/-! ## The programs of the requests -/

/-- A program that lists and settles holds by the lazy expiry only. -/
inductive Disciplined {α : Type} : KernelProg α → Prop where
  | ret (x : KernelResult α) : Disciplined (.ret x)
  | vis (op : Op) (k : KernelResult (Val op) → KernelProg α) : op.expires = false →
      (∀ x, Disciplined (k x)) → Disciplined (.vis op k)
  | expiry (env : Env) (envelopeId : String) (secs : Int) (rest : Unit → KernelProg α) :
      (∀ u, Disciplined (rest u)) → Disciplined (expireTimedOutHolds env envelopeId secs >>= rest)

/-- Two disciplined parts in a row are disciplined. -/
theorem Disciplined.bind {α β : Type} {p : KernelProg β} {f : β → KernelProg α} (hp : Disciplined p)
    (hf : ∀ b, Disciplined (f b)) : Disciplined (p >>= f) := by
  induction hp with
  | ret x =>
    cases x with
    | error e => exact .ret _
    | ok b => exact hf b
  | vis op k hop _ ih => exact .vis op _ hop ih
  | expiry env envelopeId secs rest _ ih =>
    rw [Attempt.bind_assoc]
    exact .expiry env envelopeId secs _ ih

/-- A program that neither lists holds nor expires any is disciplined. -/
theorem disciplined_of_uses {α : Type} {p : KernelProg α}
    (h : Attempt.Uses (fun op : Op => op.expires = false) p) : Disciplined p := by
  induction p with
  | ret x => exact .ret x
  | vis op k ih => exact .vis op k h.1 fun x => ih x (h.2 x)

/-- An operation that is none of the lazy expiry is disciplined. -/
theorem disciplined_call {op : Op} (h : op.expires = false) : Disciplined (call op) :=
  disciplined_of_uses (uses_call h)

/-- A check is disciplined: it performs nothing. -/
theorem disciplined_check {α : Type} (x : KernelResult α) : Disciplined (check x) := .ret x

/-- A program that only reads rows of its own is disciplined. -/
theorem Reading.disciplined {α : Type} {p : KernelProg α} (h : Reading p) : Disciplined p := by
  refine disciplined_of_uses (Prog.Uses.mono h.uses ?_)
  intro op hop
  cases op <;> first | rfl | cases hop

/-- What follows a commit is disciplined. -/
theorem disciplined_aftermath {α : Type} {p : KernelProg α} (h : p.Uses Op.Aftermath) :
    Disciplined p := by
  refine disciplined_of_uses (Prog.Uses.mono h ?_)
  intro op hop
  cases op <;> first | rfl | cases hop

/-- The lazy expiry itself is disciplined. -/
theorem disciplined_expireTimedOutHolds (env : Env) (envelopeId : String) (secs : Int) :
    Disciplined (expireTimedOutHolds env envelopeId secs) := by
  have hexpiry :=
    Disciplined.expiry env envelopeId secs (pure : Unit → KernelProg Unit) fun _ => .ret _
  rwa [Attempt.bind_pure] at hexpiry

/-- The checks on a change list and expire holds only in the lazy expiry of the
envelope. -/
theorem disciplined_authorizeStateChange (env : Env) (action : Action) (actor : ActorRecord) :
    Disciplined (authorizeStateChange env action actor) := by
  refine (disciplined_call rfl).bind fun envelope => ?_
  have hexpiry : Disciplined (expireEnvelope env envelope) := by
    unfold expireEnvelope
    split
    · exact .ret _
    · split
      · exact (disciplined_call rfl).bind fun _ => .ret _
      · exact .ret _
  refine hexpiry.bind fun found => ?_
  refine (disciplined_check _).bind fun mode => ?_
  split
  · refine (disciplined_check _).bind fun _ => ?_
    have hholds : ∀ e, Disciplined (expireHoldsOf env e) := by
      intro e
      unfold expireHoldsOf
      split
      · split
        · exact disciplined_expireTimedOutHolds _ _ _
        · exact .ret _
      · exact .ret _
    have hcheck : ∀ e, Disciplined (checkHold env action e) := by
      intro e
      unfold checkHold
      split
      · exact (disciplined_call rfl).bind fun _ => .ret _
      · exact .ret _
    exact (hholds _).bind fun _ => (hcheck _).bind fun _ => .ret _
  · exact .ret _

/-- The checks on an actor do so only within the checks on a change. -/
theorem disciplined_authorizeActor (env : Env) (action : Action) :
    Disciplined (authorizeActor env action) := by
  refine (disciplined_call rfl).bind fun found => ?_
  cases found with
  | none => exact .ret _
  | some actor =>
    refine (disciplined_check _).bind fun _ => ?_
    refine (disciplined_check _).bind fun _ => ?_
    refine (reading_checkLineage action actor).disciplined.bind fun _ => ?_
    split
    · exact disciplined_authorizeStateChange env action actor
    · exact .ret _

/-- A response does so only in the lazy expiry that refuses it. -/
theorem disciplined_executeHoldResponse (envs : Nat → Env) (action : Action) (holdId : String)
    (decision : HoldDecision) (instruction : Option String) :
    Disciplined (executeHoldResponse envs action holdId decision instruction) := by
  refine (reading_findActor _).disciplined.bind fun caller => ?_
  refine (disciplined_check _).bind fun _ => ?_
  refine (reading_findHold holdId).disciplined.bind fun hold => ?_
  refine (disciplined_check _).bind fun _ => ?_
  have hrefuse : Disciplined (refuseTimedOut (envs 0) hold) := by
    refine (disciplined_of_uses (Attempt.Uses.outcome (uses_call rfl))).bind fun found => ?_
    split
    · split
      · split
        · exact (disciplined_expireTimedOutHolds _ _ _).bind fun _ => .ret _
        · exact .ret _
      · exact .ret _
    · exact .ret _
  refine hrefuse.bind fun _ => ?_
  refine (disciplined_call rfl).bind fun resolved => ?_
  show Disciplined (if decision = .approve then _ else _)
  split
  · exact .ret _
  · exact .ret _

/-- A commit neither lists holds nor expires any. -/
theorem disciplined_commitAction (env : Env) (action : Action) (auth : Option EnvelopeRecord) :
    Disciplined (commitAction env action auth) := by
  have hreserves : Disciplined (quoteAndReserve action) := by
    refine disciplined_of_uses (Prog.Uses.mono (uses_quoteAndReserve action) ?_)
    rintro op ⟨actorId, cost, rfl⟩
    rfl
  refine (reading_authorizeLifecycle action _).disciplined.bind fun _ => ?_
  refine (reading_parseCreateActorSpec action).disciplined.bind fun createActor => ?_
  refine (reading_parseCreateEnvelopeSpec env action).disciplined.bind fun createEnvelope => ?_
  refine hreserves.bind fun payment => ?_
  refine (disciplined_check _).bind fun artifactHash => ?_
  refine (disciplined_call rfl).bind fun event => ?_
  refine (disciplined_aftermath (uses_recordPolicyVersion _)).bind fun _ => ?_
  refine (disciplined_aftermath (uses_chargeEnvelope action _)).bind fun _ => ?_
  exact (disciplined_aftermath (uses_executeLifecycle _)).bind fun _ => .ret _

/-- A submit lists and expires holds only in the lazy expiry of its checks and of its
response. -/
theorem disciplined_submitAction (envs : Nat → Env) (action : Action) :
    Disciplined (submitAction envs action) := by
  refine (disciplined_check _).bind fun _ => ?_
  refine (reading_requireActor _).disciplined.bind fun _ => ?_
  refine (disciplined_authorizeActor (envs 0) action).bind fun auth => ?_
  cases holdResponse? action with
  | none => exact disciplined_commitAction _ _ _
  | some response =>
    obtain ⟨holdId, decision, instruction⟩ := response
    exact disciplined_executeHoldResponse envs action holdId decision instruction

/-- Every request lists and expires holds only in the lazy expiry. -/
theorem disciplined_program (r : Request) : Disciplined (program r) := by
  rcases uses_program r with ⟨envs, action, rfl⟩ | huses
  · exact disciplined_submitAction envs action
  · refine disciplined_of_uses (Prog.Uses.mono huses ?_)
    intro op hop
    cases op <;> first | rfl | cases hop

/-- What an approval goes on with does so, too. -/
theorem disciplined_again {a : KernelResult Outcome} {p : KernelProg Outcome}
    (h : again a = some p) : Disciplined p := by
  unfold again at h
  split at h
  · cases h
    exact disciplined_submitAction _ _
  · cases h

/-- What a disciplined program asks for next: something else, or a listing for the
lazy expiry. -/
theorem Disciplined.next {α : Type} {op : Op} {k : KernelResult (Val op) → KernelProg α}
    (h : Disciplined (.vis op k)) : (op.expires = false ∧ ∀ x, Disciplined (k x)) ∨
      ∃ env envelopeId secs rest, (∀ u, Disciplined (rest u)) ∧
        (.vis op k : KernelProg α) = (expireTimedOutHolds env envelopeId secs >>= rest) := by
  generalize hp : (.vis op k : KernelProg α) = p at h
  cases h with
  | ret x => cases hp
  | vis op' k' hop hk =>
    cases hp
    exact .inl ⟨hop, hk⟩
  | expiry env envelopeId secs rest hrest => exact .inr ⟨env, envelopeId, secs, rest, hrest, rfl⟩

/-! ## Where a request stands -/

/-- The late ones of these holds are in the database as they were listed. -/
structure Waiting (env : Env) (secs : Int) (left : List HoldRequest) (db : Db) : Prop where
  distinct : (left.map HoldRequest.holdId).Nodup
  pending : ∀ hold ∈ left, late env secs hold = true →
    db.holdRequests.find? hold.holdId = some hold ∧ hold.status = .pending

/-- What is left of a request: a disciplined program, or the rest of a loop with a
disciplined program after it. -/
inductive Standing (db : Db) : KernelProg Outcome → Prop where
  | disciplined {p : KernelProg Outcome} : Disciplined p → Standing db p
  | settling (env : Env) (secs : Int) (round : Nat) (left : List HoldRequest)
      (rest : Unit → KernelProg Outcome) : (∀ u, Disciplined (rest u)) → Waiting env secs left db →
      Standing db (expireListed env secs round left >>= rest)

/-- What a request asks for next, by where it stands. -/
inductive AsksNext (db : Db) : KernelProg Outcome → Prop where
  | other (op : Op) (k : KernelResult (Val op) → KernelProg Outcome) : op.expires = false →
      (∀ x, Disciplined (k x)) → AsksNext db (.vis op k)
  | listing (env : Env) (envelopeId : String) (secs : Int) (rest : Unit → KernelProg Outcome) :
      (∀ u, Disciplined (rest u)) → AsksNext db (expireTimedOutHolds env envelopeId secs >>= rest)
  | settlement (env : Env) (secs : Int) (round : Nat) (hold : HoldRequest)
      (left : List HoldRequest) (rest : Unit → KernelProg Outcome) : (∀ u, Disciplined (rest u)) →
      late env secs hold = true → Waiting env secs (hold :: left) db →
      AsksNext db (call (.expireHold (expireTx env round hold)) >>= fun _ =>
        expireListed env secs (round + 1) left >>= rest)

omit [Externals] in
/-- Holds that are passed over leave the rest waiting as they were. -/
theorem Waiting.skip {env : Env} {secs : Int} {skipped left : List HoldRequest} {db : Db}
    (h : Waiting env secs (skipped ++ left) db) : Waiting env secs left db where
  distinct := by
    have hdistinct := h.distinct
    rw [List.map_append] at hdistinct
    exact hdistinct.of_append_right
  pending := fun hold hmem => h.pending hold (List.mem_append_right _ hmem)

/-- What a request asks for next, wherever it stands: something that has nothing to do
with the lazy expiry, a listing, or the next settlement of a loop. -/
theorem Standing.asks {db : Db} {op : Op} {k : KernelResult (Val op) → KernelProg Outcome}
    (h : Standing db (.vis op k)) : AsksNext db (.vis op k) := by
  have hdisciplined : Disciplined (.vis op k : KernelProg Outcome) → AsksNext db (.vis op k) := by
    intro h
    rcases h.next with ⟨hop, hk⟩ | ⟨env, envelopeId, secs, rest, hrest, hprog⟩
    · exact .other op k hop hk
    · rw [hprog]
      exact .listing env envelopeId secs rest hrest
  generalize hp : (.vis op k : KernelProg Outcome) = p at h
  cases h with
  | disciplined h =>
    subst hp
    exact hdisciplined h
  | settling env secs round left rest hrest hwaiting =>
    rcases expireListed_cases env secs round left with
      ⟨-, hpure⟩ | ⟨skipped, hold, left', rfl, -, hlate, hprog⟩
    · have hrestProg : (.vis op k : KernelProg Outcome) = rest () := by
        rw [hp, hpure, Attempt.pure_bind]
      rw [← hp]
      exact hdisciplined (hrestProg ▸ hrest ())
    · rw [hprog, Attempt.bind_assoc]
      exact .settlement env secs _ hold left' rest hrest hlate hwaiting.skip

/-! ## A settlement goes through -/

/-- A late hold that is as it was listed can be settled, as long as no commit took
the energy it had reserved. -/
theorem outstanding_of_waiting {tr : List KernelTransition} {pool : KernelPool}
    (h : KernelRun tr pool) (hclaims : ∀ t ∈ tr, ¬ CommitsClaim t) {env : Env} {secs : Int}
    {hold : HoldRequest} {left : List HoldRequest}
    (hwaiting : Waiting env secs (hold :: left) pool.store) (hlate : late env secs hold = true)
    (round : Nat) : Outstanding pool.store (expireTx env round hold) := by
  obtain ⟨hrow, hpending⟩ := hwaiting.pending hold List.mem_cons_self hlate
  refine ⟨?_, h.backed hclaims hrow hpending⟩
  show pool.store.isPending hold.holdId = true
  rw [isPending_of_find hrow, hpending]
  rfl

/-- The other holds of the list wait on. -/
theorem Waiting.settled {env : Env} {secs : Int} {hold : HoldRequest} {left : List HoldRequest}
    {db : Db} (h : Waiting env secs (hold :: left) db) (round : Nat) :
    Waiting env secs left (exec (.expireHold (expireTx env round hold)) db).2 := by
  have hdistinct := List.nodup_cons.mp h.distinct
  refine ⟨hdistinct.2, ?_⟩
  intro other hmem hlate
  obtain ⟨hrow, hpending⟩ := h.pending other (List.mem_cons_of_mem _ hmem) hlate
  refine ⟨?_, hpending⟩
  have hother : Op.ends (.expireHold (expireTx env round hold)) other.holdId = false := by
    refine decide_eq_false ?_
    intro (hsame : hold.holdId = other.holdId)
    exact hdistinct.1 (hsame ▸ List.mem_map_of_mem hmem)
  rcases exec_hold_kept hother db with hsame | ⟨hnone, -⟩
  · rw [hsame, hrow]
  · rw [hrow] at hnone
    cases hnone

/-- What others do leaves the listed holds alone, if they resolve none of them. -/
theorem Waiting.others {env : Env} {secs : Int} {left : List HoldRequest} {db : Db}
    (h : Waiting env secs left db) {op : Op}
    (hother : ∀ hold ∈ left, late env secs hold = true → ∀ v, (exec op db).1 = .ok v →
      op.ends hold.holdId = false) : Waiting env secs left (exec op db).2 := by
  refine ⟨h.distinct, ?_⟩
  intro hold hmem hlate
  obtain ⟨hrow, hpending⟩ := h.pending hold hmem hlate
  refine ⟨?_, hpending⟩
  rcases exec_cases op db with ⟨v, db', -, hexec⟩ | ⟨e, -, hexec⟩
  · have hends := hother hold hmem hlate v (congrArg Prod.fst hexec)
    rcases exec_hold_kept hends db with hsame | ⟨hnone, -⟩
    · rw [hsame, hrow]
    · rw [hrow] at hnone
      cases hnone
  · rw [hexec]
    exact hrow

omit [Externals] in
/-- The listing finds the pending holds, each once. -/
theorem waiting_listed (env : Env) (secs : Int) (envelopeId : String) (db : Db) :
    Waiting env secs (EnvelopeStore.listPendingHoldsForEnvelope envelopeId db) db where
  distinct := nodup_listPendingHolds envelopeId db
  pending := by
    intro hold hmem _
    obtain ⟨hrow, hpending, -⟩ := EnvelopeStore.mem_listPendingHolds.mp hmem
    exact ⟨Table.find?_of_mem hrow, hpending⟩

/-! ## Along a run -/

omit [Externals] in
/-- A refused operation of the expiry ends the request with a failure of the
database. -/
theorem refuses_expires {op : Op} (hop : op.expires = true) {x : KernelResult (Val op)}
    (h : refuses op x) : ∃ e, DatabaseFailure e ∧ x = .error e := by
  cases op with
  | listPendingHoldsForEnvelope => exact h
  | expireHold => exact h
  | _ => cases hop

/-- A request that takes a step still stands where it may. -/
theorem Standing.act {db : Db} {op : Op} {k : KernelResult (Val op) → KernelProg Outcome}
    (h : Standing db (.vis op k)) : Standing (exec op db).2 (k (exec op db).1) := by
  have hasks := h.asks
  generalize hp : (.vis op k : KernelProg Outcome) = p at hasks
  cases hasks with
  | other op' k' _ hk =>
    cases hp
    exact .disciplined (hk _)
  | listing env envelopeId secs rest hrest =>
    cases hp
    exact .settling env secs 0 _ rest hrest (waiting_listed env secs envelopeId db)
  | settlement env secs round hold left rest hrest _ hwaiting =>
    cases hp
    cases hx : (exec (.expireHold (expireTx env round hold)) db).1 with
    | error e => exact .disciplined (.ret _)
    | ok event => exact .settling env secs (round + 1) left rest hrest (hwaiting.settled round)

/-- Where the store refuses the operation a request asks for, what is left of the
request is disciplined. -/
theorem Standing.fault {db : Db} {op : Op} {k : KernelResult (Val op) → KernelProg Outcome}
    (h : Standing db (.vis op k)) {x : KernelResult (Val op)} (hx : refuses op x) :
    Standing db (k x) := by
  have hasks := h.asks
  generalize hp : (.vis op k : KernelProg Outcome) = p at hasks
  cases hasks with
  | other op' k' _ hk =>
    cases hp
    exact .disciplined (hk x)
  | listing env envelopeId secs rest hrest =>
    cases hp
    obtain ⟨e, -, rfl⟩ := refuses_expires rfl hx
    exact .disciplined (.ret _)
  | settlement env secs round hold left rest hrest _ hwaiting =>
    cases hp
    obtain ⟨e, -, rfl⟩ := refuses_expires rfl hx
    exact .disciplined (.ret _)

/-- Along a run in which nobody settles for another, every request stands where it may. -/
theorem KernelRun.standing {tr : List KernelTransition} {pool : KernelPool} (h : KernelRun tr pool)
    (halone : ∀ t ∈ tr, SettlesAlone t) : ∀ task ∈ pool.tasks, Standing pool.store task.prog := by
  induction h with
  | start => simp
  | @step tr pool pool' l hr hs ih =>
    have hstanding := ih fun t ht => halone t (List.mem_cons_of_mem _ ht)
    intro task htask
    cases hs.came htask with
    | spawned id r _ => exact .disciplined (disciplined_program r)
    | acted hme =>
      have hstore := hs.act_inv.2.2
      rw [hstore]
      exact (hstanding _ hme).act
    | refused hme hx =>
      have hstore : pool'.store = pool.store := by cases hs; rfl
      rw [hstore]
      exact (hstanding _ hme).fault hx
    | wentOn hme hp => exact .disciplined (disciplined_again hp)
    | stayed hmem _ =>
      have hkept := hstanding task hmem
      cases l with
      | act id d =>
        obtain ⟨op, x⟩ := d
        obtain ⟨-, hd, hstore⟩ := hs.act_inv
        have hx : x = (exec op pool.store).1 := eq_of_heq (Performed.mk.inj hd).2
        subst hx
        have hother := hr.act_other hs hmem htask
        generalize htaskProg : task.prog = prog at hkept
        cases hkept with
        | disciplined hdisciplined => exact .disciplined hdisciplined
        | settling env secs round left rest hrest hwaiting =>
          refine .settling env secs round left rest hrest ?_
          rw [hstore]
          refine hwaiting.others ?_
          intro hold hleft hlate v hv
          refine Bool.eq_false_iff.mpr fun hends => ?_
          refine halone _ List.mem_cons_self id op v hold.holdId ?_ hends task hmem hother ?_
          · exact congrArg (fun x => Label.act id ⟨op, x⟩) hv
          · exact ⟨env, secs, round, left, rest, htaskProg, hold, hleft, rfl, hlate⟩
      | restart => cases hs; simp at htask
      | _ =>
        have hstore : pool'.store = pool.store := by cases hs; rfl
        rw [hstore]
        exact hkept

/-- Each settlement of such a run goes through, unless the database denies it. -/
theorem KernelRun.settlements_served (hdistinct : DistinctPositions) {tr : List KernelTransition}
    {pool : KernelPool} (h : KernelRun tr pool)
    (hgood : ∀ t ∈ tr, SettlesAlone t ∧ ¬ CommitsClaim t) : ∀ t ∈ tr, ∀ tx x, Expiring t tx x →
      Denied x ∨ (∃ event, x = .ok event) ∧ TimedOutOnce tr pool tx.holdId := by
  intro t ht tx x hexpiring
  obtain ⟨newer, older, rfl⟩ := List.append_of_mem ht
  obtain ⟨hr, pool', hs⟩ := Run.upTo h
  obtain ⟨⟨k, past, id, hmem⟩, rfl, -⟩ := hexpiring.step hs
  have hgood' : ∀ t' ∈ older, SettlesAlone t' ∧ ¬ CommitsClaim t' :=
    fun t' ht' => hgood t' (List.mem_append_right _ (List.mem_cons_of_mem _ ht'))
  have hasks := (KernelRun.standing hr (fun t' ht' => (hgood' t' ht').1) _ hmem).asks
  have houtstanding : Outstanding t.before.store tx := by
    generalize hp : (.vis (.expireHold tx) k : KernelProg Outcome) = p at hasks
    cases hasks with
    | other op' k' hop _ =>
      cases hp
      cases hop
    | listing => cases hp
    | settlement env secs round hold left rest _ hlate hwaiting =>
      cases hp
      exact outstanding_of_waiting hr (fun t' ht' => (hgood' t' ht').2) hwaiting hlate round
  have hallowed : ExpireAllowed past tx := ((KernelRun.keeps hr).2 _ hmem).honors.1
  have hserved := (expireHold_iff (KernelRun.keep logAligned_genesis (LogAligned.effect hdistinct) hr)
    (KernelRun.keep ledgerSafe_genesis LedgerSafe.effect hr) hallowed).mpr houtstanding
  rcases hserved with hdenied | ⟨event, hok⟩
  · exact .inl hdenied
  · rw [hok] at hexpiring ⊢
    exact .inr ⟨⟨event, rfl⟩, h.timedOutOnce ht hexpiring⟩

/-- Holds that a listing has settled stay settled. -/
theorem Listing.Settled.later {l : Listing} {holds : List HoldRequest} {tr : List KernelTransition}
    {before pool' : KernelPool} {lbl : Label KernelSig (KernelResult Outcome) Request}
    (h : l.Settled holds tr before) (hr : KernelRun tr before)
    (hs : Step kernelSystem before lbl pool') : l.Settled holds (⟨before, lbl⟩ :: tr) pool' :=
  fun hold hmem hlate => (h hold hmem hlate).later hr hs

/-- Right after the listing everything is still to be settled. -/
theorem Listing.Lists.passage {l : Listing} {tr : List KernelTransition} {before pool : KernelPool}
    {lbl : Label KernelSig (KernelResult Outcome) Request} (h : l.Lists ⟨before, lbl⟩)
    (hr : KernelRun tr before) (hs : Step kernelSystem before lbl pool) :
    Passage l (⟨before, lbl⟩ :: tr) [] pool := by
  obtain ⟨hlabel, past, hmem⟩ := h
  obtain rfl : lbl = _ := hlabel
  cases hs.fate hmem with
  | stays hafter => exact absurd rfl (hr.act_other hs hmem hafter)
  | acts hl hafter =>
    have hanswer : (kernelSystem.handler.exec (.listPendingHoldsForEnvelope l.envelopeId)
        before.store).1 = .ok l.holds := (eq_of_heq (Performed.mk.inj (Label.act.inj hl).2).2).symm
    rw [hanswer] at hafter
    refine .settling [] l.holds (⟨.listPendingHoldsForEnvelope l.envelopeId, .ok l.holds⟩ :: past) rfl
      ?_ fun _ h => (nomatch h)
    exact hafter
  | refused hl => cases hl
  | ends hends => obtain ⟨-, ⟨a, hl⟩ | hl | hl⟩ := hends <;> cases hl

/-- A step of a run finds a request that has listed holds where it may be, and leaves it
where it may be. -/
theorem Passage.step {l : Listing} {since newer : List KernelTransition} {before pool : KernelPool}
    {lbl : Label KernelSig (KernelResult Outcome) Request} (h : Passage l since newer before)
    (hr : KernelRun (newer ++ since) before) (hs : Step kernelSystem before lbl pool)
    (hserved : ∀ tx x, Expiring ⟨before, lbl⟩ tx x → Denied x ∨ (∃ event, x = .ok event) ∧
      TimedOutOnce (⟨before, lbl⟩ :: (newer ++ since)) pool tx.holdId) :
    Passage l since (⟨before, lbl⟩ :: newer) pool := by
  cases h with
  | through recent between mid past hnewer hmid hmem hjust hlater =>
    exact .through (_ :: recent) between mid past (by rw [hnewer]; rfl) hmid hmem hjust
      (hlater.later hr hs)
  | denied recent between mid past e hnewer hmid hmem he =>
    exact .denied (_ :: recent) between mid past e (by rw [hnewer]; rfl) hmid hmem he
  | cutOff recent between t round left past hnewer hends =>
    exact .cutOff (_ :: recent) between t round left past (by rw [hnewer]; rfl) hends
  | settling done left past hholds hmem hdone =>
    rcases expireListed_cases l.env l.secs done.length left with
      ⟨hnone, hpure⟩ | ⟨skipped, hold, rest, rfl, hskipped, hlate, hprog⟩
    · -- nothing is left, so the request has got through
      have hall : l.Settled l.holds (newer ++ since) before := by
        intro hold hhold hlate
        rw [hholds] at hhold
        rcases List.mem_append.mp hhold with hhold | hhold
        · exact hdone hold hhold hlate
        · rw [hnone hold hhold] at hlate
          cases hlate
      refine .through [_] newer before past rfl hr ?_ hall (hall.later hr hs)
      rw [expireListed_idle l.inTime_idle 0, ← hpure]
      exact hmem
    · -- the next late hold of the list
      have hnext := hmem
      rw [hprog, Attempt.bind_assoc] at hnext
      cases hs.fate hnext with
      | stays hafter =>
        rw [← Attempt.bind_assoc, ← hprog] at hafter
        exact .settling done _ past hholds hafter (hdone.later hr hs)
      | acts hl hafter =>
        rcases hserved _ _ ⟨l.id, hl⟩ with ⟨e, he, hx⟩ | ⟨⟨event, hx⟩, honce⟩
        · rw [hx] at hafter
          exact .denied [] (_ :: newer) pool (⟨.expireHold _, .error e⟩ :: past) e rfl (hr.step hs)
            hafter he
        · rw [hx] at hafter
          have hlength : (done ++ skipped ++ [hold]).length = done.length + skipped.length + 1 := by
            simp [Nat.add_assoc]
          rw [← hlength] at hafter
          refine .settling (done ++ skipped ++ [hold]) rest _ (by simp [hholds]) hafter ?_
          intro other hother hotherLate
          rcases List.mem_append.mp hother with hother | hother
          · rcases List.mem_append.mp hother with hother | hother
            · exact hdone.later hr hs other hother hotherLate
            · rw [hskipped other hother] at hotherLate
              cases hotherLate
          · obtain rfl := List.mem_singleton.mp hother
            exact honce
      | refused hl hx hafter =>
        obtain ⟨e, he, rfl⟩ :=
          @refuses_expires (.expireHold (expireTx l.env (done.length + skipped.length) hold)) rfl _ hx
        exact .denied [] (_ :: newer) pool (⟨.expireHold _, .error e⟩ :: past) e rfl (hr.step hs)
          hafter he
      | ends hends =>
        rw [← Attempt.bind_assoc, ← hprog] at hends
        exact .cutOff [] newer _ done.length _ past rfl hends

/-- What becomes of a listing, along a run in which no request settles a hold that
another has still to settle. -/
theorem KernelRun.passage (hdistinct : DistinctPositions) {l : Listing} {t : KernelTransition}
    {older newer : List KernelTransition} {pool : KernelPool}
    (h : KernelRun (newer ++ t :: older) pool)
    (hgood : ∀ t' ∈ newer ++ t :: older, SettlesAlone t' ∧ ¬ CommitsClaim t') (hlists : l.Lists t) :
    Passage l (t :: older) newer pool := by
  induction newer generalizing pool with
  | nil =>
    cases h with
    | step hr hs => exact hlists.passage hr hs
  | cons t' newer ih =>
    have hserved := h.settlements_served hdistinct hgood t' List.mem_cons_self
    cases h with
    | step hr hs =>
      exact (ih hr fun t' ht' => hgood t' (List.mem_cons_of_mem _ ht')).step hr hs hserved

/-- In every run in which no request resolves a hold that another has still to settle,
and no commit settles a reservation it only claims: every settlement goes through,
every listed hold that was late is timed out once, and a request that has listed holds
goes on as if the late ones had been timed out before. -/
theorem run_expires_quietly (hdistinct : DistinctPositions) {tr : List KernelTransition}
    {pool : KernelPool} (h : KernelRun tr pool)
    (hgood : ∀ t ∈ tr, SettlesAlone t ∧ ¬ CommitsClaim t) : ExpiresQuietly tr pool where
  served := h.settlements_served hdistinct hgood
  passes := by
    rintro newer t older rfl id envelopeId holds hlabel
    obtain ⟨hr, pool', hs⟩ := Run.upTo h
    rw [hlabel] at hs
    obtain ⟨⟨k, past, hmem⟩, -, -⟩ := hs.act_inv
    have hstandings := KernelRun.standing hr fun t' ht' =>
      (hgood t' (List.mem_append_right _ (List.mem_cons_of_mem _ ht'))).1
    have hasks := (hstandings _ hmem).asks
    -- the request that lists does so for the lazy expiry
    have hlists : ∃ env secs rest, Listing.Lists ⟨id, env, envelopeId, secs, holds, rest⟩ t := by
      generalize hp : (.vis (.listPendingHoldsForEnvelope envelopeId) k : KernelProg Outcome) = p
        at hasks
      cases hasks with
      | other op' k' hop _ =>
        cases hp
        cases hop
      | listing env envelopeId' secs rest _ =>
        cases hp
        exact ⟨env, secs, rest, hlabel, past, hmem⟩
      | settlement => cases hp
    obtain ⟨env, secs, rest, hlists⟩ := hlists
    exact ⟨_, rfl, rfl, hlists, h.passage hdistinct hgood hlists⟩

/-! ## One after the other, and side by side -/

omit [Externals] in
/-- The program settles a late hold next. -/
def settlesNext : KernelProg Outcome → Bool
  | .vis (.expireHold _) _ => true
  | _ => false

/-- A request that has still to settle some hold settles a late one next. -/
theorem settlesNext_of_stillToSettle {prog : KernelProg Outcome} {holdId : String}
    (h : StillToSettle prog holdId) : settlesNext prog = true := by
  obtain ⟨env, secs, round, left, rest, rfl, hold, hmem, -, hlate⟩ := h
  rcases expireListed_cases env secs round left with ⟨hnone, -⟩ | ⟨skipped, next, left', -, -, -, hprog⟩
  · rw [hnone hold hmem] at hlate
    cases hlate
  · rw [hprog]
    rfl

omit [Externals] in
/-- A step in which nobody else is about to settle a hold, if it resolves one. -/
def settlesAlone (t : KernelTransition) : Bool :=
  match t.label with
  | .act id ⟨.resolveHold _, _⟩ | .act id ⟨.expireHold _, _⟩ =>
    t.before.tasks.all fun task => task.id == id || !settlesNext task.prog
  | _ => true

/-- Where the test passes, the step resolves no hold that another request has still to
settle. -/
theorem settlesAlone_sound {t : KernelTransition} (h : settlesAlone t = true) : SettlesAlone t := by
  intro id op v holdId hlabel hends task htask hid hstill
  have hall : t.before.tasks.all (fun task => task.id == id || !settlesNext task.prog) = true := by
    unfold settlesAlone at h
    rw [hlabel] at h
    cases op <;> first | exact h | cases hends
  have hone := List.all_eq_true.mp hall task htask
  rw [settlesNext_of_stillToSettle hstill] at hone
  simp [hid] at hone

omit [Externals] in
/-- Whether a hold times out in the step. -/
def timesOutHold (t : KernelTransition) : Bool :=
  match t.label with
  | .act _ ⟨.expireHold _, .ok _⟩ => true
  | _ => false

omit [Externals] in
/-- Whether the step has a hold time out and the kernel refuses it. -/
def expiryRefused (t : KernelTransition) : Bool :=
  match t.label with
  | .act _ ⟨.expireHold _, .error (.policyViolation _)⟩ => true
  | _ => false

omit [Externals] in
/-- The test finds a timeout that was refused. -/
theorem expiryRefused_sound {t : KernelTransition} (h : expiryRefused t = true) :
    ∃ tx detail, Expiring t tx (.error (.policyViolation detail)) := by
  unfold expiryRefused at h
  split at h
  · next id tx detail hlabel => exact ⟨tx, detail, id, hlabel⟩
  · cases h

/-- The agent acts twice at once, ten seconds after its change was put on hold. -/
def actingAgain : List (Turn Request) :=
  agentOnShortHold ++
    [.spawn 1 (submitAt 12 "agent-1" .create "workspace/b" (.obj [])),
      .spawn 2 (submitAt 13 "agent-1" .create "workspace/c" (.obj []))]

/-- The first goes first. -/
def expiringInTurn : List (Turn Request) :=
  actingAgain ++ List.replicate 40 (.go 1) ++ List.replicate 40 (.go 2)

/-- The two go step by step in turn. -/
def expiringTogether : List (Turn Request) :=
  actingAgain ++ (List.replicate 40 [.go 1, .go 2]).flatten

omit [Externals] in
/-- Of two requests in flight one settles the hold, and neither notices the other. -/
theorem expiringInTurn_quiet :
    letI := reference
    (∃ t ∈ (kernelPlayed expiringInTurn).trace, ∃ tx event, Expiring t tx (.ok event)) ∧
      ExpiresQuietly (kernelPlayed expiringInTurn).trace (kernelPlayed expiringInTurn).pool := by
  have hplayed : (kernelPlayed expiringInTurn).trace.any timesOutHold = true ∧
      (kernelPlayed expiringInTurn).trace.all
        (fun t => settlesAlone t && settlesCleanly t) = true := by
    rw [kernelPlayed_eq]
    decide +kernel
  obtain ⟨htimes, hclean⟩ := hplayed
  refine ⟨?_, @run_expires_quietly reference distinctPositions_reference _ _
    (kernelRun_played expiringInTurn) fun t ht => ?_⟩
  · obtain ⟨t, ht, hlabel⟩ := List.any_eq_true.mp htimes
    unfold timesOutHold at hlabel
    split at hlabel
    · next id tx event hact => exact ⟨t, ht, tx, event, id, hact⟩
    · cases hlabel
  · obtain ⟨halone, hsettles⟩ := (Bool.and_eq_true _ _).mp (List.all_eq_true.mp hclean t ht)
    exact ⟨@settlesAlone_sound reference t halone, (settlesCleanly_sound hsettles).2⟩

omit [Externals] in
/-- Of two requests that find the same hold timed out, the second fails. -/
theorem expiringTogether_refused :
    letI := reference
    ¬ ∀ tr pool, KernelRun tr pool → ExpiresQuietly tr pool := by
  intro hclaim
  have hrefused : (kernelPlayed expiringTogether).trace.any expiryRefused = true := by
    rw [kernelPlayed_eq]
    decide +kernel
  obtain ⟨t, ht, hlabel⟩ := List.any_eq_true.mp hrefused
  obtain ⟨tx, detail, hexpiring⟩ := expiryRefused_sound hlabel
  have hquiet := hclaim _ _ (kernelRun_played expiringTogether)
  rcases @ExpiresQuietly.served reference _ _ hquiet t ht tx _ hexpiring with
    ⟨e, hfailure, herr⟩ | ⟨⟨event, hok⟩, -⟩
  · cases herr
    cases hfailure
  · cases hok

end PunkgoKernel
