import PunkgoKernel.Laws.Payment

/-!
# The response to a hold

A response is checked like any other change of the human who sends it, and
then it reads the hold, refuses one that is resolved or has timed out, and
resolves it in one transaction. Up to that transaction a human's response leaves
the books alone, unless it finds the hold timed out.
-/

namespace PunkgoKernel

open Json (Value)
open Relational (Table key)
open Resumption

variable [Externals]

/-! ## The checks on a human -/

/-- Nothing of a human's lapses but an envelope. -/
theorem Lapsed.human {env : Env} {actorId : String} {db db' : Db}
    (h : Lapsed env actorId db db') (hsound : HoldsSound db) (howned : HoldsOwned db)
    {caller : ActorRecord} (hcaller : db.actors.find? actorId = some caller)
    (hhuman : caller.actorType = .human) : SameBooks db db' := by
  induction h with
  | refl => exact .refl _
  | tail hbefore hstep ih =>
    refine ih.trans ?_
    cases hstep with
    | envelope => exact ⟨rfl, rfl, rfl⟩
    | hold _ e secs hold round event he howner _ _ hrow _ hunder _ hexpire =>
      -- the hold would be the human's, but holds are of agents
      obtain ⟨e', hfind, hagent⟩ := Lapsed.holdsOwned hbefore howned _ hold hrow
      obtain rfl : e' = e := by
        rw [hunder, he] at hfind
        exact (Option.some.inj hfind).symm
      obtain ⟨-, agent, hfound, htype⟩ := Lapsed.holdsSound hbefore hsound _ hold hrow
      rw [← hagent, howner, Lapsed.actors hbefore, hcaller] at hfound
      cases hfound
      rw [hhuman] at htype
      cases htype

/-- The checks on a human's action cost nobody anything: what lapses under its envelopes
is all that changes. -/
theorem Checked.human {α : Type} {env : Env} {action : Action} {r : KernelResult α} {db db' : Db}
    (h : Checked env action r db db') (hsound : HoldsSound db) (howned : HoldsOwned db)
    {caller : ActorRecord} (hcaller : db.actors.find? action.actorId = some caller)
    (hhuman : caller.actorType = .human) : Lapsed env action.actorId db db' ∧ SameBooks db db' := by
  obtain ⟨db₁, hlapsed, hhold | rfl⟩ := h
  · obtain ⟨actor, hactor, htype⟩ := hhold.agent
    rw [hlapsed.actors, hcaller] at hactor
    cases hactor
    rw [hhuman] at htype
    cases htype
  · exact ⟨hlapsed, hlapsed.human hsound howned hcaller hhuman⟩

/-! ## The response itself -/

/-- The checks on the sender of a response. -/
def responseChecks (env : Env) (action : Action) : KernelProg (Option EnvelopeRecord) := do
  check (validateAction action)
  requireActor action.actorId
  authorizeActor env action

/-- A response is its checks, and then the response itself. -/
theorem submitAction_response (envs : Nat → Env) {action : Action} {holdId : String}
    {decision : HoldDecision} {instruction : Option String}
    (hresponse : holdResponse? action = some (holdId, decision, instruction)) :
    submitAction envs action = responseChecks (envs 0) action >>= fun _ =>
      executeHoldResponse envs action holdId decision instruction := by
  unfold submitAction responseChecks
  simp only [Attempt.bind_assoc, hresponse]

/-- Where the store refuses an operation, the checks of a response fail with the failure
of the database and go no further. -/
theorem strict_responseChecks (env : Env) (action : Action) :
    (responseChecks env action).Strict database DatabaseFailure := by
  refine Attempt.Strict.bind trivial fun _ => ?_
  exact (reading_requireActor _).strict.bind fun _ => strict_authorizeActor env action

/-- The checks before a response do to the store what the checks on any action do. -/
theorem responseChecks_checked {env : Env} {action : Action} {db db' : Db}
    {r : KernelResult (Option EnvelopeRecord)}
    (h : Attempt.Executes database (responseChecks env action) db r db') :
    Checked env action r db db' := by
  rcases Attempt.executes_bind.mp h with ⟨u, db₀, ⟨-, rfl⟩, h₁⟩ | ⟨e, rfl, -, rfl⟩
  swap
  · exact .refl
  rcases Attempt.executes_bind.mp h₁ with ⟨u, db₁, hknown, h₂⟩ | ⟨e, rfl, hknown⟩
  · obtain rfl := (reading_requireActor _).executes hknown
    exact authorizeActor_checked h₂
  · obtain rfl := (reading_requireActor _).executes hknown
    exact .refl

/-- What the first pass of a response does to the database. -/
theorem submit_response {envs : Nat → Env} {action : Action} {holdId : String}
    {decision : HoldDecision} {instruction : Option String} {db db' : Db}
    {r : KernelResult Outcome} (hresponse : holdResponse? action = some (holdId, decision, instruction))
    (h : Attempt.Executes database (submitAction envs action) db r db') :
    (∃ e, r = .error e ∧
      Attempt.Executes database (responseChecks (envs 0) action) db (.error e) db') ∨
      ∃ auth db₁, Attempt.Executes database (responseChecks (envs 0) action) db (.ok auth) db₁ ∧
        Attempt.Executes database
          (executeHoldResponse envs action holdId decision instruction) db₁ r db' := by
  rw [submitAction_response envs hresponse] at h
  rcases Attempt.executes_bind.mp h with ⟨auth, db₁, hchecks, hanswer⟩ | ⟨e, rfl, hchecks⟩
  · exact .inr ⟨auth, db₁, hchecks, hanswer⟩
  · exact .inl ⟨e, rfl, hchecks⟩

/-- A hold found not to be timed out leaves the database alone. -/
theorem refuseTimedOut_ok {env : Env} {hold : HoldRequest} {db db' : Db}
    (h : Attempt.Executes database (refuseTimedOut env hold) db (.ok ()) db') : db' = db := by
  rcases Attempt.executes_bind.mp h with ⟨found, db₀, hcall, h₁⟩ | ⟨e, herr, -⟩
  swap
  · cases herr
  obtain ⟨x, hx, hread⟩ := Attempt.executes_outcome.mp hcall
  cases hx
  have hreading : Reading (call (.getEnvelope hold.envelopeId)) := reading_call rfl
  obtain rfl := hreading.executes hread
  split at h₁
  swap
  · exact h₁.2
  split at h₁
  swap
  · exact h₁.2
  split at h₁
  swap
  · exact h₁.2
  rcases Attempt.executes_bind.mp h₁ with ⟨u, db₁, -, herr, -⟩ | ⟨e, herr, -⟩
  · cases herr
  · cases herr

/-- An actor that is found is the one the store has, and looking changes nothing. -/
theorem findActor_ok {actorId : String} {actor : ActorRecord} {db db' : Db}
    (h : Attempt.Executes database (findActor actorId) db (.ok actor) db') :
    db.actors.find? actorId = some actor ∧ db' = db := by
  rcases Attempt.executes_bind.mp h with ⟨found, db₁, hcall, h₁⟩ | ⟨e, herr, -⟩
  swap
  · cases herr
  have htx : transaction (.getActor actorId) db = .ok (found, db₁) :=
    executes_call_ok (fun _ hop => by cases hop) hcall
  obtain ⟨rfl, rfl⟩ : db.actors.find? actorId = found ∧ db = db₁ := by
    cases htx
    exact ⟨rfl, rfl⟩
  split at h₁
  · next hfound =>
    obtain ⟨heq, rfl⟩ := h₁
    cases heq
    exact ⟨hfound, rfl⟩
  · cases h₁.1

/-- A hold that is found is the one the store has, and looking changes nothing. -/
theorem findHold_ok {holdId : String} {hold : HoldRequest} {db db' : Db}
    (h : Attempt.Executes database (findHold holdId) db (.ok hold) db') :
    db.holdRequests.find? holdId = some hold ∧ db' = db := by
  rcases Attempt.executes_bind.mp h with ⟨found, db₁, hcall, h₁⟩ | ⟨e, herr, -⟩
  swap
  · cases herr
  have htx : transaction (.getHoldRequest holdId) db = .ok (found, db₁) :=
    executes_call_ok (fun _ hop => by cases hop) hcall
  obtain ⟨rfl, rfl⟩ : db.holdRequests.find? holdId = found ∧ db = db₁ := by
    cases htx
    exact ⟨rfl, rfl⟩
  split at h₁
  · next hfound =>
    obtain ⟨heq, rfl⟩ := h₁
    cases heq
    exact ⟨hfound, rfl⟩
  · cases h₁.1

omit [Externals] in
/-- Looking for a hold only reads. -/
theorem reading_findHold (holdId : String) : Reading (findHold holdId) := by
  refine Reading.bind (reading_call rfl) ?_
  intro found
  cases found <;> trivial

/-- The answer to a response that resolved its hold. -/
def responseOutcome (envs : Nat → Env) (decision : HoldDecision) (instruction : Option String)
    (hold : HoldRequest) (event : EventRecord) (commitment : Int) : Outcome :=
  if decision = .approve then
    .resubmit (fun n => envs (n + 1)) (pendingAction hold instruction)
  else .receipt ⟨event.id, event.logIndex, event.eventHash, hold.reservedCost, commitment, none⟩

/-- A response fails with nothing changed, or it is a human's, to a pending
hold: and then it finds the hold timed out, or it resolves it. -/
theorem executeHoldResponse_cases {envs : Nat → Env} {action : Action} {holdId : String}
    {decision : HoldDecision} {instruction : Option String} {db db' : Db}
    {r : KernelResult Outcome}
    (h : Attempt.Executes database
      (executeHoldResponse envs action holdId decision instruction) db r db') :
    (∃ e, r = .error e ∧ db' = db) ∨
    ∃ caller hold, db.actors.find? action.actorId = some caller ∧ caller.actorType = .human ∧
      db.holdRequests.find? holdId = some hold ∧ hold.status = .pending ∧
      ((∃ e, r = .error e ∧
          Attempt.Executes database (refuseTimedOut (envs 0) hold) db (.error e) db') ∨
        ∃ event commitment, resolveHold
            (holdResolveTx (envs 0) action holdId decision instruction hold) db =
              .ok ((event, commitment), db') ∧
          r = .ok (responseOutcome envs decision instruction hold event commitment)) := by
  unfold executeHoldResponse at h
  rcases Attempt.executes_bind.mp h with ⟨caller, db₀, hfind, h₁⟩ | ⟨e, rfl, hfind⟩
  swap
  · exact .inl ⟨e, rfl, (reading_findActor _).executes hfind⟩
  obtain ⟨hcaller, rfl⟩ := findActor_ok hfind
  rcases Attempt.executes_bind.mp h₁ with ⟨u, db₁, ⟨hhuman, rfl⟩, h₂⟩ | ⟨e, rfl, -, rfl⟩
  swap
  · exact .inl ⟨e, rfl, rfl⟩
  rcases Attempt.executes_bind.mp h₂ with ⟨hold, db₁, hfound, h₃⟩ | ⟨e, rfl, hfound⟩
  swap
  · exact .inl ⟨e, rfl, (reading_findHold _).executes hfound⟩
  obtain ⟨hrow, rfl⟩ := findHold_ok hfound
  rcases Attempt.executes_bind.mp h₃ with ⟨u, db₁, ⟨hpending, rfl⟩, h₄⟩ | ⟨e, rfl, -, rfl⟩
  swap
  · exact .inl ⟨e, rfl, rfl⟩
  have hfacts : db₁.actors.find? action.actorId = some caller ∧ caller.actorType = .human ∧
      db₁.holdRequests.find? holdId = some hold ∧ hold.status = .pending :=
    ⟨hcaller, requireHuman_ok hhuman.symm, hrow, requirePending_ok hpending.symm⟩
  rcases Attempt.executes_bind.mp h₄ with ⟨u, db₂, hintime, h₅⟩ | ⟨e, rfl, hlate⟩
  swap
  · exact .inr ⟨caller, hold, hfacts.1, hfacts.2.1, hfacts.2.2.1, hfacts.2.2.2,
      .inl ⟨e, rfl, hlate⟩⟩
  obtain rfl := refuseTimedOut_ok hintime
  rcases Attempt.executes_bind.mp h₅ with ⟨⟨event, commitment⟩, db₃, hcall, h₆⟩ | ⟨e, rfl, hcall⟩
  swap
  · exact .inl ⟨e, rfl, executes_call_error hcall⟩
  have htx := executes_call_ok (fun _ hop => by cases hop) hcall
  have hanswer : r = .ok (responseOutcome envs decision instruction hold event commitment) ∧
      db' = db₃ := by
    unfold responseOutcome
    simp only at h₆
    split at h₆
    · rwa [if_pos ‹_›]
    · rwa [if_neg ‹_›]
  obtain ⟨rfl, rfl⟩ := hanswer
  exact .inr ⟨caller, hold, hfacts.1, hfacts.2.1, hfacts.2.2.1, hfacts.2.2.2,
    .inr ⟨event, commitment, htx, rfl⟩⟩

/-- A response that no human sends is refused. -/
theorem response_refused {envs : Nat → Env} {action : Action} {holdId : String}
    {decision : HoldDecision} {instruction : Option String} {db db' : Db}
    {r : KernelResult Outcome}
    (hsender : ∀ caller, db.actors.find? action.actorId = some caller → caller.actorType ≠ .human)
    (h : Attempt.Executes database
      (executeHoldResponse envs action holdId decision instruction) db r db') :
    ∃ e, r = .error e ∧ db' = db := by
  rcases executeHoldResponse_cases h with hrefused | ⟨caller, hold, hcaller, hhuman, -⟩
  · exact hrefused
  · exact absurd hhuman (hsender caller hcaller)

end PunkgoKernel
