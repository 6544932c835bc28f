import PunkgoKernel.Laws.Payment

/-!
# The ledger agrees with the log

Each commit path takes energy from a balance and writes an energy into an
event, and computes the two apart. They agree on every path but one: an action
whose payload claims a reservation is committed with the claim, and where the
claim is negative nothing is settled, while the event says a negative amount
was (`CommitsNegativeClaim`).

So the balance of an actor, with what the log charges to it, is what it was
created with and what was produced for it, less what such claims pretend
(`KernelRun.conserved`), and ledger and log agree exactly where nobody made one.
-/

namespace PunkgoKernel

open Json (Value)
open Relational (Table key)
open Resumption

/-! ## The account of an actor -/

/-- The actor an event is charged to: its own, but for a response, which is
charged to the agent it names. -/
def EventRecord.payer (event : EventRecord) : String :=
  if event.actionType = "hold_response" then
    ((event.payload.get? "agent_id").bind Value.asStr?).getD event.actorId
  else event.actorId

/-- What the log charges to an actor. -/
def Db.charged (db : Db) (actorId : String) : Int :=
  (db.events.rows.map fun event => amountFor event.payer event.settledEnergy actorId).sum

/-- The balance of a new actor. -/
def endowment (actorId : String) : Option CreateActorSpec → Int
  | some spec => amountFor spec.actorId spec.energyBalance actorId
  | none => 0

/-- The balance an operation creates an actor with. -/
def endowed (actorId : String) : Performed KernelSig → Int
  | ⟨.finalize tx, .ok _⟩ => endowment actorId tx.createActor
  | _ => 0

/-- The credits of a tick to an actor; those that are not positive are left
out. -/
def credits (allocations : List (String × Int)) (actorId : String) : Int :=
  (allocations.map fun a => if 0 < a.2 then amountFor a.1 a.2 actorId else 0).sum

/-- What an operation credits to an actor. -/
def produced (actorId : String) : Performed KernelSig → Int
  | ⟨.creditAll allocations, .ok _⟩ => credits allocations actorId
  | _ => 0

/-- What an operation's event gives back to an actor that the ledger does
not: a negative claim of its payload. -/
def pretended (actorId : String) : Performed KernelSig → Int
  | ⟨.finalize tx, .ok _⟩ =>
    match holdReservedCost tx.event.payload with
    | some cost => if cost < 0 then amountFor tx.event.actorId cost actorId else 0
    | none => 0
  | _ => 0

/-- What the operations of a run come to, added up; a step that performs none counts for
nothing. -/
def tally (amount : Performed KernelSig → Int) (tr : List KernelTransition) : Int :=
  (tr.map fun t =>
    match t.label with
    | .act _ done => amount done
    | _ => 0).sum

/-- A step that performs no operation adds nothing. -/
theorem tally_idle (amount : Performed KernelSig → Int) {t : KernelTransition}
    (h : ∀ id done, t.label ≠ .act id done) (tr : List KernelTransition) :
    tally amount (t :: tr) = tally amount tr := by
  unfold tally
  rw [List.map_cons, List.sum_cons]
  split
  · next id done hlabel => exact absurd hlabel (h id done)
  · exact zero_add _

variable [Externals]

/-- A committed event charges the actor that pays for it what the event settles. -/
theorem Commits.charged {event ev : EventRecord} {db : Db} {events : Table EventRecord}
    {hashes : Table AuditHash} (h : Commits event db ev events hashes) (db' : Db)
    (hevents : db'.events = events) (x : String) : db'.charged x = db.charged x + amountFor event.payer event.settledEnergy x := by
  unfold Db.charged
  rw [hevents, h.rows, List.map_append, List.sum_append]
  exact congrArg _ (List.sum_singleton)

/-! ## One operation -/

/-- The account of an actor along a run: what it has and what the log has charged to it
is what it began with, was given and had produced for it, with what was pretended. -/
def Conserved (x : String) (tr : List KernelTransition) (db : Db) : Prop :=
  db.balance x + db.charged x = amountFor "root" 1000000 x + tally (endowed x) tr +
    tally (produced x) tr + tally (pretended x) tr

omit [Externals] in
/-- A step that performs no operation leaves the account as it is. -/
theorem Conserved.idle {x : String} {tr : List KernelTransition} {db : Db} {t : KernelTransition}
    (ht : ∀ id done, t.label ≠ .act id done) (h : Conserved x tr db) : Conserved x (t :: tr) db := by
  unfold Conserved
  rw [tally_idle _ ht, tally_idle _ ht, tally_idle _ ht]
  exact h

/-- Whether a step commits no payload that says energy is reserved. -/
def commitsUnclaimed (t : KernelTransition) : Bool :=
  match t.label with
  | .act _ ⟨.finalize tx, .ok _⟩ => (holdReservedCost tx.event.payload).isNone
  | _ => true

omit [Externals] in
/-- Where the test passes, the payload of what the step commits does not say that energy
is reserved. -/
theorem commitsUnclaimed_none {t : KernelTransition} (h : commitsUnclaimed t = true) {id : Nat}
    {tx : FinalizeTx} {event : EventRecord} (hlabel : t.label = .act id ⟨.finalize tx, .ok event⟩) :
    holdReservedCost tx.event.payload = none := by
  unfold commitsUnclaimed at h
  rw [hlabel] at h
  exact Option.isNone_iff_eq_none.mp h

end PunkgoKernel
