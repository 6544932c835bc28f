import PunkgoKernel.State.EnergyLedger
import PunkgoKernel.State.EventLog
import PunkgoKernel.State.ActorStore
import PunkgoKernel.State.EnvelopeStore

/-!
# Bootstrap and startup checks (`store.rs`)

A fresh store holds the genesis actor `root` and its energy. Every start runs
the same seeding, which leaves existing rows alone, and then the integrity
checks; a store that fails them is not started.
-/

namespace PunkgoKernel

open Relational (Table key)

namespace StateStore

/-- Whether the ledger knows the actor: existence is asked of the energy ledger, and not
of the table of actors. -/
def actorExists (actorId : String) (db : Db) : Bool := (db.actors.find? actorId).isSome

/-- Sets a named text, whether it is there or not. -/
def setMeta (name value : String) (db : Db) : Db :=
  { db with systemMeta := db.systemMeta.upsert ⟨name, value⟩ }

/-! ## Seeding -/

/-- The database without a row, as the schema leaves it. -/
def emptyDb : Db :=
  ⟨.empty, .empty, .empty, .empty, .empty, .empty, .empty, .empty⟩

/-- `INSERT … ON CONFLICT DO NOTHING`: a row whose key is taken is dropped without an
error. -/
def insertOrIgnore {ρ κ : Type} [Relational.Keyed ρ κ] [DecidableEq κ] (t : Table ρ) (r : ρ) :
    Table ρ := (t.insert? r).getD t

/-- The row of root, the one human there is from the start, created by nobody. -/
def rootActor : ActorRecord :=
  { actorId := "root"
    actorType := .human
    creatorId := none
    lineage := []
    purpose := none
    status := .active
    writableTargets := [⟨"**", ["create", "mutate", "execute"]⟩]
    energyShare := 0
    reductionPolicy := "none" }

/-- What a start seeds: root's ledger row with its energy, root's actor row and the schema
version, each unless it is there already. -/
def seedDefaults (db : Db) : Db :=
  { db with
    systemMeta := insertOrIgnore db.systemMeta ⟨"schema_version", "v1"⟩
    energyLedger := insertOrIgnore db.energyLedger ⟨"root", 1000000, 0⟩
    actors := insertOrIgnore db.actors rootActor }

/-- The store of a first start, from which every run begins. -/
def genesis : Db := seedDefaults emptyDb

/-! ## Integrity -/

/-- A ledger row the startup check rejects: something negative, or more reserved than
there is. -/
def ledgerViolation (row : EnergyRow) : Bool :=
  row.reservedEnergy < 0 || row.energyBalance < 0 || row.energyBalance < row.reservedEnergy

/-- The types of events that the startup check knows, those of holds included. -/
def supportedActionTypes : List String :=
  ["observe", "create", "mutate", "execute", "circuit_breaker",
    "hold_request", "hold_response", "hold_timeout"]

/-- An event whose energy the startup check rejects. A mutate or an execute must have
cost something. -/
def eventEnergyViolation (event : EventRecord) : Bool :=
  ((event.actionType = "mutate" || event.actionType = "execute") &&
      (event.reservedEnergy ≤ 0 || event.settledEnergy ≤ 0)) ||
    event.reservedEnergy < 0 || event.settledEnergy < 0

/-- The startup checks, in the order they are made. Audit coverage, the last,
only warns. -/
def runStartupIntegrityChecks (db : Db) : KernelResult Unit :=
  match db.energyLedger.rows.find? ledgerViolation with
  | some row => .error (.policyViolation
      s!"energy ledger consistency violation for actor {row.actorId}")
  | none =>
    match db.events.rows.find? (fun e => !supportedActionTypes.any (· = e.actionType)) with
    | some event => .error (.policyViolation
        s!"action integrity violation: unsupported action_type={event.actionType}")
    | none =>
      match db.events.rows.find? eventEnergyViolation with
      | some event => .error (.policyViolation
          s!"energy integrity violation in event {event.id}")
      | none => .ok ()

/-- A start on the store a stopped kernel left: the checks, which may refuse it, and
then the seed. -/
def bootstrap (db : Db) : Option Db :=
  match runStartupIntegrityChecks (seedDefaults db) with
  | .ok () => some (seedDefaults db)
  | .error _ => none

/-! ## What a start changes -/

/-- The checks pass exactly when no row is rejected, whichever of them comes first. -/
theorem runStartupIntegrityChecks_eq_ok {db : Db} :
    runStartupIntegrityChecks db = .ok () ↔
      (∀ row ∈ db.energyLedger.rows, ledgerViolation row = false) ∧
      (∀ event ∈ db.events.rows, event.actionType ∈ supportedActionTypes) ∧
      ∀ event ∈ db.events.rows, eventEnergyViolation event = false := by
  have hledger : db.energyLedger.rows.find? ledgerViolation = none ↔
      ∀ row ∈ db.energyLedger.rows, ledgerViolation row = false := by simp
  have htype : db.events.rows.find? (fun e => !supportedActionTypes.any (· = e.actionType)) = none ↔
      ∀ event ∈ db.events.rows, event.actionType ∈ supportedActionTypes := by simp
  have henergy : db.events.rows.find? eventEnergyViolation = none ↔
      ∀ event ∈ db.events.rows, eventEnergyViolation event = false := by simp
  rw [← hledger, ← htype, ← henergy]
  unfold runStartupIntegrityChecks
  constructor
  · intro h
    split at h
    · cases h
    next h1 =>
    split at h
    · cases h
    next h2 =>
    split at h
    · cases h
    next h3 => exact ⟨h1, h2, h3⟩
  · rintro ⟨h1, h2, h3⟩
    rw [h1, h2, h3]

/-- An insertion under a taken key is dropped. -/
theorem insertOrIgnore_of_some {ρ κ : Type} [Relational.Keyed ρ κ] [DecidableEq κ]
    {t : Table ρ} {r : ρ} (h : (t.find? (key r)).isSome) : insertOrIgnore t r = t := by
  unfold insertOrIgnore
  cases hins : t.insert? r with
  | none => rfl
  | some t' =>
    rw [(Table.insert?_eq_some hins).1] at h
    cases h

/-- A store that holds the genesis rows: seeding it again changes nothing. -/
structure Seeded (db : Db) : Prop where
  schema : (db.systemMeta.find? "schema_version").isSome
  ledger : (db.energyLedger.find? "root").isSome
  actor : (db.actors.find? "root").isSome

/-- A first start has seeded what a later one would. -/
theorem seeded_genesis : Seeded genesis := ⟨rfl, rfl, rfl⟩

/-- Seeding a second time changes nothing. -/
theorem Seeded.seedDefaults_eq {db : Db} (h : Seeded db) : seedDefaults db = db := by
  have hmeta : insertOrIgnore db.systemMeta ⟨"schema_version", "v1"⟩ = db.systemMeta :=
    insertOrIgnore_of_some h.schema
  have hledger : insertOrIgnore db.energyLedger ⟨"root", 1000000, 0⟩ = db.energyLedger :=
    insertOrIgnore_of_some h.ledger
  have hactors : insertOrIgnore db.actors rootActor = db.actors :=
    insertOrIgnore_of_some h.actor
  unfold seedDefaults
  rw [hmeta, hledger, hactors]

end StateStore

end PunkgoKernel
