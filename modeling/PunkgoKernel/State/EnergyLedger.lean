import PunkgoKernel.State.Db

/-!
# The energy ledger (`energy_ledger.rs`)

Five writes: a reservation, a settlement of a reservation, a credit, and the
row of a new actor; `reserve` and `reserve_in_tx` are one function here, since
a transaction of its own is what an operation of the store is.

Every write has one lemma that says all it does: the row it found, the checks
it passed, and the database it left, so that callers never open its body.
-/

namespace PunkgoKernel

open Relational (Table key)

/-- Energy put aside for an action: whose it is and how much, to be settled by the
commit. -/
structure EnergyReservation where
  actorId : String
  reserved : Int
deriving DecidableEq

namespace EnergyLedger

/-- Puts energy aside (`reserve`, `reserve_in_tx`). It is refused unless that much is
neither spent nor reserved already. -/
def reserve (actorId : String) (cost : Int) (db : Db) : KernelResult (EnergyReservation × Db) :=
  if cost ≤ 0 then .error (.policyViolation "reserve cost must be positive")
  else
    match db.energyLedger.find? actorId with
    | none => .error (.actorNotFound actorId)
    | some row =>
      let available := row.energyBalance - row.reservedEnergy
      if available < cost then .error (.insufficientEnergy actorId cost available)
      else .ok (⟨actorId, cost⟩,
        { db with energyLedger := db.energyLedger.modify actorId fun r =>
            { r with reservedEnergy := r.reservedEnergy + cost } })

/-- Settles a reservation: the actual cost leaves the balance, the whole
reservation is released. -/
def settleInTx (actorId : String) (reservedCost actualCost : Int) (db : Db) : KernelResult Db :=
  if reservedCost < 0 ∨ actualCost < 0 then
    .error (.policyViolation "settle values cannot be negative")
  else
    match db.energyLedger.find? actorId with
    | none => .error (.actorNotFound actorId)
    | some row =>
      let balance := row.energyBalance
      let reservedEnergy := row.reservedEnergy
      if reservedEnergy < reservedCost then
        .error (.policyViolation
          s!"reserved mismatch for actor {actorId}: reserved_in_ledger={reservedEnergy}, reserved_cost={reservedCost}, balance={balance}")
      else
        let extraNeeded := max (actualCost - reservedCost) 0
        let availableUnreserved := balance - reservedEnergy
        if availableUnreserved < extraNeeded then
          .error (.insufficientEnergy actorId extraNeeded availableUnreserved)
        else
          let newBalance := balance - actualCost
          if newBalance < 0 then .error (.insufficientEnergy actorId actualCost balance)
          else .ok
            { db with energyLedger := db.energyLedger.modify actorId fun r =>
                { r with energyBalance := newBalance,
                         reservedEnergy := reservedEnergy - reservedCost } }

/-- Adds produced energy to the balance of an actor that has a row. -/
def creditEnergyInTx (actorId : String) (amount : Int) (db : Db) : KernelResult Db :=
  if amount ≤ 0 then .error (.policyViolation "credit amount must be positive")
  else
    match db.energyLedger.find? actorId with
    | none => .error (.actorNotFound actorId)
    | some _ => .ok
        { db with energyLedger := db.energyLedger.modify actorId fun r =>
            { r with energyBalance := r.energyBalance + amount } }

/-- The ledger row of a new actor, with nothing reserved. A blank name, a negative
balance and a taken name are refused. -/
def createActorInTx (actorId : String) (energyBalance : Int) (db : Db) : KernelResult Db :=
  if isBlank actorId then .error (.policyViolation "seed actor_id cannot be empty")
  else if energyBalance < 0 then
    .error (.policyViolation "seed energy_balance cannot be negative")
  else
    match db.energyLedger.find? actorId with
    | some _ => .error (.policyViolation s!"actor already exists: {actorId}")
    | none =>
      match db.energyLedger.insert? ⟨actorId, energyBalance, 0⟩ with
      | none => .error (uniqueViolation "energy_ledger.actor_id")
      | some ledger => .ok { db with energyLedger := ledger }

/-! ## What each write does -/

/-- The ledger after a change of one row, by the two numbers that the row then has. -/
def put (ledger : Table EnergyRow) (actorId : String) (balance reserved : Int) : Table EnergyRow :=
  ledger.modify actorId fun r => { r with energyBalance := balance, reservedEnergy := reserved }

/-- Any change of one row is of this form, which has the lookups. -/
theorem modify_eq_put {ledger : Table EnergyRow} {actorId : String} {row : EnergyRow}
    {f : EnergyRow → EnergyRow} {hf : ∀ r, key (f r) = key r}
    (hrow : ledger.find? actorId = some row) :
    ledger.modify actorId f hf =
      put ledger actorId (f row).energyBalance (f row).reservedEnergy := by
  apply Table.ext
  show ledger.rows.map _ = ledger.rows.map _
  apply List.map_congr_left
  intro r hr
  split
  · next hk =>
    have heq : r = row := by
      have hfind := Table.find?_of_mem hr
      rw [hk, hrow] at hfind
      exact (Option.some.inj hfind).symm
    subst heq
    have hid : (f r).actorId = r.actorId := hf r
    cases hfr : f r
    rw [hfr] at hid
    simp_all
  · rfl

/-- What a lookup answers after the change of one row: the two numbers under its name,
and what it answered before under every other. -/
theorem find?_put {ledger : Table EnergyRow} {actorId : String} {row : EnergyRow}
    (hrow : ledger.find? actorId = some row) (balance reserved : Int) (x : String) :
    (put ledger actorId balance reserved).find? x =
      if x = actorId then some ⟨actorId, balance, reserved⟩ else ledger.find? x := by
  unfold put
  rw [Table.find?_modify, hrow]
  have hid : row.actorId = actorId := Table.key_of_find? hrow
  split
  · rw [Option.map_some, hid]
  · rfl

/-- A change of one row adds no row and removes none. -/
theorem isSome_find?_put (ledger : Table EnergyRow) (actorId : String) (balance reserved : Int)
    (x : String) :
    ((put ledger actorId balance reserved).find? x).isSome ↔ (ledger.find? x).isSome := by
  unfold put
  rw [Table.isSome_find?_modify]

/-- What a reservation that goes through found and wrote: something was asked for, and
there was enough. -/
theorem reserve_eq_ok {actorId : String} {cost : Int} {db db' : Db} {res : EnergyReservation}
    (h : reserve actorId cost db = .ok (res, db')) :
    ∃ row, db.energyLedger.find? actorId = some row ∧ 0 < cost ∧
      cost ≤ row.energyBalance - row.reservedEnergy ∧ res = ⟨actorId, cost⟩ ∧
      db' = { db with
        energyLedger :=
          put db.energyLedger actorId row.energyBalance (row.reservedEnergy + cost) } := by
  unfold reserve at h
  split at h
  · cases h
  next hpos =>
  split at h
  · cases h
  next row hrow =>
  simp only at h
  split at h
  · cases h
  next hav =>
  cases h
  refine ⟨row, hrow, by omega, by omega, rfl, ?_⟩
  rw [modify_eq_put hrow]

/-- What a settlement that goes through found and wrote: at least the energy in question
was reserved, and it costs no more than that. -/
theorem settleInTx_eq_ok {actorId : String} {reservedCost actualCost : Int} {db db' : Db}
    (h : settleInTx actorId reservedCost actualCost db = .ok db') :
    ∃ row, db.energyLedger.find? actorId = some row ∧ 0 ≤ reservedCost ∧ 0 ≤ actualCost ∧
      reservedCost ≤ row.reservedEnergy ∧
      actualCost - reservedCost ≤ row.energyBalance - row.reservedEnergy ∧
      row.reservedEnergy ≤ row.energyBalance ∧ actualCost ≤ row.energyBalance ∧
      db' = { db with
        energyLedger := put db.energyLedger actorId (row.energyBalance - actualCost)
          (row.reservedEnergy - reservedCost) } := by
  unfold settleInTx at h
  split at h
  · cases h
  next hneg =>
  split at h
  · cases h
  next row hrow =>
  simp only at h
  split at h
  · cases h
  next hres =>
  split at h
  · cases h
  next hextra =>
  split at h
  · cases h
  next hbal =>
  cases h
  refine ⟨row, hrow, by omega, by omega, by omega, by omega, by omega, by omega, ?_⟩
  rw [modify_eq_put hrow]

/-- What a credit that goes through found and wrote. -/
theorem creditEnergyInTx_eq_ok {actorId : String} {amount : Int} {db db' : Db}
    (h : creditEnergyInTx actorId amount db = .ok db') :
    ∃ row, db.energyLedger.find? actorId = some row ∧ 0 < amount ∧
      db' = { db with
        energyLedger :=
          put db.energyLedger actorId (row.energyBalance + amount) row.reservedEnergy } := by
  unfold creditEnergyInTx at h
  split at h
  · cases h
  next hpos =>
  split at h
  · cases h
  next row hrow =>
  cases h
  refine ⟨row, hrow, by omega, ?_⟩
  rw [modify_eq_put hrow]

/-- What the creation of a row found and wrote. -/
theorem createActorInTx_eq_ok {actorId : String} {energyBalance : Int} {db db' : Db}
    (h : createActorInTx actorId energyBalance db = .ok db') :
    isBlank actorId = false ∧ 0 ≤ energyBalance ∧ db.energyLedger.find? actorId = none ∧
      ∃ ledger, db.energyLedger.insert? ⟨actorId, energyBalance, 0⟩ = some ledger ∧
        db' = { db with energyLedger := ledger } := by
  unfold createActorInTx at h
  split at h
  · cases h
  next hblank =>
  split at h
  · cases h
  next hneg =>
  split at h
  · cases h
  next hnone =>
  split at h
  · cases h
  next ledger hins =>
  cases h
  exact ⟨by simpa using hblank, by omega, hnone, ledger, hins, rfl⟩

end EnergyLedger

end PunkgoKernel
