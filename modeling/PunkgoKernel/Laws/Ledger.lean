import PunkgoKernel.Laws.Effects
import PunkgoKernel.Runtime.Evaluation

/-!
# Safety of the energy ledger

Actors and ledger rows appear together, and a row never promises more energy
than it has. Both hold after every effect, whatever the operation was given:
no protocol of the callers is needed, not even for payloads that claim a
reservation nobody made.
-/

namespace PunkgoKernel

open Relational (Table key)
open Resumption

/-- The ledger has a row for each actor and no other, and every row holds at
least what is reserved of it. -/
structure LedgerSafe (db : Db) : Prop where
  sameIds : ∀ actorId,
    (db.actors.find? actorId).isSome ↔ (db.energyLedger.find? actorId).isSome
  sound : ∀ actorId row, db.energyLedger.find? actorId = some row → row.Sound

variable [Externals]

/-- Whatever an operation does to the ledger keeps every row within its bounds. -/
theorem LedgerSafe.effect {op : Op} {db db' : Db} (h : Effect op db db') (hsafe : LedgerSafe db) :
    LedgerSafe db' := by
  obtain ⟨hids, hsound⟩ := hsafe
  cases h with
  | ledger actorId row balance reserved hrow hkeep =>
    constructor
    · intro x
      rw [hids x]
      exact (EnergyLedger.isSome_find?_put db.energyLedger actorId balance reserved x).symm
    · intro x row' hrow'
      rw [EnergyLedger.find?_put hrow] at hrow'
      split at hrow'
      · cases hrow'
        exact hkeep (hsound actorId row hrow)
      · exact hsound x row' hrow'
  | newActor row balance ledger actors _ hbal hledger hactors =>
    constructor
    · intro x
      rw [Table.isSome_find?_insert hactors, Table.isSome_find?_insert hledger, hids x]
      rfl
    · intro x row' hrow'
      rw [Table.find?_insert hledger] at hrow'
      split at hrow'
      · cases hrow'
        exact ⟨le_refl 0, hbal⟩
      · exact hsound x row' hrow'
  | actor actorId f hf =>
    refine ⟨fun x => ?_, hsound⟩
    rw [← hids x]
    exact Table.isSome_find?_modify db.actors actorId x f hf
  | _ => exact ⟨hids, hsound⟩

omit [Externals] in
/-- On the first start the one row of the ledger is within its bounds. -/
theorem ledgerSafe_genesis : LedgerSafe StateStore.genesis := by
  have hledger : StateStore.genesis.energyLedger.rows = [⟨"root", 1000000, 0⟩] := rfl
  have hactors : StateStore.genesis.actors.rows = [StateStore.rootActor] := rfl
  constructor
  · intro x
    rw [Table.isSome_find?_iff, Table.isSome_find?_iff, hledger, hactors]
    rfl
  · intro x row hrow
    have hmem := Table.mem_of_find? hrow
    rw [hledger, List.mem_singleton] at hmem
    subst hmem
    exact ⟨by decide, by decide⟩

/-- Along every run, whatever the requests, their payloads and the order of their steps,
the ledger is safe: each actor has its one row, and what is reserved is within the
balance. -/
theorem run_ledgerSafe {tr : List KernelTransition} {pool : KernelPool}
    (h : KernelRun tr pool) : LedgerSafe pool.store := by
  exact KernelRun.keep ledgerSafe_genesis LedgerSafe.effect h

omit [Externals] in
/-- The ledger after an agent's first three events, in which it was seeded, granted and
charged. -/
theorem ledgerSafe_agentAtWork :
    (kernelPlayed agentAtWork).pool.store.events.rows.length = 3 ∧
      LedgerSafe (kernelPlayed agentAtWork).pool.store := by
  refine ⟨?_, @run_ledgerSafe reference _ _ (kernelRun_played agentAtWork)⟩
  rw [kernelPlayed_eq]
  decide +kernel

end PunkgoKernel
