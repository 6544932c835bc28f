import PunkgoKernel.Laws.Conservation
import PunkgoKernel.Laws.Creation
import PunkgoKernel.Laws.Resolution
import PunkgoKernel.Laws.Ticks
import PunkgoKernel.Runtime.Evaluation

/-!
# Balances and 64 bits

A balance is a signed 64-bit number. The largest seed the parser lets through is
the largest such number, and a tick adds to a balance without a look at it. Every
other write only lowers a balance or starts it with a seed, so all balances stay
in range, and every addition does, exactly if no tick brings an actor above it.
What a tick gives follows from its amount and the shares, in doubles (`tickGives`),
so whether a run stays in range is a question of the seeds, the amounts, the
shares and what the log charges (`TicksFit`, `run_balances_fit_iff`).

An addition above the range leaves a floating-point number in the column, so the
agreement of ledger and log is stated together with the range
(`run_ledger_agrees_iff`).
-/

namespace PunkgoKernel

open Json (Value i64Max)
open Relational (Table key)
open Resumption

/-! ## What is in range -/

/-- What was taken from an actor: what the log charges to it, without what
negative claims only pretend to give back. -/
def taken (x : String) (tr : List KernelTransition) (db : Db) : Int :=
  db.charged x - tally (pretended x) tr

variable [Externals]

end PunkgoKernel
