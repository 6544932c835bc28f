import PunkgoKernel.Lib.Pool
import PunkgoKernel.Runtime.Kernel

/-!
# Requests, production ticks, and the running kernel

A running kernel serves requests side by side over one database
(`kernelSystem`): quotes, submits, the reads that bring the audit checkpoint up
to date, and the ticks of the energy producer. It may be stopped at any time and
started again, provided the startup checks pass.

Every other read is a single query that changes nothing, and is left out. The
gate all reads pass (`check_read_access`) lets everybody through.
-/

namespace PunkgoKernel

open Resumption
open Float64 (Double)

/-! ## Production (`energy_producer.rs`) -/

/-- The operations on numbers that a tick divides the production with. The producer
has those of `f64`; what it would do with exact numbers is the same tick over the
rational ones. -/
structure ShareArithmetic (F : Type) where
  ofShare : ℚ → F
  ofEnergy : Int → F
  zero : F
  add : F → F → F
  div : F → F → F
  mul : F → F → F
  nonpos : F → Bool
  floor : F → Int

/-- Doubles, each result rounded, and the cast of a floor to 64 bits. -/
def doubles : ShareArithmetic Double where
  ofShare := .ofRat
  ofEnergy energy := .ofRat energy
  zero := .finite 0
  add := .add
  div := .div
  mul := .mul
  nonpos := Double.nonpos
  floor := Double.floorI64

/-- Exact numbers. -/
def rationals : ShareArithmetic ℚ where
  ofShare share := share
  ofEnergy energy := energy
  zero := 0
  add := (· + ·)
  div := (· / ·)
  mul := (· * ·)
  nonpos total := total ≤ 0
  floor := Int.floor

/-- One more unit for each of the first actors in turn, until nothing remains. -/
def distributeRemainder : (remainder idx : Nat) → List (String × Int) → List (String × Int)
  | 0, _, allocations => allocations
  | remainder + 1, idx, allocations =>
    distributeRemainder remainder ((idx + 1) % allocations.length)
      (allocations.modify idx fun a => (a.1, a.2 + 1))

section Production

variable {F : Type} (ops : ShareArithmetic F)

/-- The shares of the actors added up in the order they are read, each sum rounded. -/
def totalShares (actors : List (String × ℚ)) : F :=
  actors.foldl (fun total a => ops.add total (ops.ofShare a.2)) ops.zero

/-- The part of the production that goes with a share: the share over the total, times
the production, rounded down. -/
def floorPart (energyPerTick : Int) (total : F) (share : ℚ) : Int :=
  ops.floor (ops.mul (ops.ofEnergy energyPerTick) (ops.div (ops.ofShare share) total))

/-- The credits of a tick: each actor's part of the production, rounded down, and what
the rounding leaves over in single units, from the first actor on. -/
def allocate (energyPerTick : Int) (actors : List (String × ℚ)) : List (String × Int) :=
  let total := totalShares ops actors
  let allocations := actors.map fun a => (a.1, floorPart ops energyPerTick total a.2)
  let allocatedTotal := (allocations.map (·.2)).sum
  distributeRemainder (energyPerTick - allocatedTotal).toNat 0 allocations

/-- `produce_tick`. -/
def produceTick (energyPerTick : Int) : KernelProg Outcome := do
  let actors : List (String × ℚ) ← call .listActiveWithShares
  if actors = [] ∨ ops.nonpos (totalShares ops actors) then pure (.ticked 0 0)
  else do
    let (count, total) ← call (.creditAll (allocate ops energyPerTick actors))
    pure (.ticked total count)

end Production

/-! ## Requests -/

/-- What the kernel is asked to do. A submit comes with the clock readings and
identifiers of its passes through the pipeline. -/
inductive Request where
  | quote (action : Action)
  | submit (envs : Nat → Env) (action : Action)
  | auditCheckpoint (now : Nat)
  | snapshot (now : Nat)
  | auditInclusionProof (logIndex treeSize : Option Int) (now : Nat)
  | tick (energyPerTick : Int)

variable [Externals]

/-- The `Quote` branch of `dispatch`. -/
def quote (action : Action) : KernelProg Outcome := do
  check (validateAction action)
  pure (.quoted (quoteCost action))

omit [Externals] in
/-- `ensure_checkpoint`. -/
def ensureCheckpoint (eventCount now : Nat) : KernelProg Unit :=
  if eventCount = 0 then pure ()
  else do
    let current : Nat ← call .treeSize
    if eventCount ≤ current then pure ()
    else do
      let _ ← call (.makeCheckpoint eventCount now)
      pure ()

omit [Externals] in
/-- The `audit_checkpoint` read. -/
def auditCheckpoint (now : Nat) : KernelProg Outcome := do
  let eventCount ← call .countEvents
  ensureCheckpoint eventCount now
  let cp ← call .latestCheckpoint
  pure (.checkpoint cp)

omit [Externals] in
/-- The `snapshot` read. -/
def snapshot (now : Nat) : KernelProg Outcome := do
  let eventCount ← call .countEvents
  ensureCheckpoint eventCount now
  let cp ← call .latestCheckpoint
  pure (.snapshot eventCount cp)

omit [Externals] in
/-- A signed number read as an unsigned one of 64 bits. -/
def asU64 (n : Int) : Nat := (n % 2 ^ 64).toNat

omit [Externals] in
/-- The tree size of an inclusion proof: the one asked for, or that of the
current checkpoint. -/
def proofTreeSize (treeSize : Option Int) (now : Nat) : KernelProg Nat :=
  match treeSize with
  | some size => pure (asU64 size)
  | none => do
    let eventCount ← call .countEvents
    ensureCheckpoint eventCount now
    call .treeSize

omit [Externals] in
/-- The `audit_inclusion_proof` read. -/
def auditInclusionProof (logIndex treeSize : Option Int) (now : Nat) : KernelProg Outcome :=
  match logIndex with
  | none => throw (.invalidRequest "log_index is required for audit_inclusion_proof")
  | some logIndex => do
    let size ← proofTreeSize treeSize now
    let proof ← call (.inclusionProof (asU64 logIndex) size)
    pure (.inclusionProof (asU64 logIndex) size proof)

/-- The program of each request, a tick of the energy producer included. -/
def program : Request → KernelProg Outcome
  | .quote action => quote action
  | .submit envs action => submitAction envs action
  | .auditCheckpoint now => auditCheckpoint now
  | .snapshot now => snapshot now
  | .auditInclusionProof logIndex treeSize now => auditInclusionProof logIndex treeSize now
  | .tick energyPerTick => produceTick doubles energyPerTick

/-- The tail call of an approval: the pending action is submitted in the same task, with
the sentinels in its payload. -/
def again : KernelResult Outcome → Option (KernelProg Outcome)
  | .ok (.resubmit envs action) => some (submitAction envs action)
  | _ => none

/-- The kernel over its database: requests run as interleaved programs, an approval goes
on with the action it approved, and a restart bootstraps the store. -/
def kernelSystem : System KernelSig (KernelResult Outcome) Db Request where
  handler := database
  program := program
  again := again
  reboot := StateStore.bootstrap

/-- A run of the kernel from a first start. -/
abbrev KernelRun := Run kernelSystem StateStore.genesis

/-- A transition of the kernel: the pool it is taken from, and its label. -/
abbrev KernelTransition := Transition KernelSig (KernelResult Outcome) Db Request

/-- A pool of the kernel: the store and the tasks at work. -/
abbrev KernelPool := Pool KernelSig (KernelResult Outcome) Db

end PunkgoKernel
