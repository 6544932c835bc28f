import PunkgoKernel.Lib.Merkle
import PunkgoKernel.Lib.Schedule
import PunkgoKernel.Lib.Sha256
import PunkgoKernel.Runtime.System

/-!
# The kernel with its packages

`reference` gives the functions of the other packages a definition each: the
SHA-256 of the standard, the Merkle functions of a tiled log, globs with literal
separators, and the texts of an unsigned checkpoint and of a debug-printed list.
With it the kernel can be run on a request, so that a statement about all runs
can be met by one that happens.

Two of the fields only shape texts that no concrete run here reads
(`serdeError`) or values it does not use (`rereadFloat`).
-/

namespace PunkgoKernel

open Resumption

/-! ## Globs -/

/-- A pattern against a text: `?` is one character and `*` any number of them,
neither a separator; `**` is anything. -/
def globChars : List Char → List Char → Bool
  | [], text => text.isEmpty
  | '*' :: '*' :: rest, text => text.tails.any (globChars rest)
  | '*' :: rest, text =>
    text.tails.any fun tail =>
      globChars rest tail && (text.take (text.length - tail.length)).all (· ≠ '/')
  | '?' :: rest, c :: text => c ≠ '/' && globChars rest text
  | p :: rest, c :: text => p = c && globChars rest text
  | _, [] => false

/-! ## Texts -/

/-- The sixty-four digits of base64. -/
def base64Alphabet : List Char :=
  "ABCDEFGHIJKLMNOPQRSTUVWXYZabcdefghijklmnopqrstuvwxyz0123456789+/".toList

/-- The digit of a number, of its last six bits. -/
def base64Digit (n : Nat) : Char := base64Alphabet.getD (n % 64) 'A'

/-- Base64 with padding. -/
def base64 : List UInt8 → List Char
  | a :: b :: c :: rest =>
    let n := (a.toNat * 256 + b.toNat) * 256 + c.toNat
    base64Digit (n / 2 ^ 18) :: base64Digit (n / 2 ^ 12) :: base64Digit (n / 2 ^ 6) ::
      base64Digit n :: base64 rest
  | [a, b] =>
    let n := (a.toNat * 256 + b.toNat) * 256
    [base64Digit (n / 2 ^ 18), base64Digit (n / 2 ^ 12), base64Digit (n / 2 ^ 6), '=']
  | [a] =>
    let n := a.toNat * 256 * 256
    [base64Digit (n / 2 ^ 18), base64Digit (n / 2 ^ 12), '=', '=']
  | [] => []

/-! ## The packages -/

/-- The digest of a list of bytes as a hash. -/
def sha256Bytes (bytes : List UInt8) : Hash := ⟨Sha256.digest bytes, Sha256.length_digest bytes⟩

/-- The hash of an inner node. -/
def nodeHashOf (left right : Hash) : Hash := sha256Bytes (1 :: left.bytes ++ right.bytes)

/-- The functions the kernel takes from other packages. -/
@[reducible] def reference : Externals where
  sha256 bytes := sha256Bytes bytes.data.toList
  globMatch pattern target := globChars pattern.toList target.toList
  storedHashIndex := Merkle.storedHashIndex
  nodeHash := nodeHashOf
  treeHash n read :=
    match Merkle.treeHash nodeHashOf (sha256Bytes []) n read with
    | some root => .ok root
    | none => .error "indexes not in tree"
  proveRecord n m read :=
    match Merkle.proveRecord nodeHashOf n m read with
    | some path => .ok path
    | none => .error "indexes not in tree"
  checkpointText n root := s!"punkgo/kernel\n{n}\n{String.ofList (base64 root.bytes)}\n"
  serdeError expected _ := s!"expected {expected}"
  debugStrings items := "[" ++ ", ".intercalate (items.map fun s => s!"\"{s}\"") ++ "]"
  rereadFloat f := f

/-- Where the Merkle store has the root of a tree, the tree package answers it. -/
theorem treeHash_reference {n : Nat} {read : Nat → Option Hash} {root : Hash}
    (h : Merkle.treeHash nodeHashOf (sha256Bytes []) n read = some root) :
    @Externals.treeHash reference n read = .ok root := by
  unfold Externals.treeHash
  dsimp only [reference]
  rw [h]

/-- Where the Merkle store has the audit path of a leaf, the tree package answers it. -/
theorem proveRecord_reference {n m : Nat} {read : Nat → Option Hash} {path : List Hash}
    (h : Merkle.proveRecord nodeHashOf n m read = some path) :
    @Externals.proveRecord reference n m read = .ok path := by
  unfold Externals.proveRecord
  dsimp only [reference]
  rw [h]

/-! ## Requests in a schedule -/

section Requests

open Json (Value)

/-- The clock readings and identifiers of the `n`-th pass through the pipeline:
a second for each pass. -/
def envAt (n : Nat) : Env where
  clock _ := 1000 * (n + 1)
  uuid
    | .holdId => s!"hold-{n}"
    | .holdEvent => s!"hold-event-{n}"
    | .responseEvent => s!"response-event-{n}"
    | .timeoutEvent round => s!"timeout-event-{n}-{round}"
    | .event => s!"event-{n}"
    | .envelope => s!"envelope-{n}"

/-- A submit whose passes are the `n`-th and those after it. -/
def submitAt (n : Nat) (actorId : String) (actionType : ActionType) (target : String)
    (payload : Value) : Request :=
  .submit (fun k => envAt (n + k)) ⟨actorId, actionType, target, payload, none⟩

/-- Root creates an agent that may write anywhere. -/
def createAgent (n : Nat) (actorId : String) (energyBalance : Int) : Request :=
  submitAt n "root" .create "ledger/actor" (Json.object
    [("actor_id", .str actorId),
     ("energy_balance", .num (.int energyBalance)),
     ("writable_targets", .arr
       [Json.object [("target", .str "**"),
        ("actions", .arr [.str "create", .str "mutate", .str "execute"])]])])

/-- Root grants an agent an envelope for everything, with further fields. -/
def grantEnvelope (n : Nat) (actorId : String) (budget : Int) (more : List (String × Value)) :
    Request :=
  submitAt n "root" .create "ledger/envelope" (Json.object
    ([("actor_id", .str actorId),
      ("budget", .num (.int budget)),
      ("targets", .arr [.str "**"]),
      ("actions", .arr [.str "create", .str "mutate", .str "execute"])] ++ more))

/-- A rule that puts every mutate on hold. -/
def holdMutates : String × Value :=
  ("hold_on", .arr [Json.object [("target", .str "**"), ("actions", .arr [.str "mutate"])]])

/-- An agent is created, is granted an envelope, and acts under it. -/
def agentAtWork : List (Turn Request) :=
  alone 30 (createAgent 0 "agent-1" 500) ++ alone 30 (grantEnvelope 1 "agent-1" 100 []) ++
    alone 30 (submitAt 2 "agent-1" .mutate "workspace/a" (.obj []))

/-- An agent's change is put on hold. -/
def agentOnHold : List (Turn Request) :=
  alone 30 (createAgent 0 "agent-1" 500) ++
    alone 30 (grantEnvelope 1 "agent-1" 100 [holdMutates]) ++
    alone 30 (submitAt 2 "agent-1" .mutate "workspace/a" (.obj []))

end Requests

/-- The run of a schedule of the kernel with its packages. -/
def kernelPlayed (turns : List (Turn Request)) :
    Played KernelSig (KernelResult Outcome) Db Request :=
  letI := reference
  played kernelSystem StateStore.genesis turns

/-- Playing a schedule is a run of the kernel, so what holds over every run holds
of it. -/
theorem kernelRun_played (turns : List (Turn Request)) :
    letI := reference
    KernelRun (kernelPlayed turns).trace (kernelPlayed turns).pool :=
  letI := reference
  run_played kernelSystem StateStore.genesis turns

/-! ## Bytes -/

/-- The bytes of a JSON text are those of its characters. -/
theorem bytes_toVec (v : Json.Value) :
    v.toVec.data.toList = v.toChars.flatMap String.utf8EncodeChar := by
  unfold Json.Value.toVec Json.Value.toText
  rw [String.toByteArray_ofList, List.utf8Encode, List.data_toByteArray]

/-- The first byte of an event's digest, computed from the characters of its canonical
encoding. -/
theorem head_eventHash (event : EventRecord) :
    (reference.sha256 (eventHashInput event)).bytes.head? =
      (Sha256.digest (0 :: (canonicalEvent event).toChars.flatMap String.utf8EncodeChar)).head? := by
  show (Sha256.digest (eventHashInput event).data.toList).head? = _
  unfold eventHashInput
  rw [ByteArray.toList_data_append, bytes_toVec]
  rfl

end PunkgoKernel
