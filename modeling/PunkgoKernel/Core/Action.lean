import Mathlib
import PunkgoKernel.Lib.JsonInjective

/-!
# Actions, their cost, and their admission (`errors.rs`, `action.rs`, `policy.rs`)

An action is what an actor submits: a type, a target and a JSON payload. Its
cost is a function of the action alone (`quoteCost`), positive for every
action and far below the 64-bit range, so the cast to a signed integer that
the kernel makes wherever it uses a cost keeps the value.

What the kernel calls outside its own sources is gathered in `Externals`.
-/

namespace PunkgoKernel

open Json (Value)

/-- The errors of the kernel (`KernelError`). The text of a database error is
the driver's own. -/
inductive KernelError where
  | invalidRequest (detail : String)
  | policyViolation (detail : String)
  | actorNotFound (actorId : String)
  | insufficientEnergy (actorId : String) (required available : Int)
  | actorFrozen (detail : String)
  | boundaryViolation (detail : String)
  | authorizationRequired (detail : String)
  | holdTriggered (holdId agentId : String)
  | executePayloadInvalid (detail : String)
  | audit (detail : String)
  | io (detail : String)
  | db (detail : String)
  | json (detail : String)
deriving DecidableEq

/-- What the kernel answers: a value, or one of its errors. -/
abbrev KernelResult (α : Type) := Except KernelError α

/-- A SHA-256 digest: thirty-two bytes, of which the proof is part. -/
structure Hash where
  bytes : List UInt8
  size : bytes.length = 32
deriving DecidableEq

/-- The functions of other packages the kernel calls: the digest, the glob
matcher (with `literal_separator`), the Merkle functions of the
transparency-log package with the text of a signed checkpoint, and the texts
that serde and the debug formatter put into error messages. `rereadFloat` is
what the JSON reader makes of a float's own spelling, which need not be the
same float. -/
class Externals where
  sha256 : ByteArray → Hash
  globMatch : String → String → Bool
  storedHashIndex : Nat → Nat → Nat
  nodeHash : Hash → Hash → Hash
  treeHash : Nat → (Nat → Option Hash) → Except String Hash
  proveRecord : Nat → Nat → (Nat → Option Hash) → Except String (List Hash)
  checkpointText : Nat → Hash → String
  serdeError : String → Value → String
  debugStrings : List String → String
  rereadFloat : Json.FloatLit → Json.FloatLit

/-! ## Hexadecimal text -/

/-- Two lowercase digits a byte (`bytes_to_hex`, `hash_to_hex`). -/
def hexPair (b : UInt8) : List Char :=
  [Json.hexDigit (b.toNat / 16), Json.hexDigit (b.toNat % 16)]

/-- The text of a digest, as it is stored and sent. -/
def bytesToHex (bytes : List UInt8) : String := String.ofList (bytes.flatMap hexPair)

/-! ## Actions -/

/-- The four atomic actions, of which only an observation changes nothing. -/
inductive ActionType where
  | observe
  | create
  | mutate
  | execute
deriving DecidableEq

namespace ActionType

/-- Whether the action changes anything, and so needs authorisation. -/
def isStateChanging : ActionType → Bool
  | .observe => false
  | _ => true

/-- The text that the type of an event has. -/
def asStr : ActionType → String
  | .observe => "observe"
  | .create => "create"
  | .mutate => "mutate"
  | .execute => "execute"

/-- The text tells the type. -/
theorem asStr_injective {a b : ActionType} (h : a.asStr = b.asStr) : a = b := by
  cases a <;> cases b <;> first | rfl | (simp [asStr] at h)

end ActionType

/-- An action submitted by an actor, with the payload as it came. -/
structure Action where
  actorId : String
  actionType : ActionType
  target : String
  payload : Value
  timestamp : Option String := none
deriving DecidableEq

/-- The cost of appending an event: one, and one more for each full KiB of
payload. The length is a 64-bit count. -/
def appendCost (payload : Value) : Nat :=
  1 + payload.toText.utf8ByteSize % 2 ^ 64 / 1024

/-- The energy an action costs: the operation itself and the append. -/
def quoteCost (action : Action) : Nat :=
  let actionCost := match action.actionType with
    | .observe => 0
    | .create => 10
    | .mutate => 15
    | .execute =>
      25 + ((action.payload.get? "output_bytes").bind Value.asU64?).getD 0 / 256
  actionCost + appendCost action.payload

/-- Nothing is free: appending to the log costs at least one unit. -/
theorem quoteCost_pos (action : Action) : 0 < quoteCost action := by
  have happend : 0 < appendCost action.payload := by
    unfold appendCost
    omega
  exact Nat.add_pos_right _ happend

/-- What is read as a u64 is one. -/
theorem asU64?_lt {v : Value} {n : Nat} (h : v.asU64? = some n) : n < 2 ^ 64 := by
  unfold Value.asU64? at h
  split at h
  · split at h
    · next hr =>
      cases h
      unfold Json.u64Max at hr
      omega
    · cases h
  · cases h

/-- No cost leaves the 64-bit signed range, nor comes near to it, so a cost may be
written to a payload and read back. -/
theorem quoteCost_lt (action : Action) : quoteCost action < 2 ^ 58 := by
  have hbytes : ((action.payload.get? "output_bytes").bind Value.asU64?).getD 0 < 2 ^ 64 := by
    cases h : (action.payload.get? "output_bytes").bind Value.asU64? with
    | none => decide
    | some n =>
      obtain ⟨v, -, hv⟩ := Option.bind_eq_some_iff.mp h
      exact asU64?_lt hv
  have hlen : action.payload.toText.utf8ByteSize % 2 ^ 64 < 2 ^ 64 := Nat.mod_lt _ (by decide)
  unfold quoteCost appendCost
  cases action.actionType <;> simp only <;> omega

variable [Externals]

/-- The hash of an action's payload, as hexadecimal text, over the payload as it is
spelled out. -/
def payloadHashHex (action : Action) : String :=
  bytesToHex (Externals.sha256 action.payload.toVec).bytes

/-! ## Admission -/

/-- The characters with Unicode's White_Space property, which `trim` removes. -/
def isWhiteSpace (c : Char) : Bool :=
  let n := c.toNat
  (9 ≤ n && n ≤ 13) || n == 32 || n == 0x85 || n == 0xa0 || n == 0x1680 ||
    (0x2000 ≤ n && n ≤ 0x200a) || n == 0x2028 || n == 0x2029 || n == 0x202f || n == 0x205f ||
    n == 0x3000

/-- `s.trim().is_empty()`. -/
def isBlank (s : String) : Bool := s.toList.all isWhiteSpace

/-- The visibility gate of observe actions. The source's policy is all-transparent: every
actor can observe any target. -/
def checkVisibility (_actorId _target : String) : KernelResult Unit := .ok ()

/-- The policy check of an action, before anything is looked up. -/
def validateAction (action : Action) : KernelResult Unit :=
  if isBlank action.actorId then .error (.policyViolation "actor_id cannot be empty")
  else if isBlank action.target then .error (.policyViolation "target cannot be empty")
  else if action.actionType.isStateChanging && quoteCost action == 0 then
    .error (.policyViolation "state-changing action must have positive cost")
  else if action.actionType = .observe then checkVisibility action.actorId action.target
  else .ok ()

end PunkgoKernel
