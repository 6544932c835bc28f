import PunkgoKernel.State.EventLog

/-!
# The independent verifier (`inv3_integrity.rs`, `inv1_append_only.rs`)

The benchmarks check inclusion proofs with a verifier of their own, the same in
both: from the hash of a leaf up, it hashes in the proof's hashes one by one and
compares what it ends with against the root. Everything comes as text, and
`none` is a panic of the decoder.
-/

namespace PunkgoKernel

/-- `u8::from_str_radix` of each two bytes, unwrapped. -/
def hexDecodeChars : List Char → Option (List UInt8)
  | [] => some []
  | [_] => none
  | c :: d :: rest =>
    if c.utf8Size ≠ 1 ∨ d.utf8Size ≠ 1 then none
    else do
      let b ← fromStrRadix16 c d
      let bytes ← hexDecodeChars rest
      some (b :: bytes)

/-- The bytes that a text of hexadecimal digits spells. -/
def hexDecode (s : String) : Option (List UInt8) := hexDecodeChars s.toList

variable [Externals]

/-- The hash of an inner node, with its prefix byte. -/
def nodeHash (left right : List UInt8) : List UInt8 :=
  (Externals.sha256 (0x01 :: left ++ right).toByteArray).bytes

/-- The loop over the proof: from the hash of the leaf up, each hash of the proof is
mixed in on the side that the index says, with the index and the last index shifted
together. -/
def verifyLoop : List String → (idx last : Nat) → List UInt8 → Option (List UInt8)
  | [], _, _, current => some current
  | siblingHex :: rest, idx, last, current => do
    let sibling ← hexDecode siblingHex
    let current :=
      if idx % 2 = 1 then nodeHash sibling current
      else if idx < last then nodeHash current sibling
      -- the last (unpaired) node
      else nodeHash sibling current
    verifyLoop rest (idx / 2) (last / 2) current

/-- `verify_inclusion`: the root recomputed from the leaf and its proof is the root. A
tree without leaves has no last index, and the subtraction panics. -/
def verifyInclusion (leafHashHex : String) (leafIndex treeSize : Nat) (rootHex : String)
    (proof : List String) : Option Bool :=
  if treeSize = 0 then none
  else do
    let current ← hexDecode leafHashHex
    let current ← verifyLoop proof leafIndex (treeSize - 1) current
    some (bytesToHex current = rootHex)

end PunkgoKernel
