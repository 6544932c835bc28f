import PunkgoKernel.Laws.Checkpoint
import PunkgoKernel.Lib.AuditPath
import PunkgoKernel.Runtime.Verifier

/-!
# Inclusion proofs

The independent verifier climbs from a leaf with the hashes of a proof and takes
its turns from the index alone (`verifyInclusion_eq`). It compares the end of
the climb with the root and never asks whether the climb was as long as the path
of that index. So a proof of another leaf is accepted where its turns are the
first turns of the index (`Merkle.Mistaken`), and nothing else is accepted that
should not be (`verifyInclusion_exact_iff`).

Taken from the transparency-log package: its nodes are hashed as RFC 6962 has it,
and its `prove_record` finds the audit path from the hashes of the complete
subtrees (`ProvesRecords`).
-/

namespace PunkgoKernel

variable [Externals]

/-! ## The tree of RFC 6962 -/

/-- The hash of an inner node of two hashes. -/
def rfcNode (left right : Hash) : Hash :=
  Externals.sha256 (0x01 :: left.bytes ++ right.bytes).toByteArray

/-- The root of the tree over these leaves, by its definition. -/
def rfcRoot (leaves : List Hash) : Hash := Merkle.root rfcNode emptyHash leaves

/-- The audit path of a leaf in the tree over these leaves, by its definition. -/
def rfcPath (leaves : List Hash) (i : Nat) : List Hash := Merkle.auditPath rfcNode emptyHash leaves i

/-- The package follows RFC 6962: its inner nodes, and its audit paths from the
hashes of the complete subtrees. -/
structure ProvesRecords : Prop where
  node : ∀ left right, Externals.nodeHash left right = rfcNode left right
  path : ∀ leaves read i, i < leaves.length → HoldsSubtrees leaves read →
    Externals.proveRecord leaves.length i read =
      .ok (Merkle.auditPath Externals.nodeHash emptyHash leaves i)

/-- What is hashed for the root and by the verifier has no collision, and no
leaf is the hash of a node. -/
def InclusionFree (leaves : List Hash) (i : Nat) (x : Hash) (p : List Hash) : Prop :=
  Merkle.CollisionFree rfcNode
    (Merkle.hashed rfcNode emptyHash leaves ++
      Merkle.climbed rfcNode (Merkle.climbTurns i (leaves.length - 1) p.length) p x)
    (x :: leaves)

/-! ## What the verifier computes -/

omit [Externals] in
/-- The verifier's decoder reads the spelling of the kernel back. -/
theorem hexDecode_bytesToHex (bytes : List UInt8) : hexDecode (bytesToHex bytes) = some bytes := by
  unfold hexDecode bytesToHex
  rw [String.toList_ofList]
  induction bytes with
  | nil => rfl
  | cons b rest ih =>
    have hlt : b.toNat < 256 := b.toNat_lt
    obtain ⟨-, -, hhi⟩ := hexDigit_spec (b.toNat / 16) (by omega)
    obtain ⟨-, -, hlo⟩ := hexDigit_spec (b.toNat % 16) (by omega)
    rw [List.flatMap_cons]
    show hexDecodeChars (Json.hexDigit (b.toNat / 16) :: Json.hexDigit (b.toNat % 16) ::
      rest.flatMap hexPair) = _
    unfold hexDecodeChars
    rw [if_neg (by omega), fromStrRadix16_hexPair, ih]
    rfl

/-- The verifier's loop climbs from the leaf as an audit path does, taking the turns
that the index and the last index tell it. -/
theorem verifyLoop_eq (p : List Hash) (idx last : Nat) (x : Hash) :
    verifyLoop (p.map fun h => bytesToHex h.bytes) idx last x.bytes =
      some (Merkle.climb rfcNode (Merkle.climbTurns idx last p.length) p x).bytes := by
  induction p generalizing idx last x with
  | nil => rfl
  | cons sibling rest ih =>
    have hturn : Merkle.turnAt idx last 0 = (decide (idx % 2 = 1) || !decide (idx < last)) := by
      simp [Merkle.turnAt]
    have hnode : (if idx % 2 = 1 then nodeHash sibling.bytes x.bytes
        else if idx < last then nodeHash x.bytes sibling.bytes
        else nodeHash sibling.bytes x.bytes) =
        (rfcNode (Merkle.pair (Merkle.turnAt idx last 0) sibling x).1
          (Merkle.pair (Merkle.turnAt idx last 0) sibling x).2).bytes := by
      rw [hturn]
      by_cases hodd : idx % 2 = 1
      · simp [hodd, Merkle.pair, nodeHash, rfcNode]
      · by_cases hlast : idx < last
        · simp [hodd, hlast, Merkle.pair, nodeHash, rfcNode]
        · simp [hodd, hlast, Merkle.pair, nodeHash, rfcNode]
    rw [List.map_cons, List.length_cons, Merkle.climbTurns_cons]
    unfold verifyLoop
    rw [hexDecode_bytesToHex]
    show verifyLoop _ (idx / 2) (last / 2) (if idx % 2 = 1 then nodeHash sibling.bytes x.bytes
      else if idx < last then nodeHash x.bytes sibling.bytes
      else nodeHash sibling.bytes x.bytes) = _
    rw [hnode, ih]
    rfl

omit [Externals] in
/-- Hashes are spelled alike only if they are the same. -/
theorem bytesToHex_eq_iff (h h' : Hash) : bytesToHex h.bytes = bytesToHex h'.bytes ↔ h = h' := by
  constructor
  · intro heq
    have hread := hexToHash_bytesToHex h
    rw [heq, hexToHash_bytesToHex h'] at hread
    cases hread
    rfl
  · rintro rfl
    rfl

/-- The verifier says whether the climb of the index comes to the root. -/
theorem verifyInclusion_eq {n : Nat} (hn : 0 < n) (i : Nat) (x r : Hash) (p : List Hash) :
    verifyInclusion (bytesToHex x.bytes) i n (bytesToHex r.bytes)
        (p.map fun h => bytesToHex h.bytes) =
      some (decide (Merkle.climb rfcNode (Merkle.climbTurns i (n - 1) p.length) p x = r)) := by
  unfold verifyInclusion
  rw [if_neg (by omega), hexDecode_bytesToHex]
  show (verifyLoop _ i (n - 1) x.bytes >>= fun current =>
    some (decide (bytesToHex current = bytesToHex r.bytes))) = _
  rw [verifyLoop_eq]
  exact congrArg some (decide_eq_decide.mpr (bytesToHex_eq_iff _ _))

/-- What the kernel proves a record with is its audit path. -/
theorem inclusionProof_eq (hproves : ProvesRecords) {leaves : List Hash} {i : Nat}
    (hi : i < leaves.length) {db : Db} (hholds : HoldsSubtrees leaves (AuditLog.reader db)) :
    AuditLog.inclusionProof i leaves.length db =
      .ok ((rfcPath leaves i).map fun h => bytesToHex h.bytes) := by
  have hnode : (Externals.nodeHash : Hash → Hash → Hash) = rfcNode :=
    funext fun left => funext fun right => hproves.node left right
  unfold AuditLog.inclusionProof
  rw [hproves.path leaves _ i hi hholds, hnode]
  rfl

/-- Against the root of the leaves the verifier accepts exactly the leaf of the index
with its audit path, the one the kernel answers, unless the proof is the path of another
leaf whose turns are the first turns of the index. Of the transparency-log package it
takes that its inner nodes are the standard's and that it proves a record with the audit
path (`ProvesRecords`); of the digest, that nothing collides among what the tree and the
climb hash (`InclusionFree`). -/
theorem verifyInclusion_exact_iff (hproves : ProvesRecords) {leaves : List Hash} {i : Nat}
    (hi : i < leaves.length) {x : Hash} {p : List Hash} (hfree : InclusionFree leaves i x p) :
    ((verifyInclusion (bytesToHex x.bytes) i leaves.length (bytesToHex (rfcRoot leaves).bytes)
          (p.map fun h => bytesToHex h.bytes) = some true ↔
        leaves[i]? = some x ∧ p = rfcPath leaves i) ↔
      ¬ Merkle.Mistaken rfcNode emptyHash leaves i x p) ∧
    ∀ db : Db, HoldsSubtrees leaves (AuditLog.reader db) →
      AuditLog.inclusionProof i leaves.length db =
        .ok ((rfcPath leaves i).map fun h => bytesToHex h.bytes) := by
  refine ⟨?_, fun db hholds => inclusionProof_eq hproves hi hholds⟩
  rw [← Merkle.climb_exact_iff hi hfree, verifyInclusion_eq (by omega), Option.some_inj,
    decide_eq_true_eq, eq_comm (a := p)]
  rfl

/-! ## A tree of three leaves -/

section Three

variable {H : Type} (node : H → H → H) (empty a b c : H)

omit [Externals] in
/-- A tree of two leaves is split after the first. -/
theorem splitPoint_two : Merkle.splitPoint 2 = 1 :=
  Merkle.splitPoint_eq (show 2 ^ 0 < 2 by decide) (by decide)

omit [Externals] in
/-- A tree of three leaves is split after the second. -/
theorem splitPoint_three : Merkle.splitPoint 3 = 2 :=
  Merkle.splitPoint_eq (show 2 ^ 1 < 3 by decide) (by decide)

omit [Externals] in
/-- The root over two leaves is the node over them. -/
theorem root_two : Merkle.root node empty [a, b] = node a b := by
  rw [Merkle.root_split node empty (by simp)]
  simp [splitPoint_two]

omit [Externals] in
/-- The last of three leaves is alone on its side. -/
theorem auditPath_three : Merkle.auditPath node empty [a, b, c] 2 = [node a b] := by
  rw [Merkle.auditPath_split node empty (by simp)]
  simp [splitPoint_three, root_two, Merkle.auditPath_singleton]

omit [Externals] in
/-- The nodes over three leaves: the one over the first two, and the root. -/
theorem hashed_three : Merkle.hashed node empty [a, b, c] = [(node a b, c), (a, b)] := by
  have hone : ∀ leaf : H, Merkle.hashed node empty [leaf] = [] := fun leaf => by
    rw [Merkle.hashed]
  have htwo : Merkle.hashed node empty [a, b] = [(a, b)] := by
    rw [Merkle.hashed_split node empty (by simp)]
    simp [splitPoint_two, hone]
  rw [Merkle.hashed_split node empty (by simp)]
  simp [splitPoint_three, root_two, hone, htwo]

variable {node a b c}

omit [Externals] in
/-- Three leaves without a collision, from the distinctness of the hashes that are
formed over them. -/
theorem collisionFree_three {leaves : List H} (hdistinct : node (node a b) c ≠ node a b)
    (hlow : node a b ∉ leaves) (htop : node (node a b) c ∉ leaves) :
    Merkle.CollisionFree node
      ([(node a b, c), (a, b)] ++ Merkle.climbed node [true] [node a b] c) leaves := by
  have hpairs : ∀ q ∈ [(node a b, c), (a, b)] ++ Merkle.climbed node [true] [node a b] c,
      q = (node a b, c) ∨ q = (a, b) := by
    simp [Merkle.climbed, Merkle.pair]
  constructor
  · intro q hq q' hq' heq
    rcases hpairs q hq with rfl | rfl <;> rcases hpairs q' hq' with rfl | rfl
    · rfl
    · exact absurd heq hdistinct
    · exact absurd heq.symm hdistinct
    · rfl
  · intro q hq
    rcases hpairs q hq with rfl | rfl
    · exact htop
    · exact hlow

end Three

omit [Externals] in
/-- The node hash of the packages is the one of the definition. -/
theorem rfcNode_reference : @rfcNode reference = nodeHashOf := by
  funext left right
  show sha256Bytes (0x01 :: left.bytes ++ right.bytes).toByteArray.data.toList = _
  rw [List.data_toByteArray]
  rfl

omit [Externals] in
/-- The reference packages prove records as assumed. -/
theorem provesRecords_reference : letI := reference; ProvesRecords :=
  letI := reference
  { node := fun left right => (congrFun (congrFun rfcNode_reference left) right).symm
    path := fun leaves read i hi hstored => by
      have hpath := @Merkle.proveRecord_eq _ nodeHashOf (sha256Bytes []) leaves read
        hstored _ _ hi le_rfl
      rw [List.take_length] at hpath
      exact proveRecord_reference hpath }

/-- A leaf of one byte all over. -/
def leafOf (byte : UInt8) : Hash := ⟨List.replicate 32 byte, rfl⟩

/-- A tree of three leaves, whose last leaf has no sibling on the lowest level. -/
def threeLeaves : List Hash := [leafOf 0, leafOf 1, leafOf 2]

omit [Externals] in
/-- The path of the last leaf, given with the index of one that turns to the
right first as it does. -/
theorem inclusionFree_three {i : Nat} (hturn : Merkle.climbTurns i 2 1 = [true]) :
    @InclusionFree reference threeLeaves i (leafOf 2) [nodeHashOf (leafOf 0) (leafOf 1)] := by
  have hdistinct : nodeHashOf (nodeHashOf (leafOf 0) (leafOf 1)) (leafOf 2) ≠
      nodeHashOf (leafOf 0) (leafOf 1) := by
    decide +kernel
  have hapart : nodeHashOf (leafOf 0) (leafOf 1) ∉ leafOf 2 :: threeLeaves ∧
      nodeHashOf (nodeHashOf (leafOf 0) (leafOf 1)) (leafOf 2) ∉ leafOf 2 :: threeLeaves := by
    decide +kernel
  show Merkle.CollisionFree (@rfcNode reference)
    (Merkle.hashed (@rfcNode reference) (@emptyHash reference) threeLeaves ++
      Merkle.climbed (@rfcNode reference) (Merkle.climbTurns i 2 1) _ _) _
  rw [hturn, rfcNode_reference, threeLeaves, hashed_three]
  exact collisionFree_three hdistinct hapart.1 hapart.2

omit [Externals] in
/-- The last leaf and its path are accepted for its index, as they should be. -/
theorem verifyInclusion_last :
    letI := reference
    verifyInclusion (bytesToHex (leafOf 2).bytes) 2 3 (bytesToHex (rfcRoot threeLeaves).bytes)
      ([nodeHashOf (leafOf 0) (leafOf 1)].map fun h => bytesToHex h.bytes) = some true := by
  refine ((@verifyInclusion_exact_iff reference provesRecords_reference threeLeaves 2 (by decide)
    (leafOf 2) [nodeHashOf (leafOf 0) (leafOf 1)] (inclusionFree_three (by decide))).1.mpr ?_).mpr
    ⟨rfl, ?_⟩
  · rintro ⟨j, hj, hne, hleaf, -, -⟩
    have hlast : ∀ j < 3, threeLeaves[j]? = some (leafOf 2) → j = 2 := by decide
    exact hne (hlast j hj hleaf)
  · unfold rfcPath
    rw [rfcNode_reference, threeLeaves, auditPath_three]

omit [Externals] in
/-- The last leaf and its path are accepted for the index of the one before. -/
theorem verifyInclusion_mistaken :
    letI := reference
    ¬ ∀ leaves i x p, i < leaves.length → InclusionFree leaves i x p →
      (verifyInclusion (bytesToHex x.bytes) i leaves.length (bytesToHex (rfcRoot leaves).bytes)
          (p.map fun h => bytesToHex h.bytes) = some true ↔
        leaves[i]? = some x ∧ p = rfcPath leaves i) := by
  intro hclaim
  have hexact := hclaim threeLeaves 1 (leafOf 2) [nodeHashOf (leafOf 0) (leafOf 1)] (by decide)
    (inclusionFree_three (by decide))
  have hroot : @rfcRoot reference threeLeaves =
      nodeHashOf (nodeHashOf (leafOf 0) (leafOf 1)) (leafOf 2) := by
    unfold rfcRoot
    rw [rfcNode_reference, threeLeaves, Merkle.root_split nodeHashOf _ (by simp)]
    simp [splitPoint_three, root_two]
  rw [@verifyInclusion_eq reference threeLeaves.length (by decide), Option.some_inj,
    decide_eq_true_eq, hroot, rfcNode_reference] at hexact
  obtain ⟨hleaf, -⟩ := hexact.mp rfl
  have hdiffers : threeLeaves[1]? ≠ some (leafOf 2) := by decide
  exact hdiffers hleaf

end PunkgoKernel
