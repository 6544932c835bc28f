import Mathlib.Data.Nat.Log
import Mathlib.Tactic.Ring

/-!
# Merkle trees in a flat store

The tree hash of a list of leaves (`root`, RFC 6962) splits the list at the
largest power of two below its length. A log does not keep the tree: it keeps
the hash of every COMPLETE subtree, in the order in which the subtrees become
complete, and `storedHashIndex` is the place of each. `treeHash` finds the tree
hash of any prefix from those alone.

- `storedHashIndex_injective`: no two subtrees share a place. The places of the
  subtrees that end with one leaf all lie before the place of the next leaf
  (`halvings_add_lt`).
- `treeHash_eq`: over a store that holds the hash of every complete subtree of a
  list, `treeHash` is `root` of its prefixes.
-/

namespace Merkle

/-! ## The places of the stored hashes -/

/-- `n + n/2 + n/4 + …`, by fuel. -/
def halvingsAux : (fuel : Nat) → Nat → Nat
  | 0, _ => 0
  | fuel + 1, n => n + halvingsAux fuel (n / 2)

/-- The number of hashes stored before leaf `n`: `n + n/2 + n/4 + …`. -/
def halvings (n : Nat) : Nat := halvingsAux n n

/-- The last leaf under the `n`-th node of a level. -/
def lastLeaf : (level : Nat) → (n : Nat) → Nat
  | 0, n => n
  | level + 1, n => lastLeaf level (2 * n + 1)

/-- The place of the hash of the `n`-th complete subtree of a level: after its
last leaf, in the order of the levels. -/
def storedHashIndex (level n : Nat) : Nat := halvings (lastLeaf level n) + level

theorem halvingsAux_zero (fuel : Nat) : halvingsAux fuel 0 = 0 := by
  induction fuel with
  | zero => rfl
  | succ fuel ih => simpa [halvingsAux] using ih

/-- Enough fuel is enough. -/
theorem halvingsAux_eq {n fuel fuel' : Nat} (h : n ≤ fuel) (h' : n ≤ fuel') :
    halvingsAux fuel n = halvingsAux fuel' n := by
  induction fuel generalizing fuel' n with
  | zero =>
    obtain rfl : n = 0 := by omega
    rw [halvingsAux_zero, halvingsAux_zero]
  | succ fuel ih =>
    cases fuel' with
    | zero =>
      obtain rfl : n = 0 := by omega
      rw [halvingsAux_zero, halvingsAux_zero]
    | succ fuel' =>
      have hhalf : halvingsAux fuel (n / 2) = halvingsAux fuel' (n / 2) := ih (by omega) (by omega)
      simp only [halvingsAux, hhalf]

theorem halvings_eq (n : Nat) : halvings n = n + halvings (n / 2) := by
  cases n with
  | zero => rfl
  | succ n =>
    have hfuel : halvingsAux n ((n + 1) / 2) = halvingsAux ((n + 1) / 2) ((n + 1) / 2) :=
      halvingsAux_eq (by omega) le_rfl
    show n + 1 + halvingsAux n ((n + 1) / 2) = _
    rw [hfuel]
    rfl

theorem halvings_mono {m n : Nat} (h : m ≤ n) : halvings m ≤ halvings n := by
  induction n using Nat.strong_induction_on generalizing m with
  | _ n ih =>
    rcases Nat.eq_zero_or_pos n with rfl | hpos
    · obtain rfl : m = 0 := by omega
      exact le_rfl
    · rw [halvings_eq m, halvings_eq n]
      have hhalf : halvings (m / 2) ≤ halvings (n / 2) := ih (n / 2) (by omega) (by omega)
      omega

/-- Leaf `n` completes a subtree of each level whose size divides `n + 1`, and
there is room for all of them before the next leaf. -/
theorem halvings_add_lt {level n : Nat} (h : 2 ^ level ∣ n + 1) :
    halvings n + level < halvings (n + 1) := by
  induction level generalizing n with
  | zero =>
    rw [halvings_eq n, halvings_eq (n + 1)]
    have hhalf := halvings_mono (m := n / 2) (n := (n + 1) / 2) (by omega)
    omega
  | succ level ih =>
    obtain ⟨c, hc⟩ := h
    have hdouble : n + 1 = 2 * (2 ^ level * c) := by rw [hc, pow_succ]; ring
    have hdvd : 2 ^ level ∣ (n + 1) / 2 := ⟨c, by omega⟩
    obtain ⟨q, hq⟩ : ∃ q, (n + 1) / 2 = q + 1 := ⟨(n + 1) / 2 - 1, by omega⟩
    have hlt := ih (hq ▸ hdvd)
    have hn : n / 2 = q := by omega
    rw [halvings_eq n, halvings_eq (n + 1), hn, hq]
    omega

theorem lastLeaf_add_one (level n : Nat) : lastLeaf level n + 1 = (n + 1) * 2 ^ level := by
  induction level generalizing n with
  | zero => simp [lastLeaf]
  | succ level ih =>
    rw [lastLeaf, ih, pow_succ]
    ring

/-- The places of two nodes differ. -/
theorem storedHashIndex_injective {level n level' n' : Nat}
    (h : storedHashIndex level n = storedHashIndex level' n') : level = level' ∧ n = n' := by
  unfold storedHashIndex at h
  have hdvd : ∀ l k, 2 ^ l ∣ lastLeaf l k + 1 := fun l k => ⟨k + 1, by rw [lastLeaf_add_one]; ring⟩
  -- the places that belong to a leaf lie before those of the next
  have hlt : ∀ {l k l' k'}, lastLeaf l k < lastLeaf l' k' →
      halvings (lastLeaf l k) + l < halvings (lastLeaf l' k') + l' := by
    intro l k l' k' hleaf
    have hnext := halvings_add_lt (hdvd l k)
    have hmono := halvings_mono (m := lastLeaf l k + 1) hleaf
    omega
  have hleaf : lastLeaf level n = lastLeaf level' n' := by
    rcases Nat.lt_trichotomy (lastLeaf level n) (lastLeaf level' n') with hl | hl | hl
    · have := hlt hl
      omega
    · exact hl
    · have := hlt hl
      omega
  obtain rfl : level = level' := by
    rw [hleaf] at h
    omega
  refine ⟨rfl, ?_⟩
  have hn := lastLeaf_add_one level n
  rw [hleaf, lastLeaf_add_one] at hn
  have hsucc := Nat.eq_of_mul_eq_mul_right (Nat.two_pow_pos level) hn
  omega

/-! ## The tree hash -/

variable {H : Type}

/-- The largest power of two below a number above one. -/
def splitPoint (n : Nat) : Nat := 2 ^ (n - 1).log2

theorem splitPoint_lt {n : Nat} (h : 1 < n) : splitPoint n < n := by
  have hle := (Nat.le_log2 (n := n - 1) (by omega)).mp le_rfl
  unfold splitPoint
  omega

theorem splitPoint_pos (n : Nat) : 0 < splitPoint n := Nat.two_pow_pos _

/-- A number between two powers of two is split at the lower one. -/
theorem splitPoint_eq {n level : Nat} (hlow : 2 ^ level < n) (hhigh : n ≤ 2 ^ (level + 1)) :
    splitPoint n = 2 ^ level := by
  have hpos := Nat.two_pow_pos level
  have hne : n - 1 ≠ 0 := by omega
  have hle : level ≤ (n - 1).log2 := (Nat.le_log2 hne).mpr (by omega)
  have hlt : (n - 1).log2 < level + 1 := (Nat.log2_lt hne).mpr (by omega)
  unfold splitPoint
  congr 1
  omega

/-- The tree hash of a list of leaf hashes. -/
def root (node : H → H → H) (empty : H) (leaves : List H) : H :=
  match leaves with
  | [] => empty
  | [leaf] => leaf
  | x :: y :: rest =>
    let k := splitPoint (x :: y :: rest).length
    node (root node empty ((x :: y :: rest).take k)) (root node empty ((x :: y :: rest).drop k))
termination_by leaves.length
decreasing_by
  · have hlt := splitPoint_lt (n := (x :: y :: rest).length) (by simp)
    rw [List.length_take]
    omega
  · have hlt := splitPoint_lt (n := (x :: y :: rest).length) (by simp)
    have hpos := splitPoint_pos (x :: y :: rest).length
    rw [List.length_drop]
    omega

section Root

variable (node : H → H → H) (empty : H)

@[simp] theorem root_singleton (leaf : H) : root node empty [leaf] = leaf := by
  rw [root]

theorem root_split {leaves : List H} (h : 1 < leaves.length) :
    root node empty leaves =
      node (root node empty (leaves.take (splitPoint leaves.length)))
        (root node empty (leaves.drop (splitPoint leaves.length))) := by
  match leaves, h with
  | x :: y :: rest, _ => rw [root]

/-- The leaves under the `n`-th complete subtree of a level. -/
def leavesUnder (leaves : List H) (level n : Nat) : List H :=
  (leaves.drop (n * 2 ^ level)).take (2 ^ level)

/-- The hash of the `n`-th complete subtree of a level. -/
def subtree (leaves : List H) (level n : Nat) : H :=
  root node empty (leavesUnder leaves level n)

theorem length_leavesUnder {leaves : List H} {level n : Nat}
    (h : (n + 1) * 2 ^ level ≤ leaves.length) : (leavesUnder leaves level n).length = 2 ^ level := by
  unfold leavesUnder
  rw [List.length_take, List.length_drop]
  have hmul : (n + 1) * 2 ^ level = n * 2 ^ level + 2 ^ level := by ring
  omega

/-- A complete subtree is made of two of the level below. -/
theorem subtree_succ {leaves : List H} {level n : Nat}
    (h : (n + 1) * 2 ^ (level + 1) ≤ leaves.length) :
    subtree node empty leaves (level + 1) n =
      node (subtree node empty leaves level (2 * n)) (subtree node empty leaves level (2 * n + 1)) := by
  have hpos := Nat.two_pow_pos level
  have hpow : 2 ^ (level + 1) = 2 ^ level + 2 ^ level := by rw [pow_succ]; ring
  have hlen := length_leavesUnder h
  have hsplit : splitPoint (leavesUnder leaves (level + 1) n).length = 2 ^ level := by
    rw [hlen]
    exact splitPoint_eq (by omega) le_rfl
  have hleft : (leavesUnder leaves (level + 1) n).take (2 ^ level) =
      leavesUnder leaves level (2 * n) := by
    unfold leavesUnder
    rw [List.take_take, min_eq_left (by omega)]
    congr 2
    rw [hpow]
    ring
  have hright : (leavesUnder leaves (level + 1) n).drop (2 ^ level) =
      leavesUnder leaves level (2 * n + 1) := by
    unfold leavesUnder
    rw [List.drop_take, List.drop_drop]
    congr 2
    · omega
    · rw [hpow]
      ring
  unfold subtree
  rw [root_split node empty (by omega), hsplit, hleft, hright]

/-- Leaves that come later do not matter to a subtree that is complete. -/
theorem subtree_append {leaves : List H} {level n : Nat}
    (h : (n + 1) * 2 ^ level ≤ leaves.length) (more : List H) :
    subtree node empty (leaves ++ more) level n = subtree node empty leaves level n := by
  have hmul : (n + 1) * 2 ^ level = n * 2 ^ level + 2 ^ level := by ring
  have hpos := Nat.two_pow_pos level
  unfold subtree leavesUnder
  rw [List.drop_append_of_le_length (by omega), List.take_append_of_le_length]
  rw [List.length_drop]
  omega

/-! ## The tree hash from a store -/

/-- The store holds the hash of every complete subtree. -/
def Stored (leaves : List H) (read : Nat → Option H) : Prop :=
  ∀ level n, (n + 1) * 2 ^ level ≤ leaves.length →
    read (storedHashIndex level n) = some (subtree node empty leaves level n)

/-- The tree hash of the `n` leaves from `lo` on: the largest complete subtree
they begin with, and the rest. -/
def treeHashFrom (read : Nat → Option H) : (fuel : Nat) → (lo n : Nat) → Option H
  | 0, _, _ => none
  | fuel + 1, lo, n =>
    let level := n.log2
    if n = 2 ^ level then read (storedHashIndex level (lo / 2 ^ level))
    else do
      let left ← read (storedHashIndex level (lo / 2 ^ level))
      let right ← treeHashFrom read fuel (lo + 2 ^ level) (n - 2 ^ level)
      some (node left right)

/-- The tree hash of the first `n` leaves. -/
def treeHash (n : Nat) (read : Nat → Option H) : Option H :=
  if n = 0 then some empty else treeHashFrom node read n 0 n

/-- The audit path of leaf `m` of the `n` leaves from `lo` on, from the leaf up:
at each split the hash of the other side. -/
def proveRecordFrom (read : Nat → Option H) : (fuel : Nat) → (lo n m : Nat) → Option (List H)
  | 0, _, _, _ => none
  | fuel + 1, lo, n, m =>
    let k := splitPoint n
    if n ≤ 1 then some []
    else if m < k then do
      let path ← proveRecordFrom read fuel lo k m
      let right ← treeHashFrom node read (n - k) (lo + k) (n - k)
      some (path ++ [right])
    else do
      let path ← proveRecordFrom read fuel (lo + k) (n - k) (m - k)
      let left ← treeHashFrom node read k lo k
      some (path ++ [left])

/-- The audit path of leaf `m` in the tree of the first `n` leaves. -/
def proveRecord (n m : Nat) (read : Nat → Option H) : Option (List H) :=
  if n ≤ m then none else proveRecordFrom node read n 0 n m

theorem treeHashFrom_eq {leaves : List H} {read : Nat → Option H}
    (hstored : Stored node empty leaves read) {fuel lo n : Nat} (hpos : 0 < n) (hfuel : n ≤ fuel)
    (hdvd : 2 ^ n.log2 ∣ lo) (hle : lo + n ≤ leaves.length) :
    treeHashFrom node read fuel lo n = some (root node empty ((leaves.drop lo).take n)) := by
  induction fuel generalizing lo n with
  | zero => omega
  | succ fuel ih =>
    have hlow : 2 ^ n.log2 ≤ n := (Nat.le_log2 (by omega)).mp le_rfl
    have hhigh : n < 2 ^ (n.log2 + 1) := (Nat.log2_lt (by omega)).mp (Nat.lt_succ_self _)
    have hpow := Nat.two_pow_pos n.log2
    have hcancel : lo / 2 ^ n.log2 * 2 ^ n.log2 = lo := Nat.div_mul_cancel hdvd
    have hread : read (storedHashIndex n.log2 (lo / 2 ^ n.log2)) =
        some (root node empty ((leaves.drop lo).take (2 ^ n.log2))) := by
      rw [hstored n.log2 (lo / 2 ^ n.log2) (by rw [add_one_mul, hcancel]; omega)]
      unfold subtree leavesUnder
      rw [hcancel]
    unfold treeHashFrom
    simp only
    split
    · next heq => rw [hread, ← heq]
    · next hne =>
      have hrest : 2 ^ (n - 2 ^ n.log2).log2 ∣ lo + 2 ^ n.log2 := by
        have hlevel : (n - 2 ^ n.log2).log2 ≤ n.log2 := by
          have : (n - 2 ^ n.log2).log2 < n.log2 + 1 :=
            (Nat.log2_lt (by omega)).mpr (by omega)
          omega
        have hsmall := Nat.pow_dvd_pow 2 hlevel
        exact Nat.dvd_add (hsmall.trans hdvd) hsmall
      rw [hread, ih (by omega) (by omega) hrest (by omega)]
      have hlen : ((leaves.drop lo).take n).length = n := by
        rw [List.length_take, List.length_drop]
        omega
      have hsplit : splitPoint ((leaves.drop lo).take n).length = 2 ^ n.log2 := by
        rw [hlen]
        exact splitPoint_eq (by omega) hhigh.le
      have hroot : root node empty ((leaves.drop lo).take n) =
          node (root node empty ((leaves.drop lo).take (2 ^ n.log2)))
            (root node empty ((leaves.drop (lo + 2 ^ n.log2)).take (n - 2 ^ n.log2))) := by
        rw [root_split node empty (by omega), hsplit, List.take_take, min_eq_left hlow,
          List.drop_take, List.drop_drop]
      rw [hroot]
      rfl

/-- Over the hashes of the complete subtrees of a list of leaves, `treeHash` is
the tree hash of each prefix. -/
theorem treeHash_eq {leaves : List H} {read : Nat → Option H}
    (hstored : Stored node empty leaves read) {n : Nat} (hle : n ≤ leaves.length) :
    treeHash node empty n read = some (root node empty (leaves.take n)) := by
  unfold treeHash
  split
  · next hzero =>
    subst hzero
    rw [List.take_zero, root]
  · exact treeHashFrom_eq node empty hstored (by omega) le_rfl (Nat.dvd_zero _) (by omega)

end Root

end Merkle
