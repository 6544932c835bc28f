import Mathlib.Data.List.Basic
import PunkgoKernel.Lib.Merkle

/-!
# Audit paths

The audit path of a leaf has, from the leaf up, the hash of the other side of
each split on the way to the root (`auditPath`, RFC 6962), and the turns say on
which side the leaf is (`turns`). Whoever climbs along turns with the hashes of
a path comes to the root exactly if both are those of some leaf that has the
hash the climb began with (`climb_eq_root_iff`).

A verifier that has only an index and the last index finds the turns by
shifting both (`turnAt`). For the length of the leaf's own path these are the
turns of the leaf (`climbTurns_eq`). It is not said where the path ends, so a
shorter climb takes the first turns only, which may be those of another leaf
(`Mistaken`).
-/

namespace Merkle

variable {H : Type}

/-! ## Paths and turns -/

section Paths

variable (node : H → H → H) (empty : H)

/-- The audit path of leaf `m`, from the leaf up. -/
def auditPath (leaves : List H) (m : Nat) : List H :=
  match leaves with
  | [] => []
  | [_] => []
  | x :: y :: rest =>
    let k := splitPoint (x :: y :: rest).length
    if m < k then
      auditPath ((x :: y :: rest).take k) m ++ [root node empty ((x :: y :: rest).drop k)]
    else
      auditPath ((x :: y :: rest).drop k) (m - k) ++ [root node empty ((x :: y :: rest).take k)]
termination_by leaves.length
decreasing_by
  · have hlt := splitPoint_lt (n := (x :: y :: rest).length) (by simp)
    rw [List.length_take]
    omega
  · have hlt := splitPoint_lt (n := (x :: y :: rest).length) (by simp)
    have hpos := splitPoint_pos (x :: y :: rest).length
    rw [List.length_drop]
    omega

/-- The turns of leaf `m` of `n`, from the leaf up: whether the node on the way
is the right one of its pair. -/
def turns (n m : Nat) : List Bool :=
  if _ : 1 < n then
    if m < splitPoint n then turns (splitPoint n) m ++ [false]
    else turns (n - splitPoint n) (m - splitPoint n) ++ [true]
  else []
termination_by n
decreasing_by
  · exact splitPoint_lt ‹1 < n›
  · have hpos := splitPoint_pos n
    omega

/-- The pairs that are hashed for the root. -/
def hashed (leaves : List H) : List (H × H) :=
  match leaves with
  | [] => []
  | [_] => []
  | x :: y :: rest =>
    let k := splitPoint (x :: y :: rest).length
    (root node empty ((x :: y :: rest).take k), root node empty ((x :: y :: rest).drop k)) ::
      (hashed ((x :: y :: rest).take k) ++ hashed ((x :: y :: rest).drop k))
termination_by leaves.length
decreasing_by
  · have hlt := splitPoint_lt (n := (x :: y :: rest).length) (by simp)
    rw [List.length_take]
    omega
  · have hlt := splitPoint_lt (n := (x :: y :: rest).length) (by simp)
    have hpos := splitPoint_pos (x :: y :: rest).length
    rw [List.length_drop]
    omega

/-- A node and its sibling, in order. -/
def pair (right : Bool) (sibling current : H) : H × H :=
  if right then (sibling, current) else (current, sibling)

/-- The hash at the end of a climb. -/
def climb : List Bool → List H → H → H
  | right :: ts, sibling :: path, current =>
    let q := pair right sibling current
    climb ts path (node q.1 q.2)
  | _, _, current => current

/-- The pairs that are hashed on a climb. -/
def climbed : List Bool → List H → H → List (H × H)
  | right :: ts, sibling :: path, current =>
    let q := pair right sibling current
    q :: climbed ts path (node q.1 q.2)
  | _, _, _ => []

/-- Among the given pairs no two have the same hash, and none has the hash of a
leaf. -/
structure CollisionFree (pairs : List (H × H)) (leaves : List H) : Prop where
  injective : ∀ q ∈ pairs, ∀ q' ∈ pairs, node q.1 q.2 = node q'.1 q'.2 → q = q'
  apart : ∀ q ∈ pairs, node q.1 q.2 ∉ leaves

theorem auditPath_singleton (leaf : H) (m : Nat) : auditPath node empty [leaf] m = [] := by
  rw [auditPath]

theorem auditPath_split {leaves : List H} (h : 1 < leaves.length) (m : Nat) :
    auditPath node empty leaves m =
      if m < splitPoint leaves.length then
        auditPath node empty (leaves.take (splitPoint leaves.length)) m ++
          [root node empty (leaves.drop (splitPoint leaves.length))]
      else
        auditPath node empty (leaves.drop (splitPoint leaves.length))
            (m - splitPoint leaves.length) ++
          [root node empty (leaves.take (splitPoint leaves.length))] := by
  match leaves, h with
  | x :: y :: rest, _ => rw [auditPath]

theorem hashed_split {leaves : List H} (h : 1 < leaves.length) :
    hashed node empty leaves =
      (root node empty (leaves.take (splitPoint leaves.length)),
        root node empty (leaves.drop (splitPoint leaves.length))) ::
      (hashed node empty (leaves.take (splitPoint leaves.length)) ++
        hashed node empty (leaves.drop (splitPoint leaves.length))) := by
  match leaves, h with
  | x :: y :: rest, _ => rw [hashed]

theorem turns_left {n m : Nat} (h : 1 < n) (hm : m < splitPoint n) :
    turns n m = turns (splitPoint n) m ++ [false] := by
  rw [turns, dif_pos h, if_pos hm]

theorem turns_right {n m : Nat} (h : 1 < n) (hm : splitPoint n ≤ m) :
    turns n m = turns (n - splitPoint n) (m - splitPoint n) ++ [true] := by
  rw [turns, dif_pos h, if_neg (by omega)]

theorem turns_short {n : Nat} (h : n ≤ 1) (m : Nat) : turns n m = [] := by
  rw [turns, dif_neg (by omega)]

variable {node empty}

theorem CollisionFree.mono {pairs pairs' : List (H × H)} {leaves leaves' : List H}
    (h : CollisionFree node pairs leaves) (hpairs : pairs' ⊆ pairs) (hleaves : leaves' ⊆ leaves) :
    CollisionFree node pairs' leaves' where
  injective q hq q' hq' := h.injective q (hpairs hq) q' (hpairs hq')
  apart q hq hmem := h.apart q (hpairs hq) (hleaves hmem)

/-! ## Climbing -/

theorem climb_concat {ts : List Bool} {path : List H} (hlength : ts.length = path.length)
    (right : Bool) (sibling x : H) :
    climb node (ts ++ [right]) (path ++ [sibling]) x =
      node (pair right sibling (climb node ts path x)).1
        (pair right sibling (climb node ts path x)).2 := by
  induction ts generalizing path x with
  | nil =>
    obtain rfl := List.length_eq_zero_iff.mp hlength.symm
    rfl
  | cons t ts ih =>
    cases path with
    | nil => cases hlength
    | cons s path => exact ih (Nat.succ.inj hlength) _

theorem climbed_concat {ts : List Bool} {path : List H} (hlength : ts.length = path.length)
    (right : Bool) (sibling x : H) :
    climbed node (ts ++ [right]) (path ++ [sibling]) x =
      climbed node ts path x ++ [pair right sibling (climb node ts path x)] := by
  induction ts generalizing path x with
  | nil =>
    obtain rfl := List.length_eq_zero_iff.mp hlength.symm
    rfl
  | cons t ts ih =>
    cases path with
    | nil => cases hlength
    | cons s path => exact congrArg (List.cons _) (ih (Nat.succ.inj hlength) _)

theorem length_auditPath (leaves : List H) (m : Nat) :
    (auditPath node empty leaves m).length = (turns leaves.length m).length := by
  induction hn : leaves.length using Nat.strong_induction_on generalizing leaves m with
  | _ n ih =>
    subst hn
    match leaves with
    | [] => rw [auditPath, turns_short (by simp)]; rfl
    | [leaf] => rw [auditPath_singleton, turns_short (by simp)]; rfl
    | x :: y :: rest =>
      have hlong : 1 < (x :: y :: rest).length := by simp
      have hlt := splitPoint_lt hlong
      have hpos := splitPoint_pos (x :: y :: rest).length
      generalize x :: y :: rest = leaves at hlong hlt hpos ih ⊢
      have htake : (leaves.take (splitPoint leaves.length)).length = splitPoint leaves.length := by
        rw [List.length_take]
        omega
      have hdrop : (leaves.drop (splitPoint leaves.length)).length =
          leaves.length - splitPoint leaves.length := List.length_drop
      rw [auditPath_split node empty hlong]
      split
      · next hm =>
        rw [turns_left hlong hm, List.length_append, List.length_append, ih _ hlt _ m htake]
        rfl
      · next hm =>
        rw [turns_right hlong (by omega), List.length_append, List.length_append,
          ih _ (by omega) _ (m - splitPoint leaves.length) hdrop]
        rfl

/-- The turns and the path are those of a leaf with the given hash. -/
def Reaches (node : H → H → H) (empty : H) (leaves : List H) (x : H) (ts : List Bool)
    (path : List H) : Prop :=
  ∃ j < leaves.length, leaves[j]? = some x ∧ turns leaves.length j = ts ∧
    auditPath node empty leaves j = path

theorem reaches_singleton {leaf x : H} {ts : List Bool} {path : List H} :
    Reaches node empty [leaf] x ts path ↔ x = leaf ∧ ts = [] ∧ path = [] := by
  constructor
  · rintro ⟨j, hj, hleaf, rfl, rfl⟩
    obtain rfl : j = 0 := by simpa using hj
    exact ⟨(Option.some.inj hleaf).symm, turns_short (by simp) 0,
      auditPath_singleton node empty leaf 0⟩
  · rintro ⟨rfl, rfl, rfl⟩
    exact ⟨0, by simp, rfl, turns_short (by simp) 0, auditPath_singleton node empty x 0⟩

/-- Every leaf of a tree that is split has a turn at the top. -/
theorem reaches_nil {leaves : List H} (hlong : 1 < leaves.length) {x : H} {path : List H} :
    ¬ Reaches node empty leaves x [] path := by
  rintro ⟨j, -, -, hturns, -⟩
  rcases Nat.lt_or_ge j (splitPoint leaves.length) with hj | hj
  · rw [turns_left hlong hj] at hturns
    exact List.append_ne_nil_of_right_ne_nil _ (List.cons_ne_nil _ _) hturns
  · rw [turns_right hlong hj] at hturns
    exact List.append_ne_nil_of_right_ne_nil _ (List.cons_ne_nil _ _) hturns

/-- On the left of the top the sibling is the tree on the right. -/
theorem reaches_left {leaves : List H} (hlong : 1 < leaves.length) {x sibling : H}
    {ts : List Bool} {path : List H} :
    Reaches node empty leaves x (ts ++ [false]) (path ++ [sibling]) ↔
      sibling = root node empty (leaves.drop (splitPoint leaves.length)) ∧
        Reaches node empty (leaves.take (splitPoint leaves.length)) x ts path := by
  have hlt := splitPoint_lt hlong
  have htake : (leaves.take (splitPoint leaves.length)).length = splitPoint leaves.length := by
    rw [List.length_take]
    omega
  constructor
  · rintro ⟨j, hj, hleaf, hturns, hpath⟩
    rcases Nat.lt_or_ge j (splitPoint leaves.length) with hleft | hright
    · rw [turns_left hlong hleft] at hturns
      rw [auditPath_split node empty hlong, if_pos hleft] at hpath
      obtain ⟨hpath', hsibling⟩ := List.append_inj' hpath rfl
      refine ⟨(List.singleton_inj.mp hsibling).symm, j, htake.symm ▸ hleft, ?_, ?_, hpath'⟩
      · rw [List.getElem?_take_of_lt hleft]
        exact hleaf
      · rw [htake]
        exact (List.append_inj' hturns rfl).1
    · rw [turns_right hlong hright] at hturns
      exact absurd (List.append_inj' hturns rfl).2 (by simp)
  · rintro ⟨rfl, j, hj, hleaf, hturns, hpath⟩
    rw [htake] at hj hturns
    refine ⟨j, by omega, ?_, ?_, ?_⟩
    · rw [← List.getElem?_take_of_lt hj]
      exact hleaf
    · rw [turns_left hlong hj, hturns]
    · rw [auditPath_split node empty hlong, if_pos hj, hpath]

/-- On the right of the top the sibling is the tree on the left. -/
theorem reaches_right {leaves : List H} (hlong : 1 < leaves.length) {x sibling : H}
    {ts : List Bool} {path : List H} :
    Reaches node empty leaves x (ts ++ [true]) (path ++ [sibling]) ↔
      sibling = root node empty (leaves.take (splitPoint leaves.length)) ∧
        Reaches node empty (leaves.drop (splitPoint leaves.length)) x ts path := by
  have hlt := splitPoint_lt hlong
  have hdrop : (leaves.drop (splitPoint leaves.length)).length =
      leaves.length - splitPoint leaves.length := List.length_drop
  constructor
  · rintro ⟨j, hj, hleaf, hturns, hpath⟩
    rcases Nat.lt_or_ge j (splitPoint leaves.length) with hleft | hright
    · rw [turns_left hlong hleft] at hturns
      exact absurd (List.append_inj' hturns rfl).2 (by simp)
    · rw [turns_right hlong hright] at hturns
      rw [auditPath_split node empty hlong, if_neg (by omega)] at hpath
      obtain ⟨hpath', hsibling⟩ := List.append_inj' hpath rfl
      refine ⟨(List.singleton_inj.mp hsibling).symm, j - splitPoint leaves.length, by omega, ?_, ?_,
        hpath'⟩
      · rw [List.getElem?_drop, Nat.add_sub_cancel' hright]
        exact hleaf
      · rw [hdrop]
        exact (List.append_inj' hturns rfl).1
  · rintro ⟨rfl, j, hj, hleaf, hturns, hpath⟩
    rw [hdrop] at hj hturns
    refine ⟨splitPoint leaves.length + j, by omega, ?_, ?_, ?_⟩
    · rw [← List.getElem?_drop]
      exact hleaf
    · rw [turns_right hlong (by omega), Nat.add_sub_cancel_left, hturns]
    · rw [auditPath_split node empty hlong, if_neg (by omega), Nat.add_sub_cancel_left, hpath]

/-- What is hashed in a part of a tree, and below the top of a climb. -/
theorem CollisionFree.below {leaves part : List H} {ts : List Bool} {path : List H} {x : H}
    {q : H × H} (h : CollisionFree node
      (hashed node empty leaves ++ (climbed node ts path x ++ [q])) (x :: leaves))
    (hpart : hashed node empty part ⊆ hashed node empty leaves) (hleaves : part ⊆ leaves) :
    CollisionFree node (hashed node empty part ++ climbed node ts path x) (x :: part) := by
  refine h.mono ?_ ?_
  · intro q' hq'
    rcases List.mem_append.mp hq' with htree | hclimb
    · exact List.mem_append_left _ (hpart htree)
    · exact List.mem_append_right _ (List.mem_append_left _ hclimb)
  · intro y hy
    rcases List.mem_cons.mp hy with rfl | hy
    · exact List.mem_cons_self
    · exact List.mem_cons_of_mem _ (hleaves hy)

/-- A climb comes to the root exactly if its turns and its hashes are those of a
leaf that has the hash it began with. -/
theorem climb_eq_root_iff {leaves : List H} (hpos : 0 < leaves.length) {ts : List Bool}
    {path : List H} {x : H} (hlength : ts.length = path.length)
    (hfree : CollisionFree node (hashed node empty leaves ++ climbed node ts path x)
      (x :: leaves)) :
    climb node ts path x = root node empty leaves ↔ Reaches node empty leaves x ts path := by
  induction hn : leaves.length using Nat.strong_induction_on generalizing leaves ts path with
  | _ n ih =>
    subst hn
    rcases Nat.lt_or_ge 1 leaves.length with hlong | hshort
    swap
    · -- a lone leaf: nothing hashed is one
      obtain ⟨leaf, rfl⟩ := List.length_eq_one_iff.mp (show leaves.length = 1 by omega)
      rw [root_singleton, reaches_singleton]
      rcases List.eq_nil_or_concat' ts with rfl | ⟨ts', right, rfl⟩
      · obtain rfl := List.length_eq_zero_iff.mp hlength.symm
        simp [climb]
      · rcases List.eq_nil_or_concat' path with rfl | ⟨path', sibling, rfl⟩
        · simp at hlength
        have hlength' : ts'.length = path'.length := by simpa using hlength
        refine iff_of_false ?_ fun h => by simp at h
        rw [climb_concat hlength']
        rw [climbed_concat hlength'] at hfree
        intro heq
        refine hfree.apart (pair right sibling (climb node ts' path' x)) (by simp) ?_
        rw [heq]
        simp
    have hlt := splitPoint_lt hlong
    have hsplit := splitPoint_pos leaves.length
    have htake : (leaves.take (splitPoint leaves.length)).length = splitPoint leaves.length := by
      rw [List.length_take]
      omega
    have hdrop : (leaves.drop (splitPoint leaves.length)).length =
        leaves.length - splitPoint leaves.length := List.length_drop
    have hhashed := hashed_split node empty hlong
    have htop : (root node empty (leaves.take (splitPoint leaves.length)),
        root node empty (leaves.drop (splitPoint leaves.length))) ∈ hashed node empty leaves := by
      rw [hhashed]
      exact List.mem_cons_self
    rw [root_split node empty hlong]
    rcases List.eq_nil_or_concat' ts with rfl | ⟨ts', right, rfl⟩
    · -- a node of the tree is no leaf
      obtain rfl := List.length_eq_zero_iff.mp hlength.symm
      refine iff_of_false ?_ (reaches_nil hlong)
      intro heq
      obtain rfl : x = _ := heq
      exact hfree.apart _ (List.mem_append_left _ htop) List.mem_cons_self
    rcases List.eq_nil_or_concat' path with rfl | ⟨path', sibling, rfl⟩
    · simp at hlength
    have hlength' : ts'.length = path'.length := by simpa using hlength
    rw [climb_concat hlength']
    rw [climbed_concat hlength'] at hfree
    -- the last pair of the climb is the top of the tree
    have hpeel : node (pair right sibling (climb node ts' path' x)).1
          (pair right sibling (climb node ts' path' x)).2 =
        node (root node empty (leaves.take (splitPoint leaves.length)))
          (root node empty (leaves.drop (splitPoint leaves.length))) ↔
        pair right sibling (climb node ts' path' x) =
          (root node empty (leaves.take (splitPoint leaves.length)),
            root node empty (leaves.drop (splitPoint leaves.length))) := by
      constructor
      · exact hfree.injective _ (by simp) _ (List.mem_append_left _ htop)
      · intro heq
        rw [heq]
    rw [hpeel]
    cases right with
    | true =>
      have hpart : hashed node empty (leaves.drop (splitPoint leaves.length)) ⊆
          hashed node empty leaves := by
        rw [hhashed]
        exact fun q hq => List.mem_cons_of_mem _ (List.mem_append_right _ hq)
      have hfree' := hfree.below hpart (List.drop_subset _ _)
      rw [reaches_right hlong, ← ih _ (by omega) (by omega) hlength' hfree' hdrop]
      exact Prod.mk_inj
    | false =>
      have hpart : hashed node empty (leaves.take (splitPoint leaves.length)) ⊆
          hashed node empty leaves := by
        rw [hhashed]
        exact fun q hq => List.mem_cons_of_mem _ (List.mem_append_left _ hq)
      have hfree' := hfree.below hpart (List.take_subset _ _)
      rw [reaches_left hlong, ← ih _ hlt (by omega) hlength' hfree' htake, and_comm]
      exact Prod.mk_inj

end Paths

/-! ## The turns of an index -/

/-- The turn at a level, from an index and the last index: to the right if the
node is odd or the last one there. -/
def turnAt (idx last level : Nat) : Bool :=
  idx / 2 ^ level % 2 = 1 || !(idx / 2 ^ level < last / 2 ^ level)

/-- The first turns of an index. -/
def climbTurns (idx last count : Nat) : List Bool := (List.range count).map (turnAt idx last)

@[simp] theorem length_climbTurns (idx last count : Nat) :
    (climbTurns idx last count).length = count := by
  simp [climbTurns]

theorem climbTurns_succ (idx last count : Nat) :
    climbTurns idx last (count + 1) = climbTurns idx last count ++ [turnAt idx last count] := by
  unfold climbTurns
  rw [List.range_succ, List.map_append, List.map_singleton]

/-- The first turn, and those of the index shifted by one. -/
theorem climbTurns_cons (idx last count : Nat) :
    climbTurns idx last (count + 1) =
      turnAt idx last 0 :: climbTurns (idx / 2) (last / 2) count := by
  have hshift : ∀ n level : Nat, n / 2 ^ (level + 1) = n / 2 / 2 ^ level := by
    intro n level
    rw [Nat.div_div_eq_div_mul, pow_succ, Nat.mul_comm]
  unfold climbTurns
  rw [List.range_succ_eq_map, List.map_cons, List.map_map]
  refine congrArg _ (List.map_congr_left fun level _ => ?_)
  simp only [Function.comp_apply, turnAt, Nat.succ_eq_add_one, hshift]

theorem climbTurns_congr {idx last idx' last' count : Nat}
    (h : ∀ level < count, turnAt idx last level = turnAt idx' last' level) :
    climbTurns idx last count = climbTurns idx' last' count :=
  List.map_congr_left fun level hlevel => h level (List.mem_range.mp hlevel)

/-- A multiple of a power of two, seen from a lower level. -/
theorem shift_add {level l m : Nat} (h : level ≤ l) :
    (2 ^ l + m) / 2 ^ level = 2 ^ (l - level) + m / 2 ^ level := by
  have hpow : 2 ^ l = 2 ^ (l - level) * 2 ^ level := by
    rw [← pow_add, Nat.sub_add_cancel h]
  rw [hpow, Nat.mul_comm, Nat.mul_add_div (Nat.two_pow_pos level)]

/-- The split of a number, as a power of two. -/
theorem splitPoint_cases {n : Nat} (h : 1 < n) :
    ∃ l, splitPoint n = 2 ^ l ∧ 2 ^ l < n ∧ n ≤ 2 ^ (l + 1) := by
  refine ⟨(n - 1).log2, rfl, splitPoint_lt h, ?_⟩
  have hlt := (Nat.log2_lt (n := n - 1) (k := (n - 1).log2 + 1) (by omega)).mp (Nat.lt_succ_self _)
  omega

theorem length_turns_le {n l m : Nat} (h : n ≤ 2 ^ l) : (turns n m).length ≤ l := by
  induction n using Nat.strong_induction_on generalizing l m with
  | _ n ih =>
    rcases Nat.lt_or_ge 1 n with hlong | hshort
    swap
    · rw [turns_short hshort]
      exact Nat.zero_le l
    obtain ⟨k, hk, hlow, hhigh⟩ := splitPoint_cases hlong
    have hpos := Nat.two_pow_pos k
    have hpow : 2 ^ (k + 1) = 2 * 2 ^ k := by rw [pow_succ, Nat.mul_comm]
    have hkl : k < l := (Nat.pow_lt_pow_iff_right (by decide)).mp (lt_of_lt_of_le hlow h)
    rcases Nat.lt_or_ge m (splitPoint n) with hm | hm
    · have hleft : (turns (2 ^ k) m).length ≤ k := ih (2 ^ k) hlow le_rfl
      rw [turns_left hlong hm, List.length_append, hk, List.length_singleton]
      omega
    · have hright : (turns (n - 2 ^ k) (m - 2 ^ k)).length ≤ k :=
        ih (n - 2 ^ k) (by omega) (by omega)
      rw [turns_right hlong hm, List.length_append, hk, List.length_singleton]
      omega

/-- In a complete tree every leaf has a turn on each level. -/
theorem length_turns_complete {l m : Nat} (hm : m < 2 ^ l) : (turns (2 ^ l) m).length = l := by
  induction l generalizing m with
  | zero => rw [turns_short (by simp)]; rfl
  | succ l ih =>
    have hpos := Nat.two_pow_pos l
    have hpow : 2 ^ (l + 1) = 2 * 2 ^ l := by rw [pow_succ, Nat.mul_comm]
    have hlong : 1 < 2 ^ (l + 1) := by omega
    have hsplit : splitPoint (2 ^ (l + 1)) = 2 ^ l := splitPoint_eq (by omega) le_rfl
    rcases Nat.lt_or_ge m (2 ^ l) with hleft | hright
    · rw [turns_left hlong (hsplit ▸ hleft), hsplit, List.length_append, ih hleft]
      rfl
    · have hhalf : 2 ^ (l + 1) - 2 ^ l = 2 ^ l := by omega
      rw [turns_right hlong (hsplit ▸ hright), hsplit, List.length_append, hhalf,
        ih (by omega)]
      rfl

/-- At the end of its path a leaf is under the last node of the level. -/
theorem shift_turns {n m : Nat} (hm : m < n) :
    m / 2 ^ (turns n m).length = (n - 1) / 2 ^ (turns n m).length := by
  induction n using Nat.strong_induction_on generalizing m with
  | _ n ih =>
    rcases Nat.lt_or_ge 1 n with hlong | hshort
    swap
    · obtain rfl : m = n - 1 := by omega
      rfl
    obtain ⟨l, hl, hlow, hhigh⟩ := splitPoint_cases hlong
    have hpos := Nat.two_pow_pos l
    have hpow : 2 ^ (l + 1) = 2 * 2 ^ l := by rw [pow_succ, Nat.mul_comm]
    rcases Nat.lt_or_ge m (splitPoint n) with hleft | hright
    · rw [turns_left hlong hleft, List.length_append, hl]
      rw [hl] at hleft
      rw [length_turns_complete hleft, List.length_singleton, Nat.div_eq_of_lt (by omega),
        Nat.div_eq_of_lt (by omega)]
    · rw [turns_right hlong hright, List.length_append, hl, List.length_singleton, pow_succ,
        ← Nat.div_div_eq_div_mul, ← Nat.div_div_eq_div_mul]
      rw [hl] at hright
      have hbelow := @ih (n - 2 ^ l) (by omega) (m - 2 ^ l) (by omega)
      have hle : (turns (n - 2 ^ l) (m - 2 ^ l)).length ≤ l := length_turns_le (by omega)
      have hshifts := congrArg (2 ^ (l - (turns (n - 2 ^ l) (m - 2 ^ l)).length) + ·) hbelow
      simp only [← shift_add hle] at hshifts
      rw [Nat.add_sub_cancel' hright, show 2 ^ l + (n - 2 ^ l - 1) = n - 1 by omega] at hshifts
      rw [hshifts]

/-- An index below a complete tree: only whether a node is odd counts. -/
theorem turnAt_of_lt {m l last level : Nat} (hm : m < 2 ^ l) (hlast : 2 ^ l - 1 ≤ last)
    (hlevel : level < l) : turnAt m last level = decide (m / 2 ^ level % 2 = 1) := by
  have hhalf : 2 ^ l = 2 ^ level * (2 * 2 ^ (l - level - 1)) := by
    rw [← pow_succ', ← pow_add]
    congr 1
    omega
  have hidx : m / 2 ^ level < 2 * 2 ^ (l - level - 1) :=
    Nat.div_lt_of_lt_mul (hhalf ▸ hm)
  have hend : 2 * 2 ^ (l - level - 1) - 1 ≤ last / 2 ^ level := by
    refine le_trans ?_ (Nat.div_le_div_right hlast)
    rw [Nat.le_div_iff_mul_le (Nat.two_pow_pos level), hhalf, Nat.mul_comm, Nat.mul_sub,
      Nat.mul_one]
    exact Nat.sub_le_sub_left (Nat.two_pow_pos level) _
  unfold turnAt
  by_cases hodd : m / 2 ^ level % 2 = 1
  · simp [hodd]
  · have hbelow : m / 2 ^ level < last / 2 ^ level := by omega
    simp [hodd, hbelow]

/-- For the length of the leaf's path, the turns of the index are those of the
leaf. -/
theorem climbTurns_eq {n m : Nat} (hm : m < n) :
    climbTurns m (n - 1) (turns n m).length = turns n m := by
  induction n using Nat.strong_induction_on generalizing m with
  | _ n ih =>
    rcases Nat.lt_or_ge 1 n with hlong | hshort
    swap
    · rw [turns_short hshort]
      rfl
    obtain ⟨l, hl, hlow, hhigh⟩ := splitPoint_cases hlong
    have hpos := Nat.two_pow_pos l
    have hpow : 2 ^ (l + 1) = 2 * 2 ^ l := by rw [pow_succ, Nat.mul_comm]
    rcases Nat.lt_or_ge m (splitPoint n) with hleft | hright
    · -- under the complete tree, and then its root, which has a sibling
      have hbelow := @ih (2 ^ l) hlow m (hl ▸ hleft)
      rw [turns_left hlong hleft, List.length_append, hl, List.length_singleton, climbTurns_succ]
      rw [hl] at hleft
      rw [length_turns_complete hleft] at hbelow ⊢
      have hsame : climbTurns m (n - 1) l = climbTurns m (2 ^ l - 1) l := by
        refine climbTurns_congr fun level hlevel => ?_
        rw [turnAt_of_lt hleft (by omega) hlevel, turnAt_of_lt hleft le_rfl hlevel]
      have htop : turnAt m (n - 1) l = false := by
        have hsibling : 2 ^ l ≤ n - 1 := by omega
        unfold turnAt
        rw [Nat.div_eq_of_lt hleft]
        simp [hsibling]
      rw [hsame, hbelow, htop]
    · -- under the rest, and then its root, which is the last node
      rw [turns_right hlong hright, List.length_append, hl, List.length_singleton, climbTurns_succ]
      rw [hl] at hright
      have hbelow := @ih (n - 2 ^ l) (by omega) (m - 2 ^ l) (by omega)
      have hshift := @shift_turns (n - 2 ^ l) (m - 2 ^ l) (by omega)
      have hle : (turns (n - 2 ^ l) (m - 2 ^ l)).length ≤ l := length_turns_le (by omega)
      -- seen from a level of the rest, the two shifts differ by the same even number
      have hshifts : ∀ level ≤ l,
          m / 2 ^ level = 2 ^ (l - level) + (m - 2 ^ l) / 2 ^ level ∧
            (n - 1) / 2 ^ level = 2 ^ (l - level) + (n - 2 ^ l - 1) / 2 ^ level := by
        intro level hlevel
        refine ⟨?_, ?_⟩
        · rw [← shift_add hlevel, Nat.add_sub_cancel' hright]
        · rw [← shift_add hlevel]
          congr 1
          omega
      have hsame : climbTurns m (n - 1) (turns (n - 2 ^ l) (m - 2 ^ l)).length =
          climbTurns (m - 2 ^ l) (n - 2 ^ l - 1) (turns (n - 2 ^ l) (m - 2 ^ l)).length := by
        refine climbTurns_congr fun level hlevel => ?_
        obtain ⟨hidx, hlast⟩ := hshifts level (by omega)
        have heven : 2 ^ (l - level) = 2 * 2 ^ (l - level - 1) := by
          rw [← pow_succ']
          congr 1
          omega
        unfold turnAt
        rw [hidx, hlast, heven, Nat.mul_add_mod]
        simp only [Nat.add_lt_add_iff_left]
      have htop : turnAt m (n - 1) (turns (n - 2 ^ l) (m - 2 ^ l)).length = true := by
        obtain ⟨hidx, hlast⟩ := hshifts _ hle
        unfold turnAt
        rw [hidx, hlast, hshift]
        simp
      rw [hsame, hbelow, htop]

/-- Different leaves have different turns. -/
theorem turns_injective {n i j : Nat} (hi : i < n) (hj : j < n) (h : turns n i = turns n j) :
    i = j := by
  induction n using Nat.strong_induction_on generalizing i j with
  | _ n ih =>
    rcases Nat.lt_or_ge 1 n with hlong | hshort
    swap
    · omega
    have hlt := splitPoint_lt hlong
    have hpos := splitPoint_pos n
    rcases Nat.lt_or_ge i (splitPoint n) with hil | hir
    · rcases Nat.lt_or_ge j (splitPoint n) with hjl | hjr
      · rw [turns_left hlong hil, turns_left hlong hjl] at h
        exact ih _ hlt hil hjl (List.append_cancel_right h)
      · rw [turns_left hlong hil, turns_right hlong hjr] at h
        exact absurd (List.append_inj' h rfl).2 (by simp)
    · rcases Nat.lt_or_ge j (splitPoint n) with hjl | hjr
      · rw [turns_right hlong hir, turns_left hlong hjl] at h
        exact absurd (List.append_inj' h rfl).2 (by simp)
      · rw [turns_right hlong hir, turns_right hlong hjr] at h
        have hsame := @ih (n - splitPoint n) (by omega) (i - splitPoint n) (j - splitPoint n)
          (by omega) (by omega) (List.append_cancel_right h)
        omega

/-! ## What an index and a path are taken for -/

section Exact

variable {node : H → H → H} {empty : H}

/-- Another leaf has the hash and the path, and its turns are the first turns of
the index. -/
def Mistaken (node : H → H → H) (empty : H) (leaves : List H) (i : Nat) (x : H)
    (path : List H) : Prop :=
  ∃ j < leaves.length, j ≠ i ∧ leaves[j]? = some x ∧
    turns leaves.length j = climbTurns i (leaves.length - 1) path.length ∧
    auditPath node empty leaves j = path

/-- The climb of an index comes to the root for its own leaf and path only,
exactly unless they are mistaken for it. -/
theorem climb_exact_iff {leaves : List H} {i : Nat} (hi : i < leaves.length) {x : H}
    {path : List H} (hfree : CollisionFree node (hashed node empty leaves ++
      climbed node (climbTurns i (leaves.length - 1) path.length) path x) (x :: leaves)) :
    (climb node (climbTurns i (leaves.length - 1) path.length) path x = root node empty leaves ↔
        leaves[i]? = some x ∧ auditPath node empty leaves i = path) ↔
      ¬ Mistaken node empty leaves i x path := by
  have hown : auditPath node empty leaves i = path →
      turns leaves.length i = climbTurns i (leaves.length - 1) path.length := by
    intro hpath
    rw [← hpath, length_auditPath, climbTurns_eq hi]
  rw [climb_eq_root_iff (by omega) (length_climbTurns _ _ _) hfree]
  constructor
  · rintro hexact ⟨j, hj, hne, hleaf, hturns, hpath⟩
    obtain ⟨-, hpathi⟩ := hexact.mp ⟨j, hj, hleaf, hturns, hpath⟩
    exact hne (turns_injective hj hi (hturns.trans (hown hpathi).symm))
  · intro hnot
    constructor
    · rintro ⟨j, hj, hleaf, hturns, hpath⟩
      by_cases hji : j = i
      · subst hji
        exact ⟨hleaf, hpath⟩
      · exact absurd ⟨j, hj, hji, hleaf, hturns, hpath⟩ hnot
    · rintro ⟨hleaf, hpath⟩
      exact ⟨i, hi, hleaf, hown hpath, hpath⟩

/-! ## The path from a store -/

theorem proveRecordFrom_eq {leaves : List H} {read : Nat → Option H}
    (hstored : Stored node empty leaves read) {fuel lo n m level : Nat} (hm : m < n)
    (hfuel : n ≤ fuel) (hn : n ≤ 2 ^ level) (hdvd : 2 ^ level ∣ lo)
    (hle : lo + n ≤ leaves.length) :
    proveRecordFrom node read fuel lo n m =
      some (auditPath node empty ((leaves.drop lo).take n) m) := by
  induction fuel generalizing lo n m level with
  | zero => omega
  | succ fuel ih =>
    have hlen : ((leaves.drop lo).take n).length = n := by
      rw [List.length_take, List.length_drop]
      omega
    unfold proveRecordFrom
    simp only
    rcases Nat.lt_or_ge 1 n with hlong | hshort
    swap
    · obtain ⟨leaf, hleaf⟩ := List.length_eq_one_iff.mp (hlen.trans (show n = 1 by omega))
      rw [if_pos hshort, hleaf, auditPath_singleton]
    obtain ⟨l, hl, hlow, hhigh⟩ := splitPoint_cases hlong
    have hpos := Nat.two_pow_pos l
    have hpow : 2 ^ (l + 1) = 2 * 2 ^ l := by rw [pow_succ, Nat.mul_comm]
    have hlevel : l ≤ level :=
      ((Nat.pow_lt_pow_iff_right (by decide)).mp (lt_of_lt_of_le hlow hn)).le
    have hdvdLeft : 2 ^ l ∣ lo := (Nat.pow_dvd_pow 2 hlevel).trans hdvd
    have hdvdRight : 2 ^ l ∣ lo + 2 ^ l := Nat.dvd_add hdvdLeft dvd_rfl
    -- the two sides of the split, as parts of the list
    have hleft : ((leaves.drop lo).take n).take (2 ^ l) = (leaves.drop lo).take (2 ^ l) := by
      rw [List.take_take, min_eq_left hlow.le]
    have hright : ((leaves.drop lo).take n).drop (2 ^ l) =
        (leaves.drop (lo + 2 ^ l)).take (n - 2 ^ l) := by
      rw [List.drop_take, List.drop_drop]
    rw [if_neg (by omega), auditPath_split node empty (by omega), hlen, hl, hleft, hright]
    have hlogLeft : (2 ^ l).log2 = l := Nat.log2_two_pow
    have hlogRight : 2 ^ (n - 2 ^ l).log2 ∣ lo + 2 ^ l := by
      have hsmall : (n - 2 ^ l).log2 ≤ l := by
        have hlt : (n - 2 ^ l).log2 < l + 1 := (Nat.log2_lt (by omega)).mpr (by omega)
        omega
      exact (Nat.pow_dvd_pow 2 hsmall).trans hdvdRight
    split
    · next hm =>
      rw [ih hm (by omega) le_rfl hdvdLeft (by omega),
        treeHashFrom_eq node empty hstored (by omega) le_rfl hlogRight (by omega)]
      rfl
    · next hm =>
      rw [ih (by omega) (by omega) (by omega) hdvdRight (by omega),
        treeHashFrom_eq node empty hstored hpos le_rfl (hlogLeft.symm ▸ hdvdLeft) (by omega)]
      rfl

/-- Over the hashes of the complete subtrees, `proveRecord` gives the audit path
in each prefix of the leaves. -/
theorem proveRecord_eq {leaves : List H} {read : Nat → Option H}
    (hstored : Stored node empty leaves read) {n m : Nat} (hm : m < n) (hle : n ≤ leaves.length) :
    proveRecord node n m read = some (auditPath node empty (leaves.take n) m) := by
  have hpath := proveRecordFrom_eq hstored hm le_rfl (show n ≤ 2 ^ n from Nat.lt_two_pow_self.le)
    (Nat.dvd_zero _) (show 0 + n ≤ leaves.length by omega)
  unfold proveRecord
  rw [if_neg (by omega)]
  exact hpath

end Exact

end Merkle
