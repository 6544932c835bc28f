import Mathlib.Algebra.BigOperators.Group.List.Basic
import Mathlib.Algebra.BigOperators.Ring.List
import Mathlib.Algebra.Order.Floor.Ring
import Mathlib.Tactic.Linarith

/-!
# Apportionment

A whole amount is divided in proportion to given shares. The exact parts are
rounded down, which leaves less than one unit for each (`leftover_bounds`). A loop
hands out what is left in single units, one item after the other from the first on,
and comes round when it reaches the last. It gives out every unit (`sum_handOut`), and
how many come to an item is the number of turns in which it comes up
(`getElem?_handOut`), at most one while there are no more units than items
(`turns_start_of_lt`).
-/

namespace Apportion

/-! ## Rounding down -/

section Floors

variable {K : Type} [Field K] [LinearOrder K] [IsStrictOrderedRing K] [FloorRing K]

theorem sum_floor_le (parts : List K) : ((parts.map Int.floor).sum : K) ≤ parts.sum := by
  induction parts with
  | nil => simp
  | cons q rest ih =>
    rw [List.map_cons, List.sum_cons, List.sum_cons, Int.cast_add]
    exact add_le_add (Int.floor_le q) ih

/-- Each part loses less than one. -/
theorem sum_lt_sum_floor {parts : List K} (h : parts ≠ []) :
    parts.sum < (parts.map Int.floor).sum + parts.length := by
  have hle : ∀ qs : List K, qs.sum ≤ ((qs.map Int.floor).sum : K) + qs.length := by
    intro qs
    induction qs with
    | nil => simp
    | cons q rest ih =>
      have hq := Int.lt_floor_add_one q
      simp only [List.map_cons, List.sum_cons, List.length_cons, Int.cast_add, Nat.cast_add, Nat.cast_one]
      linarith
  cases parts with
  | nil => exact absurd rfl h
  | cons q rest =>
    have hq := Int.lt_floor_add_one q
    have hrest := hle rest
    simp only [List.map_cons, List.sum_cons, List.length_cons, Int.cast_add, Nat.cast_add, Nat.cast_one]
    linarith

/-- What rounding down leaves of a whole amount. -/
theorem leftover_bounds {parts : List K} {amount : Int} (hsum : parts.sum = amount)
    (h : parts ≠ []) :
    0 ≤ amount - (parts.map Int.floor).sum ∧
      amount - (parts.map Int.floor).sum < (parts.length : Int) := by
  have hle := sum_floor_le parts
  have hlt := sum_lt_sum_floor h
  rw [hsum] at hle hlt
  have hle' : (parts.map Int.floor).sum ≤ amount := by exact_mod_cast hle
  have hlt' : amount < (parts.map Int.floor).sum + parts.length := by exact_mod_cast hlt
  omega

omit [LinearOrder K] [IsStrictOrderedRing K] [FloorRing K] in
/-- The exact parts are the whole. -/
theorem sum_parts (amount : K) {shares : List K} (h : shares.sum ≠ 0) :
    (shares.map fun s => amount * (s / shares.sum)).sum = amount := by
  have hfactor : ∀ s, amount * (s / shares.sum) = amount / shares.sum * s := by
    intro s
    rw [mul_div_assoc', div_mul_eq_mul_div]
  simp only [hfactor]
  have hsum := List.sum_map_mul_left (r := amount / shares.sum) (f := fun s : K => s) (l := shares)
  rw [hsum, List.map_id']
  exact div_mul_cancel₀ amount h

end Floors

/-! ## Handing out what is left -/

section HandingOut

variable {α : Type}

/-- A change of one item after the other, round and round. -/
def handOut (f : α → α) : (left idx : Nat) → List α → List α
  | 0, _, items => items
  | left + 1, idx, items => handOut f left ((idx + 1) % items.length) (items.modify idx f)

/-- How far the item `i` of `n` is ahead of the item `idx`, going round. -/
def ahead (n idx i : Nat) : Nat := if idx ≤ i then i - idx else i + n - idx

/-- How often the item `i` of `n` comes up in `left` turns from the item `idx` on. -/
def turns (left n idx i : Nat) : Nat := (left + (n - 1 - ahead n idx i)) / n

theorem turns_zero {n idx i : Nat} (hi : i < n) : turns 0 n idx i = 0 :=
  Nat.div_eq_of_lt (by omega)

/-- From the first item on, each comes up once before any comes up twice. -/
theorem turns_start_of_lt {left n i : Nat} (hleft : left ≤ n) (hi : i < n) :
    turns left n 0 i = if i < left then 1 else 0 := by
  have hahead : ahead n 0 i = i := if_pos (Nat.zero_le i)
  unfold turns
  rw [hahead]
  split
  · exact Nat.div_eq_of_lt_le (by omega) (by omega)
  · exact Nat.div_eq_of_lt (by omega)

/-- One turn is the item's at hand, and the others are left to the next. -/
theorem turns_succ {left n idx i : Nat} (hidx : idx < n) (hi : i < n) :
    turns (left + 1) n idx i = turns left n ((idx + 1) % n) i + if i = idx then 1 else 0 := by
  have hnext : (idx + 1) % n = if idx + 1 = n then 0 else idx + 1 := by
    split
    · next h => rw [h, Nat.mod_self]
    · exact Nat.mod_eq_of_lt (by omega)
  unfold turns
  rw [hnext]
  by_cases hsame : i = idx
  · subst hsame
    have hnow : ahead n i i = 0 := by simp [ahead]
    have hlast : ahead n (if i + 1 = n then 0 else i + 1) i = n - 1 := by
      unfold ahead
      split_ifs <;> omega
    rw [hnow, hlast, if_pos rfl, ← Nat.add_div_right _ (by omega)]
    congr 1
    omega
  · have hcloser : ahead n idx i = ahead n (if idx + 1 = n then 0 else idx + 1) i + 1 ∧
        ahead n idx i < n := by
      unfold ahead
      split_ifs <;> omega
    rw [if_neg hsame]
    congr 1
    omega

/-- What the loop makes of an item. -/
theorem getElem?_handOut (f : α → α) {left idx i : Nat} {items : List α}
    (hidx : idx < items.length) (hi : i < items.length) :
    (handOut f left idx items)[i]? = items[i]?.map f^[turns left items.length idx i] := by
  induction left generalizing idx items with
  | zero =>
    rw [turns_zero hi]
    exact Option.map_id'.symm
  | succ left ih =>
    have hlength : (items.modify idx f).length = items.length := List.length_modify ..
    have hnext : (idx + 1) % items.length < (items.modify idx f).length := by
      rw [hlength]
      exact Nat.mod_lt _ (by omega)
    rw [handOut, ih hnext (hlength ▸ hi), hlength, turns_succ hidx hi, List.getElem?_modify]
    by_cases hsame : i = idx
    · subst hsame
      simp only [if_true]
      rw [Function.iterate_succ, ← Option.map_map]
      rfl
    · simp only [if_neg hsame, if_neg (Ne.symm hsame), add_zero, id_map']

theorem sum_modify {f : α → α} {g : α → Int} (h : ∀ a, g (f a) = g a + 1) {idx : Nat}
    {items : List α} (hidx : idx < items.length) :
    ((items.modify idx f).map g).sum = (items.map g).sum + 1 := by
  induction items generalizing idx with
  | nil => cases hidx
  | cons a rest ih =>
    cases idx with
    | zero =>
      show (g (f a) :: rest.map g).sum = (g a :: rest.map g).sum + 1
      rw [List.sum_cons, List.sum_cons, h]
      omega
    | succ idx =>
      show (g a :: (rest.modify idx f).map g).sum = (g a :: rest.map g).sum + 1
      rw [List.sum_cons, List.sum_cons, ih (Nat.lt_of_succ_lt_succ hidx)]
      omega

/-- The loop gives out as many units as it takes turns. -/
theorem sum_handOut {f : α → α} {g : α → Int} (h : ∀ a, g (f a) = g a + 1) {left idx : Nat}
    {items : List α} (hidx : idx < items.length) :
    ((handOut f left idx items).map g).sum = (items.map g).sum + left := by
  induction left generalizing idx items with
  | zero => exact (add_zero _).symm
  | succ left ih =>
    have hnext : (idx + 1) % items.length < (items.modify idx f).length := by
      rw [List.length_modify]
      exact Nat.mod_lt _ (by omega)
    rw [handOut, ih hnext, sum_modify h hidx]
    push_cast
    omega

theorem map_modify_eq {β : Type} {f : α → α} {g : α → β} (h : ∀ a, g (f a) = g a) (idx : Nat)
    (items : List α) : (items.modify idx f).map g = items.map g := by
  induction items generalizing idx with
  | nil => cases idx <;> rfl
  | cons a rest ih =>
    cases idx with
    | zero => exact congrArg (· :: rest.map g) (h a)
    | succ idx => exact congrArg (g a :: ·) (ih idx)

/-- What a change of an item keeps, the loop keeps. -/
theorem map_handOut {β : Type} {f : α → α} {g : α → β} (h : ∀ a, g (f a) = g a) (left idx : Nat)
    (items : List α) : (handOut f left idx items).map g = items.map g := by
  induction left generalizing idx items with
  | zero => rfl
  | succ left ih => rw [handOut, ih, map_modify_eq h]

end HandingOut

end Apportion
