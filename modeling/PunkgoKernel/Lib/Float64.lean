import Mathlib.Data.Nat.Log
import Mathlib.Data.Rat.Floor
import Mathlib.Tactic.Positivity

/-!
# Binary floating point

The little of IEEE 754 that products and quotients of amounts need, with exact
numbers for doubles. First the rounding of a NATURAL number to 53 significant bits,
ties to even, and with it the product of a count with a constant: a double is a
natural number times a fixed power of two, so a product of two of them is the
rounded product of the numbers. Then doubles as RATIONAL numbers: an operation is
the exact one followed by the rounding, and what lies beyond the format is infinite.

**What is left out.** Not-a-number and the sign of an infinity: the operations are for
sums, quotients and products of numbers that are not negative, with a finite first
factor. The exponent has no lower bound, so a number below the least normal double
keeps bits that the format would lose.
-/

namespace Float64

/-- Rounds to 53 significant bits, ties to even. -/
def round53 (n : Nat) : Nat :=
  if n < 2 ^ 53 then n
  else
    let shift := Nat.log2 n - 52
    let quotient := n / 2 ^ shift
    let remainder := n % 2 ^ shift
    let half := 2 ^ (shift - 1)
    let rounded :=
      if half < remainder ∨ (remainder = half ∧ quotient % 2 = 1) then quotient + 1 else quotient
    rounded * 2 ^ shift

/-- Rounding at most doubles. -/
theorem round53_le (n : Nat) : round53 n ≤ 2 * n := by
  unfold round53
  by_cases hsmall : n < 2 ^ 53
  · rw [if_pos hsmall]
    omega
  rw [if_neg hsmall]
  simp only
  have hshift : 2 ^ (Nat.log2 n - 52) ≤ n :=
    (Nat.pow_le_pow_right (by decide) (Nat.sub_le _ _)).trans (Nat.log2_self_le (by omega))
  have hquotient : n / 2 ^ (Nat.log2 n - 52) * 2 ^ (Nat.log2 n - 52) ≤ n := Nat.div_mul_le_self _ _
  split
  · rw [Nat.add_mul, Nat.one_mul]
    omega
  · omega

/-- The double nearest to one fifth is this number over `2 ^ 54`. -/
def fifth : Nat := 3602879701896397

/-- `((n as f64) * 0.2).ceil()`. -/
def ceilFifth (n : Nat) : Nat := (round53 (round53 n * fifth) + (2 ^ 54 - 1)) / 2 ^ 54

/-- A fifth of a number, rounded up, is no more than the number. -/
theorem ceilFifth_le (n : Nat) : ceilFifth n ≤ n := by
  by_cases hsmall : n < 6
  · have hall : ∀ n < 6, ceilFifth n ≤ n := by decide
    exact hall n hsmall
  have hn := round53_le n
  have hproduct := round53_le (round53 n * fifth)
  unfold fifth at hproduct
  unfold ceilFifth fifth
  omega

/-- Rounding keeps 53 bits: it finds the nearest multiple of a power of two
`2 * half`, which is the last place. -/
theorem round53_near {n : Nat} (h : 2 ^ 53 ≤ n) :
    ∃ quotient shift : Nat, round53 n = quotient * 2 ^ (shift + 1) ∧ 2 ^ (shift + 53) ≤ n ∧
      n < 2 ^ (shift + 54) ∧ n ≤ quotient * 2 ^ (shift + 1) + 2 ^ shift ∧
      quotient * 2 ^ (shift + 1) ≤ n + 2 ^ shift := by
  obtain ⟨shift, hshift⟩ : ∃ shift, Nat.log2 n = shift + 53 := by
    have hlog : 53 ≤ Nat.log2 n := (Nat.le_log2 (by omega)).mpr h
    exact ⟨Nat.log2 n - 53, by omega⟩
  have hlow : 2 ^ (shift + 53) ≤ n := hshift ▸ Nat.log2_self_le (by omega)
  have hhigh : n < 2 ^ (shift + 54) := by
    have hlog : n < 2 ^ (Nat.log2 n + 1) := Nat.lt_log2_self
    rwa [hshift] at hlog
  have hhalf : 2 ^ (shift + 1) = 2 * 2 ^ shift := by omega
  have hsplit := Nat.div_add_mod' n (2 ^ (shift + 1))
  have hmod := Nat.mod_lt n (y := 2 ^ (shift + 1)) (by positivity)
  unfold round53
  rw [if_neg (by omega), hshift]
  simp only [show shift + 53 - 52 = shift + 1 by omega, Nat.add_sub_cancel]
  refine ⟨_, shift, rfl, hlow, hhigh, ?_⟩
  split
  · rw [Nat.add_mul, Nat.one_mul]
    omega
  · omega

/-- Below `2 ^ 53` the fifth is exact. -/
theorem ceilFifth_eq {n : Nat} (h : n < 2 ^ 53) : ceilFifth n = (n + 4) / 5 := by
  have hn : round53 n = n := if_pos h
  unfold ceilFifth
  rw [hn]
  by_cases hsmall : n * fifth < 2 ^ 53
  · rw [round53, if_pos hsmall]
    unfold fifth at hsmall ⊢
    omega
  obtain ⟨quotient, shift, hround, hlow, hhigh, hbelow, habove⟩ := round53_near (not_lt.mp hsmall)
  rw [hround]
  -- the last place divides `2 ^ 54`
  have hshift : shift < 52 := by
    have hle : 2 ^ (shift + 53) < 2 ^ 105 := by
      unfold fifth at hlow
      omega
    have hlt := (Nat.pow_lt_pow_iff_right (by decide)).mp hle
    omega
  obtain ⟨places, hplaces⟩ : ∃ places, 2 ^ 54 = places * 2 ^ (shift + 1) :=
    ⟨2 ^ (53 - shift), by rw [← pow_add]; congr 1; omega⟩
  have hhalf : 2 ^ (shift + 1) = 2 * 2 ^ shift := by omega
  have hsmallHalf : 2 ^ shift ≤ 2 ^ 51 := Nat.pow_le_pow_right (by decide) (by omega)
  have hexact : ∀ k, k * 2 ^ 54 = (k * places) * 2 ^ (shift + 1) := by
    intro k
    rw [hplaces, Nat.mul_assoc]
  have hpos : 0 < 2 ^ shift := Nat.two_pow_pos shift
  have hpart : n < 5 * 2 ^ shift := by
    rw [pow_add] at hhigh
    unfold fifth at hhigh
    omega
  clear hplaces hlow hhigh hshift hround hn
  generalize 2 ^ (shift + 1) = place at hbelow habove hhalf hexact ⊢
  generalize 2 ^ shift = half at hbelow habove hhalf hsmallHalf hpos hpart
  obtain ⟨k, r, hr, rfl⟩ : ∃ k r, r < 5 ∧ n = 5 * k + r :=
    ⟨n / 5, n % 5, Nat.mod_lt _ (by decide), (Nat.div_add_mod n 5).symm⟩
  unfold fifth at hbelow habove
  have hk := hexact k
  have hk' := hexact (k + 1)
  by_cases hzero : r = 0
  · -- a multiple of five: what is too much is below half a place
    have hquotient : quotient = k * places := by
      have hle : quotient * place < (k * places + 1) * place := by
        rw [Nat.add_mul, Nat.one_mul, ← hk]
        omega
      have hge : k * places * place < (quotient + 1) * place := by
        rw [Nat.add_mul, Nat.one_mul, ← hk]
        omega
      have h1 := Nat.lt_of_mul_lt_mul_right hle
      have h2 := Nat.lt_of_mul_lt_mul_right hge
      omega
    rw [hquotient, ← hk]
    omega
  · -- otherwise rounding stays between two multiples of `2 ^ 54`
    have hle : quotient * place ≤ (k + 1) * 2 ^ 54 := by
      have hlt : quotient * place < ((k + 1) * places + 1) * place := by
        rw [Nat.add_mul ((k + 1) * places), Nat.one_mul, ← hk']
        omega
      rw [hk']
      exact Nat.mul_le_mul_right _ (Nat.lt_succ_iff.mp (Nat.lt_of_mul_lt_mul_right hlt))
    omega

example : (List.range 12).map ceilFifth = [0, 1, 1, 1, 1, 1, 2, 2, 2, 2, 2, 3] := by decide

/-! ## Doubles as rational numbers -/

/-- The exponent of a positive number: the greatest `k` with `2 ^ k` at most the
number. -/
def exponent (x : ℚ) : Int :=
  if 1 ≤ x then Nat.log2 ⌊x⌋.toNat else -(Nat.log2 (⌈x⁻¹⌉.toNat - 1) + 1 : Nat)

/-- The nearest integer, and of two the even one. -/
def roundHalfEven (x : ℚ) : Int :=
  let below := ⌊x⌋
  let rest := x - below
  if 1 / 2 < rest ∨ (rest = 1 / 2 ∧ below % 2 = 1) then below + 1 else below

/-- The value of the last of 53 significant bits. -/
def lastPlace (x : ℚ) : ℚ := 2 ^ (exponent |x| - 52)

/-- Rounds to 53 significant bits, ties to even. -/
def round (x : ℚ) : ℚ := if x = 0 then 0 else roundHalfEven (x / lastPlace x) * lastPlace x

/-- A double: a number, or infinite. -/
inductive Double where
  | finite (x : ℚ)
  | infinite
deriving DecidableEq

namespace Double

/-- The double nearest to a number. -/
def ofRat (x : ℚ) : Double := if 2 ^ 1024 ≤ |round x| then .infinite else .finite (round x)

def add : Double → Double → Double
  | .finite x, .finite y => ofRat (x + y)
  | _, _ => .infinite

/-- A finite number over an infinite one is zero. -/
def div : Double → Double → Double
  | .finite x, .finite y => ofRat (x / y)
  | .finite _, .infinite => .finite 0
  | .infinite, _ => .infinite

def mul : Double → Double → Double
  | .finite x, .finite y => ofRat (x * y)
  | _, _ => .infinite

def nonpos : Double → Bool
  | .finite x => x ≤ 0
  | .infinite => false

/-- `x.floor() as i64`: a floor beyond 64 bits is cast to the nearest number of
64 bits. -/
def floorI64 : Double → Int
  | .finite x => max (-2 ^ 63) (min (2 ^ 63 - 1) ⌊x⌋)
  | .infinite => 2 ^ 63 - 1

end Double

example : [(1 : ℚ) / 5, 2 ^ 53 + 1].map round = [(fifth : ℚ) / 2 ^ 54, 2 ^ 53] := by decide +kernel

end Float64
