import Mathlib.Data.List.Basic
import PunkgoKernel.Lib.Json

/-!
# The spelling determines the value

A text cut off at a separator names one value. The induction runs over the
value; numbers end where the numeric characters end, strings end at the
first quote no escape covers, and arrays and objects end at their own
bracket, so no case needs to look past its own text.
-/

namespace Json

/-! ## One escaped character -/

/-- The value of a lowercase hexadecimal digit. -/
def hexValue (c : Char) : Nat := "0123456789abcdef".toList.idxOf c

/-- Reads one escaped character back, and leaves the rest. -/
def unescape : List Char → Option (Char × List Char)
  | '\\' :: 'n' :: r => some ('\n', r)
  | '\\' :: 'r' :: r => some ('\r', r)
  | '\\' :: 't' :: r => some ('\t', r)
  | '\\' :: 'b' :: r => some (Char.ofNat 8, r)
  | '\\' :: 'f' :: r => some (Char.ofNat 12, r)
  | '\\' :: 'u' :: '0' :: '0' :: h :: l :: r => some (Char.ofNat (16 * hexValue h + hexValue l), r)
  | '\\' :: c :: r => some (c, r)
  | c :: r => some (c, r)
  | [] => none

theorem hexValue_hexDigit : ∀ n < 16, hexValue (hexDigit n) = n := by decide

theorem unescape_escape (c : Char) (r : List Char) : unescape (escape c ++ r) = some (c, r) := by
  unfold escape
  split
  · next h => subst h; simp [unescape]
  split
  · next h => subst h; simp [unescape]
  split
  · next h => subst h; simp [unescape]
  split
  · next h => subst h; simp [unescape]
  split
  · next h => subst h; simp [unescape]
  split
  · next h => subst h; simp [unescape]
  split
  · next h => subst h; simp [unescape]
  split
  · next h =>
    have hi := hexValue_hexDigit (c.toNat / 16) (by omega)
    have lo := hexValue_hexDigit (c.toNat % 16) (by omega)
    have hc : 16 * (c.toNat / 16) + c.toNat % 16 = c.toNat := by omega
    simp only [List.cons_append, List.nil_append, unescape, hi, lo, hc, Char.ofNat_toNat]
  · next hq hb _ _ _ _ _ _ =>
    rw [List.singleton_append]
    unfold unescape
    split <;> simp_all

/-- An escaped character never opens with a quote: the closing quote of a
string is the first one that is not part of an escape. -/
theorem escape_ne_quote (c : Char) (r s : List Char) : escape c ++ r ≠ '"' :: s := by
  unfold escape
  repeat' split
  all_goals simp_all

theorem stringRest_append_inj : ∀ {cs ds r s : List Char},
    stringRest cs ++ r = stringRest ds ++ s → cs = ds ∧ r = s
  | [], [], _, _, h => ⟨rfl, by simpa [stringRest] using h⟩
  | [], d :: ds, r, s, h => by
    simp only [stringRest, List.flatMap_nil, List.nil_append, List.flatMap_cons, List.append_assoc,
      List.singleton_append] at h
    exact absurd h.symm (escape_ne_quote d _ _)
  | c :: cs, [], r, s, h => by
    simp only [stringRest, List.flatMap_nil, List.nil_append, List.flatMap_cons, List.append_assoc,
      List.singleton_append] at h
    exact absurd h (escape_ne_quote c _ _)
  | c :: cs, d :: ds, r, s, h => by
    have hc : ∀ (x : Char) (xs t : List Char),
        stringRest (x :: xs) ++ t = escape x ++ (stringRest xs ++ t) := by
      intro x xs t
      simp [stringRest]
    rw [hc, hc] at h
    have hread := congrArg unescape h
    rw [unescape_escape, unescape_escape, Option.some.injEq, Prod.mk.injEq] at hread
    obtain ⟨rfl, hrest⟩ := hread
    obtain ⟨rfl, rfl⟩ := stringRest_append_inj hrest
    exact ⟨rfl, rfl⟩

/-! ## Numbers -/

/-- What may follow a value: nothing, or a character no number is spelled
with. -/
def Separated (r : List Char) : Prop := ∀ c s, r = c :: s → numeric c = false

theorem separated_nil : Separated [] := by
  intro c s h
  cases h

theorem separated_cons {c : Char} {r : List Char} (h : numeric c = false) : Separated (c :: r) := by
  intro c' s h'
  cases h'
  exact h

/-- Numeric texts cut off at a separator are equal, and so is what follows. -/
theorem numeric_append_inj : ∀ {xs ys r s : List Char}, xs.all numeric = true →
    ys.all numeric = true → Separated r → Separated s → xs ++ r = ys ++ s → xs = ys ∧ r = s
  | [], [], _, _, _, _, _, _, h => ⟨rfl, h⟩
  | [], y :: ys, r, s, _, hy, hr, _, h => by
    have hsep := hr y (ys ++ s) h
    simp [hsep] at hy
  | x :: xs, [], r, s, hx, _, _, hs, h => by
    have hsep := hs x (xs ++ r) h.symm
    simp [hsep] at hx
  | x :: xs, y :: ys, r, s, hx, hy, hr, hs, h => by
    simp only [List.cons_append, List.cons.injEq] at h
    simp only [List.all_cons, Bool.and_eq_true] at hx hy
    obtain ⟨rfl, rfl⟩ := numeric_append_inj hx.2 hy.2 hr hs h.2
    exact ⟨by rw [h.1], rfl⟩

theorem natChars_digits (n : Nat) : ∀ c ∈ n.repr.toList, c.isDigit = true := by
  intro c hc
  rw [Nat.toList_repr] at hc
  exact Nat.isDigit_of_mem_toDigits (by decide) (by decide) hc

/-- A natural number is read back from its digits. -/
theorem natChars_injective {m n : Nat} (h : m.repr.toList = n.repr.toList) : m = n := by
  rw [Nat.toList_repr, Nat.toList_repr] at h
  rw [← @Nat.ofDigitChars_ten_toDigits m, h, Nat.ofDigitChars_ten_toDigits]

/-- An integer is spelled with digits after an optional sign. -/
theorem intChars_cases (i : Int) :
    (∃ n : Nat, i = n ∧ (toString i).toList = n.repr.toList) ∨
      ∃ n : Nat, i = -n ∧ (toString i).toList = '-' :: n.repr.toList := by
  rw [Int.toString_eq_repr, Int.repr_eq_if]
  split
  · exact .inl ⟨i.toNat, by omega, rfl⟩
  · exact .inr ⟨(-i).toNat, by omega, by simp⟩

/-- An integer is the one its text names: the sign tells which case it is, and no digit
is a sign. -/
theorem intChars_injective {i j : Int} (h : (toString i).toList = (toString j).toList) : i = j := by
  have hsign : ∀ m n : Nat, m.repr.toList ≠ '-' :: n.repr.toList := by
    intro m n heq
    have hdigit := natChars_digits m '-' (heq ▸ List.mem_cons_self)
    revert hdigit
    decide
  rcases intChars_cases i with ⟨m, rfl, hm⟩ | ⟨m, rfl, hm⟩
  · rcases intChars_cases j with ⟨n, rfl, hn⟩ | ⟨n, rfl, hn⟩
    · rw [natChars_injective (hm.symm.trans (h.trans hn))]
    · exact absurd (hm.symm.trans (h.trans hn)) (hsign m n)
  · rcases intChars_cases j with ⟨n, rfl, hn⟩ | ⟨n, rfl, hn⟩
    · exact absurd (hn.symm.trans (h.symm.trans hm)) (hsign n m)
    · rw [natChars_injective (List.cons.inj (hm.symm.trans (h.trans hn))).2]

theorem Number.toChars_numeric (n : Number) : n.toChars.all numeric = true := by
  have digits : ∀ m : Nat, m.repr.toList.all numeric = true := by
    intro m
    rw [List.all_eq_true]
    intro c hc
    simp [numeric, natChars_digits m c hc]
  cases n with
  | int i =>
    rcases intChars_cases i with ⟨m, -, h⟩ | ⟨m, -, h⟩
    · rw [Number.toChars, h]
      exact digits m
    · rw [Number.toChars, h, List.all_cons, digits m]
      decide
  | float f => exact f.chars

/-- No integer shows a point or an exponent. -/
theorem intChars_no_point (i : Int) :
    (toString i).toList.any (fun c => c == '.' || c == 'e') = false := by
  have digits : ∀ m : Nat, m.repr.toList.any (fun c => c == '.' || c == 'e') = false := by
    intro m
    rw [List.any_eq_false]
    intro c hc
    have hd := natChars_digits m c hc
    simp only [Bool.or_eq_true, beq_iff_eq, not_or]
    constructor <;> rintro rfl <;> simp at hd
  rcases intChars_cases i with ⟨m, -, h⟩ | ⟨m, -, h⟩
  · rw [h, digits m]
  · rw [h, List.any_cons, digits m]
    decide

theorem Number.toChars_injective {m n : Number} (h : m.toChars = n.toChars) : m = n := by
  cases m with
  | int i =>
    cases n with
    | int j => exact congrArg Number.int (intChars_injective h)
    | float f =>
      have hp := f.point
      rw [show f.text.toList = (toString i).toList from h.symm, intChars_no_point] at hp
      cases hp
  | float f =>
    cases n with
    | int j =>
      have hp := f.point
      rw [show f.text.toList = (toString j).toList from h, intChars_no_point] at hp
      cases hp
    | float g =>
      have htext : f.text = g.text := String.toList_inj.mp h
      cases f; cases g
      cases htext
      rfl

theorem Number.toChars_ne_nil (n : Number) : n.toChars ≠ [] := by
  cases n with
  | int i =>
    have hne : ∀ m : Nat, m.repr.toList ≠ [] := by
      intro m
      simp [Nat.toList_repr]
    rcases intChars_cases i with ⟨m, -, h⟩ | ⟨m, -, h⟩
    · rw [Number.toChars, h]
      exact hne m
    · rw [Number.toChars, h]
      simp
  | float f =>
    have hp := f.point
    intro h
    rw [show f.text.toList = [] from h] at hp
    cases hp

/-- A number opens with a numeric character. -/
theorem Number.toChars_head (n : Number) (c : Char) (r s : List Char)
    (h : n.toChars ++ r = c :: s) : numeric c = true := by
  cases hn : n.toChars with
  | nil => exact absurd hn n.toChars_ne_nil
  | cons d ds =>
    have hall := n.toChars_numeric
    rw [hn] at h hall
    simp only [List.cons_append, List.cons.injEq] at h
    simp only [List.all_cons, Bool.and_eq_true] at hall
    rw [← h.1]
    exact hall.1

/-! ## Values -/

/-- A number's text is no other value's: every other value opens with a
character no number is spelled with. -/
theorem Number.toChars_ne_cons (n : Number) {c : Char} {r s : List Char} (hc : numeric c = false) :
    n.toChars ++ r ≠ c :: s := by
  intro h
  have hn := n.toChars_head c r s h
  rw [hc] at hn
  cases hn

theorem separated_moreItems (xs : List Value) (r : List Char) : Separated (moreItems xs ++ r) := by
  cases xs <;> simp only [moreItems, List.cons_append] <;> exact separated_cons (by decide)

theorem separated_moreFields (fs : List (String × Value)) (r : List Char) :
    Separated (moreFields fs ++ r) := by
  cases fs with
  | nil => exact separated_cons (by decide)
  | cons f fs =>
    simp only [moreFields, List.cons_append]
    exact separated_cons (by decide)

/-- No value opens with a closing bracket, so an empty array is told from any
other by its first character. -/
theorem Value.toChars_ne_bracket (v : Value) (r s : List Char) : v.toChars ++ r ≠ ']' :: s := by
  cases v with
  | null => simp [Value.toChars]
  | bool b => cases b <;> simp [Value.toChars]
  | num n => exact n.toChars_ne_cons (by decide)
  | str t => simp [Value.toChars]
  | arr xs => simp [Value.toChars]
  | obj fs => simp [Value.toChars]

mutual

/-- A text cut off at a separator names one value. -/
theorem Value.toChars_append_inj : ∀ (v w : Value) {r s : List Char}, Separated r → Separated s →
    v.toChars ++ r = w.toChars ++ s → v = w ∧ r = s
  | .null, w, r, s, _, _, h => by
    cases w with
    | null => exact ⟨rfl, by simpa [Value.toChars] using h⟩
    | bool b => cases b <;> simp [Value.toChars] at h
    | num n => exact absurd h.symm (n.toChars_ne_cons (by decide))
    | str t => simp [Value.toChars] at h
    | arr ys => simp [Value.toChars] at h
    | obj gs => simp [Value.toChars] at h
  | .bool b, w, r, s, _, _, h => by
    cases w with
    | null => cases b <;> simp [Value.toChars] at h
    | bool b' =>
      cases b <;> cases b' <;> simp [Value.toChars] at h
      all_goals exact ⟨rfl, h⟩
    | num n => cases b <;> exact absurd h.symm (n.toChars_ne_cons (by decide))
    | str t => cases b <;> simp [Value.toChars] at h
    | arr ys => cases b <;> simp [Value.toChars] at h
    | obj gs => cases b <;> simp [Value.toChars] at h
  | .num m, w, r, s, hr, hs, h => by
    cases w with
    | null => exact absurd h (m.toChars_ne_cons (by decide))
    | bool b => cases b <;> exact absurd h (m.toChars_ne_cons (by decide))
    | num n =>
      have htext := numeric_append_inj m.toChars_numeric n.toChars_numeric hr hs h
      rw [Number.toChars_injective htext.1]
      exact ⟨rfl, htext.2⟩
    | str t => exact absurd h (m.toChars_ne_cons (by decide))
    | arr ys => exact absurd h (m.toChars_ne_cons (by decide))
    | obj gs => exact absurd h (m.toChars_ne_cons (by decide))
  | .str u, w, r, s, _, _, h => by
    cases w with
    | null => simp [Value.toChars] at h
    | bool b => cases b <;> simp [Value.toChars] at h
    | num n => exact absurd h.symm (n.toChars_ne_cons (by decide))
    | str t =>
      simp only [Value.toChars, List.cons_append, List.cons.injEq, true_and] at h
      obtain ⟨hu, rfl⟩ := stringRest_append_inj h
      rw [String.toList_inj.mp hu]
      exact ⟨rfl, rfl⟩
    | arr ys => simp [Value.toChars] at h
    | obj gs => simp [Value.toChars] at h
  | .arr xs, w, r, s, _, _, h => by
    cases w with
    | null => simp [Value.toChars] at h
    | bool b => cases b <;> simp [Value.toChars] at h
    | num n => exact absurd h.symm (n.toChars_ne_cons (by decide))
    | str t => simp [Value.toChars] at h
    | arr ys =>
      simp only [Value.toChars, List.cons_append, List.cons.injEq, true_and] at h
      obtain ⟨rfl, rfl⟩ := itemsChars_append_inj xs ys h
      exact ⟨rfl, rfl⟩
    | obj gs => simp [Value.toChars] at h
  | .obj fs, w, r, s, _, _, h => by
    cases w with
    | null => simp [Value.toChars] at h
    | bool b => cases b <;> simp [Value.toChars] at h
    | num n => exact absurd h.symm (n.toChars_ne_cons (by decide))
    | str t => simp [Value.toChars] at h
    | arr ys => simp [Value.toChars] at h
    | obj gs =>
      simp only [Value.toChars, List.cons_append, List.cons.injEq, true_and] at h
      obtain ⟨rfl, rfl⟩ := fieldsChars_append_inj fs gs h
      exact ⟨rfl, rfl⟩

theorem moreItems_append_inj : ∀ (xs ys : List Value) {r s : List Char},
    moreItems xs ++ r = moreItems ys ++ s → xs = ys ∧ r = s
  | [], [], _, _, h => ⟨rfl, by simpa [moreItems] using h⟩
  | [], _ :: _, _, _, h => by simp [moreItems] at h
  | _ :: _, [], _, _, h => by simp [moreItems] at h
  | x :: xs, y :: ys, r, s, h => by
    simp only [moreItems, List.cons_append, List.append_assoc, List.cons.injEq, true_and] at h
    obtain ⟨rfl, hrest⟩ := Value.toChars_append_inj x y (separated_moreItems xs r)
      (separated_moreItems ys s) h
    obtain ⟨rfl, rfl⟩ := moreItems_append_inj xs ys hrest
    exact ⟨rfl, rfl⟩

theorem itemsChars_append_inj : ∀ (xs ys : List Value) {r s : List Char},
    itemsChars xs ++ r = itemsChars ys ++ s → xs = ys ∧ r = s
  | [], [], _, _, h => ⟨rfl, by simpa [itemsChars] using h⟩
  | [], y :: ys, r, s, h => by
    simp only [itemsChars, List.cons_append, List.nil_append, List.append_assoc] at h
    exact absurd h (Value.toChars_ne_bracket y _ _).symm
  | x :: xs, [], r, s, h => by
    simp only [itemsChars, List.cons_append, List.nil_append, List.append_assoc] at h
    exact absurd h (Value.toChars_ne_bracket x _ _)
  | x :: xs, y :: ys, r, s, h => by
    simp only [itemsChars, List.append_assoc] at h
    obtain ⟨rfl, hrest⟩ := Value.toChars_append_inj x y (separated_moreItems xs r)
      (separated_moreItems ys s) h
    obtain ⟨rfl, rfl⟩ := moreItems_append_inj xs ys hrest
    exact ⟨rfl, rfl⟩

theorem moreFields_append_inj : ∀ (fs gs : List (String × Value)) {r s : List Char},
    moreFields fs ++ r = moreFields gs ++ s → fs = gs ∧ r = s
  | [], [], _, _, h => ⟨rfl, by simpa [moreFields] using h⟩
  | [], (_, _) :: _, _, _, h => by simp [moreFields] at h
  | (_, _) :: _, [], _, _, h => by simp [moreFields] at h
  | (k, x) :: fs, (l, y) :: gs, r, s, h => by
    simp only [moreFields, List.cons_append, List.append_assoc, List.cons.injEq, true_and] at h
    obtain ⟨hk, hx⟩ := stringRest_append_inj h
    simp only [List.cons.injEq, true_and] at hx
    obtain ⟨rfl, hrest⟩ := Value.toChars_append_inj x y (separated_moreFields fs r)
      (separated_moreFields gs s) hx
    obtain ⟨rfl, rfl⟩ := moreFields_append_inj fs gs hrest
    rw [String.toList_inj.mp hk]
    exact ⟨rfl, rfl⟩

theorem fieldsChars_append_inj : ∀ (fs gs : List (String × Value)) {r s : List Char},
    fieldsChars fs ++ r = fieldsChars gs ++ s → fs = gs ∧ r = s
  | [], [], _, _, h => ⟨rfl, by simpa [fieldsChars] using h⟩
  | [], (_, _) :: _, _, _, h => by simp [fieldsChars] at h
  | (_, _) :: _, [], _, _, h => by simp [fieldsChars] at h
  | (k, x) :: fs, (l, y) :: gs, r, s, h => by
    simp only [fieldsChars, List.cons_append, List.append_assoc, List.cons.injEq, true_and] at h
    obtain ⟨hk, hx⟩ := stringRest_append_inj h
    simp only [List.cons.injEq, true_and] at hx
    obtain ⟨rfl, hrest⟩ := Value.toChars_append_inj x y (separated_moreFields fs r)
      (separated_moreFields gs s) hx
    obtain ⟨rfl, rfl⟩ := moreFields_append_inj fs gs hrest
    rw [String.toList_inj.mp hk]
    exact ⟨rfl, rfl⟩

end

/-- Two values with the same spelling are the same value. -/
theorem Value.toChars_injective {v w : Value} (h : v.toChars = w.toChars) : v = w :=
  (Value.toChars_append_inj v w separated_nil separated_nil (by rw [h])).1

theorem Value.toVec_injective {v w : Value} (h : v.toVec = w.toVec) : v = w := by
  apply Value.toChars_injective
  have htext : v.toText = w.toText := String.toByteArray_inj.mp h
  exact String.ofList_injective htext

instance : DecidableEq Value := fun v w =>
  decidable_of_iff (v.toChars = w.toChars) ⟨Value.toChars_injective, congrArg Value.toChars⟩

end Json
