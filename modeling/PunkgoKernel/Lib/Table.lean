import Mathlib.Data.List.Nodup
import Mathlib.Data.List.Lemmas
import Mathlib.Algebra.BigOperators.Group.List.Basic
import Mathlib.Tactic.Abel

/-!
# Tables with a primary key

A table is the list of its rows in insertion order, with the proof that no two
rows share their key: a duplicate key cannot be built, only refused
(`insert?`). Rows are changed in place by a function that keeps the key
(`modify`) and are never removed.

Every fact a caller needs is about `find?`: what a lookup answers after an
insertion and after a change. Sums over the rows (`total`) have one rule for
each of the two.
-/

namespace Relational

/-- The primary key of a row. The type of keys is determined by that of the rows, so no
lookup has to name it. -/
class Keyed (ρ : Type) (κ : outParam Type) where
  key : ρ → κ

export Keyed (key)

/-- The rows of a table, in insertion order, no two with the same key. The proof is part
of the table, so what an operation answers cannot break it. -/
structure Table (ρ : Type) {κ : Type} [Keyed ρ κ] where
  rows : List ρ
  unique : (rows.map key).Nodup

namespace Table

variable {ρ κ : Type} [Keyed ρ κ]

/-- Tables are equal when their rows are: the proof of uniqueness adds nothing. -/
@[ext] theorem ext {t u : Table ρ} (h : t.rows = u.rows) : t = u := by
  cases t; cases u
  cases h
  rfl

instance [DecidableEq ρ] : DecidableEq (Table ρ) := fun t u =>
  decidable_of_iff (t.rows = u.rows) ⟨ext, congrArg rows⟩

/-- The table without rows. -/
def empty : Table ρ := ⟨[], List.nodup_nil⟩

variable [DecidableEq κ]

/-- The row of a key, if the table has one. There is at most one, so the order of the
rows does not matter here. -/
def find? (t : Table ρ) (k : κ) : Option ρ := t.rows.find? (fun r => key r = k)

/-- Insertion under the uniqueness constraint: refused when the key is taken, and
otherwise at the end, as the insertion order asks. -/
def insert? (t : Table ρ) (r : ρ) : Option (Table ρ) :=
  if h : key r ∈ t.rows.map key then none
  else some ⟨t.rows ++ [r], by
    rw [List.map_append, List.map_singleton]
    exact List.Nodup.append t.unique (List.nodup_singleton _) (by simpa using h)⟩

/-- A change in place that keeps the key of every row keeps the list of keys, and with
it their uniqueness. -/
theorem map_key_modify (rows : List ρ) (k : κ) {f : ρ → ρ} (hf : ∀ r, key (f r) = key r) :
    (rows.map (fun r => if key r = k then f r else r)).map key = rows.map key := by
  rw [List.map_map]
  apply List.map_congr_left
  intro r _
  simp only [Function.comp_apply]
  split
  · exact hf r
  · rfl

/-- Changes the row of a key, if there is one, by a function that keeps keys. Where
there is none the table stays as it is, as an UPDATE that matches nothing does. -/
def modify (t : Table ρ) (k : κ) (f : ρ → ρ) (hf : ∀ r, key (f r) = key r := by intro r; rfl) :
    Table ρ :=
  ⟨t.rows.map (fun r => if key r = k then f r else r), by
    rw [map_key_modify t.rows k hf]
    exact t.unique⟩

/-- Insertion that replaces the row of the same key, in its place, and appends the row
where there is none. -/
def upsert (t : Table ρ) (r : ρ) : Table ρ :=
  if h : key r ∈ t.rows.map key then
    ⟨t.rows.map (fun r' => if key r' = key r then r else r'), by
      have hkeys : (t.rows.map (fun r' => if key r' = key r then r else r')).map key =
          t.rows.map key := by
        rw [List.map_map]
        apply List.map_congr_left
        intro r' _
        simp only [Function.comp_apply]
        split
        · next heq => exact heq.symm
        · rfl
      rw [hkeys]
      exact t.unique⟩
  else ⟨t.rows ++ [r], by
    rw [List.map_append, List.map_singleton]
    exact List.Nodup.append t.unique (List.nodup_singleton _) (by simpa using h)⟩

/-! ## Lookups -/

/-- What a key finds has that key. -/
theorem key_of_find? {t : Table ρ} {k : κ} {r : ρ} (h : t.find? k = some r) : key r = k := by
  simpa using List.find?_some h

/-- What a key finds is a row of the table. -/
theorem mem_of_find? {t : Table ρ} {k : κ} {r : ρ} (h : t.find? k = some r) : r ∈ t.rows :=
  List.mem_of_find?_eq_some h

/-- Of rows with distinct keys each is the first with its own. The induction needs the
rows as a list: a tail of a table is no table. -/
theorem find?_of_mem_aux {rows : List ρ} (unique : (rows.map key).Nodup) {r : ρ} (h : r ∈ rows) :
    rows.find? (fun r' => key r' = key r) = some r := by
  induction rows with
  | nil => cases h
  | cons x xs ih =>
    rw [List.map_cons, List.nodup_cons] at unique
    rcases List.mem_cons.mp h with rfl | hx
    · simp
    · have hne : key x ≠ key r := by
        intro heq
        exact unique.1 (heq ▸ List.mem_map_of_mem hx)
      rw [List.find?_cons_of_neg (by simpa using hne)]
      exact ih unique.2 hx

/-- A row of the table is the one its key finds. With `mem_of_find?` this makes
membership and lookup two forms of one fact. -/
theorem find?_of_mem {t : Table ρ} {r : ρ} (h : r ∈ t.rows) : t.find? (key r) = some r :=
  find?_of_mem_aux t.unique h

/-- A key finds nothing exactly if no row has it. -/
theorem find?_eq_none_iff {t : Table ρ} {k : κ} : t.find? k = none ↔ k ∉ t.rows.map key := by
  simp [find?, List.find?_eq_none]

/-- A key finds a row exactly if it is one of the keys. -/
theorem isSome_find?_iff {t : Table ρ} {k : κ} : (t.find? k).isSome ↔ k ∈ t.rows.map key := by
  rw [Option.isSome_iff_ne_none, ne_eq, find?_eq_none_iff, not_not]

@[simp] theorem find?_empty (k : κ) : (empty : Table ρ).find? k = none := rfl

/-! ## Insertion -/

/-- What an insertion that goes through did: the key was free, and the row is the new
last one. -/
theorem insert?_eq_some {t t' : Table ρ} {r : ρ} (h : t.insert? r = some t') :
    t.find? (key r) = none ∧ t'.rows = t.rows ++ [r] := by
  unfold insert? at h
  split at h
  · cases h
  · next hk =>
    cases h
    exact ⟨find?_eq_none_iff.mpr hk, rfl⟩

/-- An insertion is refused only because the key is taken. -/
theorem insert?_eq_none {t : Table ρ} {r : ρ} (h : t.insert? r = none) :
    (t.find? (key r)).isSome := by
  unfold insert? at h
  split at h
  · next hk => exact isSome_find?_iff.mpr hk
  · cases h

/-- An insertion under a free key goes through, which is what a caller with a fresh
identifier needs. -/
theorem insert?_of_find?_none {t : Table ρ} {r : ρ} (h : t.find? (key r) = none) :
    ∃ t', t.insert? r = some t' := by
  cases ht : t.insert? r with
  | some t' => exact ⟨t', rfl⟩
  | none =>
    have := insert?_eq_none ht
    rw [h] at this
    cases this

/-- What a lookup answers after an insertion: the new row under its key, and what it
answered before under every other. -/
theorem find?_insert {t t' : Table ρ} {r : ρ} (h : t.insert? r = some t') (k : κ) :
    t'.find? k = if key r = k then some r else t.find? k := by
  obtain ⟨hfresh, hrows⟩ := insert?_eq_some h
  unfold find? at hfresh ⊢
  rw [hrows, List.find?_append]
  split
  · next hk =>
    subst hk
    rw [hfresh]
    simp
  · next hk =>
    rw [List.find?_cons_of_neg (by simpa using hk), List.find?_nil, Option.or_none]

/-- An insertion leaves every row that could be found where it was, since it never takes
a key that is in use. -/
theorem find?_insert_of_some {t t' : Table ρ} {r r' : ρ} {k : κ} (h : t.insert? r = some t')
    (hk : t.find? k = some r') : t'.find? k = some r' := by
  rw [find?_insert h]
  split
  · next heq =>
    rw [← heq, (insert?_eq_some h).1] at hk
    cases hk
  · exact hk

/-- The keys after an insertion are those before it and the new one. -/
theorem isSome_find?_insert {t t' : Table ρ} {r : ρ} (h : t.insert? r = some t') (k : κ) :
    (t'.find? k).isSome ↔ key r = k ∨ (t.find? k).isSome := by
  rw [find?_insert h]
  split
  · next heq => simp [heq]
  · next hne => simp [hne]

/-! ## Change in place -/

/-- The lookup in the list that `modify` builds. The case that the changed row is the
one looked for comes down to that the change keeps keys. -/
theorem find?_modify_aux (rows : List ρ) (k j : κ) {f : ρ → ρ} (hf : ∀ r, key (f r) = key r) :
    (rows.map (fun r => if key r = k then f r else r)).find? (fun r => key r = j) =
      if j = k then (rows.find? (fun r => key r = k)).map f
      else rows.find? (fun r => key r = j) := by
  induction rows with
  | nil => simp
  | cons x xs ih =>
    rw [List.map_cons]
    by_cases hxk : key x = k
    · rw [if_pos hxk]
      by_cases hjk : j = k
      · subst hjk
        rw [if_pos rfl, List.find?_cons_of_pos (by simp [hf, hxk]),
          List.find?_cons_of_pos (by simpa using hxk), Option.map_some]
      · have hxj : key x ≠ j := fun h => hjk (h.symm.trans hxk)
        rw [List.find?_cons_of_neg (by simpa [hf] using hxj), ih, if_neg hjk, if_neg hjk,
          List.find?_cons_of_neg (by simpa using hxj)]
    · rw [if_neg hxk]
      by_cases hxj : key x = j
      · have hjk : j ≠ k := fun h => hxk (hxj.trans h)
        rw [List.find?_cons_of_pos (by simpa using hxj), if_neg hjk,
          List.find?_cons_of_pos (by simpa using hxj)]
      · rw [List.find?_cons_of_neg (by simpa using hxj), ih,
          List.find?_cons_of_neg (by simpa using hxk), List.find?_cons_of_neg (by simpa using hxj)]

/-- What a lookup answers after a change: under the key of the change the changed row,
and what it answered before under every other. -/
@[simp] theorem find?_modify (t : Table ρ) (k j : κ) (f : ρ → ρ)
    (hf : ∀ r, key (f r) = key r) :
    (t.modify k f hf).find? j = if j = k then (t.find? k).map f else t.find? j :=
  find?_modify_aux t.rows k j hf

/-- A change in place leaves the list of keys as it was. -/
@[simp] theorem keys_modify (t : Table ρ) (k : κ) (f : ρ → ρ) (hf : ∀ r, key (f r) = key r) :
    (t.modify k f hf).rows.map key = t.rows.map key :=
  map_key_modify t.rows k hf

/-- A change in place adds no row and removes none. -/
theorem isSome_find?_modify (t : Table ρ) (k j : κ) (f : ρ → ρ) (hf : ∀ r, key (f r) = key r) :
    ((t.modify k f hf).find? j).isSome ↔ (t.find? j).isSome := by
  rw [isSome_find?_iff, keys_modify, ← isSome_find?_iff]

/-- A row survives a change of one row, as far as the change keeps it: whatever
reflexive relation the change respects holds between the row as it was and the row as it
is. -/
theorem find?_modify_keeps {R : ρ → ρ → Prop} (refl : ∀ r, R r r) {t : Table ρ} {k : κ}
    {f : ρ → ρ} (hf : ∀ r, key (f r) = key r) (hR : ∀ r, t.find? k = some r → R r (f r)) {j : κ}
    {r : ρ} (h : t.find? j = some r) : ∃ r', (t.modify k f hf).find? j = some r' ∧ R r r' := by
  rw [find?_modify]
  split
  · next hj =>
    subst hj
    exact ⟨f r, by rw [h, Option.map_some], hR r h⟩
  · exact ⟨r, h, refl r⟩

/-- A row of a changed table was there before, changed or not. This is how an invariant
about all rows is carried over a change of one. -/
theorem find?_of_modify {t : Table ρ} {k j : κ} {f : ρ → ρ} (hf : ∀ r, key (f r) = key r) {r : ρ}
    (h : (t.modify k f hf).find? j = some r) : ∃ r₀, t.find? j = some r₀ ∧ (r = r₀ ∨ r = f r₀) := by
  rw [find?_modify] at h
  split at h
  · next hj =>
    subst hj
    obtain ⟨r₀, hr₀, rfl⟩ := Option.map_eq_some_iff.mp h
    exact ⟨r₀, hr₀, .inr rfl⟩
  · exact ⟨r, h, .inl rfl⟩

/-- The same for the rows themselves, where the row that was changed is named by what
the key found. -/
theorem mem_modify {t : Table ρ} {k : κ} {f : ρ → ρ} (hf : ∀ r, key (f r) = key r) {r : ρ}
    (h : r ∈ (t.modify k f hf).rows) : r ∈ t.rows ∨ ∃ r', t.find? k = some r' ∧ r = f r' := by
  obtain ⟨r', hr', rfl⟩ := List.mem_map.mp h
  split
  · next hk => exact .inr ⟨r', hk ▸ find?_of_mem hr', rfl⟩
  · exact .inl hr'

/-! ## Replacement -/

/-- The lookup in the list that `upsert` builds where the key is already in use. -/
theorem find?_upsert_aux (rows : List ρ) (r : ρ) (k : κ) :
    (rows.map (fun r' => if key r' = key r then r else r')).find? (fun r' => key r' = k) =
      if key r = k then (rows.find? (fun r' => key r' = key r)).map (fun _ => r)
      else rows.find? (fun r' => key r' = k) := by
  induction rows with
  | nil => simp
  | cons x xs ih =>
    rw [List.map_cons]
    by_cases hx : key x = key r
    · rw [if_pos hx]
      by_cases hk : key r = k
      · rw [List.find?_cons_of_pos (by simpa using hk), if_pos hk,
          List.find?_cons_of_pos (by simpa using hx), Option.map_some]
      · rw [List.find?_cons_of_neg (by simpa using hk), ih, if_neg hk, if_neg hk,
          List.find?_cons_of_neg (by simpa [hx] using hk)]
    · rw [if_neg hx]
      by_cases hk : key x = k
      · have hne : key r ≠ k := fun h => hx (hk.trans h.symm)
        rw [List.find?_cons_of_pos (by simpa using hk), if_neg hne,
          List.find?_cons_of_pos (by simpa using hk)]
      · rw [List.find?_cons_of_neg (by simpa using hk), ih,
          List.find?_cons_of_neg (by simpa using hx), List.find?_cons_of_neg (by simpa using hk)]

/-- What a lookup answers after a replacing insertion. It does not matter whether the
row replaced another one or is new. -/
theorem find?_upsert (t : Table ρ) (r : ρ) (k : κ) :
    (t.upsert r).find? k = if key r = k then some r else t.find? k := by
  unfold upsert
  split
  · next hk =>
    have hsome := isSome_find?_iff.mpr hk
    refine (find?_upsert_aux t.rows r k).trans ?_
    split
    · obtain ⟨r', hr'⟩ := Option.isSome_iff_exists.mp hsome
      rw [show t.rows.find? (fun r' => key r' = key r) = some r' from hr']
      rfl
    · rfl
  · next hk =>
    have hnone := find?_eq_none_iff.mpr hk
    unfold find? at hnone ⊢
    rw [List.find?_append]
    split
    · next heq =>
      subst heq
      rw [hnone]
      simp
    · next hne => rw [List.find?_cons_of_neg (by simpa using hne), List.find?_nil, Option.or_none]

/-! ## Sums over the rows -/

/-- The sum of a quantity over the rows, such as the energy that the pending holds of an
agent have reserved. -/
def total (t : Table ρ) (g : ρ → Int) : Int := (t.rows.map g).sum

omit [DecidableEq κ] in
/-- Nothing is summed over the empty table. -/
@[simp] theorem total_empty (g : ρ → Int) : (empty : Table ρ).total g = 0 := rfl

omit [DecidableEq κ] in
/-- A quantity that vanishes on every row has no sum. -/
theorem total_eq_zero {t : Table ρ} {g : ρ → Int} (h : ∀ r ∈ t.rows, g r = 0) : t.total g = 0 := by
  unfold total
  rw [List.map_eq_map_iff.mpr h]
  simp

/-- An insertion adds the quantity of the new row. -/
theorem total_insert {t t' : Table ρ} {r : ρ} (h : t.insert? r = some t') (g : ρ → Int) :
    t'.total g = t.total g + g r := by
  unfold total
  rw [(insert?_eq_some h).2, List.map_append, List.sum_append, List.map_singleton,
    List.sum_singleton]

/-- The sum after the change of one row, for a list of rows with distinct keys.
Distinctness is needed: the change applies to every row with the key. -/
theorem total_modify_aux {rows : List ρ} (unique : (rows.map key).Nodup) {k : κ} {f : ρ → ρ}
    {r : ρ} (h : rows.find? (fun r => key r = k) = some r) (g : ρ → Int) :
    ((rows.map (fun r => if key r = k then f r else r)).map g).sum =
      (rows.map g).sum - g r + g (f r) := by
  induction rows with
  | nil => simp at h
  | cons x xs ih =>
    rw [List.map_cons, List.nodup_cons] at unique
    by_cases hx : key x = k
    · -- The row is the head, and no later row shares its key.
      rw [List.find?_cons_of_pos (by simpa using hx), Option.some.injEq] at h
      subst h
      have hrest : xs.map (fun r => if key r = k then f r else r) = xs := by
        conv_rhs => rw [← List.map_id xs]
        apply List.map_congr_left
        intro y hy
        rw [if_neg]
        · rfl
        · intro hyk
          exact unique.1 (hx.trans hyk.symm ▸ List.mem_map_of_mem hy)
      rw [List.map_cons, if_pos hx, hrest]
      simp only [List.map_cons, List.sum_cons]
      abel
    · rw [List.find?_cons_of_neg (by simpa using hx)] at h
      rw [List.map_cons, if_neg hx, List.map_cons, List.sum_cons, ih unique.2 h, List.map_cons,
        List.sum_cons]
      abel

/-- A change takes the quantity of the old row out of the sum and puts that of the new
row in. -/
theorem total_modify {t : Table ρ} {k : κ} {f : ρ → ρ} (hf : ∀ r, key (f r) = key r) {r : ρ}
    (h : t.find? k = some r) (g : ρ → Int) :
    (t.modify k f hf).total g = t.total g - g r + g (f r) :=
  total_modify_aux t.unique h g

/-- A change that leaves a quantity of each row alone leaves its sum alone, whether or
not it finds a row. -/
theorem total_modify_same {t : Table ρ} {k : κ} {f : ρ → ρ} (hf : ∀ r, key (f r) = key r)
    {g : ρ → Int} (hg : ∀ r, g (f r) = g r) : (t.modify k f hf).total g = t.total g := by
  show ((t.rows.map fun r => if key r = k then f r else r).map g).sum = (t.rows.map g).sum
  rw [List.map_map]
  congr 1
  apply List.map_congr_left
  intro r _
  show g (if key r = k then f r else r) = g r
  split
  · exact hg r
  · rfl

end Table

end Relational
