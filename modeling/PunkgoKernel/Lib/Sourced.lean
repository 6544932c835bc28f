import Mathlib.Logic.Function.Basic
import Mathlib.Order.Defs.Unbundled
import PunkgoKernel.Lib.Table

/-!
# Tables that a log accounts for

A table changes beside a log that only grows. What the table holds is seen by key
(`View`), and two relations say how it goes on:

- `Evolves`: no key is lost, a row changes as rows may, and a row that was not there is
  as new rows are. It composes, so it says the same of one step and of many.
- `Sourced`: the rows and the entries of one kind in the log correspond one to one, each
  row as its entry says. An entry of another kind leaves that alone, and an entry of the
  kind keeps it if a row comes with it.
-/

namespace Relational

variable {κ ρ β : Type}

/-- Rows by their key. -/
abbrev View (κ ρ : Type) := κ → Option ρ

/-! ## Rows that stay -/

/-- The second view is a later one of the first. -/
structure Evolves (Change : ρ → ρ → Prop) (New : ρ → Prop) (v v' : View κ ρ) : Prop where
  kept : ∀ k r, v k = some r → ∃ r', v' k = some r' ∧ Change r r'
  source : ∀ k r', v' k = some r' →
    (∃ r, v k = some r ∧ Change r r') ∨ (v k = none ∧ ∃ r, New r ∧ Change r r')

section Evolves

variable {Change : ρ → ρ → Prop} {New : ρ → Prop}

theorem Evolves.refl [Std.Refl Change] (v : View κ ρ) : Evolves Change New v v where
  kept _ r hr := ⟨r, hr, Std.Refl.refl r⟩
  source _ r hr := .inl ⟨r, hr, Std.Refl.refl r⟩

theorem Evolves.trans [IsTrans ρ Change] {v₁ v₂ v₃ : View κ ρ} (h : Evolves Change New v₁ v₂)
    (h' : Evolves Change New v₂ v₃) : Evolves Change New v₁ v₃ where
  kept k r hr := by
    obtain ⟨r₂, hr₂, hchange⟩ := h.kept k r hr
    obtain ⟨r₃, hr₃, hchange'⟩ := h'.kept k r₂ hr₂
    exact ⟨r₃, hr₃, IsTrans.trans _ _ _ hchange hchange'⟩
  source k r₃ hr₃ := by
    rcases h'.source k r₃ hr₃ with ⟨r₂, hr₂, hchange'⟩ | ⟨hnone₂, r, hnew, hchange'⟩
    · rcases h.source k r₂ hr₂ with ⟨r₁, hr₁, hchange⟩ | ⟨hnone, r, hnew, hchange⟩
      · exact .inl ⟨r₁, hr₁, IsTrans.trans _ _ _ hchange hchange'⟩
      · exact .inr ⟨hnone, r, hnew, IsTrans.trans _ _ _ hchange hchange'⟩
    · refine .inr ⟨?_, r, hnew, hchange'⟩
      cases hr₁ : v₁ k with
      | none => rfl
      | some r₁ =>
        obtain ⟨r₂, hr₂, -⟩ := h.kept k r₁ hr₁
        rw [hnone₂] at hr₂
        cases hr₂

theorem Evolves.imp_new {New' : ρ → Prop} {v v' : View κ ρ} (h : Evolves Change New v v')
    (hnew : ∀ r, New r → New' r) : Evolves Change New' v v' where
  kept := h.kept
  source k r' hr' := by
    rcases h.source k r' hr' with hold | ⟨hnone, r, hr, hchange⟩
    · exact .inl hold
    · exact .inr ⟨hnone, r, hnew r hr, hchange⟩

/-- The rows under some of the keys. -/
def View.only (v : View κ ρ) (p : κ → Prop) [DecidablePred p] : View κ ρ :=
  fun k => if p k then v k else none

theorem View.only_of_pos {v : View κ ρ} {p : κ → Prop} [DecidablePred p] {k : κ} (h : p k) :
    v.only p k = v k := if_pos h

theorem View.only_of_neg {v : View κ ρ} {p : κ → Prop} [DecidablePred p] {k : κ} (h : ¬ p k) :
    v.only p k = none := if_neg h

theorem Evolves.only {v v' : View κ ρ} (h : Evolves Change New v v') (p : κ → Prop)
    [DecidablePred p] : Evolves Change New (v.only p) (v'.only p) where
  kept k r hr := by
    by_cases hk : p k
    · rw [View.only_of_pos hk] at hr ⊢
      exact h.kept k r hr
    · rw [View.only_of_neg hk] at hr
      cases hr
  source k r' hr' := by
    by_cases hk : p k
    · rw [View.only_of_pos hk] at hr' ⊢
      exact h.source k r' hr'
    · rw [View.only_of_neg hk] at hr'
      cases hr'

/-- Where nothing is new, no key is. -/
theorem Evolves.isSome_iff {v v' : View κ ρ} (h : Evolves Change (fun _ => False) v v') (k : κ) :
    (v' k).isSome ↔ (v k).isSome := by
  constructor
  · intro hsome
    obtain ⟨r', hr'⟩ := Option.isSome_iff_exists.mp hsome
    rcases h.source k r' hr' with ⟨r, hr, -⟩ | ⟨-, r, hnew, -⟩
    · exact Option.isSome_iff_exists.mpr ⟨r, hr⟩
    · exact hnew.elim
  · intro hsome
    obtain ⟨r, hr⟩ := Option.isSome_iff_exists.mp hsome
    obtain ⟨r', hr', -⟩ := h.kept k r hr
    exact Option.isSome_iff_exists.mpr ⟨r', hr'⟩

variable [Keyed ρ κ] [DecidableEq κ] [Std.Refl Change]

theorem Evolves.insert {t t' : Table ρ} {r : ρ} (h : t.insert? r = some t') (hnew : New r) :
    Evolves Change New t.find? t'.find? where
  kept k r₀ hr₀ := ⟨r₀, Table.find?_insert_of_some h hr₀, Std.Refl.refl r₀⟩
  source k r' hr' := by
    rw [Table.find?_insert h] at hr'
    split at hr'
    · next hk =>
      cases hr'
      exact .inr ⟨hk ▸ (Table.insert?_eq_some h).1, r, hnew, Std.Refl.refl r⟩
    · exact .inl ⟨r', hr', Std.Refl.refl r'⟩

theorem Evolves.modify {t : Table ρ} {k : κ} {f : ρ → ρ} (hf : ∀ r, key (f r) = key r)
    (h : ∀ r, t.find? k = some r → Change r (f r)) :
    Evolves Change New t.find? (t.modify k f hf).find? where
  kept j r hr := Table.find?_modify_keeps Std.Refl.refl hf h hr
  source j r' hr' := by
    rw [Table.find?_modify] at hr'
    split at hr'
    · next hj =>
      subst hj
      obtain ⟨r, hr, rfl⟩ := Option.map_eq_some_iff.mp hr'
      exact .inl ⟨r, hr, h r hr⟩
    · exact .inl ⟨r', hr', Std.Refl.refl r'⟩

end Evolves

/-! ## Rows that have their entry -/

/-- Each row has an entry of the kind `Q` in the log, of its own and as the row is, and
each entry of the kind has a row. -/
def Sourced (Q : β → Prop) (P : β → ρ → Prop) (log : List β) (v : View κ ρ) : Prop :=
  ∃ src : κ → Nat,
    (∀ k r, v k = some r → ∃ e, log[src k]? = some e ∧ Q e ∧ P e r) ∧
    (∀ j k, (v j).isSome → (v k).isSome → src j = src k → j = k) ∧
    ∀ i e, log[i]? = some e → Q e → ∃ k, (v k).isSome ∧ src k = i

namespace Sourced

variable {Q : β → Prop} {P : β → ρ → Prop} {log : List β} {v v' : View κ ρ}

theorem nil : Sourced Q P ([] : List β) (fun _ : κ => (none : Option ρ)) := by
  refine ⟨fun _ => 0, ?_, ?_, ?_⟩
  · intro k r hr
    cases hr
  · intro j k hj
    cases hj
  · intro i e he
    cases he

/-- What rows may change keeps them as their entries say. -/
theorem evolve {Change : ρ → ρ → Prop} (h : Sourced Q P log v)
    (hev : Evolves Change (fun _ => False) v v')
    (hP : ∀ e r r', Change r r' → P e r → P e r') : Sourced Q P log v' := by
  obtain ⟨src, hentry, hown, hrow⟩ := h
  refine ⟨src, ?_, ?_, ?_⟩
  · intro k r' hr'
    rcases hev.source k r' hr' with ⟨r, hr, hchange⟩ | ⟨-, r, hnew, -⟩
    · obtain ⟨e, he, hQ, hPr⟩ := hentry k r hr
      exact ⟨e, he, hQ, hP e r r' hchange hPr⟩
    · exact hnew.elim
  · intro j k hj hk
    exact hown j k ((hev.isSome_iff j).mp hj) ((hev.isSome_iff k).mp hk)
  · intro i e he hQ
    obtain ⟨k, hk, hsrc⟩ := hrow i e he hQ
    exact ⟨k, (hev.isSome_iff k).mpr hk, hsrc⟩

/-- An entry of another kind. -/
theorem skip (h : Sourced Q P log v) {e : β} (he : ¬ Q e) : Sourced Q P (log ++ [e]) v := by
  obtain ⟨src, hentry, hown, hrow⟩ := h
  refine ⟨src, ?_, hown, ?_⟩
  · intro k r hr
    obtain ⟨e', he', hrest⟩ := hentry k r hr
    obtain ⟨hlt, -⟩ := List.getElem?_eq_some_iff.mp he'
    exact ⟨e', (List.getElem?_append_left hlt).trans he', hrest⟩
  · intro i e' he' hQ
    by_cases hi : i < log.length
    · rw [List.getElem?_append_left hi] at he'
      exact hrow i e' he' hQ
    · rw [List.getElem?_append_right (not_lt.mp hi)] at he'
      obtain rfl : e' = e := by
        obtain ⟨hlt, heq⟩ := List.getElem?_eq_some_iff.mp he'
        simpa using heq.symm
      exact absurd hQ he

/-- A step that adds no row, and no entry of the kind. -/
theorem keep (Change : ρ → ρ → Prop) {log' : List β} (h : Sourced Q P log v)
    (hev : Evolves Change (fun _ => False) v v') (hP : ∀ e r r', Change r r' → P e r → P e r')
    (hlog : log' = log ∨ ∃ e, log' = log ++ [e] ∧ ¬ Q e) : Sourced Q P log' v' := by
  have hrows := h.evolve hev hP
  rcases hlog with rfl | ⟨e, rfl, he⟩
  · exact hrows
  · exact hrows.skip he

/-- An entry of the kind, with the row that comes with it. -/
theorem grow [DecidableEq κ] (h : Sourced Q P log v) {e : β} {k : κ} {r : ρ} (hQ : Q e)
    (hP : P e r) (hfresh : v k = none) (hnew : v' k = some r) (hrest : ∀ j, j ≠ k → v' j = v j) :
    Sourced Q P (log ++ [e]) v' := by
  obtain ⟨src, hentry, hown, hrow⟩ := h
  -- the sources of the other rows lie in the log before
  have hlt : ∀ j, j ≠ k → (v' j).isSome → src j < log.length ∧ (v j).isSome := by
    intro j hj hsome
    rw [hrest j hj] at hsome
    obtain ⟨r', hr'⟩ := Option.isSome_iff_exists.mp hsome
    obtain ⟨e', he', -⟩ := hentry j r' hr'
    exact ⟨(List.getElem?_eq_some_iff.mp he').1, hsome⟩
  have hself : Function.update src k log.length k = log.length := Function.update_self ..
  have hother : ∀ j, j ≠ k → Function.update src k log.length j = src j :=
    fun j hj => Function.update_of_ne hj ..
  refine ⟨Function.update src k log.length, ?_, ?_, ?_⟩
  · intro j r' hr'
    by_cases hj : j = k
    · subst hj
      obtain rfl := Option.some.inj (hnew.symm.trans hr')
      exact ⟨e, by rw [hself]; simp, hQ, hP⟩
    · obtain ⟨e', he', hQ', hP'⟩ := hentry j r' ((hrest j hj).symm.trans hr')
      obtain ⟨hi, -⟩ := List.getElem?_eq_some_iff.mp he'
      refine ⟨e', ?_, hQ', hP'⟩
      rw [hother j hj, List.getElem?_append_left hi, he']
  · intro i j hi hj hsrc
    by_cases hik : i = k
    · by_cases hjk : j = k
      · rw [hik, hjk]
      · rw [hik, hself, hother j hjk] at hsrc
        exact absurd hsrc.symm (Nat.ne_of_lt (hlt j hjk hj).1)
    · by_cases hjk : j = k
      · rw [hjk, hself, hother i hik] at hsrc
        exact absurd hsrc (Nat.ne_of_lt (hlt i hik hi).1)
      · rw [hother i hik, hother j hjk] at hsrc
        exact hown i j (hlt i hik hi).2 (hlt j hjk hj).2 hsrc
  · intro i e' he' hQ'
    by_cases hi : i < log.length
    · rw [List.getElem?_append_left hi] at he'
      obtain ⟨j, hj, hsrc⟩ := hrow i e' he' hQ'
      have hjk : j ≠ k := by
        rintro rfl
        rw [hfresh] at hj
        cases hj
      exact ⟨j, by rw [hrest j hjk]; exact hj, (hother j hjk).trans hsrc⟩
    · have hlen := (List.getElem?_eq_some_iff.mp he').1
      rw [List.length_append, List.length_singleton] at hlen
      exact ⟨k, by rw [hnew]; rfl, hself.trans (by omega)⟩

variable [Keyed ρ κ] [DecidableEq κ] {t t' : Table ρ} {r : ρ} {e : β}

/-- A row inserted with its entry. -/
theorem insert (h : Sourced Q P log t.find?) (hins : t.insert? r = some t') (hQ : Q e)
    (hP : P e r) : Sourced Q P (log ++ [e]) t'.find? := by
  refine h.grow hQ hP (Table.insert?_eq_some hins).1 ?_ ?_
  · rw [Table.find?_insert hins, if_pos rfl]
  · intro k hk
    rw [Table.find?_insert hins, if_neg (Ne.symm hk)]

/-- The same where only some of the keys are looked at, and the row's is one of them. -/
theorem insert_only {p : κ → Prop} [DecidablePred p] (h : Sourced Q P log (View.only t.find? p))
    (hins : t.insert? r = some t') (hkey : p (key r)) (hQ : Q e) (hP : P e r) :
    Sourced Q P (log ++ [e]) (View.only t'.find? p) := by
  refine h.grow (k := key r) hQ hP ?_ ?_ ?_
  · rw [View.only_of_pos hkey]
    exact (Table.insert?_eq_some hins).1
  · rw [View.only_of_pos hkey, Table.find?_insert hins, if_pos rfl]
  · intro k hk
    unfold View.only
    rw [Table.find?_insert hins, if_neg (Ne.symm hk)]

end Sourced

end Relational
