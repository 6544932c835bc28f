import Mathlib.Data.List.Infix
import PunkgoKernel.Lib.JsonInjective

/-!
# JSON values, one to a line

A stream of frames, each closed by a separator that occurs in none of them. Whoever has read a
part of the stream has a prefix of the frames (`completeFrames_starts`), and with the whole
stream all of them (`completeFrames_frames`). The compact spelling of a JSON value has no line
break, and names one value, so a stream of lines determines the values written to it.
-/

namespace Json

/-! ## Frames -/

section Frames

variable {α : Type} {sep : α}

/-- A stream of frames, each closed by the separator. The separator closes a frame and
does not stand between two, so an empty frame is visible in the stream. -/
def frames (sep : α) (xs : List (List α)) : List α := xs.flatMap (· ++ [sep])

/-- The first frame, closed, and then the stream of the others. -/
theorem frames_cons (x : List α) (xs : List (List α)) :
    frames sep (x :: xs) = x ++ sep :: frames sep xs := by
  simp [frames]

variable [DecidableEq α]

/-- The frames of a stream that are closed. What stands behind the last separator is no
frame yet: the reader waits for the rest of it. -/
def completeFrames (sep : α) (cs : List α) : List (List α) := (cs.splitOn sep).dropLast

/-- As long as no separator has come there is no complete frame. -/
theorem completeFrames_open {cs : List α} (h : sep ∉ cs) : completeFrames sep cs = [] := by
  unfold completeFrames
  rw [List.splitOn_eq_singleton h]
  rfl

/-- The reader cuts at the first separator, and goes on behind it. -/
theorem completeFrames_cons {x : List α} (h : sep ∉ x) (cs : List α) :
    completeFrames sep (x ++ sep :: cs) = x :: completeFrames sep cs := by
  unfold completeFrames
  rw [List.splitOn_append_cons_self_of_not_mem h]
  exact List.dropLast_cons_of_ne_nil (List.splitOn_ne_nil _ _)

/-- What a reader has of a stream, wherever it is cut, are the first frames written. -/
theorem completeFrames_starts {xs : List (List α)} (hxs : ∀ x ∈ xs, sep ∉ x) {cs : List α}
    (h : cs <+: frames sep xs) : completeFrames sep cs <+: xs := by
  induction xs generalizing cs with
  | nil =>
    obtain rfl : cs = [] := List.prefix_nil.mp h
    exact List.nil_prefix
  | cons x rest ih =>
    have hx : sep ∉ x := hxs x List.mem_cons_self
    rw [frames_cons] at h
    rcases List.prefix_or_prefix_of_prefix h (List.prefix_append x _) with hopen | ⟨tail, rfl⟩
    · rw [completeFrames_open fun hmem => hx (hopen.subset hmem)]
      exact List.nil_prefix
    have htail : tail <+: sep :: frames sep rest := (List.prefix_append_right_inj x).mp h
    cases tail with
    | nil =>
      rw [List.append_nil, completeFrames_open hx]
      exact List.nil_prefix
    | cons c cs' =>
      obtain ⟨rfl, hcs'⟩ := List.cons_prefix_cons.mp htail
      rw [completeFrames_cons hx]
      exact List.cons_prefix_cons.mpr ⟨rfl, ih (fun y hy => hxs y (List.mem_cons_of_mem _ hy)) hcs'⟩

/-- Reading a stream gives back the frames it was made of, provided that none of them
contains the separator. -/
theorem completeFrames_frames {xs : List (List α)} (hxs : ∀ x ∈ xs, sep ∉ x) :
    completeFrames sep (frames sep xs) = xs := by
  induction xs with
  | nil => rfl
  | cons x rest ih =>
    rw [frames_cons, completeFrames_cons (hxs x List.mem_cons_self),
      ih fun y hy => hxs y (List.mem_cons_of_mem _ hy)]

end Frames

/-! ## Values -/

/-- An escaped character has no newline in it, since a newline is itself escaped as a
letter. -/
theorem newline_not_mem_escape (c : Char) : '\n' ∉ escape c := by
  have hdigit : ∀ n < 16, hexDigit n ≠ '\n' := by decide
  intro hmem
  unfold escape at hmem
  split at hmem
  · revert hmem
    decide
  split at hmem
  · revert hmem
    decide
  split at hmem
  · revert hmem
    decide
  next hnewline =>
  split at hmem
  · revert hmem
    decide
  split at hmem
  · revert hmem
    decide
  split at hmem
  · revert hmem
    decide
  split at hmem
  · revert hmem
    decide
  split at hmem
  · next hlow =>
    have hhigh := hdigit (c.toNat / 16) (by omega)
    have hrest := hdigit (c.toNat % 16) (by omega)
    simp [hhigh.symm, hrest.symm] at hmem
  · exact hnewline (List.mem_singleton.mp hmem).symm

/-- A string is spelled without a newline, up to its closing quote. -/
theorem newline_not_mem_stringRest (cs : List Char) : '\n' ∉ stringRest cs := by
  unfold stringRest
  intro hmem
  rcases List.mem_append.mp hmem with hchars | hquote
  · obtain ⟨c, -, hc⟩ := List.mem_flatMap.mp hchars
    exact newline_not_mem_escape c hc
  · revert hquote
    decide

/-- A number is spelled with digits, signs, a point and an exponent only. -/
theorem Number.newline_not_mem_toChars (n : Number) : '\n' ∉ n.toChars := by
  intro hmem
  have hnumeric := List.all_eq_true.mp n.toChars_numeric _ hmem
  revert hnumeric
  decide

mutual

/-- A value is spelled on one line. The induction is on the value, together with the
items of its arrays and the fields of its objects. -/
theorem Value.newline_not_mem_toChars : ∀ v : Value, '\n' ∉ v.toChars
  | .null => by decide
  | .bool b => by cases b <;> decide
  | .num n => n.newline_not_mem_toChars
  | .str s => by
    rw [Value.toChars, List.mem_cons, not_or]
    exact ⟨by decide, newline_not_mem_stringRest _⟩
  | .arr xs => by
    rw [Value.toChars, List.mem_cons, not_or]
    exact ⟨by decide, newline_not_mem_itemsChars xs⟩
  | .obj fs => by
    rw [Value.toChars, List.mem_cons, not_or]
    exact ⟨by decide, newline_not_mem_fieldsChars fs⟩

theorem newline_not_mem_moreItems : ∀ xs : List Value, '\n' ∉ moreItems xs
  | [] => by decide
  | x :: xs => by
    rw [moreItems, List.mem_cons, List.mem_append, not_or, not_or]
    exact ⟨by decide, x.newline_not_mem_toChars, newline_not_mem_moreItems xs⟩

theorem newline_not_mem_itemsChars : ∀ xs : List Value, '\n' ∉ itemsChars xs
  | [] => by decide
  | x :: xs => by
    rw [itemsChars, List.mem_append, not_or]
    exact ⟨x.newline_not_mem_toChars, newline_not_mem_moreItems xs⟩

theorem newline_not_mem_moreFields : ∀ fs : List (String × Value), '\n' ∉ moreFields fs
  | [] => by decide
  | (k, x) :: fs => by
    simp only [moreFields, List.mem_cons, List.mem_append, not_or]
    exact ⟨by decide, by decide, newline_not_mem_stringRest _, by decide,
      x.newline_not_mem_toChars, newline_not_mem_moreFields fs⟩

theorem newline_not_mem_fieldsChars : ∀ fs : List (String × Value), '\n' ∉ fieldsChars fs
  | [] => by decide
  | (k, x) :: fs => by
    simp only [fieldsChars, List.mem_cons, List.mem_append, not_or]
    exact ⟨by decide, newline_not_mem_stringRest _, by decide,
      x.newline_not_mem_toChars, newline_not_mem_moreFields fs⟩

end

/-- The values of a stream, one to a line, which is how client and daemon send them. -/
def lines (vs : List Value) : List Char := frames '\n' (vs.map Value.toChars)

/-- What has been read of a stream is the spelling of one list of values, the first ones
written, and of all of them once everything has been read. -/
theorem lines_readable {vs : List Value} {cs : List Char} (h : cs <+: lines vs) :
    ∃ ws, ws <+: vs ∧ completeFrames '\n' cs = ws.map Value.toChars ∧
      (∀ ws', completeFrames '\n' cs = ws'.map Value.toChars → ws' = ws) ∧
      (cs = lines vs → ws = vs) := by
  have hone : ∀ x ∈ vs.map Value.toChars, '\n' ∉ x := by
    intro x hx
    obtain ⟨v, -, rfl⟩ := List.mem_map.mp hx
    exact v.newline_not_mem_toChars
  have hinj : Function.Injective (List.map Value.toChars) :=
    List.map_injective_iff.mpr fun _ _ => Value.toChars_injective
  obtain ⟨ws, hprefix, heq⟩ := List.prefix_map_iff.mp (completeFrames_starts hone h)
  refine ⟨ws, hprefix, heq, fun ws' h' => hinj (h'.symm.trans heq), ?_⟩
  rintro rfl
  exact hinj (heq.symm.trans (completeFrames_frames hone))

end Json
