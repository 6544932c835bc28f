import PunkgoKernel.State.ActorStore

/-!
# What `LIKE` matches

A pattern that is put together from pieces matches a text that falls into
pieces the same way (`likeChars_append`), so the pieces can be read one by one: `%`
matches anything, and a piece without wildcards matches the texts that differ
from it in the case of ASCII letters at most (`likeChars_plain`). This is about the
characters as `LIKE` reads them. What it reads of a pattern put together from pieces
is what it reads of the pieces, up to the first of them with a NUL in it
(`readText_append`), and reading keeps what matches matched (`likeChars_read`).
-/

namespace PunkgoKernel

/-- The text in lower case, ASCII letters only. -/
def folded (text : List Char) : List Char := text.map Char.toLower

/-- Neither of the two wildcards. -/
def NoWildcard (pattern : List Char) : Prop := '%' ∉ pattern ∧ '_' ∉ pattern

/-- What follows in a pattern without wildcards has none either. -/
theorem NoWildcard.tail {p : Char} {ps : List Char} (h : NoWildcard (p :: ps)) : NoWildcard ps :=
  ⟨fun hmem => h.1 (List.mem_cons_of_mem _ hmem), fun hmem => h.2 (List.mem_cons_of_mem _ hmem)⟩

/-- The empty pattern matches the empty text alone. -/
@[simp] theorem likeChars_nil (text : List Char) : likeChars [] text = true ↔ text = [] := by
  unfold likeChars
  exact List.isEmpty_iff

/-- One step of the match: a percent sign takes a stretch of any length, every other
character one character. -/
theorem likeChars_step (p : Char) (ps text : List Char) :
    likeChars (p :: ps) text = if p = '%' then text.tails.any (likeChars ps)
      else match text with
        | [] => false
        | c :: cs => likeChar p c && likeChars ps cs := rfl

/-- `%` stands for any beginning of the text. -/
theorem likeChars_percent (ps text : List Char) :
    likeChars ('%' :: ps) text = true ↔ ∃ a b, text = a ++ b ∧ likeChars ps b = true := by
  rw [likeChars_step, if_pos rfl, List.any_eq_true]
  constructor
  · rintro ⟨b, hb, hmatch⟩
    obtain ⟨a, rfl⟩ := (List.mem_tails _ _).mp hb
    exact ⟨a, b, rfl, hmatch⟩
  · rintro ⟨a, b, rfl, hmatch⟩
    exact ⟨b, (List.mem_tails _ _).mpr (List.suffix_append a b), hmatch⟩

/-- A character of the pattern that is no percent sign matches one character of the
text. -/
theorem likeChars_cons {p : Char} (hp : p ≠ '%') (ps text : List Char) :
    likeChars (p :: ps) text = true ↔
      ∃ c cs, text = c :: cs ∧ likeChar p c = true ∧ likeChars ps cs = true := by
  rw [likeChars_step, if_neg hp]
  cases text with
  | nil => simp
  | cons c cs =>
    rw [Bool.and_eq_true]
    constructor
    · rintro ⟨hchar, hrest⟩
      exact ⟨c, cs, rfl, hchar, hrest⟩
    · rintro ⟨c', cs', heq, hchar, hrest⟩
      obtain ⟨rfl, rfl⟩ := List.cons.inj heq
      exact ⟨hchar, hrest⟩

/-- Two patterns in a row match what falls into a match of each. -/
theorem likeChars_append (ps qs text : List Char) :
    likeChars (ps ++ qs) text = true ↔
      ∃ a b, text = a ++ b ∧ likeChars ps a = true ∧ likeChars qs b = true := by
  induction ps generalizing text with
  | nil =>
    constructor
    · intro h
      exact ⟨[], text, rfl, (likeChars_nil _).mpr rfl, h⟩
    · rintro ⟨a, b, rfl, hnil, h⟩
      obtain rfl := (likeChars_nil a).mp hnil
      exact h
  | cons p ps ih =>
    rw [List.cons_append]
    by_cases hp : p = '%'
    · subst hp
      rw [likeChars_percent]
      constructor
      · rintro ⟨a, rest, rfl, hrest⟩
        obtain ⟨b, c, rfl, hb, hc⟩ := (ih _).mp hrest
        exact ⟨a ++ b, c, (List.append_assoc a b c).symm, (likeChars_percent _ _).mpr ⟨a, b, rfl, hb⟩, hc⟩
      · rintro ⟨ab, c, rfl, hab, hc⟩
        obtain ⟨a, b, rfl, hb⟩ := (likeChars_percent _ _).mp hab
        exact ⟨a, b ++ c, List.append_assoc a b c, (ih _).mpr ⟨b, c, rfl, hb, hc⟩⟩
    · rw [likeChars_cons hp]
      constructor
      · rintro ⟨c, cs, rfl, hchar, hrest⟩
        obtain ⟨a, b, rfl, ha, hb⟩ := (ih _).mp hrest
        exact ⟨c :: a, b, rfl, (likeChars_cons hp _ _).mpr ⟨c, a, rfl, hchar, ha⟩, hb⟩
      · rintro ⟨ca, b, rfl, hca, hb⟩
        obtain ⟨c, a, rfl, hchar, ha⟩ := (likeChars_cons hp _ _).mp hca
        exact ⟨c, a ++ b, rfl, hchar, (ih _).mpr ⟨a, b, rfl, ha, hb⟩⟩

/-- What is no letter has no lower case. -/
theorem toLower_of_not_alpha {c : Char} (hc : c.isAlpha = false) : c.toLower = c := by
  obtain ⟨hupper, -⟩ := Bool.or_eq_false_iff.mp hc
  exact Char.toLower_eq_of_not_isUpper (by rw [hupper]; decide)

/-- No two characters but letters have the same lower case. -/
theorem toLower_eq_iff {p c : Char} (hp : p.isAlpha = false) : c.toLower = p.toLower ↔ c = p := by
  constructor
  · intro h
    have hc : c.isAlpha = false := by
      rw [← Char.isAlpha_toLower_eq_isAlpha, h, Char.isAlpha_toLower_eq_isAlpha, hp]
    rw [← toLower_of_not_alpha hc, h, toLower_of_not_alpha hp]
  · rintro rfl
    rfl

/-- A character of a pattern that is no letter and no wildcard matches itself
only. -/
theorem likeChars_literal {p : Char} (hp : p.isAlpha = false) (hpercent : p ≠ '%') (hone : p ≠ '_')
    (ps text : List Char) :
    likeChars (p :: ps) text = true ↔ ∃ cs, text = p :: cs ∧ likeChars ps cs = true := by
  have hchar : ∀ c, likeChar p c = true ↔ c = p := by
    intro c
    rw [← toLower_eq_iff hp]
    simp [likeChar, hone, eq_comm]
  rw [likeChars_cons hpercent]
  constructor
  · rintro ⟨c, cs, rfl, hc, hrest⟩
    exact ⟨cs, by rw [(hchar c).mp hc], hrest⟩
  · rintro ⟨cs, rfl, hrest⟩
    exact ⟨p, cs, rfl, (hchar p).mpr rfl, hrest⟩

/-- A percent sign matches every text. -/
theorem likeChars_any (text : List Char) : likeChars ['%'] text = true :=
  (likeChars_percent _ _).mpr ⟨text, [], (List.append_nil text).symm, (likeChars_nil _).mpr rfl⟩

/-- Without wildcards, a pattern matches up to the case of ASCII letters. -/
theorem likeChars_plain {ps : List Char} (hplain : NoWildcard ps) (text : List Char) :
    likeChars ps text = true ↔ folded text = folded ps := by
  induction ps generalizing text with
  | nil =>
    rw [likeChars_nil]
    exact List.map_eq_nil_iff.symm
  | cons p ps ih =>
    have hpercent : p ≠ '%' := fun heq => hplain.1 (heq ▸ List.mem_cons_self)
    have hone : p ≠ '_' := fun heq => hplain.2 (heq ▸ List.mem_cons_self)
    rw [likeChars_cons hpercent]
    cases text with
    | nil => simp [folded]
    | cons c cs =>
      have hchar : likeChar p c = true ↔ c.toLower = p.toLower := by
        simp [likeChar, hone, eq_comm]
      constructor
      · rintro ⟨c', cs', heq, hp, hrest⟩
        obtain ⟨rfl, rfl⟩ := List.cons.inj heq
        exact congrArg₂ List.cons (hchar.mp hp) ((ih hplain.tail _).mp hrest)
      · intro h
        obtain ⟨hp, hrest⟩ := List.cons.inj h
        exact ⟨c, cs, rfl, hchar.mpr hp, (ih hplain.tail _).mpr hrest⟩

/-- Every pattern matches itself, its wildcards included. -/
theorem likeChars_self (ps : List Char) : likeChars ps ps = true := by
  induction ps with
  | nil => rfl
  | cons p ps ih =>
    by_cases hp : p = '%'
    · subst hp
      exact (likeChars_percent ps _).mpr ⟨['%'], ps, rfl, ih⟩
    · refine (likeChars_cons hp ps _).mpr ⟨p, ps, rfl, ?_, ih⟩
      simp [likeChar]

/-- Patterns that differ in the case of letters match the same texts. -/
theorem likeChars_folded {ps qs : List Char} (h : folded ps = folded qs) (text : List Char) :
    likeChars ps text = likeChars qs text := by
  induction ps generalizing qs text with
  | nil =>
    obtain rfl : qs = [] := List.map_eq_nil_iff.mp h.symm
    rfl
  | cons p ps ih =>
    cases qs with
    | nil => cases h
    | cons q qs =>
      obtain ⟨hpq, hrest⟩ := List.cons.inj h
      have hsame : ∀ c : Char, c.isAlpha = false → (p = c ↔ q = c) := by
        intro c hc
        rw [← toLower_eq_iff hc, ← toLower_eq_iff hc]
        exact Eq.congr_left hpq
      rw [likeChars_step, likeChars_step]
      by_cases hp : p = '%'
      · rw [if_pos hp, if_pos ((hsame '%' (by decide)).mp hp)]
        exact congrArg _ (funext fun text => ih hrest text)
      · rw [if_neg hp, if_neg fun hq => hp ((hsame '%' (by decide)).mpr hq)]
        cases text with
        | nil => rfl
        | cons c cs =>
          have hchar : likeChar p c = likeChar q c := by
            unfold likeChar
            have hone : decide (p = '_') = decide (q = '_') :=
              decide_eq_decide.mpr (hsame '_' (by decide))
            rw [hone, show p.toLower = q.toLower from hpq]
          simp only [hchar, ih hrest cs]

/-! ## What is read -/

/-- A character that is read as an ASCII character is that character. -/
theorem readChar_eq_iff {c d : Char} (hd : d ≠ Char.ofNat 0xFFFD) (hne : d ≠ Char.ofNat 0xFFFE)
    (hnf : d ≠ Char.ofNat 0xFFFF) : readChar c = d ↔ c = d := by
  unfold readChar
  split
  · next h =>
    refine ⟨fun heq => absurd heq.symm hd, ?_⟩
    rintro rfl
    rcases h with rfl | rfl
    · exact absurd rfl hne
    · exact absurd rfl hnf
  · rfl

/-- A text with a NUL is read up to there, whatever follows. -/
theorem readText_of_nul_mem {a : List Char} (h : nul ∈ a) (b : List Char) :
    readText (a ++ b) = readText a := by
  unfold readText
  rw [List.takeWhile_append, if_neg]
  intro hlength
  have hall : a.takeWhile (· ≠ nul) = a :=
    List.Sublist.eq_of_length (List.takeWhile_sublist _) hlength
  have hne := List.takeWhile_eq_self_iff.mp hall nul h
  simp at hne

/-- A text without a NUL is read to its end. -/
theorem readText_of_nul_not_mem {a : List Char} (h : nul ∉ a) : readText a = a.map readChar := by
  unfold readText
  rw [List.takeWhile_eq_self_iff.mpr]
  intro c hc
  exact decide_eq_true fun heq => h (heq ▸ hc)

/-- A text is read up to its first NUL. -/
theorem readText_append {a : List Char} (h : nul ∉ a) (b : List Char) :
    readText (a ++ b) = readText a ++ readText b := by
  unfold readText
  have hall : a.takeWhile (· ≠ nul) = a := by
    rw [List.takeWhile_eq_self_iff]
    intro c hc
    exact decide_eq_true fun heq => h (heq ▸ hc)
  rw [List.takeWhile_append, if_pos (by rw [hall]), hall, List.map_append]

/-- A letter is read as it is. -/
theorem readChar_of_alpha {c : Char} (hc : c.isAlpha = true) : readChar c = c := by
  unfold readChar
  rw [if_neg]
  rintro (rfl | rfl) <;> exact absurd hc (by decide)

/-- An ASCII character is read as it is. -/
theorem readChar_of_ascii {c : Char} (hc : c.toNat < 128) : readChar c = c := by
  unfold readChar
  rw [if_neg]
  rintro (rfl | rfl) <;> exact absurd hc (by decide)

/-- Reading a character and lowering its case can be done in either order. -/
theorem readChar_toLower (c : Char) : (readChar c).toLower = readChar c.toLower := by
  by_cases hc : c.isAlpha = true
  · have hlower : c.toLower.isAlpha = true := by rw [Char.isAlpha_toLower_eq_isAlpha, hc]
    rw [readChar_of_alpha hc, readChar_of_alpha hlower]
  · have hother := Bool.not_eq_true _ ▸ hc
    rw [toLower_of_not_alpha hother]
    unfold readChar
    split
    · decide
    · exact toLower_of_not_alpha hother

/-- What is read of a text in lower case is what is read of it, in lower case. -/
theorem folded_readText (text : List Char) : folded (readText text) = readText (folded text) := by
  have hend : ∀ c : Char, decide (c.toLower ≠ nul) = decide (c ≠ nul) := fun c =>
    decide_eq_decide.mpr (toLower_eq_iff (by decide : nul.isAlpha = false)).not
  have hsame : Char.toLower ∘ readChar = readChar ∘ Char.toLower := funext readChar_toLower
  unfold folded readText
  rw [List.takeWhile_map, List.map_map, List.map_map, hsame]
  congr 2
  funext c
  exact (hend c).symm

/-- Reading keeps a match. -/
theorem likeChars_read {ps text : List Char} (h : likeChars ps text = true) :
    likeChars (ps.map readChar) (text.map readChar) = true := by
  have hpercent : ∀ c, readChar c = '%' ↔ c = '%' :=
    fun c => readChar_eq_iff (by decide) (by decide) (by decide)
  induction ps generalizing text with
  | nil =>
    rw [(likeChars_nil text).mp h]
    rfl
  | cons p ps ih =>
    rw [List.map_cons]
    by_cases hp : p = '%'
    · subst hp
      obtain ⟨a, b, rfl, hrest⟩ := (likeChars_percent _ _).mp h
      rw [(hpercent _).mpr rfl, likeChars_percent]
      exact ⟨a.map readChar, b.map readChar, List.map_append, ih hrest⟩
    · obtain ⟨c, cs, rfl, hchar, hrest⟩ := (likeChars_cons hp _ _).mp h
      rw [likeChars_cons (fun heq => hp ((hpercent p).mp heq))]
      refine ⟨readChar c, cs.map readChar, rfl, ?_, ih hrest⟩
      unfold likeChar at hchar ⊢
      rw [Bool.or_eq_true, decide_eq_true_eq, decide_eq_true_eq] at hchar ⊢
      rcases hchar with rfl | hsame
      · exact .inl (by decide)
      · refine .inr ?_
        by_cases halpha : p.isAlpha = true
        · have hc : c.isAlpha = true := by
            rw [← Char.isAlpha_toLower_eq_isAlpha, ← hsame, Char.isAlpha_toLower_eq_isAlpha, halpha]
          rw [readChar_of_alpha halpha, readChar_of_alpha hc, hsame]
        · rw [(toLower_eq_iff (Bool.not_eq_true _ ▸ halpha)).mp hsame.symm]

/-- A character that no wildcard stands for must be in the text. -/
theorem mem_of_likeChars {ps text : List Char} (h : likeChars ps text = true) {d : Char}
    (hd : d ∈ ps) (hletter : d.isAlpha = false) (hpercent : d ≠ '%') (hone : d ≠ '_') :
    d ∈ text := by
  obtain ⟨before, after, rfl⟩ := List.append_of_mem hd
  obtain ⟨a, b, rfl, -, hb⟩ := (likeChars_append _ _ _).mp h
  obtain ⟨cs, rfl, -⟩ := (likeChars_literal hletter hpercent hone _ _).mp hb
  simp

end PunkgoKernel
