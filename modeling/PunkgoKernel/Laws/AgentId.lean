import Mathlib.Data.List.Chain
import Mathlib.Data.List.DropRight
import PunkgoKernel.Core.Actor

/-!
# Derived actor ids

A derived id is its creator, what stands for its purpose, and a number, with
slashes between. A creator may have slashes of its own, so an id is read from
its end: neither a number nor a sanitised purpose (`Sanitized`) has one. With
that the parts of an id are determined by it (`deriveAgentId_unambiguous`).
-/

namespace PunkgoKernel

/-! ## Sanitised purposes -/

/-- Lower-case ASCII letters and digits, with single hyphens between them. -/
structure Sanitized (cs : List Char) : Prop where
  alphabet : ∀ c ∈ cs, (c.isLower || c.isDigit) = true ∨ c = '-'
  single : cs.IsChain fun a b => a = '-' → b ≠ '-'
  first : cs.head? ≠ some '-'
  last : cs.getLast? ≠ some '-'

/-- What stands for one character of a purpose. -/
def sanitizeChar (c : Char) : Char :=
  if (c.isAlpha || c.isDigit) || c = '-' then c.toLower else '-'

/-- A digit is no upper-case letter. -/
theorem not_isUpper_of_isDigit {c : Char} (h : c.isDigit = true) : ¬ c.isUpper = true := by
  revert h
  simp [Char.isDigit, Char.isUpper, UInt32.le_iff_toNat_le]
  omega

/-- What stands for a character is a lower-case letter, a digit or a hyphen. -/
theorem sanitizeChar_alphabet (c : Char) :
    ((sanitizeChar c).isLower || (sanitizeChar c).isDigit) = true ∨ sanitizeChar c = '-' := by
  unfold sanitizeChar
  split
  · next hkept =>
    by_cases hhyphen : c = '-'
    · subst hhyphen
      exact .inr rfl
    · have hword : c.isAlpha = true ∨ c.isDigit = true := by
        simpa [hhyphen] using hkept
      rcases hword with halpha | hdigit
      · exact .inl (by rw [Char.isLower_toLower_eq_isAlpha, halpha, Bool.true_or])
      · have hsame := Char.toLower_eq_of_not_isUpper (not_isUpper_of_isDigit hdigit)
        exact .inl (by rw [hsame, hdigit, Bool.or_true])
  · exact .inr rfl

/-- A lower-case letter, a digit or a hyphen stands for itself. -/
theorem sanitizeChar_of_alphabet {c : Char} (h : (c.isLower || c.isDigit) = true ∨ c = '-') :
    sanitizeChar c = c := by
  rcases h with hword | rfl
  · have hupper : ¬ c.isUpper = true := by
      intro hupper
      rcases Bool.or_eq_true_iff.mp hword with hlower | hdigit
      · exact Char.not_isUpper_of_isLower hlower hupper
      · exact not_isUpper_of_isDigit hdigit hupper
    have hkept : ((c.isAlpha || c.isDigit) || decide (c = '-')) = true := by
      rcases Bool.or_eq_true_iff.mp hword with hlower | hdigit
      · simp [Char.isAlpha, hlower]
      · simp [hdigit]
    unfold sanitizeChar
    rw [if_pos hkept, Char.toLower_eq_of_not_isUpper hupper]
  · rfl

/-! ## Runs of hyphens -/

/-- Leaving out hyphens brings in no character. -/
theorem mem_collapseHyphens {prev : Bool} {cs : List Char} {c : Char}
    (h : c ∈ collapseHyphens prev cs) : c ∈ cs := by
  induction cs generalizing prev with
  | nil => cases h
  | cons d ds ih =>
    unfold collapseHyphens at h
    split at h
    · split at h
      · exact List.mem_cons_of_mem _ (ih h)
      · rcases List.mem_cons.mp h with rfl | h
        · exact List.mem_cons_self
        · exact List.mem_cons_of_mem _ (ih h)
    · rcases List.mem_cons.mp h with rfl | h
      · exact List.mem_cons_self
      · exact List.mem_cons_of_mem _ (ih h)

/-- After a hyphen none is kept. -/
theorem head_collapseHyphens (cs : List Char) : (collapseHyphens true cs).head? ≠ some '-' := by
  induction cs with
  | nil => nofun
  | cons d ds ih =>
    unfold collapseHyphens
    split
    · rw [if_pos rfl]
      exact ih
    · next hd =>
      intro heq
      exact hd (Option.some.inj heq)

/-- Of hyphens in a row one is left. -/
theorem collapseHyphens_single (prev : Bool) (cs : List Char) :
    (collapseHyphens prev cs).IsChain fun a b => a = '-' → b ≠ '-' := by
  induction cs generalizing prev with
  | nil => exact .nil
  | cons d ds ih =>
    unfold collapseHyphens
    split
    · split
      · exact ih true
      · refine List.isChain_cons.mpr ⟨?_, ih true⟩
        intro c hc _ hhyphen
        exact head_collapseHyphens ds (hhyphen ▸ hc)
    · next hd => exact List.isChain_cons.mpr ⟨fun _ _ heq => absurd heq hd, ih false⟩

/-- What has no doubled hyphen stays. -/
theorem collapseHyphens_eq {prev : Bool} {cs : List Char}
    (hsingle : cs.IsChain fun a b => a = '-' → b ≠ '-')
    (hprev : prev = true → cs.head? ≠ some '-') : collapseHyphens prev cs = cs := by
  induction cs generalizing prev with
  | nil => rfl
  | cons d ds ih =>
    obtain ⟨hnext, hrest⟩ := List.isChain_cons.mp hsingle
    unfold collapseHyphens
    split
    · next hd =>
      subst hd
      rw [if_neg fun hp => hprev hp rfl, ih hrest fun _ heq => hnext '-' heq rfl rfl]
    · rw [ih hrest fun h => by cases h]

/-- Trimming drops the hyphens at both ends. -/
theorem trimHyphens_eq (cs : List Char) :
    trimHyphens cs = (cs.dropWhile (· = '-')).rdropWhile (· = '-') := rfl

/-- What is left by trimming is a stretch of the text. -/
theorem trimHyphens_within (cs : List Char) : trimHyphens cs <:+: cs := by
  rw [trimHyphens_eq]
  exact (List.rdropWhile_prefix _ _).isInfix.trans (List.dropWhile_suffix _).isInfix

/-- A trimmed text does not begin with a hyphen. -/
theorem head_trimHyphens (cs : List Char) : (trimHyphens cs).head? ≠ some '-' := by
  rw [trimHyphens_eq]
  intro hhead
  have hdropped : (cs.dropWhile (· = '-')).head? = some '-' := by
    obtain ⟨rest, hrest⟩ := List.rdropWhile_prefix (fun c : Char => decide (c = '-'))
      (cs.dropWhile (· = '-'))
    obtain ⟨more, hmore⟩ := List.head?_eq_some_iff.mp hhead
    rw [← hrest, hmore]
    rfl
  have hnot := List.head?_dropWhile_not (fun c : Char => decide (c = '-')) cs
  rw [hdropped] at hnot
  cases hnot

/-- A trimmed text does not end with a hyphen. -/
theorem last_trimHyphens (cs : List Char) : (trimHyphens cs).getLast? ≠ some '-' := by
  rw [trimHyphens_eq]
  intro hlast
  obtain ⟨hne, hhyphen⟩ := List.mem_getLast?_eq_getLast hlast
  exact List.rdropWhile_last_not (fun c : Char => decide (c = '-')) _ hne (hhyphen ▸ rfl)

/-- What neither begins nor ends with a hyphen stays. -/
theorem trimHyphens_of_bare {cs : List Char} (hfirst : cs.head? ≠ some '-')
    (hlast : cs.getLast? ≠ some '-') : trimHyphens cs = cs := by
  have hdrop : cs.dropWhile (· = '-') = cs := by
    cases cs with
    | nil => rfl
    | cons c rest =>
      refine List.dropWhile_cons_of_neg ?_
      rw [decide_eq_true_eq]
      rintro rfl
      exact hfirst rfl
  rw [trimHyphens_eq, hdrop, List.rdropWhile_eq_self_iff]
  intro hne hhyphen
  refine hlast ?_
  rw [List.getLast?_eq_some_getLast hne, of_decide_eq_true hhyphen]

/-! ## The normal form -/

/-- What stands for a purpose, character by character: each is sanitised, hyphens in a
row become one, and those at the ends go. -/
theorem sanitizePurpose_toList (purpose : String) :
    (sanitizePurpose purpose).toList =
      trimHyphens (collapseHyphens false (purpose.toList.map sanitizeChar)) :=
  String.toList_ofList

/-- What stands for a purpose in an id is sanitised. -/
theorem sanitized_sanitizePurpose (purpose : String) :
    Sanitized (sanitizePurpose purpose).toList := by
  rw [sanitizePurpose_toList]
  refine ⟨?_, ?_, head_trimHyphens _, last_trimHyphens _⟩
  · intro c hc
    have hmem := mem_collapseHyphens ((trimHyphens_within _).subset hc)
    obtain ⟨d, -, rfl⟩ := List.mem_map.mp hmem
    exact sanitizeChar_alphabet d
  · obtain ⟨before, after, heq⟩ :=
      trimHyphens_within (collapseHyphens false (purpose.toList.map sanitizeChar))
    have hsingle := collapseHyphens_single false (purpose.toList.map sanitizeChar)
    rw [← heq] at hsingle
    exact hsingle.left_of_append.right_of_append

/-- What is sanitised stands for itself. -/
theorem sanitizePurpose_of_sanitized {purpose : String} (h : Sanitized purpose.toList) :
    sanitizePurpose purpose = purpose := by
  have hmap : purpose.toList.map sanitizeChar = purpose.toList := by
    rw [List.map_congr_left fun c hc => sanitizeChar_of_alphabet (h.alphabet c hc)]
    exact List.map_id _
  apply String.toList_injective
  rw [sanitizePurpose_toList, hmap, collapseHyphens_eq h.single (fun hp => by cases hp),
    trimHyphens_of_bare h.first h.last]

/-- What stands for a purpose has no slash, so that a derived id can be taken apart. -/
theorem Sanitized.no_slash {cs : List Char} (h : Sanitized cs) : '/' ∉ cs := by
  intro hmem
  have hslash := h.alphabet '/' hmem
  revert hslash
  decide

/-! ## The parts of an id -/

/-- A text is read from its last separator. -/
theorem append_separator_inj {α : Type} {sep : α} {a a' b b' : List α} (hb : sep ∉ b)
    (hb' : sep ∉ b') (h : a ++ sep :: b = a' ++ sep :: b') : a = a' ∧ b = b' := by
  -- a longer beginning on one side has the separator in the other's end
  have hshort : ∀ {a as b b' : List α}, sep ∉ b → sep :: b = as ++ sep :: b' → as = [] := by
    intro a as b b' hb heq
    cases as with
    | nil => rfl
    | cons x xs =>
      obtain ⟨-, hrest⟩ := List.cons.inj heq
      exact absurd (hrest ▸ List.mem_append_right xs List.mem_cons_self) hb
  rcases List.append_eq_append_iff.mp h with ⟨as, rfl, heq⟩ | ⟨as, rfl, heq⟩
  · obtain rfl := hshort (a := a) hb heq
    exact ⟨(List.append_nil a).symm, (List.cons.inj heq).2⟩
  · obtain rfl := hshort (a := a') hb' heq
    exact ⟨List.append_nil a', (List.cons.inj heq).2.symm⟩

/-- Two numbers with the same digits are the same number. -/
theorem toString_injective {m n : Nat} (h : toString m = toString n) : m = n := by
  have hdigits : Nat.toDigits 10 m = Nat.toDigits 10 n := by
    have hchars := congrArg String.toList h
    rwa [Nat.toString_eq_repr, Nat.toString_eq_repr, Nat.toList_repr, Nat.toList_repr] at hchars
  have hread := congrArg (fun digits => Nat.ofDigitChars 10 digits 0) hdigits
  simpa using hread

/-- A number is spelled without a slash. -/
theorem toString_no_slash (n : Nat) : '/' ∉ (toString n).toList := by
  rw [Nat.toString_eq_repr, Nat.toList_repr]
  intro hmem
  have hdigit := Nat.isDigit_of_mem_toDigits (by decide) (by decide) hmem
  revert hdigit
  decide

/-- A derived id, character by character: the creator, what stands for the purpose and
the number, with slashes between. -/
theorem toList_deriveAgentId (creatorId purpose : String) (seq : Nat) :
    (deriveAgentId creatorId purpose seq).toList =
      (creatorId.toList ++ '/' :: (sanitizePurpose purpose).toList) ++ '/' ::
        (toString seq).toList := by
  have hchars : (deriveAgentId creatorId purpose seq).toList =
      (((creatorId.toList ++ ['/']) ++ (sanitizePurpose purpose).toList) ++ ['/']) ++
        (toString seq).toList := by
    unfold deriveAgentId
    simp only [String.toList_append]
    rfl
  rw [hchars]
  simp only [List.append_assoc, List.cons_append, List.nil_append]

/-- The parts of a derived id can be read from it. -/
theorem deriveAgentId_inj {c c' p p' : String} {s s' : Nat}
    (h : deriveAgentId c p s = deriveAgentId c' p' s') :
    c = c' ∧ s = s' ∧ sanitizePurpose p = sanitizePurpose p' := by
  have hchars := congrArg String.toList h
  rw [toList_deriveAgentId, toList_deriveAgentId] at hchars
  obtain ⟨hname, hseq⟩ :=
    append_separator_inj (toString_no_slash s) (toString_no_slash s') hchars
  obtain ⟨hcreator, hpurpose⟩ := append_separator_inj
    (sanitized_sanitizePurpose p).no_slash (sanitized_sanitizePurpose p').no_slash hname
  exact ⟨String.toList_injective hcreator, toString_injective (String.toList_injective hseq),
    String.toList_injective hpurpose⟩

/-- Derived ids agree exactly where their parts do, and what stands for a purpose is a
normal form: normalising it once more changes nothing. -/
theorem deriveAgentId_unambiguous :
    (∀ (c c' p p' : String) (s s' : Nat), deriveAgentId c p s = deriveAgentId c' p' s' ↔
      c = c' ∧ s = s' ∧ sanitizePurpose p = sanitizePurpose p') ∧
    ∀ p : String, sanitizePurpose (sanitizePurpose p) = sanitizePurpose p ∧
      Sanitized (sanitizePurpose p).toList := by
  refine ⟨fun c c' p p' s s' => ⟨deriveAgentId_inj, ?_⟩, fun p => ?_⟩
  · rintro ⟨rfl, rfl, hpurpose⟩
    unfold deriveAgentId
    rw [hpurpose]
  · exact ⟨sanitizePurpose_of_sanitized (sanitized_sanitizePurpose p), sanitized_sanitizePurpose p⟩

example : deriveAgentId "root" "Doc  Organizer!" 1 = "root/doc-organizer/1" := by
  decide

end PunkgoKernel
