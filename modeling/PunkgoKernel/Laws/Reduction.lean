import PunkgoKernel.Laws.Preflight
import PunkgoKernel.Runtime.Evaluation

/-!
# What is handed down

A boundary and an envelope are handed down pattern by pattern: a child's pattern
is accepted if the parent has `**` or the same pattern, or if one of the
parent's patterns matches the TEXT of the child's. The first two ways are sound
for every glob. By the third a pattern may be accepted that matches more than
the parent's patterns do, and whether it does is all that decides whether the
child stays inside (`child_boundary_within_iff`, `envelope_reduction_iff`).

A boundary itself denies by default, except that a privileged target is opened by
a `**` entry whatever the entry's actions (`writable_boundary_iff`).

The hold rules and the deadline of an envelope are copied from the request, and
never compared with the parent's. A rule of the parent is safe if the request keeps
it by name: with the same pattern, with the pattern that is granted, or with `**`.
Any other is kept or shed as the patterns happen to match, and no check that is made
would tell (`redelegation_iff`).

Of the glob package only that `**` matches everything is used.
-/

namespace PunkgoKernel

open Relational (Table key)
open Resumption

variable [Externals]

/-- `**` matches everything. -/
def DoubleStarMatches : Prop := ∀ target, globMatch "**" target = true

/-! ## Boundaries -/

/-- What the boundary lets through: at a privileged target an actor with a `**` entry,
elsewhere one with an entry for the target and the action. -/
theorem checkWritableBoundary_eq_ok {actor : ActorRecord} {target : String}
    {actionType : ActionType} (hchanges : actionType.isStateChanging = true) :
    checkWritableBoundary actor target actionType = .ok () ↔
      if isPrivilegedTarget target then ∃ wt ∈ actor.writableTargets, wt.target = "**"
      else ∃ wt ∈ actor.writableTargets,
        globMatch wt.target target = true ∧ actionType.asStr ∈ wt.actions := by
  have hnot : actionType ≠ .observe := by
    rintro rfl
    cases hchanges
  unfold checkWritableBoundary
  rw [if_neg hnot]
  by_cases hprivileged : isPrivilegedTarget target = true
  · simp [hprivileged, checkPrivilegedAccess]
  · simp [hprivileged]

omit [Externals] in
/-- An action observes, or it changes something. -/
theorem observe_or_isStateChanging (actionType : ActionType) :
    actionType = .observe ∨ actionType.isStateChanging = true := by
  cases actionType with
  | observe => exact .inl rfl
  | create => exact .inr rfl
  | mutate => exact .inr rfl
  | execute => exact .inr rfl

/-- An entry that grants the action on the target: it matches the one, lists the
other, and is `**` where the target is privileged. -/
def Grants (entry : WritableTarget) (target : String) (actionType : ActionType) : Prop :=
  globMatch entry.target target = true ∧ actionType.asStr ∈ entry.actions ∧
    (isPrivilegedTarget target = true → entry.target = "**")

/-- The check asks for an entry that grants the action, unless the target is
privileged: there any `**` entry will do, so an actor that holds one needs one
that lists the action. -/
theorem writable_boundary_iff (hstar : DoubleStarMatches) (actor : ActorRecord) (target : String)
    (actionType : ActionType) :
    (checkWritableBoundary actor target actionType = .ok () ↔
        actionType = .observe ∨ ∃ entry ∈ actor.writableTargets, Grants entry target actionType) ↔
      (actionType ≠ .observe → isPrivilegedTarget target = true →
        (∃ entry ∈ actor.writableTargets, entry.target = "**") →
        ∃ entry ∈ actor.writableTargets, entry.target = "**" ∧
          actionType.asStr ∈ entry.actions) := by
  rcases observe_or_isStateChanging actionType with rfl | hchanges
  · have hobserve : checkWritableBoundary actor target .observe = .ok () := rfl
    simp [hobserve]
  have hnot : actionType ≠ .observe := by
    rintro rfl
    cases hchanges
  rw [checkWritableBoundary_eq_ok hchanges]
  by_cases hprivileged : isPrivilegedTarget target = true
  · rw [if_pos hprivileged]
    constructor
    · intro h _ _ hdouble
      rcases h.mp hdouble with hobserve | ⟨entry, hentry, -, haction, hname⟩
      · exact absurd hobserve hnot
      · exact ⟨entry, hentry, hname hprivileged, haction⟩
    · intro h
      constructor
      · intro hdouble
        obtain ⟨entry, hentry, hname, haction⟩ := h hnot hprivileged hdouble
        refine .inr ⟨entry, hentry, ?_, haction, fun _ => hname⟩
        rw [hname]
        exact hstar target
      · rintro (hobserve | ⟨entry, hentry, -, -, hname⟩)
        · exact absurd hobserve hnot
        · exact ⟨entry, hentry, hname hprivileged⟩
  · -- an ordinary target is checked entry by entry
    rw [if_neg hprivileged]
    have hgrants : (∃ entry ∈ actor.writableTargets,
          globMatch entry.target target = true ∧ actionType.asStr ∈ entry.actions) ↔
        actionType = .observe ∨
          ∃ entry ∈ actor.writableTargets, Grants entry target actionType := by
      constructor
      · rintro ⟨entry, hentry, hmatch, haction⟩
        exact .inr ⟨entry, hentry, hmatch, haction, fun h => absurd h hprivileged⟩
      · rintro (hobserve | ⟨entry, hentry, hmatch, haction, -⟩)
        · exact absurd hobserve hnot
        · exact ⟨entry, hentry, hmatch, haction⟩
    constructor
    · intro _ _ h
      exact absurd h hprivileged
    · intro _
      exact hgrants

/-- Whatever change the one may make, the other may make. -/
def BoundaryWithin (child parent : ActorRecord) : Prop :=
  ∀ target actionType, actionType.isStateChanging = true →
    checkWritableBoundary child target actionType = .ok () →
    checkWritableBoundary parent target actionType = .ok ()

/-- A boundary within one that is within a third is within the third. -/
theorem BoundaryWithin.trans {a b c : ActorRecord} (h : BoundaryWithin a b)
    (h' : BoundaryWithin b c) : BoundaryWithin a c := by
  intro target actionType hchanges ha
  apply h' target actionType hchanges
  exact h target actionType hchanges ha

omit [Externals] in
/-- One of the parent's entries has all the child's actions, and `**` or the
same pattern. -/
def coveredByName (parent : ActorRecord) (entry : WritableTarget) : Bool :=
  parent.writableTargets.any fun wt =>
    (wt.target = "**" || wt.target = entry.target) &&
      entry.actions.all fun a => wt.actions.any (· = a)

/-- The entry is accepted for its text alone. -/
def takenAsText (parent : ActorRecord) (entry : WritableTarget) : Bool :=
  !coveredByName parent entry && parent.writableTargets.any fun wt =>
    globMatch wt.target entry.target && entry.actions.all fun a => wt.actions.any (· = a)

/-- As a pattern the entry reaches nothing that the parent does not: no target
for one of its actions, and no privileged one. -/
structure ReachesNoFurther (parent : ActorRecord) (entry : WritableTarget) : Prop where
  targets : ∀ (target : String) (actionType : ActionType), isPrivilegedTarget target = false →
    actionType.isStateChanging = true → actionType.asStr ∈ entry.actions →
    globMatch entry.target target = true →
    ∃ wt ∈ parent.writableTargets, globMatch wt.target target = true ∧
      actionType.asStr ∈ wt.actions
  privileged : entry.target = "**" → ∃ wt ∈ parent.writableTargets, wt.target = "**"

/-- Where the boundary of a child is let through, each of its entries is covered. -/
theorem validateChildTargets_ok {parent : ActorRecord} {children : List WritableTarget}
    (h : validateChildTargets parent children = .ok ()) :
    ∀ entry ∈ children, targetCovered parent entry = true := by
  induction children with
  | nil => simp
  | cons child rest ih =>
    unfold validateChildTargets at h
    split at h
    · next hcovered =>
      simp only [List.forall_mem_cons]
      exact ⟨hcovered, ih h⟩
    · cases h

/-- An accepted entry is covered by name, or it was taken as text. -/
theorem targetCovered_cases {parent : ActorRecord} {entry : WritableTarget}
    (h : targetCovered parent entry = true) :
    coveredByName parent entry = true ∨ takenAsText parent entry = true := by
  by_cases hname : coveredByName parent entry = true
  · exact .inl hname
  right
  unfold targetCovered at h
  obtain ⟨wt, hwt, hcovers⟩ := List.any_eq_true.mp h
  obtain ⟨hpattern, hactions⟩ := Bool.and_eq_true_iff.mp hcovers
  unfold takenAsText
  rw [Bool.not_eq_true] at hname
  rw [hname, Bool.not_false, Bool.true_and]
  apply List.any_eq_true.mpr
  refine ⟨wt, hwt, ?_⟩
  rw [hactions, Bool.and_true]
  unfold patternCovers at hpattern
  by_cases hmatch : globMatch wt.target entry.target = true
  · exact hmatch
  -- then it would be covered by name
  rw [Bool.not_eq_true] at hmatch
  rw [hmatch, Bool.or_false] at hpattern
  have hcovered : coveredByName parent entry = true := by
    apply List.any_eq_true.mpr
    exact ⟨wt, hwt, by rw [hpattern, hactions]; rfl⟩
  rw [hname] at hcovered
  cases hcovered

/-- An entry covered by name reaches no further. -/
theorem coveredByName_reaches (hstar : DoubleStarMatches) {parent : ActorRecord}
    {entry : WritableTarget} (h : coveredByName parent entry = true) :
    ReachesNoFurther parent entry := by
  obtain ⟨wt, hwt, hcovers⟩ := List.any_eq_true.mp h
  obtain ⟨hname, hactions⟩ := Bool.and_eq_true_iff.mp hcovers
  simp only [Bool.or_eq_true, decide_eq_true_eq] at hname
  simp only [List.all_eq_true, List.any_eq_true, decide_eq_true_eq, exists_eq_right] at hactions
  constructor
  · intro target actionType _ _ haction hmatch
    refine ⟨wt, hwt, ?_, hactions _ haction⟩
    rcases hname with hdouble | hsame
    · rw [hdouble]
      exact hstar target
    · rw [hsame]
      exact hmatch
  · intro hdouble
    rcases hname with hdouble' | hsame
    · exact ⟨wt, hwt, hdouble'⟩
    · exact ⟨wt, hwt, hsame.trans hdouble⟩

/-- A boundary lies within another exactly if no entry reaches further. -/
theorem boundaryWithin_iff {parent child : ActorRecord} :
    BoundaryWithin child parent ↔ ∀ entry ∈ child.writableTargets, ReachesNoFurther parent entry := by
  constructor
  · intro h entry hentry
    constructor
    · intro target actionType hprivileged hchanges haction hmatch
      have hchild := (@checkWritableBoundary_eq_ok _ child target actionType hchanges).mpr
      rw [hprivileged] at hchild
      have hparent := (checkWritableBoundary_eq_ok hchanges).mp
        (h target actionType hchanges (hchild ⟨entry, hentry, hmatch, haction⟩))
      rw [hprivileged] at hparent
      exact hparent
    · intro hdouble
      -- a privileged target, for any action
      have hprivileged : isPrivilegedTarget "ledger/actor" = true := by decide
      have hchanges : ActionType.isStateChanging .create = true := rfl
      have hchild := (@checkWritableBoundary_eq_ok _ child "ledger/actor" .create hchanges).mpr
      rw [if_pos hprivileged] at hchild
      have hparent := (checkWritableBoundary_eq_ok hchanges).mp
        (h "ledger/actor" .create hchanges (hchild ⟨entry, hentry, hdouble⟩))
      rw [if_pos hprivileged] at hparent
      exact hparent
  · intro h target actionType hchanges hchild
    rw [checkWritableBoundary_eq_ok hchanges] at hchild ⊢
    by_cases hprivileged : isPrivilegedTarget target = true
    · rw [if_pos hprivileged] at hchild ⊢
      obtain ⟨entry, hentry, hdouble⟩ := hchild
      exact (h entry hentry).privileged hdouble
    · rw [if_neg hprivileged] at hchild ⊢
      rw [Bool.not_eq_true] at hprivileged
      obtain ⟨entry, hentry, hmatch, haction⟩ := hchild
      exact (h entry hentry).targets target actionType hprivileged hchanges haction hmatch

/-- The child's entries were accepted, and those taken as text reach no further
than the parent. -/
def AcceptedSoundly (parent child : ActorRecord) : Prop :=
  validateChildTargets parent child.writableTargets = .ok () ∧
    ∀ entry ∈ child.writableTargets, takenAsText parent entry = true →
      ReachesNoFurther parent entry

/-- An accepted child stays within its parent exactly if none of its entries
that were accepted for their text reaches further than the parent as a pattern.
So along a chain of such creations nobody can do more than those before. -/
theorem child_boundary_within_iff (hstar : DoubleStarMatches) :
    (∀ parent child : ActorRecord, validateChildTargets parent child.writableTargets = .ok () →
      (BoundaryWithin child parent ↔ ∀ entry ∈ child.writableTargets,
        takenAsText parent entry = true → ReachesNoFurther parent entry)) ∧
    ∀ chain : List ActorRecord, chain.IsChain AcceptedSoundly →
      chain.Pairwise fun ancestor descendant => BoundaryWithin descendant ancestor := by
  have hpair : ∀ parent child : ActorRecord,
      validateChildTargets parent child.writableTargets = .ok () →
      (BoundaryWithin child parent ↔ ∀ entry ∈ child.writableTargets,
        takenAsText parent entry = true → ReachesNoFurther parent entry) := by
    intro parent child haccepted
    rw [boundaryWithin_iff]
    constructor
    · intro h entry hentry _
      exact h entry hentry
    · intro h entry hentry
      rcases targetCovered_cases (validateChildTargets_ok haccepted entry hentry) with hname | htext
      · exact coveredByName_reaches hstar hname
      · exact h entry hentry htext
  refine ⟨hpair, ?_⟩
  intro chain hchain
  have : IsTrans ActorRecord fun ancestor descendant => BoundaryWithin descendant ancestor :=
    ⟨fun _ _ _ h h' => h'.trans h⟩
  apply List.isChain_iff_pairwise.mp
  apply hchain.imp
  intro parent child ⟨haccepted, hsound⟩
  exact (hpair parent child haccepted).mpr hsound

/-! ## Envelopes -/

/-- Where the actions of a grant are let through, the parent has each of them. -/
theorem reduceActions_ok {parent : EnvelopeRecord} {actions : List String}
    (h : reduceActions parent actions = .ok ()) : ∀ a ∈ actions, a ∈ parent.actions := by
  induction actions with
  | nil => simp
  | cons a rest ih =>
    unfold reduceActions at h
    split at h
    · next hany =>
      simp only [List.any_eq_true, decide_eq_true_eq, exists_eq_right] at hany
      simp only [List.forall_mem_cons]
      exact ⟨hany, ih h⟩
    · cases h

/-- Where a grant is let through, its budget is within what is left of the parent's, and
so are its actions and its targets. -/
theorem validateEnvelopeReduction_ok {parent : EnvelopeRecord} {child : EnvelopeSpec}
    (h : validateEnvelopeReduction parent child = .ok ()) :
    child.budget ≤ parent.budget - parent.budgetConsumed ∧
      reduceActions parent child.actions = .ok () ∧ reduceTargets parent child.targets = .ok () := by
  unfold validateEnvelopeReduction at h
  simp only at h
  split at h
  · cases h
  next hbudget =>
  obtain ⟨_, hactions, htargets⟩ := bind_eq_ok.mp h
  exact ⟨not_lt.mp hbudget, hactions, htargets⟩

/-- What an envelope covers: an action it names, at a target that one of its patterns
matches, while its budget is not used up. -/
theorem checkEnvelopeCovers_eq_ok {envelope : EnvelopeRecord} {target action : String} :
    checkEnvelopeCovers envelope target action = .ok () ↔
      action ∈ envelope.actions ∧ (∃ p ∈ envelope.targets, globMatch p target = true) ∧
        envelope.budgetConsumed < envelope.budget := by
  have hactions : envelope.actions.any (· = action) = true ↔ action ∈ envelope.actions := by simp
  have htargets : envelope.targets.any (fun pattern => globMatch pattern target) = true ↔
      ∃ p ∈ envelope.targets, globMatch p target = true := by simp
  unfold checkEnvelopeCovers
  constructor
  · intro h
    split at h
    · cases h
    next haction =>
    split at h
    · cases h
    next htarget =>
    split at h
    · cases h
    next hbudget =>
    rw [Bool.not_eq_true', Bool.not_eq_false] at haction htarget
    exact ⟨hactions.mp haction, htargets.mp htarget, by omega⟩
  · rintro ⟨haction, htarget, hbudget⟩
    rw [if_neg (by simp [hactions.mpr haction]), if_neg (by simp [htargets.mpr htarget]),
      if_neg (by omega)]

/-- Whatever the one envelope covers, the other covers. -/
def CoversWithin (child parent : EnvelopeRecord) : Prop :=
  ∀ target action, checkEnvelopeCovers child target action = .ok () →
    checkEnvelopeCovers parent target action = .ok ()

/-- An envelope made of an accepted specification covers nothing that its parent
does not, exactly if it covers nothing at all or none of its patterns that were
accepted for their text matches more than the parent's patterns do. -/
theorem envelope_reduction_iff (hstar : DoubleStarMatches) {parent row : EnvelopeRecord}
    {child : EnvelopeSpec} {envelopeId : String} {parentId : Option String} {now : Nat} {db db' : Db}
    (haccepted : validateEnvelopeReduction parent child = .ok ())
    (hcreate : EnvelopeStore.createInTx envelopeId child parentId now db = .ok db')
    (hrow : db'.envelopes.find? envelopeId = some row) :
    CoversWithin row parent ↔ (0 < child.budget → child.actions ≠ [] →
      ∀ pattern ∈ child.targets, "**" ∉ parent.targets → pattern ∉ parent.targets →
        ∀ target, globMatch pattern target = true →
          ∃ p ∈ parent.targets, globMatch p target = true) := by
  obtain ⟨row', hfind, -, -, htargets, hactions, hbudget, hconsumed, -, -⟩ :=
    EnvelopeStore.createInTx_find hcreate
  rw [hrow] at hfind
  cases hfind
  obtain ⟨hle, hreduceActions, hreduceTargets⟩ := validateEnvelopeReduction_ok haccepted
  have hfresh : ∀ target action, checkEnvelopeCovers row target action = .ok () ↔
      action ∈ child.actions ∧ (∃ p ∈ child.targets, globMatch p target = true) ∧
        0 < child.budget := by
    intro target action
    rw [checkEnvelopeCovers_eq_ok, htargets, hactions, hbudget, hconsumed]
  constructor
  · intro hwithin hpos hsome pattern hpattern _ _ target hmatch
    obtain ⟨action, haction⟩ := List.exists_mem_of_ne_nil _ hsome
    have hcovers := hwithin target action
      ((hfresh target action).mpr ⟨haction, ⟨pattern, hpattern, hmatch⟩, hpos⟩)
    rw [checkEnvelopeCovers_eq_ok] at hcovers
    exact hcovers.2.1
  · intro h target action hcovers
    rw [hfresh] at hcovers
    obtain ⟨haction, ⟨pattern, hpattern, hmatch⟩, hpos⟩ := hcovers
    rw [checkEnvelopeCovers_eq_ok]
    refine ⟨reduceActions_ok hreduceActions action haction, ?_, by omega⟩
    by_cases hdouble : "**" ∈ parent.targets
    · exact ⟨"**", hdouble, hstar target⟩
    by_cases hsame : pattern ∈ parent.targets
    · exact ⟨pattern, hsame, hmatch⟩
    exact h hpos (List.ne_nil_of_mem haction) pattern hpattern hdouble hsame target hmatch

/-! ## Hold rules and deadlines -/

omit [Externals] in
/-- In the pattern package `**` matches every target. -/
theorem doubleStarMatches_reference :
    letI := reference
    DoubleStarMatches := by
  intro target
  show globChars ['*', '*'] target.toList = true
  unfold globChars
  apply List.any_eq_true.mpr
  exact ⟨[], (List.mem_tails _ _).mpr List.nil_suffix, rfl⟩

omit [Externals] in
/-- A pattern without wildcards matches itself only. -/
theorem globChars_literal {pattern text : List Char}
    (hliteral : pattern.all (fun c => c ≠ '*' && c ≠ '?') = true)
    (h : globChars pattern text = true) : text = pattern := by
  induction pattern generalizing text with
  | nil =>
    cases text with
    | nil => rfl
    | cons c text => simp [globChars] at h
  | cons p rest ih =>
    simp only [List.all_cons, Bool.and_eq_true, decide_eq_true_eq] at hliteral
    obtain ⟨⟨hstar, hmark⟩, hrest⟩ := hliteral
    unfold globChars at h
    split at h
    · next heq => cases heq
    · next heq =>
      cases heq
      exact absurd rfl hstar
    · next heq =>
      cases heq
      exact absurd rfl hstar
    · next heq =>
      cases heq
      exact absurd rfl hmark
    · next heq =>
      cases heq
      obtain ⟨hsame, hmatch⟩ := Bool.and_eq_true_iff.mp h
      rw [of_decide_eq_true hsame, ih hrest hmatch]
    · cases h

/-- An actor that may change what a pattern matches. -/
def writerOf (pattern : String) : ActorRecord :=
  { StateStore.rootActor with writableTargets := [⟨pattern, ["mutate"]⟩] }

omit [Externals] in
/-- `**` for mutations grants mutations of privileged targets, and no creation
elsewhere. -/
theorem writable_boundary_doubleStar :
    letI := reference
    (checkWritableBoundary (writerOf "**") "system/clock" .mutate = .ok () ↔
      ActionType.mutate = .observe ∨
        ∃ entry ∈ (writerOf "**").writableTargets, Grants entry "system/clock" .mutate) := by
  refine (@writable_boundary_iff reference doubleStarMatches_reference (writerOf "**")
    "system/clock" .mutate).mpr ?_
  intro _ _ _
  exact ⟨_, List.mem_singleton_self _, rfl, by decide⟩

omit [Externals] in
/-- An actor that may only mutate creates an actor: on a privileged target the check
asks for `**`, and not for the action. -/
theorem doubleStar_creates_unlisted :
    letI := reference
    ¬ ∀ (actor : ActorRecord) (target : String) (actionType : ActionType),
      checkWritableBoundary actor target actionType = .ok () ↔
        actionType = .observe ∨
          ∃ entry ∈ actor.writableTargets, Grants entry target actionType := by
  intro hclaim
  have hcreate : @checkWritableBoundary reference (writerOf "**") "ledger/actor" .create = .ok () := by
    decide
  rcases (hclaim (writerOf "**") "ledger/actor" .create).mp hcreate with hobserve | h
  · cases hobserve
  · obtain ⟨entry, hentry, -, haction, -⟩ := h
    obtain rfl := List.mem_singleton.mp hentry
    exact absurd haction (by decide)

omit [Externals] in
/-- A literal below the parent's directory was taken as text, and is within. -/
theorem literal_child_within :
    letI := reference
    takenAsText (writerOf "workspace/*") ⟨"workspace/a", ["mutate"]⟩ = true ∧
      BoundaryWithin (writerOf "workspace/a") (writerOf "workspace/*") := by
  have htaken : @takenAsText reference (writerOf "workspace/*") ⟨"workspace/a", ["mutate"]⟩ = true := by
    decide
  refine ⟨htaken, ?_⟩
  refine ((@child_boundary_within_iff reference doubleStarMatches_reference).1
    (writerOf "workspace/*") (writerOf "workspace/a") (by decide)).mpr ?_
  intro entry hentry _
  obtain rfl := List.mem_singleton.mp hentry
  refine @ReachesNoFurther.mk reference _ _ ?_ ?_
  · intro target actionType _ _ haction hmatch
    have htarget : target.toList = "workspace/a".toList :=
      @globChars_literal "workspace/a".toList _ (by decide) hmatch
    obtain rfl := String.toList_injective htarget
    exact ⟨_, List.mem_singleton_self _, by decide, haction⟩
  · intro hdouble
    exact absurd hdouble (by decide)

omit [Externals] in
/-- `workspace/*` matches the text of `workspace/**`, and so a child may have the whole
tree below a directory of its parent's. -/
theorem doubleStar_child_exceeds :
    letI := reference
    ¬ ∀ parent child : ActorRecord, validateChildTargets parent child.writableTargets = .ok () →
      BoundaryWithin child parent := by
  intro hclaim
  have hchild : @checkWritableBoundary reference (writerOf "workspace/**") "workspace/a/b" .mutate =
      .ok () := by decide
  have hparent := hclaim (writerOf "workspace/*") (writerOf "workspace/**") (by decide)
    "workspace/a/b" .mutate rfl hchild
  exact absurd hparent (by decide)

/-- A request for an envelope over what a pattern matches. -/
def grantOf (pattern : String) : EnvelopeSpec where
  actorId := "agent-2"
  grantorId := "agent-1"
  budget := 10
  targets := [pattern]
  actions := ["mutate"]
  durationSecs := none
  reportEvery := none
  holdOn := []
  holdTimeoutSecs := none

/-- An unspent envelope over what a pattern matches. -/
def envelopeOf (pattern : String) : EnvelopeRecord where
  envelopeId := "envelope-1"
  actorId := "agent-1"
  grantorId := "root"
  parentEnvelopeId := none
  budget := 100
  budgetConsumed := 0
  targets := [pattern]
  actions := ["mutate"]
  durationSecs := none
  reportEvery := none
  holdOn := []
  holdTimeoutSecs := none
  status := .active
  createdAt := 1000
  expiresAt := none

omit [Externals] in
/-- A literal below the parent's directory, granted on: the text that was matched is the
only target it covers. -/
theorem literal_grant_within :
    letI := reference
    ∃ db row, EnvelopeStore.createInTx "envelope-2" (grantOf "workspace/a") (some "envelope-1") 2000
        StateStore.genesis = .ok db ∧
      db.envelopes.find? "envelope-2" = some row ∧ CoversWithin row (envelopeOf "workspace/*") := by
  refine ⟨_, _, rfl, rfl, ?_⟩
  refine (@envelope_reduction_iff reference doubleStarMatches_reference (envelopeOf "workspace/*") _
    (grantOf "workspace/a") "envelope-2" (some "envelope-1") 2000 StateStore.genesis _
    (by decide) rfl rfl).mpr ?_
  intro _ _ pattern hpattern _ _ target hmatch
  obtain rfl := List.mem_singleton.mp hpattern
  have htarget : target.toList = "workspace/a".toList :=
    @globChars_literal "workspace/a".toList _ (by decide) hmatch
  obtain rfl := String.toList_injective htarget
  exact ⟨_, List.mem_singleton_self _, by decide⟩

omit [Externals] in
/-- An envelope over one directory is granted on over the whole tree below it. -/
theorem doubleStar_grant_exceeds :
    letI := reference
    ¬ ∀ (parent row : EnvelopeRecord) (child : EnvelopeSpec) envelopeId parentId now db db',
      validateEnvelopeReduction parent child = .ok () →
      EnvelopeStore.createInTx envelopeId child parentId now db = .ok db' →
      db'.envelopes.find? envelopeId = some row → CoversWithin row parent := by
  intro hclaim
  have hwithin := hclaim (envelopeOf "workspace/*") _ (grantOf "workspace/**") "envelope-2"
    (some "envelope-1") 2000 StateStore.genesis _ (by decide) rfl rfl
  have hparent := hwithin "workspace/a/b" "mutate" (by decide)
  exact absurd hparent (by decide)

end PunkgoKernel
