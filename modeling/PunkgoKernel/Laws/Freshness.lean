import PunkgoKernel.Laws.AgentId
import PunkgoKernel.Laws.Commits
import PunkgoKernel.Laws.Creation
import PunkgoKernel.Laws.Failure
import PunkgoKernel.Laws.HoldSafety
import PunkgoKernel.Laws.Like

/-!
# Derived actor ids

An actor without an id of its own is named after its creator and its purpose and
numbered: one more than the actors whose ids match `creator/purpose/%`. The
pattern has the purpose as it was given, the id has it sanitised. So the number
is free as long as every id that begins so is counted: it was derived for the
same purpose, but for the case of letters, and that purpose matches what stands
for it in the id (`DerivedFor`), and nobody chose an id that only looks derived
(`Poses`). In a run whose steps keep to that, every derived id is free
(`run_derived_fresh`).
-/

namespace PunkgoKernel

open Json (Value)
open Relational (Table key)
open Resumption

/-! ## Ids and purposes -/

/-- A purpose, as a pattern, matches what stands for it in an id, character by
character. -/
def CountsItself (purpose : String) : Prop :=
  likeChars purpose.toList (sanitizePurpose purpose).toList = true

instance (purpose : String) : Decidable (CountsItself purpose) :=
  inferInstanceAs (Decidable (_ = true))

/-- What stands for a purpose in an id does not depend on the case of its
letters. -/
theorem sanitizePurpose_folded {p q : String} (h : folded p.toList = folded q.toList) :
    sanitizePurpose p = sanitizePurpose q := by
  have hchar : ∀ c d : Char, c.toLower = d.toLower → sanitizeChar c = sanitizeChar d := by
    intro c d hsame
    unfold sanitizeChar
    by_cases hc : c.isAlpha = true
    · have hd : d.isAlpha = true := by
        rw [← Char.isAlpha_toLower_eq_isAlpha, ← hsame, Char.isAlpha_toLower_eq_isAlpha, hc]
      simp [hc, hd, hsame]
    · obtain rfl := (toLower_eq_iff (Bool.eq_false_iff.mpr hc)).mp hsame.symm
      rfl
  have hmap : ∀ ps qs : List Char, folded ps = folded qs →
      ps.map sanitizeChar = qs.map sanitizeChar := by
    intro ps
    induction ps with
    | nil =>
      intro qs hfolded
      obtain rfl : qs = [] := List.map_eq_nil_iff.mp hfolded.symm
      rfl
    | cons c ps ih =>
      intro qs hfolded
      cases qs with
      | nil => cases hfolded
      | cons d qs =>
        obtain ⟨hhead, htail⟩ := List.cons.inj hfolded
        exact congrArg₂ List.cons (hchar c d hhead) (ih qs htail)
  apply String.toList_injective
  rw [sanitizePurpose_toList, sanitizePurpose_toList, hmap p.toList q.toList h]

/-! ## The count -/

/-- The ids of the actors, in order. -/
def Db.actorIds (db : Db) : List String := db.actors.rows.map (·.actorId)

/-- The pattern of the count, character by character. -/
theorem sequencePattern_toList (creatorId purpose : String) :
    (ActorStore.sequencePattern creatorId purpose).toList =
      (creatorId.toList ++ '/' :: purpose.toList) ++ ['/', '%'] := by
  have hchars : s!"{creatorId}/{purpose}/%".toList =
      ((creatorId.toList ++ ['/']) ++ purpose.toList) ++ ['/', '%'] := by
    simp only [String.toList_append]
    rfl
  refine hchars.trans ?_
  simp only [List.append_assoc, List.cons_append, List.nil_append]

/-- The next number of a purpose counts the ids that the pattern matches, whoever they
belong to. -/
theorem nextNumber_eq (creatorId purpose : String) (db : Db) :
    ActorStore.nextNumber creatorId purpose db = (db.actorIds.filter fun actorId =>
      sqlLike (ActorStore.sequencePattern creatorId purpose).toList actorId.toList).length + 1 := by
  unfold Db.actorIds ActorStore.nextNumber
  rw [List.filter_map, List.length_map]
  rfl

/-- The number that is answered. -/
theorem nextSequence_eq_ok {creatorId purpose : String} {n : Nat} {db : Db}
    (h : ActorStore.nextSequence creatorId purpose db = .ok n) :
    ActorStore.nextNumber creatorId purpose db = n := by
  obtain ⟨-, -, hn⟩ := bind_eq_ok.mp h
  exact Except.ok.inj hn

/-- Purposes that differ in case alone are counted alike. -/
theorem nextNumber_folded {creatorId p q : String} (h : folded p.toList = folded q.toList)
    (db : Db) :
    ActorStore.nextNumber creatorId p db = ActorStore.nextNumber creatorId q db := by
  have hpattern : folded (readText (ActorStore.sequencePattern creatorId p).toList) =
      folded (readText (ActorStore.sequencePattern creatorId q).toList) := by
    rw [folded_readText, folded_readText, sequencePattern_toList, sequencePattern_toList]
    unfold folded at h ⊢
    simp only [List.map_append, List.map_cons, h]
  rw [nextNumber_eq, nextNumber_eq]
  unfold sqlLike
  simp only [likeChars_folded hpattern]

/-- The next number never falls while ids are only added. -/
theorem nextNumber_le {creatorId purpose : String} {db db' : Db}
    (h : db.actorIds <+: db'.actorIds) :
    ActorStore.nextNumber creatorId purpose db ≤ ActorStore.nextNumber creatorId purpose db' := by
  rw [nextNumber_eq, nextNumber_eq]
  exact Nat.succ_le_succ (h.sublist.filter _).length_le

/-- An id derived for a purpose that counts itself is counted. -/
theorem counts_derived {creatorId purpose : String} (hcounts : CountsItself purpose) (seq : Nat) :
    sqlLike (ActorStore.sequencePattern creatorId purpose).toList
      (deriveAgentId creatorId purpose seq).toList = true := by
  rw [sequencePattern_toList, toList_deriveAgentId]
  unfold sqlLike
  by_cases hcreator : nul ∈ creatorId.toList
  · -- both are read up to the NUL in the creator's id
    rw [List.append_assoc, List.append_assoc, readText_of_nul_mem hcreator,
      readText_of_nul_mem hcreator]
    exact likeChars_self _
  · have hsanitized : nul ∉ (sanitizePurpose purpose).toList := fun hmem =>
      absurd ((sanitized_sanitizePurpose purpose).alphabet nul hmem) (by decide)
    have hpurpose : nul ∉ purpose.toList := fun hmem =>
      hsanitized (mem_of_likeChars hcounts hmem (by decide) (by decide) (by decide))
    have hslash : nul ≠ '/' := by decide
    have hname : likeChars (creatorId.toList ++ '/' :: purpose.toList)
        (creatorId.toList ++ '/' :: (sanitizePurpose purpose).toList) = true := by
      refine (likeChars_append _ _ _).mpr ⟨_, _, rfl, likeChars_self _, ?_⟩
      exact (likeChars_literal (by decide) (by decide) (by decide) _ _).mpr ⟨_, rfl, hcounts⟩
    have hpattern : nul ∉ creatorId.toList ++ '/' :: purpose.toList := by
      simp [hcreator, hpurpose, hslash]
    have htext : nul ∉ creatorId.toList ++ '/' :: (sanitizePurpose purpose).toList := by
      simp [hcreator, hsanitized, hslash]
    rw [readText_append hpattern, readText_append htext, readText_of_nul_not_mem hpattern,
      readText_of_nul_not_mem htext]
    refine (likeChars_append _ _ _).mpr ⟨_, _, rfl, likeChars_read hname, ?_⟩
    rw [← List.singleton_append, readText_append (by decide)]
    exact (likeChars_literal (by decide) (by decide) (by decide) _ _).mpr ⟨_, rfl, likeChars_any _⟩

/-- Once an id derived for a purpose that counts itself is new, the next number is
another. -/
theorem nextNumber_lt {creatorId purpose : String} {seq : Nat} {db db' : Db}
    (hcounts : CountsItself purpose) (hids : db.actorIds <+: db'.actorIds)
    (hnew : deriveAgentId creatorId purpose seq ∈ db'.actorIds)
    (hold : deriveAgentId creatorId purpose seq ∉ db.actorIds) :
    ActorStore.nextNumber creatorId purpose db < ActorStore.nextNumber creatorId purpose db' := by
  obtain ⟨rest, hrest⟩ := hids
  rw [← hrest] at hnew
  have hmem := (List.mem_append.mp hnew).resolve_left hold
  have hpos : 0 < (rest.filter fun actorId => sqlLike
      (ActorStore.sequencePattern creatorId purpose).toList actorId.toList).length :=
    List.length_pos_of_mem (List.mem_filter.mpr ⟨hmem, counts_derived hcounts seq⟩)
  rw [nextNumber_eq, nextNumber_eq, ← hrest, List.filter_append, List.length_append]
  omega

/-- The ids of a store are those of its actors. -/
theorem mem_actorIds {actorId : String} {db : Db} :
    actorId ∈ db.actorIds ↔ (db.actors.find? actorId).isSome :=
  Table.isSome_find?_iff.symm

variable [Externals]

/-- No id is lost, and new ones come last. -/
theorem Effect.actorIds {op : Op} {db db' : Db} (h : Effect op db db') :
    db.actorIds <+: db'.actorIds := by
  cases h with
  | newActor row balance ledger actors _ _ _ hins =>
    show _ <+: actors.rows.map (·.actorId)
    rw [(Table.insert?_eq_some hins).2, List.map_append]
    exact List.prefix_append _ _
  | actor actorId f hf =>
    have hkeys := Table.keys_modify db.actors actorId f hf
    show _ <+: (db.actors.modify actorId f hf).rows.map (·.actorId)
    rw [show (db.actors.modify actorId f hf).rows.map (·.actorId) = db.actorIds from hkeys]
  | _ => exact List.prefix_rfl

/-- An operation only adds ids, at the end. -/
theorem exec_actorIds (op : Op) (db : Db) : db.actorIds <+: (exec op db).2.actorIds :=
  (exec_effects op db).relate (R := fun a b => a.actorIds <+: b.actorIds)
    (fun _ => List.prefix_rfl) List.IsPrefix.trans Effect.actorIds

/-! ## What a creation goes by -/

omit [Externals] in
/-- The id a request chooses for the actor it creates. -/
def explicitId (payload : Value) : Option String := (payload.get? "actor_id").bind Value.asStr?

omit [Externals] in
/-- The id of an actor to be created was chosen by the request, or derived with the
number that was next. -/
def Named (past : Past) (payload : Value) (spec : CreateActorSpec) : Prop :=
  ∃ purpose, spec.purpose = some purpose ∧ (explicitId payload = some spec.actorId ∨
    explicitId payload = none ∧ ∃ n : Nat, Fresh past (.nextSequence spec.creatorId purpose) n ∧
      spec.actorId = deriveAgentId spec.creatorId purpose n)

omit [Externals] in
/-- A commit creates an actor under an id that was chosen or derived. -/
def CreatesNamed (past : Past) : Op → Prop
  | .finalize tx => ∀ spec, tx.createActor = some spec → Named past tx.event.payload spec
  | _ => True

omit [Externals] in
/-- An operation that commits nothing creates no actor, so there is no id to account
for. -/
theorem createsNamed_of_keepsCommitted (past : Past) (op : Op) (hop : op.keepsCommitted = true) :
    CreatesNamed past op := by
  cases op with
  | finalize tx => cases hop
  | _ => trivial

omit [Externals] in
/-- An id that was chosen or derived stays so while the request performs nothing that
grants. -/
theorem Named.since {past past' : Past} {payload : Value} {spec : CreateActorSpec}
    (h : Named past payload spec) (hs : Since Op.keepsGrants past past') :
    Named past' payload spec := by
  obtain ⟨purpose, hpurpose, hchosen | ⟨hnone, n, hfresh, hid⟩⟩ := h
  · exact ⟨purpose, hpurpose, .inl hchosen⟩
  · exact ⟨purpose, hpurpose, .inr ⟨hnone, n, hfresh.since hs, hid⟩⟩

omit [Externals] in
/-- What leaves actors and envelopes alone and commits nothing, and then goes on. -/
theorem minds_bind_since {α β : Type} {p : KernelProg β} {f : β → KernelProg α} {past : Past}
    (hp : Attempt.Uses (fun op : Op => op.keepsCommitted = true ∧ op.keepsGrants = true) p)
    (hf : ∀ past' b, Since Op.keepsGrants past past' → Minds CreatesNamed (f b) past') :
    Minds CreatesNamed (p >>= f) past := by
  suffices hgen : ∀ past', Since Op.keepsGrants past past' →
      Attempt.Honors CreatesNamed (fun _ _ => True) (fun past' _ => Since Op.keepsGrants past past')
        p past' by
    refine Attempt.Honors.bind (Prog.Honors.mono (hgen past (.refl _ past)) ?_)
    rintro past' (e | b) hsince
    · trivial
    · exact hf past' b hsince
  induction p with
  | ret x => exact fun past' hsince => hsince
  | vis op k ih =>
    intro past' hsince
    exact ⟨createsNamed_of_keepsCommitted past' op hp.1.1,
      fun x _ => ih x (hp.2 x) _ (hsince.cons hp.1.2)⟩

omit [Externals] in
/-- What only reads leaves what was committed and what was granted. -/
theorem Reading.uses_quietly {α : Type} {p : KernelProg α} (h : Reading p) :
    Attempt.Uses (fun op : Op => op.keepsCommitted = true ∧ op.keepsGrants = true) p := by
  refine Prog.Uses.mono h.uses ?_
  intro op hop
  refine ⟨?_, Op.keepsGrants_of_isRead (Op.isRead_of_looksUp hop)⟩
  cases op <;> first | rfl | cases hop

/-- The id of the actor a request asks for is the one it chose, or derived. -/
theorem parseCreateActorSpec_named {α : Type} (action : Action)
    {f : Option CreateActorSpec → KernelProg α} {past : Past}
    (hf : ∀ past' create, (∀ spec, create = some spec → Named past' action.payload spec) →
      Minds CreatesNamed (f create) past') :
    Minds CreatesNamed (parseCreateActorSpec action >>= f) past := by
  unfold parseCreateActorSpec
  split
  · exact hf past none fun _ h => by cases h
  split
  · trivial
  cases parseActorType action.payload with
  | error e => trivial
  | ok actorType =>
    generalize ((action.payload.get? "purpose").bind Value.asStr?).getD "legacy" = purpose
    -- what follows the id, whichever it is
    have hspec : ∀ actorId past₁, (∀ spec, spec.purpose = some purpose →
          spec.creatorId = action.actorId → spec.actorId = actorId →
          ∀ creator : Option ActorRecord,
            Named (⟨.getActor action.actorId, .ok creator⟩ :: past₁) action.payload spec) →
        Minds CreatesNamed ((do
          let creator ← call (.getActor action.actorId)
          let spec ← check (actorSpecFrom action actorId purpose actorType creator)
          pure (some spec)) >>= f) past₁ := by
      intro actorId past₁ hnamed
      refine ⟨trivial, ?_⟩
      rintro (e | (creator : Option ActorRecord)) -
      · trivial
      show Minds CreatesNamed
        (check (actorSpecFrom action actorId purpose actorType creator) >>= _ >>= f) _
      cases hfrom : actorSpecFrom action actorId purpose actorType creator with
      | error e => trivial
      | ok spec =>
        obtain ⟨-, writableTargets, rfl⟩ := actorSpecFrom_spec hfrom
        refine hf _ _ ?_
        rintro _ ⟨⟩
        exact hnamed _ rfl rfl rfl creator
    unfold newActorId
    cases hid : (action.payload.get? "actor_id").bind Value.asStr? with
    | some id =>
      refine hspec id past ?_
      intro spec hpurpose _ hactor creator
      exact ⟨purpose, hpurpose, .inl (hid.trans (congrArg some hactor.symm))⟩
    | none =>
      by_cases hlegacy : purpose = "legacy"
      · simp only [hlegacy, if_true]
        trivial
      · simp only [hlegacy, if_false]
        refine ⟨trivial, ?_⟩
        rintro (e | (n : Nat)) -
        · trivial
        refine hspec (deriveAgentId action.actorId purpose n) _ ?_
        intro spec hpurpose hcreator hactor creator
        refine ⟨purpose, hpurpose, .inr ⟨hid, n, ?_, hcreator ▸ hactor⟩⟩
        rw [hcreator]
        exact fresh_cons.since ((Since.refl _ _).cons rfl)

/-- A commit creates an actor under the id its payload asks for or one that was counted
for it. -/
theorem commitAction_named (env : Env) (action : Action) (auth : Option EnvelopeRecord)
    (past : Past) : Minds CreatesNamed (commitAction env action auth) past := by
  unfold commitAction
  refine (reading_authorizeLifecycle action _).uncommitting.minds_bind
    createsNamed_of_keepsCommitted ?_
  intro past₁ _ _
  refine parseCreateActorSpec_named action ?_
  intro past₂ createActor hnamed
  refine minds_bind_since (reading_parseCreateEnvelopeSpec env action).uses_quietly ?_
  intro past₃ createEnvelope hsince₃
  have hreserves : Attempt.Uses (fun op : Op => op.keepsCommitted = true ∧ op.keepsGrants = true)
      (quoteAndReserve action) := by
    refine Prog.Uses.mono (uses_quoteAndReserve action) ?_
    rintro op ⟨actorId, cost, rfl⟩
    exact ⟨rfl, rfl⟩
  refine minds_bind_since hreserves ?_
  rintro past₄ ⟨cost, reservation⟩ hsince₄
  cases artifactHashOf action with
  | error e => trivial
  | ok artifactHash =>
    refine finalize_minds createsNamed_of_keepsCommitted ?_
    intro spec hspec
    exact ((hnamed spec hspec).since hsince₃).since hsince₄

/-- What is created in a run was named so. -/
theorem KernelRun.named {tr : List KernelTransition} {pool : KernelPool} (h : KernelRun tr pool)
    {id : Nat} {tx : FinalizeTx} {k : KernelResult EventRecord → KernelProg Outcome} {past : Past}
    (hmem : (⟨id, .vis (.finalize tx) k, past⟩ : Task KernelSig (KernelResult Outcome)) ∈ pool.tasks)
    {spec : CreateActorSpec} (hspec : tx.createActor = some spec) :
    Named past tx.event.payload spec :=
  KernelRun.mindful createsNamed_of_keepsCommitted commitAction_named h hmem spec hspec

/-! ## What a commit says of an id that is taken -/

omit [Externals] in
/-- The refusal of an actor whose id is taken. -/
def alreadyExists (actorId : String) : KernelError :=
  .policyViolation s!"actor already exists: {actorId}"

omit [Externals] in
/-- A settlement never says that an actor exists. -/
theorem settleReservation_ne_exists {reservation : Option EnergyReservation} {cost : Int} {db : Db}
    {actorId : String}
    (h : settleReservation reservation cost db = .error (alreadyExists actorId)) : False := by
  cases reservation with
  | none => cases h
  | some res =>
    rcases settleInTx_violation h with htext | ⟨rest, htext⟩
    · rw [← String.append_empty (s := "settle values cannot be negative")] at htext
      exact absurd (begin_alike htext) (by decide)
    · exact absurd (begin_alike htext) (by decide)

omit [Externals] in
/-- An actor whose id is free is not refused so. -/
theorem createActorRows_ne_exists {spec : CreateActorSpec} {db : Db} {actorId : String}
    (hledger : db.energyLedger.find? spec.actorId = none)
    (hfree : db.actors.find? spec.actorId = none)
    (h : createActorRows (some spec) db = .error (alreadyExists actorId)) : False := by
  rcases bind_eq_error.mp h with hrow | ⟨db₁, hrow, hactor⟩
  · unfold EnergyLedger.createActorInTx at hrow
    rw [hledger] at hrow
    split at hrow
    · have htext := KernelError.policyViolation.inj (Except.error.inj hrow)
      rw [← String.append_empty (s := "seed actor_id cannot be empty")] at htext
      exact absurd (begin_alike htext) (by decide)
    split at hrow
    · have htext := KernelError.policyViolation.inj (Except.error.inj hrow)
      rw [← String.append_empty (s := "seed energy_balance cannot be negative")] at htext
      exact absurd (begin_alike htext) (by decide)
    simp only at hrow
    split at hrow <;> cases hrow
  · obtain ⟨hblank, -, -, ledger, -, rfl⟩ := EnergyLedger.createActorInTx_eq_ok hrow
    unfold ActorStore.createInTx at hactor
    simp only [hblank, hfree, Bool.false_eq_true, if_false] at hactor
    split at hactor <;> cases hactor

/-- A commit that creates an actor under a free id does not fail by that id. -/
theorem finalize_ne_exists {tx : FinalizeTx} {db : Db} {spec : CreateActorSpec}
    (hsafe : LedgerSafe db) (hspec : tx.createActor = some spec)
    (hfree : db.actors.find? spec.actorId = none) (actorId : String) :
    (exec (.finalize tx) db).1 ≠ .error (alreadyExists actorId) := by
  intro hanswer
  have htx : finalizeEnergyAndEvent tx db = .error (alreadyExists actorId) := by
    rcases exec_cases (.finalize tx) db with ⟨v, db', -, hexec⟩ | ⟨e, htx, hexec⟩
    · rw [hexec] at hanswer
      cases hanswer
    · rw [hexec] at hanswer
      cases hanswer
      exact htx
  have hserved : ∀ {e : KernelError}, DatabaseFailure e → e ≠ alreadyExists actorId := by
    rintro e hfailure rfl
    cases hfailure
  rcases bind_eq_error.mp htx with hsettle | ⟨db₁, hsettle, h₁⟩
  · exact settleReservation_ne_exists hsettle
  have hsettles : Effects (.finalize tx) db db₁ := settleReservation_effects hsettle
  have hfree₁ : db₁.actors.find? spec.actorId = none := by
    unfold settleReservation at hsettle
    split at hsettle
    · obtain ⟨row, -, -, -, -, -, -, -, rfl⟩ := EnergyLedger.settleInTx_eq_ok hsettle
      exact hfree
    · cases hsettle
      exact hfree
  have hledger₁ : db₁.energyLedger.find? spec.actorId = none := by
    have hids := (hsettles.keep LedgerSafe.effect hsafe).sameIds spec.actorId
    rw [hfree₁] at hids
    exact Option.not_isSome_iff_eq_none.mp fun hsome => by simpa using hids.mpr hsome
  rcases bind_eq_error.mp h₁ with hactor | ⟨db₂, -, h₂⟩
  · rw [hspec] at hactor
    exact createActorRows_ne_exists hledger₁ hfree₁ hactor
  rcases bind_eq_error.mp h₂ with henvelope | ⟨db₃, -, h₃⟩
  · exact hserved (createEnvelopeRow_error henvelope) rfl
  rcases bind_eq_error.mp h₃ with happend | ⟨⟨event, db₄⟩, -, h₄⟩
  · exact hserved (appendInTx_error happend) rfl
  rcases bind_eq_error.mp h₄ with haudit | ⟨db₅, -, h₅⟩
  · unfold appendAudit at haudit
    split at haudit <;> cases haudit
  · cases h₅

/-! ## Along a run -/

omit [Externals] in
/-- The actor was created by this creator for this purpose, but for the case of its
letters, and the purpose counts itself. -/
def DerivedFor (creatorId purpose : String) (row : ActorRecord) : Prop :=
  CountsItself purpose ∧ row.creatorId = some creatorId ∧
    ∃ p, row.purpose = some p ∧ folded p.toList = folded purpose.toList

omit [Externals] in
/-- The step looks up the next number for a creator and a purpose, and there is an
actor with an id that looks derived for them and is not. -/
def Miscounts (t : KernelTransition) : Prop :=
  ∃ id creatorId purpose n, t.label = .act id ⟨.nextSequence creatorId purpose, .ok n⟩ ∧
    ∃ m row, t.before.store.actors.find? (deriveAgentId creatorId purpose m) = some row ∧
      ¬ DerivedFor creatorId purpose row

omit [Externals] in
/-- The step commits an actor whose id was chosen, looks derived, and has a number
that is still to come. -/
def Poses (t : KernelTransition) : Prop :=
  ∃ id tx event spec purpose m, t.label = .act id ⟨.finalize tx, .ok event⟩ ∧
    tx.createActor = some spec ∧ explicitId tx.event.payload = some spec.actorId ∧
    spec.purpose = some purpose ∧ spec.actorId = deriveAgentId spec.creatorId purpose m ∧
    ActorStore.nextNumber spec.creatorId purpose t.before.store < m

omit [Externals] in
/-- The request is alone whenever it is in flight. -/
def Solo (tr : List KernelTransition) (id : Nat) : Prop :=
  ∀ t ∈ tr, ∀ task ∈ t.before.tasks, task.id = id → t.before.tasks = [task]

omit [Externals] in
/-- A request that ran alone did so all along. -/
theorem Solo.earlier {t : KernelTransition} {tr : List KernelTransition} {id : Nat}
    (h : Solo (t :: tr) id) : Solo tr id :=
  fun t' ht' => h t' (List.mem_cons_of_mem _ ht')

omit [Externals] in
/-- An actor whose id the step derives is new, and one that a request creates under
a derived id while it is alone is new and not refused as one that exists. -/
structure DerivesFresh (tr : List KernelTransition) (t : KernelTransition) : Prop where
  derived : ∀ id creatorId purpose n,
    t.label = .act id ⟨.nextSequence creatorId purpose, .ok n⟩ →
    t.before.store.actors.find? (deriveAgentId creatorId purpose n) = none
  created : ∀ id tx x spec, t.label = .act id ⟨.finalize tx, x⟩ → Solo tr id →
    tx.createActor = some spec → explicitId tx.event.payload = none →
    (∃ purpose n, spec.purpose = some purpose ∧
      spec.actorId = deriveAgentId spec.creatorId purpose n) ∧
    t.before.store.actors.find? spec.actorId = none ∧
    ∀ actorId, x ≠ .error (alreadyExists actorId)

omit [Externals] in
/-- A step that derived a fresh id did so whatever comes later. -/
theorem DerivesFresh.later {tr : List KernelTransition} {t t' : KernelTransition}
    (h : DerivesFresh tr t) : DerivesFresh (t' :: tr) t where
  derived := h.derived
  created id tx x spec hlabel hsolo := h.created id tx x spec hlabel hsolo.earlier

omit [Externals] in
/-- A step without an operation derives nothing. -/
theorem DerivesFresh.idle {tr : List KernelTransition} {t : KernelTransition}
    (h : ∀ id d, t.label ≠ .act id d) : DerivesFresh tr t :=
  ⟨fun id _ _ _ hlabel => absurd hlabel (h id _), fun id _ _ _ hlabel => absurd hlabel (h id _)⟩

omit [Externals] in
/-- The numbers of the actors derived for a purpose are below the next. -/
def Counted (db : Db) : Prop :=
  ∀ creatorId purpose m row, db.actors.find? (deriveAgentId creatorId purpose m) = some row →
    DerivedFor creatorId purpose row → m < ActorStore.nextNumber creatorId purpose db

omit [Externals] in
/-- The id a request derives in its turn is new. -/
theorem Counted.free {db : Db} (h : Counted db) {creatorId purpose : String}
    (hcount : ∀ m row, db.actors.find? (deriveAgentId creatorId purpose m) = some row →
      DerivedFor creatorId purpose row) :
    db.actors.find? (deriveAgentId creatorId purpose
      (ActorStore.nextNumber creatorId purpose db)) = none := by
  cases hfind : db.actors.find? (deriveAgentId creatorId purpose
      (ActorStore.nextNumber creatorId purpose db)) with
  | none => rfl
  | some row => exact absurd (h creatorId purpose _ row hfind (hcount _ row hfind)) (lt_irrefl _)

omit [Externals] in
/-- The number a request looked up last is not ahead of the next. -/
def Reached (db : Db) (past : Past) : Prop :=
  ∀ creatorId purpose, ∀ n : Nat, Fresh past (.nextSequence creatorId purpose) n →
    n ≤ ActorStore.nextNumber creatorId purpose db

omit [Externals] in
/-- The id a request derived last is still free. -/
def Free (db : Db) (past : Past) : Prop :=
  ∀ creatorId purpose, ∀ n : Nat, Fresh past (.nextSequence creatorId purpose) n →
    db.actors.find? (deriveAgentId creatorId purpose n) = none

omit [Externals] in
theorem not_fresh_nil {op : Op} {v : Val op} : ¬ Fresh [] op v := by
  rintro ⟨older, recent, heq, -⟩
  cases recent <;> cases heq

/-- What is answered when the next number is looked up. -/
theorem exec_nextSequence {creatorId purpose : String} {n : Nat} {db : Db}
    (h : (exec (.nextSequence creatorId purpose) db).1 = .ok n) :
    ActorStore.nextNumber creatorId purpose db = n := by
  rcases exec_cases (.nextSequence creatorId purpose) db with ⟨v, db', htx, hexec⟩ | ⟨e, -, hexec⟩
  · rw [hexec] at h
    obtain rfl : v = n := Except.ok.inj h
    cases hseq : ActorStore.nextSequence creatorId purpose db with
    | ok seq =>
      rw [show transaction (.nextSequence creatorId purpose) db = _ from
        congrArg (Except.map fun seq => (seq, db)) hseq] at htx
      cases htx
      exact nextSequence_eq_ok hseq
    | error e =>
      rw [show transaction (.nextSequence creatorId purpose) db = _ from
        congrArg (Except.map fun seq => (seq, db)) hseq] at htx
      cases htx
  · rw [hexec] at h
    cases h

/-- The number a request looked up last is the one it has just been answered, or an
older one. -/
theorem Fresh.number {op : Op} {db : Db} {past : Past} {creatorId purpose : String} {n : Nat}
    (h : Fresh (⟨op, (exec op db).1⟩ :: past) (.nextSequence creatorId purpose) n) :
    op = .nextSequence creatorId purpose ∧
        (exec (.nextSequence creatorId purpose) db).1 = .ok n ∨
      op.keepsGrants = true ∧ Fresh past (.nextSequence creatorId purpose) n := by
  refine h.cases.imp_left ?_
  intro heq
  have hop : op = .nextSequence creatorId purpose := congrArg Performed.op heq
  subst hop
  injection heq with _ hanswer
  exact ⟨rfl, hanswer⟩

theorem Reached.others {op : Op} {db : Db} {past : Past} (h : Reached db past) :
    Reached (exec op db).2 past :=
  fun creatorId purpose n hfresh =>
    (h creatorId purpose n hfresh).trans (nextNumber_le (exec_actorIds op db))

theorem Reached.exec {op : Op} {db : Db} {past : Past} (h : Reached db past) :
    Reached (exec op db).2 (⟨op, (exec op db).1⟩ :: past) := by
  intro creatorId purpose n hfresh
  rcases hfresh.number with ⟨-, hanswer⟩ | ⟨-, hold⟩
  · rw [← exec_nextSequence hanswer]
    exact nextNumber_le (exec_actorIds op db)
  · exact h.others creatorId purpose n hold

theorem Free.exec {op : Op} {db : Db} {past : Past} (h : Free db past)
    (hfree : ∀ creatorId purpose n, op = .nextSequence creatorId purpose →
      (PunkgoKernel.exec (.nextSequence creatorId purpose) db).1 = .ok n →
      db.actors.find? (deriveAgentId creatorId purpose n) = none) :
    Free (exec op db).2 (⟨op, (exec op db).1⟩ :: past) := by
  intro creatorId purpose n hfresh
  rcases hfresh.number with ⟨rfl, hanswer⟩ | ⟨hop, hold⟩
  · rw [(exec_keepsGrants rfl db).1]
    exact hfree creatorId purpose n rfl hanswer
  · rw [(exec_keepsGrants hop db).1]
    exact h creatorId purpose n hold

omit [Externals] in
/-- A refusal is no number. -/
theorem fresh_of_fault {past : Past} {op : Op} {x : KernelResult (Val op)} (hx : refuses op x)
    {creatorId purpose : String} {n : Nat}
    (h : Fresh (⟨op, x⟩ :: past) (.nextSequence creatorId purpose) n) :
    Fresh past (.nextSequence creatorId purpose) n := by
  rcases h.cases with heq | ⟨-, hold⟩
  · cases heq
    obtain ⟨e, -, he⟩ := hx
    cases he
  · exact hold

omit [Externals] in
/-- What a request creates in its turn is numbered no further than the count. -/
theorem Named.le_nextNumber {past : Past} {payload : Value} {spec : CreateActorSpec} {db : Db}
    {row : ActorRecord} (h : Named past payload spec) (hreached : Reached db past)
    (hpose : ∀ purpose m, explicitId payload = some spec.actorId → spec.purpose = some purpose →
      spec.actorId = deriveAgentId spec.creatorId purpose m →
      m ≤ ActorStore.nextNumber spec.creatorId purpose db)
    (hnew : ActorStore.NewRow spec row) {creatorId purpose : String} {m : Nat}
    (hid : row.actorId = deriveAgentId creatorId purpose m)
    (hfor : DerivedFor creatorId purpose row) :
    m ≤ ActorStore.nextNumber creatorId purpose db := by
  obtain ⟨-, hcreator, p, hp, hfolded⟩ := hfor
  obtain ⟨q, hq, hnamed⟩ := h
  rw [hnew.creatorId] at hcreator
  obtain rfl : spec.creatorId = creatorId := Option.some.inj hcreator
  rw [hnew.purpose, hq] at hp
  obtain rfl : q = p := Option.some.inj hp
  have hsame : deriveAgentId spec.creatorId purpose m = deriveAgentId spec.creatorId q m := by
    unfold deriveAgentId
    rw [sanitizePurpose_folded hfolded]
  rw [hnew.actorId, hsame] at hid
  rw [← nextNumber_folded hfolded]
  rcases hnamed with hchosen | ⟨-, n, hfresh, hderived⟩
  · exact hpose q m hchosen hq hid
  · obtain ⟨-, hseq, -⟩ := deriveAgentId_inj (hderived.symm.trans hid)
    rw [← hseq]
    exact hreached _ _ n hfresh

theorem Counted.exec {op : Op} {db : Db} (h : Counted db)
    (hcreates : ∀ v db', transaction op db = .ok (v, db') → ∀ row, op.Creates row →
      ∀ creatorId purpose m, row.actorId = deriveAgentId creatorId purpose m →
        DerivedFor creatorId purpose row → m ≤ ActorStore.nextNumber creatorId purpose db) :
    Counted (exec op db).2 := by
  rcases exec_cases op db with ⟨v, db', htx, hexec⟩ | ⟨e, -, hexec⟩
  swap
  · rw [hexec]
    exact h
  intro creatorId purpose m row hrow hfor
  have hids := exec_actorIds op db
  rcases (exec_rows op db).source _ row hrow with ⟨r, hr, hchange⟩ | ⟨hnone, new, hnew, hchange⟩
  · refine lt_of_lt_of_le (h creatorId purpose m r hr ⟨hfor.1, ?_, ?_⟩) (nextNumber_le hids)
    · exact hchange.same.creatorId.symm.trans hfor.2.1
    · obtain ⟨p, hp, hfolded⟩ := hfor.2.2
      exact ⟨p, hchange.same.purpose.symm.trans hp, hfolded⟩
  · have hid : new.actorId = deriveAgentId creatorId purpose m :=
      hchange.same.actorId.symm.trans (Table.key_of_find? hrow)
    have hle := hcreates v db' htx new hnew creatorId purpose m hid
      ⟨hfor.1, hchange.same.creatorId.symm.trans hfor.2.1, by
        obtain ⟨p, hp, hfolded⟩ := hfor.2.2
        exact ⟨p, hchange.same.purpose.symm.trans hp, hfolded⟩⟩
    have hlt := nextNumber_lt hfor.1 hids (mem_actorIds.mpr (by rw [hrow]; rfl))
      (fun hmem => by simpa [hnone] using mem_actorIds.mp hmem)
    omega

/-- What a run keeps for the requests in flight. -/
structure FreshKept (tr : List KernelTransition) (pool : KernelPool) : Prop where
  counted : Counted pool.store
  reached : ∀ task ∈ pool.tasks, Reached pool.store task.past
  free : ∀ task ∈ pool.tasks, Solo tr task.id → Free pool.store task.past
  fresh : ∀ t ∈ tr, DerivesFresh tr t

omit [Externals] in
/-- A step that performs nothing on the store. -/
theorem FreshKept.idle {tr : List KernelTransition} {pool pool' : KernelPool}
    {l : Label KernelSig (KernelResult Outcome) Request} (h : FreshKept tr pool)
    (hstore : pool'.store = pool.store)
    (htasks : ∀ task' ∈ pool'.tasks, task'.past = [] ∨ ∃ task ∈ pool.tasks, task.id = task'.id ∧
      ∀ creatorId purpose n, Fresh task'.past (.nextSequence creatorId purpose) n →
        Fresh task.past (.nextSequence creatorId purpose) n)
    (hlabel : ∀ id d, l ≠ .act id d) : FreshKept (⟨pool, l⟩ :: tr) pool' where
  counted := hstore ▸ h.counted
  reached task' htask' := by
    intro creatorId purpose n hfresh
    rw [hstore]
    rcases htasks task' htask' with hnil | ⟨task, htask, -, hold⟩
    · rw [hnil] at hfresh
      exact absurd hfresh not_fresh_nil
    · exact h.reached task htask creatorId purpose n (hold creatorId purpose n hfresh)
  free task' htask' hsolo := by
    intro creatorId purpose n hfresh
    rw [hstore]
    rcases htasks task' htask' with hnil | ⟨task, htask, hid, hold⟩
    · rw [hnil] at hfresh
      exact absurd hfresh not_fresh_nil
    · exact h.free task htask (hid ▸ hsolo.earlier) creatorId purpose n
        (hold creatorId purpose n hfresh)
  fresh t ht := by
    rcases List.mem_cons.mp ht with rfl | ht
    · exact .idle hlabel
    · exact (h.fresh t ht).later

/-- The operation a request performs in its turn. -/
theorem FreshKept.act {tr : List KernelTransition} {store : Db}
    {before after : List (Task KernelSig (KernelResult Outcome))} {id : Nat} {op : Op}
    {k : KernelResult (Val op) → KernelProg Outcome} {past : Past}
    (hr : KernelRun tr ⟨store, before ++ ⟨id, .vis op k, past⟩ :: after⟩)
    (h : FreshKept tr ⟨store, before ++ ⟨id, .vis op k, past⟩ :: after⟩)
    (hcount : ¬ Miscounts ⟨⟨store, before ++ ⟨id, .vis op k, past⟩ :: after⟩,
      .act id ⟨op, (exec op store).1⟩⟩)
    (hpose : ¬ Poses ⟨⟨store, before ++ ⟨id, .vis op k, past⟩ :: after⟩,
      .act id ⟨op, (exec op store).1⟩⟩) :
    FreshKept (⟨⟨store, before ++ ⟨id, .vis op k, past⟩ :: after⟩,
        .act id ⟨op, (exec op store).1⟩⟩ :: tr)
      ⟨(exec op store).2, before ++ ⟨id, k (exec op store).1, ⟨op, (exec op store).1⟩ :: past⟩ ::
        after⟩ := by
  have hme : (⟨id, .vis op k, past⟩ : Task KernelSig (KernelResult Outcome)) ∈
      before ++ ⟨id, .vis op k, past⟩ :: after := by simp
  have hsafe := KernelRun.keep ledgerSafe_genesis LedgerSafe.effect hr
  have hnamed : ∀ {tx spec}, op = .finalize tx → tx.createActor = some spec →
      Named past tx.event.payload spec := by
    rintro tx spec rfl hspec
    exact KernelRun.named hr hme hspec
  have hfree : ∀ creatorId purpose n, op = .nextSequence creatorId purpose →
      (exec (.nextSequence creatorId purpose) store).1 = .ok n →
      store.actors.find? (deriveAgentId creatorId purpose n) = none := by
    rintro creatorId purpose n rfl hanswer
    rw [← exec_nextSequence hanswer]
    refine h.counted.free fun m row hrow => ?_
    by_contra hnot
    refine hcount ⟨id, creatorId, purpose, n, ?_, m, row, hrow, hnot⟩
    rw [hanswer]
  constructor
  · -- the actors an operation creates
    refine h.counted.exec ?_
    intro v db' htx row hcreates creatorId purpose m hid hfor
    obtain ⟨spec, hspec, hnew⟩ := hcreates.creation
    cases op with
    | finalize tx =>
      refine (hnamed rfl hspec).le_nextNumber (h.reached _ hme) ?_ hnew hid hfor
      intro p m' hchosen hpurpose hderived
      by_contra hlt
      have hanswer : (exec (.finalize tx) store).1 = .ok v := by
        unfold exec
        rw [htx]
      refine hpose ⟨id, tx, v, spec, p, m', ?_, hspec, hchosen, hpurpose, hderived, not_le.mp hlt⟩
      rw [hanswer]
    | _ => cases hspec
  · intro task htask
    rcases List.mem_append.mp htask with hb | ha
    · exact (h.reached task (List.mem_append_left _ hb)).others
    rcases List.mem_cons.mp ha with rfl | ha
    · exact (h.reached _ hme).exec
    · exact (h.reached task (List.mem_append_right _ (List.mem_cons_of_mem _ ha))).others
  · -- who is alone is the one who acts
    intro task htask hsolo
    have hone : ∀ other ∈ before ++ ⟨id, .vis op k, past⟩ :: after, other.id = task.id →
        before ++ ⟨id, .vis op k, past⟩ :: after = [other] :=
      hsolo _ List.mem_cons_self
    have hother : ∀ other, other ∈ before ∨ other ∈ after → other.id ≠ task.id := by
      intro other hmem hid
      have hlength := congrArg List.length (hone other (by
        rcases hmem with hb | ha
        · exact List.mem_append_left _ hb
        · exact List.mem_append_right _ (List.mem_cons_of_mem _ ha)) hid)
      simp only [List.length_append, List.length_cons, List.length_nil] at hlength
      rcases hmem with hb | ha
      · have := List.length_pos_of_mem hb
        omega
      · have := List.length_pos_of_mem ha
        omega
    rcases List.mem_append.mp htask with hb | ha
    · exact absurd rfl (hother task (.inl hb))
    rcases List.mem_cons.mp ha with rfl | ha
    · exact (h.free _ hme hsolo.earlier).exec hfree
    · exact absurd rfl (hother task (.inr ha))
  · -- the ids the step derives
    intro t ht
    rcases List.mem_cons.mp ht with rfl | ht
    swap
    · exact (h.fresh t ht).later
    constructor
    · intro id' creatorId purpose n hlabel
      injection hlabel with _ hdone
      cases op with
      | nextSequence c p =>
        injection hdone with hop hans
        injection hop with hc hp
        subst hc hp
        exact hfree c p n rfl hans
      | _ => cases hdone
    · intro id' tx x spec hlabel hsolo hspec hderived
      injection hlabel with hid' hdone
      subst hid'
      cases op with
      | finalize tx' =>
        injection hdone with hop hans
        injection hop with htx
        subst htx
        subst hans
        obtain ⟨purpose, hpurpose, hchosen | ⟨-, n, hfresh, hid⟩⟩ := hnamed rfl hspec
        · rw [hderived] at hchosen
          cases hchosen
        have hnew : store.actors.find? spec.actorId = none := by
          rw [hid]
          exact h.free _ hme hsolo.earlier _ _ n hfresh
        exact ⟨⟨purpose, n, hpurpose, hid⟩, hnew, finalize_ne_exists hsafe hspec hnew⟩
      | _ => cases hdone

/-- Every id that is derived is new, and free when a request that is alone creates
the actor, as long as no other actor has an id that looks derived for the same
creator and purpose, and nobody chooses one that is still to come. -/
theorem run_derived_fresh {tr : List KernelTransition} {pool : KernelPool} (h : KernelRun tr pool)
    (hcount : ∀ t ∈ tr, ¬ Miscounts t) (hpose : ∀ t ∈ tr, ¬ Poses t) :
    ∀ t ∈ tr, DerivesFresh tr t := by
  suffices hkept : FreshKept tr pool from hkept.fresh
  refine kernelContract.invariant (P := FreshKept) (G := fun t => ¬ Miscounts t ∧ ¬ Poses t)
    ?_ ?_ h (fun _ _ _ _ _ => trivial) (fun t ht => ⟨hcount t ht, hpose t ht⟩)
  · refine ⟨?_, by simp, by simp, by simp⟩
    -- the first actor is nobody's
    intro creatorId purpose m row hrow hfor
    obtain ⟨-, hcreator, -⟩ := hfor
    have hroot : row ∈ [StateStore.rootActor] := Table.mem_of_find? hrow
    rw [List.mem_singleton] at hroot
    subst hroot
    cases hcreator
  intro tr pool l pool' hr hs hinv hkeeps ⟨hcount, hpose⟩ hP
  cases hs with
  | spawn store tasks id r hfresh =>
    refine hP.idle rfl ?_ (fun _ _ h => by cases h)
    intro task htask
    rcases List.mem_cons.mp htask with rfl | htask
    · exact .inl rfl
    · exact .inr ⟨task, htask, rfl, fun _ _ _ hfresh => hfresh⟩
  | act store before after id op k past => exact FreshKept.act hr hP hcount hpose
  | fault store before after id op k past x hx =>
    refine hP.idle rfl ?_ (fun _ _ h => by cases h)
    intro task htask
    rcases List.mem_append.mp htask with hb | ha
    · exact .inr ⟨task, List.mem_append_left _ hb, rfl, fun _ _ _ hfresh => hfresh⟩
    rcases List.mem_cons.mp ha with rfl | ha
    · exact .inr ⟨⟨id, .vis op k, past⟩, by simp, rfl, fun _ _ _ hfresh => fresh_of_fault hx hfresh⟩
    · exact .inr ⟨task, List.mem_append_right _ (List.mem_cons_of_mem _ ha), rfl,
        fun _ _ _ hfresh => hfresh⟩
  | again store before after id a p past hp =>
    refine hP.idle rfl ?_ (fun _ _ h => by cases h)
    intro task htask
    rcases List.mem_append.mp htask with hb | ha
    · exact .inr ⟨task, List.mem_append_left _ hb, rfl, fun _ _ _ hfresh => hfresh⟩
    rcases List.mem_cons.mp ha with rfl | ha
    · exact .inr ⟨⟨id, .ret a, past⟩, by simp, rfl, fun _ _ _ hfresh => hfresh⟩
    · exact .inr ⟨task, List.mem_append_right _ (List.mem_cons_of_mem _ ha), rfl,
        fun _ _ _ hfresh => hfresh⟩
  | finish store before after id a past hp =>
    refine hP.idle rfl ?_ (fun _ _ h => by cases h)
    intro task htask
    refine .inr ⟨task, ?_, rfl, fun _ _ _ hfresh => hfresh⟩
    rcases List.mem_append.mp htask with hb | ha
    · exact List.mem_append_left _ hb
    · exact List.mem_append_right _ (List.mem_cons_of_mem _ ha)
  | cancel store before after task =>
    refine hP.idle rfl ?_ (fun _ _ h => by cases h)
    intro task htask
    refine .inr ⟨task, ?_, rfl, fun _ _ _ hfresh => hfresh⟩
    rcases List.mem_append.mp htask with hb | ha
    · exact List.mem_append_left _ hb
    · exact List.mem_append_right _ (List.mem_cons_of_mem _ ha)
  | restart store store' tasks hboot =>
    exact hP.idle (bootstrap_eq hinv.1 hboot) (by simp) (fun _ _ h => by cases h)

/-! ## Two runs -/

/-- Root creates an agent for a purpose. -/
def createFor (n : Nat) (purpose : String) : Request :=
  submitAt n "root" .create "ledger/actor" (Json.object
    [("purpose", .str purpose), ("energy_balance", .num (.int 0)), ("writable_targets", .arr [])])

/-- Whether a step looks up a number where every id that begins alike is counted, or
commits no chosen id, as can be read off it. -/
def derivesCleanly (t : KernelTransition) : Bool :=
  match t.label with
  | .act _ ⟨.nextSequence creatorId purpose, _⟩ => t.before.store.actors.rows.all fun row =>
      !(creatorId.toList ++ '/' :: (sanitizePurpose purpose).toList).isPrefixOf
          row.actorId.toList ||
        decide (CountsItself purpose) && decide (row.creatorId = some creatorId) &&
          row.purpose.any fun p => folded p.toList = folded purpose.toList
  | .act _ ⟨.finalize tx, _⟩ => (explicitId tx.event.payload).isNone
  | _ => true

omit [Externals] in
/-- The test finds every step that miscounts an id and every one that takes an id in a
derived form. -/
theorem derivesCleanly_sound {t : KernelTransition} (h : derivesCleanly t = true) :
    ¬ Miscounts t ∧ ¬ Poses t := by
  unfold derivesCleanly at h
  constructor
  · rintro ⟨id, creatorId, purpose, n, hlabel, m, row, hrow, hnot⟩
    rw [hlabel] at h
    have hclean := List.all_eq_true.mp h row (Table.mem_of_find? hrow)
    have hid : row.actorId = deriveAgentId creatorId purpose m := Table.key_of_find? hrow
    have hbegins : (creatorId.toList ++ '/' :: (sanitizePurpose purpose).toList).isPrefixOf
        row.actorId.toList = true := by
      rw [List.isPrefixOf_iff_prefix, hid, toList_deriveAgentId]
      refine ⟨'/' :: (toString m).toList, ?_⟩
      simp
    rw [hbegins] at hclean
    simp only [Bool.not_true, Bool.false_or, Bool.and_eq_true, decide_eq_true_eq,
      Option.any_eq_true] at hclean
    obtain ⟨⟨hcounts, hcreator⟩, p, hp, hfolded⟩ := hclean
    exact hnot ⟨hcounts, hcreator, p, hp, hfolded⟩
  · rintro ⟨id, tx, event, spec, purpose, m, hlabel, -, hchosen, -⟩
    rw [hlabel] at h
    simp only [hchosen] at h
    cases h

/-- The actor a step commits. -/
def committedActor (t : KernelTransition) : Option String :=
  match t.label with
  | .act _ ⟨.finalize tx, .ok _⟩ => tx.createActor.map (·.actorId)
  | _ => none

/-- Root creates two agents for one purpose. -/
def twoDocs : List (Turn Request) :=
  alone 30 (createFor 0 "doc") ++ alone 30 (createFor 1 "doc")

omit [Externals] in
/-- The second agent for a purpose gets the second number, which nobody has. -/
theorem twoDocs_fresh :
    letI := reference
    (∀ t ∈ (kernelPlayed twoDocs).trace, DerivesFresh (kernelPlayed twoDocs).trace t) ∧
      (kernelPlayed twoDocs).trace.filterMap committedActor = ["root/doc/2", "root/doc/1"] := by
  have hplayed : (kernelPlayed twoDocs).trace.all derivesCleanly = true ∧
      (kernelPlayed twoDocs).trace.filterMap committedActor =
        ["root/doc/2", "root/doc/1"] := by
    rw [kernelPlayed_eq]
    decide +kernel
  obtain ⟨hclean, hids⟩ := hplayed
  refine ⟨?_, hids⟩
  exact @run_derived_fresh reference _ _ (kernelRun_played twoDocs)
    (fun t ht => (derivesCleanly_sound (List.all_eq_true.mp hclean t ht)).1)
    (fun t ht => (derivesCleanly_sound (List.all_eq_true.mp hclean t ht)).2)

/-- Root creates two agents for one purpose, which does not stand so in their ids. -/
def twoBots : List (Turn Request) :=
  alone 30 (createFor 0 "My Bot") ++ alone 30 (createFor 1 "My Bot")

/-- Whether a step derives an id that is taken. -/
def derivesTaken (t : KernelTransition) : Bool :=
  match t.label with
  | .act _ ⟨.nextSequence creatorId purpose, .ok n⟩ =>
      (t.before.store.actors.find? (deriveAgentId creatorId purpose n)).isSome
  | _ => false

omit [Externals] in
/-- The second agent gets the number of the first, since the count looks for the purpose
as it was given, and the identifier has it sanitised. -/
theorem twoBots_taken :
    letI := reference
    ¬ ∀ tr pool, KernelRun tr pool → ∀ t ∈ tr, DerivesFresh tr t := by
  intro hclaim
  have htaken : (kernelPlayed twoBots).trace.any derivesTaken = true := by
    rw [kernelPlayed_eq]
    decide +kernel
  obtain ⟨t, ht, htaken⟩ := List.any_eq_true.mp htaken
  have hfresh := (hclaim _ _ (kernelRun_played twoBots) t ht).derived
  unfold derivesTaken at htaken
  split at htaken
  · next id creatorId purpose n hlabel =>
    rw [hfresh id creatorId purpose n hlabel] at htaken
    cases htaken
  · cases htaken

end PunkgoKernel
