import PunkgoKernel.Laws.Creation
import PunkgoKernel.Laws.Lineage

/-!
# Freezing

A lifecycle operation is committed first and carried out afterwards, by the same
request and on the agent it was authorised for (`Targets`). A freeze also
freezes whom the query over the lineage column takes for descendants: it compares
text with `LIKE`, and an agent can have created a human. The lineage of every actor
is its creator alone (`KernelRun.lineagesOfOne`), so a human is frozen with an agent
exactly if the agent's id, as a pattern, matches the id of the human's creator as the
column spells it (`Resembles`). For plain ids this is to be the same id but for the
case of letters. Nothing ever unfreezes a human, so the humans are all active exactly
as long as no such freeze is carried out (`run_humans_active_iff`).
-/

namespace PunkgoKernel

open Json (Value)
open Relational (Table key)
open Resumption

/-! ## Whom a lifecycle operation is about -/

theorem uncarried_fault {op : Op} {x : KernelResult (Val op)} (h : refuses op x) {past : Past} :
    uncarried (⟨op, x⟩ :: past) = uncarried past := by
  cases op with
  | consumeBudget tx =>
    obtain ⟨e, -, rfl | rfl⟩ := h <;> rfl
  | _ =>
    obtain ⟨e, -, rfl⟩ := h
    exact uncarried_error

variable [Externals]

omit [Externals] in
/-- A lifecycle operation is a human's, of an agent that has it in its
lineage. -/
theorem validateLifecycleAuthorization_ok {initiator target : ActorRecord} {op : LifecycleOp}
    (h : validateLifecycleAuthorization initiator target op = .ok ()) :
    target.actorType = .agent ∧ initiator.actorType = .human ∧
      initiator.actorId ∈ target.lineage := by
  unfold validateLifecycleAuthorization at h
  split at h
  · cases h
  next hhuman =>
  split at h
  · cases h
  next htype =>
  split at h
  · next hmem =>
    refine ⟨?_, htype, hmem⟩
    cases hagent : target.actorType with
    | human => exact absurd hagent hhuman
    | agent => rfl
  · cases h

omit [Externals] in
/-- The agent a request has still to freeze, unfreeze or give a share, it saw
to be an agent; and whoever committed that is a human. -/
def Targets (past : Past) : Prop :=
  ∀ targetId op, uncarried past = some (targetId, op) →
    ∃ target, Saw past (.getActor targetId) (some target) ∧ target.actorType = .agent

theorem FinalizeAllowed.targets {past : Past} {tx : FinalizeTx} (h : FinalizeAllowed past tx)
    {targetId : String} {op : LifecycleOp} (hop : tx.event.lifecycle = some (targetId, op)) :
    ∃ initiator target, Saw past (.getActor tx.event.actorId) (some initiator) ∧
      initiator.actorType = .human ∧ Saw past (.getActor targetId) (some target) ∧
      target.actorType = .agent := by
  obtain ⟨env, action, artifactHash, hevent, -, -, -, -, -, -, -, hmanaged⟩ := h
  rw [hevent, lifecycle_draftEvent] at hop
  obtain ⟨initiator, target, hinitiator, htarget, hvalid⟩ := hmanaged targetId op hop
  obtain ⟨hagent, hhuman, -⟩ := validateLifecycleAuthorization_ok hvalid
  refine ⟨initiator, target, ?_, hhuman, htarget, hagent⟩
  rw [hevent]
  exact hinitiator

theorem KernelRun.targets {tr : List KernelTransition} {pool : KernelPool}
    (h : KernelRun tr pool) : ∀ task ∈ pool.tasks, Targets task.past := by
  have hkeep : ∀ {past : Past} {op : Op} {x : KernelResult (Val op)},
      uncarried (⟨op, x⟩ :: past) = uncarried past → Targets past → Targets (⟨op, x⟩ :: past) := by
    intro past op x hsame hpast targetId lifecycleOp hop
    rw [hsame] at hop
    obtain ⟨target, hsaw, hagent⟩ := hpast targetId lifecycleOp hop
    exact ⟨target, List.mem_cons_of_mem _ hsaw, hagent⟩
  refine kernelContract.pasts (W := Targets) (fun _ _ h => by cases h) ?_ ?_ h
    (fun _ _ _ _ _ => trivial)
  · intro past op db _ _ hallowed hpast
    show Targets (⟨op, (exec op db).1⟩ :: past)
    rcases exec_cases op db with ⟨v, db', -, hexec⟩ | ⟨e, -, hexec⟩
    swap
    · rw [hexec]
      exact hkeep uncarried_error hpast
    rw [hexec]
    cases op with
    | finalize tx =>
      intro targetId lifecycleOp hop
      obtain ⟨initiator, target, -, -, hsaw, hagent⟩ := FinalizeAllowed.targets hallowed hop
      exact ⟨target, List.mem_cons_of_mem _ hsaw, hagent⟩
    | executeFreeze | executeUnfreeze | executeUpdateEnergyShare =>
      intro targetId lifecycleOp hop
      cases hop
    | _ => exact hkeep (uncarried_keeps rfl) hpast
  · intro past op x hx hpast
    exact hkeep (uncarried_fault hx) hpast

/-- What is carried out is about an agent. -/
theorem CarryAllowed.agent {past : Past} {op : Op} {db : Db} (h : CarryAllowed past op)
    (htargets : Targets past) (hknown : ∀ d ∈ past, known db d) :
    ∃ targetId lifecycleOp agent, op = lifecycleCall targetId lifecycleOp ∧
      uncarried past = some (targetId, lifecycleOp) ∧
      db.actors.find? targetId = some agent ∧ agent.actorType = .agent := by
  obtain ⟨targetId, lifecycleOp, huncarried, hop⟩ := h
  obtain ⟨target, hsaw, hagent⟩ := htargets targetId lifecycleOp huncarried
  obtain ⟨agent, hfind, htype⟩ := hknown _ hsaw
  exact ⟨targetId, lifecycleOp, agent, hop, huncarried, hfind, htype.trans hagent⟩

/-! ## The humans are active -/

omit [Externals] in
def HumansActive (db : Db) : Prop :=
  ∀ actorId actor, db.actors.find? actorId = some actor → actor.actorType = .human →
    actor.status = .active

omit [Externals] in
/-- An id that is taken as a pattern matches what stands between quotation marks in
the lineage of an actor with this creator. -/
def Resembles (targetId creatorId : String) : Prop := Shown targetId [creatorId]

/-- The step freezes an agent whose id resembles that of an active human's creator. -/
def FreezesHuman (t : KernelTransition) : Prop :=
  ∃ id targetId x, t.label = .act id ⟨.executeFreeze targetId, x⟩ ∧ ShortId targetId ∧
    ∃ humanId human creatorId, t.before.store.actors.find? humanId = some human ∧
      human.actorType = .human ∧ human.status = .active ∧ human.creatorId = some creatorId ∧
      Resembles targetId creatorId

/-- The step freezes an agent whose id is that of an active human's creator, but for
the case of letters. -/
def FreezesNamesake (t : KernelTransition) : Prop :=
  ∃ id targetId x, t.label = .act id ⟨.executeFreeze targetId, x⟩ ∧
    ∃ humanId human creatorId, t.before.store.actors.find? humanId = some human ∧
      human.actorType = .human ∧ human.status = .active ∧ human.creatorId = some creatorId ∧
      folded creatorId.toList = folded targetId.toList

/-- If the step carries out a freeze, its target's id is short and no pattern but of
itself, and the ids of the creators are spelled and read as they are. -/
structure FreezesPlainly (t : KernelTransition) : Prop where
  target : ∀ id targetId x, t.label = .act id ⟨.executeFreeze targetId, x⟩ →
    ShortId targetId ∧ PlainPattern targetId
  creators : ∀ actorId actor creatorId, t.before.store.actors.find? actorId = some actor →
    actor.creatorId = some creatorId → PlainId creatorId

omit [Externals] in
/-- Among plain ids only a namesake of the creator is mistaken for it. -/
theorem FreezesPlainly.freezesHuman_iff {t : KernelTransition} (h : FreezesPlainly t) :
    FreezesHuman t ↔ FreezesNamesake t := by
  constructor
  · rintro ⟨id, targetId, x, hlabel, -, humanId, human, creatorId, hfind, htype, hactive, hcreator,
      hresembles⟩
    refine ⟨id, targetId, x, hlabel, humanId, human, creatorId, hfind, htype, hactive, hcreator, ?_⟩
    exact (shown_plain (h.creators humanId human creatorId hfind hcreator)
      (h.target id targetId x hlabel).2).mp hresembles
  · rintro ⟨id, targetId, x, hlabel, humanId, human, creatorId, hfind, htype, hactive, hcreator,
      hfolded⟩
    obtain ⟨hshort, hplain⟩ := h.target id targetId x hlabel
    refine ⟨id, targetId, x, hlabel, hshort, humanId, human, creatorId, hfind, htype, hactive,
      hcreator, ?_⟩
    exact (shown_plain (h.creators humanId human creatorId hfind hcreator) hplain).mpr hfolded

omit [Externals] in
/-- The query finds a human exactly if the target resembles the creator of an active
one. -/
theorem finds_human_iff {targetId : String} {db : Db} (hlineages : LineagesOfOne db) :
    (∃ actor ∈ ActorStore.descendants targetId db, actor.actorType = .human) ↔
      ∃ humanId human creatorId, db.actors.find? humanId = some human ∧
        human.actorType = .human ∧ human.status = .active ∧ human.creatorId = some creatorId ∧
        Resembles targetId creatorId := by
  constructor
  · rintro ⟨human, hmem, htype⟩
    obtain ⟨hrow, hactive, hshown⟩ := mem_descendants.mp hmem
    have hfind : db.actors.find? human.actorId = some human := Table.find?_of_mem hrow
    have hlineage := hlineages human.actorId human hfind
    cases hcreator : human.creatorId with
    | none =>
      rw [hcreator] at hlineage
      rw [hlineage] at hshown
      exact absurd hshown not_shown_nil
    | some creatorId =>
      rw [hcreator] at hlineage
      refine ⟨human.actorId, human, creatorId, hfind, htype, hactive, hcreator, ?_⟩
      rw [hlineage] at hshown
      exact hshown
  · rintro ⟨humanId, human, creatorId, hfind, htype, hactive, hcreator, hresembles⟩
    refine ⟨human, mem_descendants.mpr ⟨Table.mem_of_find? hfind, hactive, ?_⟩, htype⟩
    rw [hlineages humanId human hfind, hcreator]
    exact hresembles

omit [Externals] in
/-- What sets no human's status keeps the humans active, and no human becomes
active again. -/
theorem RowsFrom.humansActive_iff {op : Op} {db db' : Db} (h : RowsFrom op db db')
    (hset : ∀ actorId actor status, db.actors.find? actorId = some actor →
      op.SetsStatus actorId status → actor.actorType = .agent)
    (hcreates : ∀ row, op.Creates row → ∀ actorId status, ¬ op.SetsStatus actorId status) :
    HumansActive db' ↔ HumansActive db := by
  constructor
  · intro hdb' actorId actor hactor hhuman
    obtain ⟨actor', hactor', hchange⟩ := h.kept actorId actor hactor
    have hactive := hdb' actorId actor' hactor' (hchange.same.actorType.trans hhuman)
    rcases hchange.status with hsame | hsets
    · rw [← hsame, hactive]
    · rw [hset actorId actor _ hactor hsets] at hhuman
      cases hhuman
  · intro hdb actorId actor' hactor' hhuman
    rcases h.source actorId actor' hactor' with ⟨actor, hactor, hchange⟩ | ⟨-, row, hrow, hchange⟩
    · rw [hchange.same.actorType] at hhuman
      rcases hchange.status with hsame | hsets
      · rw [hsame]
        exact hdb actorId actor hactor hhuman
      · rw [hset actorId actor _ hactor hsets] at hhuman
        cases hhuman
    · rcases hchange.status with hsame | hsets
      · obtain ⟨spec, -, hnew⟩ := hrow.creation
        rw [hsame, hnew.status]
      · exact absurd hsets (hcreates row hrow _ _)

omit [Externals] in
/-- A freeze freezes a human exactly if it finds one. -/
theorem executeFreeze_humansActive_iff {targetId : String} {db db' : Db} {agent : ActorRecord}
    (hagent : db.actors.find? targetId = some agent) (htype : agent.actorType = .agent)
    (hrows : ∀ x, db'.actors.find? x = if x ∈ frozenBy targetId db
        then (db.actors.find? x).map fun r => { r with status := .frozen }
        else db.actors.find? x) :
    HumansActive db' ↔
      (¬ ∃ actor ∈ ActorStore.descendants targetId db, actor.actorType = .human) ∧
        HumansActive db := by
  -- a descendant is found under its own id
  have hfound : ∀ {actor}, actor ∈ ActorStore.descendants targetId db →
      db.actors.find? actor.actorId = some actor := by
    intro actor hmem
    exact Table.find?_of_mem (List.mem_filter.mp hmem).1
  constructor
  · intro hdb'
    refine ⟨?_, ?_⟩
    · rintro ⟨actor, hmem, hhuman⟩
      have hfrozen := hrows actor.actorId
      have hlisted : actor.actorId ∈ frozenBy targetId db :=
        List.mem_cons_of_mem _ (List.mem_map_of_mem hmem)
      rw [if_pos hlisted, hfound hmem] at hfrozen
      have hactive := hdb' actor.actorId _ hfrozen hhuman
      cases hactive
    · intro actorId actor hactor hhuman
      have hafter := hrows actorId
      rw [hactor] at hafter
      split at hafter
      · have hactive := hdb' actorId _ hafter hhuman
        cases hactive
      · exact hdb' actorId actor hafter hhuman
  · rintro ⟨hnone, hdb⟩ actorId actor' hactor' hhuman
    rw [hrows actorId] at hactor'
    split at hactor'
    · next hmem =>
      obtain ⟨actor, hactor, rfl⟩ := Option.map_eq_some_iff.mp hactor'
      rcases List.mem_cons.mp hmem with rfl | hmem
      · rw [hagent] at hactor
        cases hactor
        rw [show agent.actorType = .human from hhuman] at htype
        cases htype
      · obtain ⟨descendant, hdescendant, rfl⟩ := List.mem_map.mp hmem
        rw [hfound hdescendant] at hactor
        cases hactor
        exact absurd ⟨_, hdescendant, hhuman⟩ hnone
    · exact hdb actorId actor' hactor' hhuman

/-- One step: the humans are still all active exactly if they were before and
this was no freeze of one. -/
theorem exec_humansActive_iff {past : Past} {op : Op} {t : KernelTransition} {id : Nat}
    (hallowed : allowed past op) (hknown : ∀ d ∈ past, known t.before.store d)
    (htargets : Targets past) (hlineages : LineagesOfOne t.before.store)
    (hlabel : t.label = .act id ⟨op, (exec op t.before.store).1⟩) :
    HumansActive (exec op t.before.store).2 ↔ ¬ FreezesHuman t ∧ HumansActive t.before.store := by
  have hother : (∀ targetId, op ≠ .executeFreeze targetId) → ¬ FreezesHuman t := by
    rintro hop ⟨id', targetId, x, hact, -⟩
    rw [hlabel] at hact
    cases hact
    exact hop targetId rfl
  have hrows := exec_rows op t.before.store
  cases op with
  | executeFreeze targetId =>
    obtain ⟨targetId', lifecycleOp, agent, hop, -, hagent, htype⟩ :=
      CarryAllowed.agent hallowed htargets hknown
    obtain rfl : targetId = targetId' := by
      cases lifecycleOp <;> cases hop <;> rfl
    have hfreezes : FreezesHuman t ↔ ShortId targetId ∧
        ∃ actor ∈ ActorStore.descendants targetId t.before.store, actor.actorType = .human := by
      rw [finds_human_iff hlineages]
      constructor
      · rintro ⟨id', targetId', x, hact, hfound⟩
        rw [hlabel] at hact
        cases hact
        exact hfound
      · intro hfound
        exact ⟨id, targetId, _, hlabel, hfound⟩
    have hexists : (t.before.store.actors.find? targetId).isSome := by
      rw [hagent]
      rfl
    rw [hfreezes]
    rcases exec_executeFreeze hexists with ⟨hshort, db', hexec, hafter⟩ | ⟨hlong, e, hexec⟩
    · rw [hexec, and_iff_right hshort]
      exact executeFreeze_humansActive_iff hagent htype hafter
    · -- the pattern is refused and nobody is frozen
      rw [hexec]
      exact ⟨fun h => ⟨fun hfound => hlong hfound.1, h⟩, fun h => h.2⟩
  | executeUnfreeze targetId =>
    obtain ⟨targetId', lifecycleOp, agent, hop, -, hagent, htype⟩ :=
      CarryAllowed.agent hallowed htargets hknown
    obtain rfl : targetId = targetId' := by
      cases lifecycleOp <;> cases hop
      rfl
    rw [hrows.humansActive_iff ?_ (fun _ hrow => by cases hrow)]
    · exact ⟨fun h => ⟨hother (fun _ h => by cases h), h⟩, fun h => h.2⟩
    rintro actorId actor status hactor ⟨rfl, -⟩
    rw [hagent] at hactor
    cases hactor
    exact htype
  | _ =>
    rw [hrows.humansActive_iff (fun _ _ _ _ hset => by cases hset)
      (fun _ _ _ _ hset => by cases hset)]
    exact ⟨fun h => ⟨hother (fun _ h => by cases h), h⟩, fun h => h.2⟩

/-- In every run the humans are all active exactly if no freeze was carried out of an
agent whose id resembles that of an active human's creator; and where the ids are
plain, exactly if none was carried out of such a creator's namesake. -/
theorem run_humans_active_iff {tr : List KernelTransition} {pool : KernelPool}
    (h : KernelRun tr pool) :
    (HumansActive pool.store ↔ ∀ t ∈ tr, ¬ FreezesHuman t) ∧
      ((∀ t ∈ tr, FreezesPlainly t) →
        (HumansActive pool.store ↔ ∀ t ∈ tr, ¬ FreezesNamesake t)) := by
  suffices hiff : HumansActive pool.store ↔ ∀ t ∈ tr, ¬ FreezesHuman t by
    refine ⟨hiff, fun hplain => hiff.trans ?_⟩
    exact forall₂_congr fun t ht => ((hplain t ht).freezesHuman_iff).not
  refine kernelContract.invariant
    (P := fun tr pool => HumansActive pool.store ↔ ∀ t ∈ tr, ¬ FreezesHuman t)
    (G := fun _ => True) ?_ ?_ h (fun _ _ _ _ _ => trivial) (fun _ _ => trivial)
  · refine ⟨fun _ t ht => (by cases ht), fun _ actorId actor hfind _ => ?_⟩
    have hmem : actor ∈ [StateStore.rootActor] := Table.mem_of_find? hfind
    rw [List.mem_singleton] at hmem
    rw [hmem]
    rfl
  intro tr pool l pool' hr hs hinv hkeeps _ hP
  rw [List.forall_mem_cons, ← hP]
  -- a step that performs nothing
  have hidle : (∀ id d, l ≠ .act id d) → pool'.store = pool.store →
      (HumansActive pool'.store ↔ ¬ FreezesHuman ⟨pool, l⟩ ∧ HumansActive pool.store) := by
    intro hl hsame
    rw [hsame]
    refine ⟨fun h => ⟨?_, h⟩, fun h => h.2⟩
    rintro ⟨id, targetId, x, hact, -⟩
    exact hl _ _ hact
  cases hs with
  | act store before after id op k past =>
    have hme := hkeeps ⟨id, .vis op k, past⟩ (by simp)
    have htargets : Targets past := KernelRun.targets hr ⟨id, .vis op k, past⟩ (by simp)
    have hlineages : LineagesOfOne store := KernelRun.lineagesOfOne hr
    exact @exec_humansActive_iff _ past op
      ⟨⟨store, before ++ ⟨id, .vis op k, past⟩ :: after⟩, .act id ⟨op, (exec op store).1⟩⟩ id
      hme.honors.1 hme.known htargets hlineages rfl
  | restart store store' tasks hboot =>
    exact hidle (fun _ _ h => by cases h) (bootstrap_eq hinv.1 hboot)
  | _ => exact hidle (fun _ _ h => by cases h) rfl

/-- Root's request to freeze, unfreeze or terminate an agent. -/
def lifecycleAt (n : Nat) (actorId op : String) : Request :=
  submitAt n "root" .mutate s!"actor/{actorId}" (Json.object [("op", .str op)])

/-- Root creates an agent and a human, and freezes the agent. -/
def agentFrozen (agentId : String) : List (Turn Request) :=
  alone 30 (createAgent 0 agentId 500) ++
    alone 30 (submitAt 1 "root" .create "ledger/actor" (Json.object
      [("actor_id", .str "bob"), ("actor_type", .str "human")])) ++
    alone 30 (lifecycleAt 2 agentId "freeze")

omit [Externals] in
/-- Freezing an agent leaves the human beside it active, as the human's lineage does not
name the agent. -/
theorem humansActive_agentFrozen :
    letI := reference
    ((kernelPlayed (agentFrozen "agent-1")).pool.store.actors.find? "agent-1").map (·.status) =
        some .frozen ∧
      ∀ t ∈ (kernelPlayed (agentFrozen "agent-1")).trace, ¬ FreezesHuman t := by
  have hplayed : ((kernelPlayed (agentFrozen "agent-1")).pool.store.actors.find? "agent-1").map
        (·.status) = some .frozen ∧
      (kernelPlayed (agentFrozen "agent-1")).pool.store.actors.rows.all (fun actor =>
        actor.actorType = .agent || actor.status = .active) = true := by
    rw [kernelPlayed_eq]
    decide +kernel
  obtain ⟨hfrozen, hactive⟩ := hplayed
  refine ⟨hfrozen, (@run_humans_active_iff reference _ _
    (kernelRun_played (agentFrozen "agent-1"))).1.mp ?_⟩
  intro actorId actor hfind hhuman
  have hrow := List.all_eq_true.mp hactive actor (Table.mem_of_find? hfind)
  rw [Bool.or_eq_true, decide_eq_true_eq, decide_eq_true_eq] at hrow
  rcases hrow with hagent | hactive
  · rw [hhuman] at hagent
    cases hagent
  · exact hactive

omit [Externals] in
/-- The lineage of root's human matches an agent called `ROOT`, since the query does not
mind the case of letters. -/
theorem agentFrozen_freezes_human :
    letI := reference
    ¬ ∀ tr pool, KernelRun tr pool → HumansActive pool.store := by
  intro hclaim
  have hbob : ((kernelPlayed (agentFrozen "ROOT")).pool.store.actors.find? "bob").map
      (fun actor => (actor.actorType, actor.status)) = some (.human, .frozen) := by
    rw [kernelPlayed_eq]
    decide +kernel
  obtain ⟨bob, hfind, hrow⟩ := Option.map_eq_some_iff.mp hbob
  obtain ⟨htype, hstatus⟩ := Prod.mk.inj hrow
  have hactive := hclaim _ _ (kernelRun_played (agentFrozen "ROOT")) "bob" bob hfind htype
  rw [hstatus] at hactive
  cases hactive

end PunkgoKernel
