import PunkgoKernel.Laws.Contract
import PunkgoKernel.Runtime.Evaluation

/-!
# Where actors come from

A row of the actors table never goes away, and what it says of its actor stays,
but for the status and the share (`RowsFrom`). The creator an actor names is the
actor of the action that created it, who was seen to exist first.

The kernel refuses an agent that creates an agent. It does not refuse an agent
that creates a human (`AgentCreatesHuman`), and that is all that is missing
(`run_humans_create_iff`).
-/

namespace PunkgoKernel

open Json (Value)
open Relational (Table key)
open Resumption

/-! ## The actors' rows -/

variable [Externals]

/-- An operation may turn the first row of an actor into the second. -/
structure RowChange (op : Op) (actorId : String) (r r' : ActorRecord) : Prop where
  same : SameActor r r'
  status : r'.status = r.status ∨ op.SetsStatus actorId r'.status

omit [Externals] in
/-- A row may stay as it is. -/
theorem RowChange.refl (op : Op) (actorId : String) (r : ActorRecord) : RowChange op actorId r r :=
  ⟨.refl r, .inl rfl⟩

omit [Externals] in
/-- Two changes of a row by one operation are one. -/
theorem RowChange.trans {op : Op} {actorId : String} {a b c : ActorRecord}
    (h : RowChange op actorId a b) (h' : RowChange op actorId b c) : RowChange op actorId a c := by
  refine ⟨h.same.trans h'.same, ?_⟩
  rcases h'.status with hsame | hset
  · rw [hsame]
    exact h.status
  · exact .inr hset

/-- Where the rows after an operation come from: none is lost, and each was
there before or was created by the operation. -/
structure RowsFrom (op : Op) (db db' : Db) : Prop where
  kept : ∀ actorId r, db.actors.find? actorId = some r →
    ∃ r', db'.actors.find? actorId = some r' ∧ RowChange op actorId r r'
  source : ∀ actorId r', db'.actors.find? actorId = some r' →
    (∃ r, db.actors.find? actorId = some r ∧ RowChange op actorId r r') ∨
      (db.actors.find? actorId = none ∧ ∃ row, op.Creates row ∧ RowChange op actorId row r')

omit [Externals] in
/-- Where nothing is done, every row comes from itself. -/
theorem RowsFrom.refl (op : Op) (db : Db) : RowsFrom op db db where
  kept actorId r h := ⟨r, h, .refl op actorId r⟩
  source actorId r h := .inl ⟨r, h, .refl op actorId r⟩

omit [Externals] in
/-- Where rows come from over two steps of one operation. -/
theorem RowsFrom.trans {op : Op} {a b c : Db} (h : RowsFrom op a b) (h' : RowsFrom op b c) :
    RowsFrom op a c where
  kept actorId r hr := by
    obtain ⟨r₁, hr₁, hchange₁⟩ := h.kept actorId r hr
    obtain ⟨r₂, hr₂, hchange₂⟩ := h'.kept actorId r₁ hr₁
    exact ⟨r₂, hr₂, hchange₁.trans hchange₂⟩
  source actorId r₂ hr₂ := by
    rcases h'.source actorId r₂ hr₂ with ⟨r₁, hr₁, hchange₂⟩ | ⟨hnone, row, hrow, hchange₂⟩
    · rcases h.source actorId r₁ hr₁ with ⟨r, hr, hchange₁⟩ | ⟨hnone, row, hrow, hchange₁⟩
      · exact .inl ⟨r, hr, hchange₁.trans hchange₂⟩
      · exact .inr ⟨hnone, row, hrow, hchange₁.trans hchange₂⟩
    · refine .inr ⟨?_, row, hrow, hchange₂⟩
      cases hbefore : a.actors.find? actorId with
      | none => rfl
      | some r =>
        obtain ⟨r₁, hr₁, -⟩ := h.kept actorId r hbefore
        rw [hnone] at hr₁
        cases hr₁

/-- Whatever an operation does, no row of an actor is lost, and only a commit that
creates one brings one in. -/
theorem Effect.rows {op : Op} {db db' : Db} (h : Effect op db db') : RowsFrom op db db' := by
  have base := RowsFrom.refl op db
  cases h with
  | newActor row balance ledger actors hcreates _ _ hins =>
    constructor
    · intro actorId r hr
      exact ⟨r, Table.find?_insert_of_some hins hr, .refl op actorId r⟩
    · intro actorId r' hr'
      have hfind : actors.find? actorId = some r' := hr'
      rw [Table.find?_insert hins] at hfind
      split at hfind
      · next hx =>
        cases hfind
        exact .inr ⟨hx ▸ (Table.insert?_eq_some hins).1, _, hcreates, .refl op actorId _⟩
      · exact .inl ⟨r', hfind, .refl op actorId r'⟩
  | actor actorId f hf hsame hstatus =>
    constructor
    · intro id r hr
      have hfind := Table.find?_modify db.actors actorId id f hf
      split at hfind
      · next hid =>
        subst hid
        rw [hr, Option.map_some] at hfind
        exact ⟨f r, hfind, hsame r, hstatus r⟩
      · exact ⟨r, hfind.trans hr, .refl op id r⟩
    · intro id r' hr'
      have hfind := Table.find?_modify db.actors actorId id f hf
      rw [show (db.actors.modify actorId f hf).find? id = some r' from hr'] at hfind
      split at hfind
      · next hid =>
        subst hid
        obtain ⟨r, hr, rfl⟩ := Option.map_eq_some_iff.mp hfind.symm
        exact .inl ⟨r, hr, hsame r, hstatus r⟩
      · exact .inl ⟨r', hfind.symm, .refl op id r'⟩
  | _ => exact ⟨base.kept, base.source⟩

/-- Whether an operation succeeds or fails, the rows come from those before and from
what it creates. -/
theorem exec_rows (op : Op) (db : Db) : RowsFrom op db (exec op db).2 :=
  (exec_effects op db).relate (RowsFrom.refl op) RowsFrom.trans Effect.rows

/-- A commit that creates an actor leaves its row. -/
theorem finalize_creates {tx : FinalizeTx} {db db' : Db} {ev : EventRecord}
    {spec : CreateActorSpec} (h : finalizeEnergyAndEvent tx db = .ok (ev, db'))
    (hspec : tx.createActor = some spec) :
    ∃ row, db'.actors.find? spec.actorId = some row ∧ ActorStore.NewRow spec row := by
  obtain ⟨db₁, db₂, db₃, events, hashes, -, hcreate, henvelope, -, rfl⟩ := finalize_eq_ok h
  rw [hspec] at hcreate
  obtain ⟨-, -, row, ledger, actors, hnew, -, hins, rfl⟩ := createActorRows_eq_ok hcreate
  have hfind : actors.find? spec.actorId = some row := by
    rw [Table.find?_insert hins]
    exact if_pos hnew.actorId
  have hsame : Effects (.finalize tx) _ db₃ := createEnvelopeRow_effects henvelope
  obtain ⟨row', hrow', hchange⟩ := (hsame.relate (RowsFrom.refl _) RowsFrom.trans Effect.rows).kept
    spec.actorId row hfind
  refine ⟨row', hrow', ?_⟩
  have hstatus : row'.status = row.status := by
    rcases hchange.status with hsame | hset
    · exact hsame
    · cases hset
  exact
    { actorId := hchange.same.actorId.trans hnew.actorId
      actorType := hchange.same.actorType.trans hnew.actorType
      creatorId := hchange.same.creatorId.trans hnew.creatorId
      lineage := hchange.same.lineage.trans hnew.lineage
      purpose := hchange.same.purpose.trans hnew.purpose
      status := hstatus.trans hnew.status }

/-! ## What a request saw of its actor -/

omit [Externals] in
/-- No answer says that an actor is missing who was seen to exist. -/
def Consistent : Past → Prop
  | [] => True
  | d :: older =>
    (∀ actorId, d = ⟨.getActor actorId, .ok none⟩ → ¬ Saw older (.actorExists actorId) true) ∧
      Consistent older

omit [Externals] in
/-- An earlier part of a consistent past is consistent. -/
theorem Consistent.suffix {newer older : Past} (h : Consistent (newer ++ older)) :
    Consistent older := by
  induction newer with
  | nil => exact h
  | cons d rest ih => exact ih h.2

/-- No request in flight misses an actor that it has seen to exist: rows of actors never
go away. -/
theorem KernelRun.consistent {tr : List KernelTransition} {pool : KernelPool}
    (h : KernelRun tr pool) : ∀ task ∈ pool.tasks, Consistent task.past := by
  refine kernelContract.pasts (W := Consistent) trivial ?_ ?_ h (fun _ _ _ _ _ => trivial)
  · intro past op db _ hknown _ hpast
    refine ⟨?_, hpast⟩
    intro actorId heq hsaw
    obtain ⟨actor, row, hrow, -⟩ := hknown _ hsaw rfl
    cases op with
    | getActor id =>
      have hans : (⟨.getActor id, .ok (db.actors.find? id)⟩ : Performed KernelSig) =
          ⟨.getActor actorId, .ok none⟩ := heq
      injection hans with hop hval
      injection hop with hid
      subst hid
      rw [hrow] at hval
      cases hval
    | _ =>
      injection heq with hop _
      cases hop
  · intro past op x hx hpast
    refine ⟨?_, hpast⟩
    intro actorId heq
    cases heq
    obtain ⟨e, -, herr⟩ := hx
    cases herr

/-! ## Who creates whom -/

/-- Every actor but root names a human as its creator. -/
def HumansCreate (db : Db) : Prop :=
  ∀ actorId actor, db.actors.find? actorId = some actor → actorId ≠ "root" →
    ∃ creatorId creator, actor.creatorId = some creatorId ∧
      db.actors.find? creatorId = some creator ∧ creator.actorType = .human

/-- Every actor but root names an actor as its creator. -/
def CreatorsExist (db : Db) : Prop :=
  ∀ actorId actor, db.actors.find? actorId = some actor → actorId ≠ "root" →
    ∃ creatorId creator, actor.creatorId = some creatorId ∧
      db.actors.find? creatorId = some creator

/-- The actor a commit creates. -/
def Op.creation : Op → Option CreateActorSpec
  | .finalize tx => tx.createActor
  | _ => none

/-- The step commits an agent's creation of a human. -/
def AgentCreatesHuman (t : KernelTransition) : Prop :=
  ∃ id op v spec creator, t.label = .act id ⟨op, .ok v⟩ ∧ Op.creation op = some spec ∧
    spec.actorType = .human ∧ t.before.store.actors.find? spec.creatorId = some creator ∧
    creator.actorType = .agent

omit [Externals] in
/-- A commit that brings in a row of an actor creates that actor. -/
theorem Op.Creates.creation {op : Op} {row : ActorRecord} (h : op.Creates row) :
    ∃ spec, op.creation = some spec ∧ ActorStore.NewRow spec row := by
  cases op with
  | finalize tx => exact h
  | _ => cases h

omit [Externals] in
/-- Whoever the creator is, the lineage of a new actor is its creator alone. -/
theorem buildLineage_eq (creatorType : ActorType) (creatorId : String)
    (creatorLineage : List String) :
    buildLineage creatorType creatorId creatorLineage = [creatorId] := by
  cases creatorType <;> rfl

omit [Externals] in
/-- What a new actor has from its request. -/
structure SpecFrom (action : Action) (actorId : String) (creator : Option ActorRecord)
    (spec : CreateActorSpec) : Prop where
  actorId : spec.actorId = actorId
  creatorId : spec.creatorId = action.actorId
  lineage : spec.lineage = [action.actorId]
  energyBalance : spec.energyBalance =
    ((action.payload.get? "energy_balance").bind Value.asI64?).getD 1000
  agents : ¬ ((creator.map (·.actorType)).getD .human = .agent ∧ spec.actorType = .agent)

/-- An accepted creation, field by field. -/
theorem actorSpecFrom_spec {action : Action} {actorId purpose : String} {actorType : ActorType}
    {creator : Option ActorRecord} {spec : CreateActorSpec}
    (h : actorSpecFrom action actorId purpose actorType creator = .ok spec) :
    ¬ ((creator.map (·.actorType)).getD .human = .agent ∧ actorType = .agent) ∧
      ∃ writableTargets, spec =
        { actorId := actorId
          actorType := actorType
          creatorId := action.actorId
          lineage := [action.actorId]
          purpose := some purpose
          writableTargets := writableTargets
          energyBalance := ((action.payload.get? "energy_balance").bind Value.asI64?).getD 1000
          energyShare := ((action.payload.get? "energy_share").bind Value.asF64?).getD 0
          reductionPolicy :=
            ((action.payload.get? "reduction_policy").bind Value.asStr?).getD "none" } := by
  unfold actorSpecFrom at h
  simp only [buildLineage_eq] at h
  split at h
  · cases h
  next hallowed =>
  obtain ⟨writableTargets, -, h⟩ := bind_eq_ok.mp h
  refine ⟨hallowed, writableTargets, ?_⟩
  cases creator with
  | none =>
    cases h
    rfl
  | some c =>
    obtain ⟨_, -, h⟩ := bind_eq_ok.mp h
    cases h
    rfl

/-- What a creation that is let through says of the new actor. -/
theorem actorSpecFrom_eq_ok {action : Action} {actorId purpose : String} {actorType : ActorType}
    {creator : Option ActorRecord} {spec : CreateActorSpec}
    (h : actorSpecFrom action actorId purpose actorType creator = .ok spec) :
    SpecFrom action actorId creator spec := by
  obtain ⟨hallowed, writableTargets, rfl⟩ := actorSpecFrom_spec h
  exact ⟨rfl, rfl, rfl, rfl, hallowed⟩

/-- The creator of a new actor is there, and the creator is no agent unless the
new actor is a human. -/
theorem FinalizeAllowed.creator {past : Past} {tx : FinalizeTx} {db : Db}
    {spec : CreateActorSpec} (hallowed : FinalizeAllowed past tx)
    (hknown : ∀ d ∈ past, known db d) (hconsistent : Consistent past)
    (hspec : tx.createActor = some spec) :
    ∃ creator, db.actors.find? spec.creatorId = some creator ∧
      (creator.actorType = .agent → spec.actorType = .human) := by
  obtain ⟨env, action, artifactHash, -, -, -, -, -, -, -, hproposed, -⟩ := hallowed
  obtain ⟨newer, older, actorId, purpose, actorType, found, rfl, hexists, hfrom⟩ :=
    hproposed spec hspec
  obtain ⟨-, hcreator, -, -, hagents⟩ := actorSpecFrom_eq_ok hfrom
  cases found with
  | none => exact absurd hexists (hconsistent.suffix.1 action.actorId rfl)
  | some seen =>
    obtain ⟨creator, hfind, htype⟩ := hknown ⟨.getActor action.actorId, .ok (some seen)⟩ (by simp)
    refine ⟨creator, by rw [hcreator, hfind], ?_⟩
    intro hagent
    cases hspecType : spec.actorType with
    | human => rfl
    | agent => exact absurd ⟨htype.symm.trans hagent, hspecType⟩ hagents

omit [Externals] in
/-- Creators go on to exist, if those of new rows do: no row goes away and none changes
its creator. -/
theorem RowsFrom.creatorsExist {op : Op} {db db' : Db} (h : RowsFrom op db db')
    (hnew : ∀ row, op.Creates row → ∃ creatorId creator, row.creatorId = some creatorId ∧
      db.actors.find? creatorId = some creator)
    (hdb : CreatorsExist db) : CreatorsExist db' := by
  intro actorId actor hactor hroot
  have hstays : ∀ {creatorId creator}, db.actors.find? creatorId = some creator →
      ∃ creator', db'.actors.find? creatorId = some creator' := by
    intro creatorId creator hcreator
    obtain ⟨creator', hcreator', -⟩ := h.kept creatorId creator hcreator
    exact ⟨creator', hcreator'⟩
  rcases h.source actorId actor hactor with ⟨r, hr, hchange⟩ | ⟨-, row, hrow, hchange⟩
  · obtain ⟨creatorId, creator, hnames, hcreator⟩ := hdb actorId r hr hroot
    obtain ⟨creator', hcreator'⟩ := hstays hcreator
    exact ⟨creatorId, creator', hchange.same.creatorId.trans hnames, hcreator'⟩
  · obtain ⟨creatorId, creator, hnames, hcreator⟩ := hnew row hrow
    obtain ⟨creator', hcreator'⟩ := hstays hcreator
    exact ⟨creatorId, creator', hchange.same.creatorId.trans hnames, hcreator'⟩

omit [Externals] in
/-- As long as what is created is created by humans, so are all actors; and what
an agent once created is there for good. -/
theorem RowsFrom.humansCreate_iff {op : Op} {db db' : Db} (h : RowsFrom op db db')
    (hnew : ∀ row, op.Creates row → ∃ creatorId creator, row.creatorId = some creatorId ∧
      db.actors.find? creatorId = some creator ∧ creator.actorType = .human)
    (hexist : CreatorsExist db) : HumansCreate db' ↔ HumansCreate db := by
  constructor
  · intro hdb' actorId actor hactor hroot
    obtain ⟨actor', hactor', hchange⟩ := h.kept actorId actor hactor
    obtain ⟨creatorId, creator', hnames, hcreator', htype⟩ := hdb' actorId actor' hactor' hroot
    obtain ⟨creatorId₀, creator, hnames₀, hcreator⟩ := hexist actorId actor hactor hroot
    obtain ⟨creator₁, hcreator₁, hchange₁⟩ := h.kept creatorId₀ creator hcreator
    rw [hchange.same.creatorId, hnames₀] at hnames
    obtain rfl : creatorId₀ = creatorId := Option.some.inj hnames
    rw [hcreator₁] at hcreator'
    cases hcreator'
    exact ⟨creatorId₀, creator, hnames₀, hcreator, hchange₁.same.actorType.symm.trans htype⟩
  · intro hdb actorId actor hactor hroot
    have hstays : ∀ {creatorId creator}, db.actors.find? creatorId = some creator →
        creator.actorType = .human →
        ∃ creator', db'.actors.find? creatorId = some creator' ∧ creator'.actorType = .human := by
      intro creatorId creator hcreator htype
      obtain ⟨creator', hcreator', hchange⟩ := h.kept creatorId creator hcreator
      exact ⟨creator', hcreator', hchange.same.actorType.trans htype⟩
    rcases h.source actorId actor hactor with ⟨r, hr, hchange⟩ | ⟨-, row, hrow, hchange⟩
    · obtain ⟨creatorId, creator, hnames, hcreator, htype⟩ := hdb actorId r hr hroot
      obtain ⟨creator', hcreator', htype'⟩ := hstays hcreator htype
      exact ⟨creatorId, creator', hchange.same.creatorId.trans hnames, hcreator', htype'⟩
    · obtain ⟨creatorId, creator, hnames, hcreator, htype⟩ := hnew row hrow
      obtain ⟨creator', hcreator', htype'⟩ := hstays hcreator htype
      exact ⟨creatorId, creator', hchange.same.creatorId.trans hnames, hcreator', htype'⟩

/-! ## Along every run -/

omit [Externals] in
/-- On the first start there is root alone. -/
theorem creators_genesis {actorId : String} {actor : ActorRecord}
    (h : StateStore.genesis.actors.find? actorId = some actor) : actorId = "root" := by
  have hmem : actor ∈ [StateStore.rootActor] := Table.mem_of_find? h
  have hkey := Table.key_of_find? h
  rw [List.mem_singleton] at hmem
  subst hmem
  exact hkey.symm

/-- In every run each actor but root names an actor that exists: the creator was seen to
exist before the creation was committed. -/
theorem KernelRun.creatorsExist {tr : List KernelTransition} {pool : KernelPool}
    (h : KernelRun tr pool) : CreatorsExist pool.store := by
  refine kernelContract.invariant (P := fun _ pool => CreatorsExist pool.store)
    (G := fun _ => True) (fun _ _ hfind hroot => absurd (creators_genesis hfind) hroot) ?_ h
    (fun _ _ _ _ _ => trivial) (fun _ _ => trivial)
  intro tr pool l pool' hr hs hinv hkeeps _ hP
  cases hs with
  | act store before after id op k past =>
    have hme := hkeeps ⟨id, .vis op k, past⟩ (by simp)
    have hconsistent : Consistent past := KernelRun.consistent hr ⟨id, .vis op k, past⟩ (by simp)
    refine (exec_rows op store).creatorsExist ?_ hP
    intro row hrow
    cases op with
    | finalize tx =>
      obtain ⟨spec, hspec, hnew⟩ := hrow
      obtain ⟨creator, hcreator, -⟩ :=
        FinalizeAllowed.creator hme.honors.1 hme.known hconsistent hspec
      exact ⟨spec.creatorId, creator, hnew.creatorId, hcreator⟩
    | _ => cases hrow
  | restart store store' tasks hboot =>
    rw [bootstrap_eq hinv.1 hboot]
    exact hP
  | _ => exact hP

/-- Every actor's lineage is its creator, and root, which has none, has no lineage:
whatever the creator's own lineage is, it is not passed on. -/
def LineagesOfOne (db : Db) : Prop :=
  ∀ actorId actor, db.actors.find? actorId = some actor → actor.lineage = actor.creatorId.toList

/-- In every run the lineage of an actor is its creator. -/
theorem KernelRun.lineagesOfOne {tr : List KernelTransition} {pool : KernelPool}
    (h : KernelRun tr pool) : LineagesOfOne pool.store := by
  refine kernelContract.invariant (P := fun _ pool => LineagesOfOne pool.store)
    (G := fun _ => True) ?_ ?_ h (fun _ _ _ _ _ => trivial) (fun _ _ => trivial)
  · intro actorId actor hfind
    have hmem : actor ∈ [StateStore.rootActor] := Table.mem_of_find? hfind
    rw [List.mem_singleton] at hmem
    rw [hmem]
    rfl
  intro tr pool l pool' hr hs hinv hkeeps _ hP
  cases hs with
  | act store before after id op k past =>
    have hme := hkeeps ⟨id, .vis op k, past⟩ (by simp)
    intro actorId actor hfind
    rcases (exec_rows op store).source actorId actor hfind with
      ⟨r, hr, hchange⟩ | ⟨-, row, hrow, hchange⟩
    · rw [hchange.same.lineage, hchange.same.creatorId]
      exact hP actorId r hr
    · rw [hchange.same.lineage, hchange.same.creatorId]
      cases op with
      | finalize tx =>
        obtain ⟨spec, hspec, hnew⟩ := hrow
        obtain ⟨env, action, artifactHash, -, -, -, -, -, -, -, hproposed, -⟩ := hme.honors.1
        obtain ⟨newer, older, newId, purpose, actorType, found, -, -, hfrom⟩ := hproposed spec hspec
        obtain ⟨-, hcreator, hlineage, -, -⟩ := actorSpecFrom_eq_ok hfrom
        rw [hnew.lineage, hnew.creatorId, hcreator, hlineage]
        rfl
      | _ => cases hrow
  | restart store store' tasks hboot =>
    rw [bootstrap_eq hinv.1 hboot]
    exact hP
  | _ => exact hP

/-- What an operation creates has a creator, as the protocol has it. -/
theorem allowed_creation {past : Past} {op : Op} {db : Db} {spec : CreateActorSpec}
    (hallowed : allowed past op) (hknown : ∀ d ∈ past, known db d) (hconsistent : Consistent past)
    (hspec : op.creation = some spec) :
    ∃ creator, db.actors.find? spec.creatorId = some creator ∧
      (creator.actorType = .agent → spec.actorType = .human) := by
  cases op with
  | finalize tx => exact FinalizeAllowed.creator hallowed hknown hconsistent hspec
  | _ => cases hspec

/-- An actor that was created has its row, and was not root. -/
theorem exec_creates {op : Op} {db db' : Db} {v : Val op} {spec : CreateActorSpec}
    (hseed : StateStore.Seeded db) (htx : transaction op db = .ok (v, db'))
    (hspec : op.creation = some spec) :
    spec.actorId ≠ "root" ∧ ∃ row, db'.actors.find? spec.actorId = some row ∧
      ActorStore.NewRow spec row := by
  cases op with
  | finalize tx =>
    refine ⟨?_, finalize_creates htx hspec⟩
    intro heq
    obtain ⟨db₁, db₂, db₃, events, hashes, hsettle, hcreate, -, -, -⟩ := finalize_eq_ok htx
    rw [show tx.createActor = some spec from hspec] at hcreate
    obtain ⟨-, -, row, ledger, actors, hnew, -, hins, -⟩ := createActorRows_eq_ok hcreate
    have hnone : db₁.actors.find? row.actorId = none := (Table.insert?_eq_some hins).1
    have hsettles : Effects (.finalize tx) db db₁ := settleReservation_effects hsettle
    obtain ⟨rootRow, hroot⟩ := Option.isSome_iff_exists.mp hseed.actor
    obtain ⟨rootRow', hroot', -⟩ :=
      (hsettles.relate (RowsFrom.refl _) RowsFrom.trans Effect.rows).kept "root" rootRow hroot
    rw [hnew.actorId, heq, hroot'] at hnone
    cases hnone
  | _ => cases hspec

/-- After an agent's creation there is an actor no human created. -/
theorem exec_agent_creates {op : Op} {db db' : Db} {v : Val op} {spec : CreateActorSpec}
    {creator : ActorRecord} (hseed : StateStore.Seeded db)
    (htx : transaction op db = .ok (v, db')) (hexec : exec op db = (.ok v, db'))
    (hspec : op.creation = some spec)
    (hcreator : db.actors.find? spec.creatorId = some creator) (hagent : creator.actorType = .agent) :
    ¬ HumansCreate db' := by
  intro hdb'
  obtain ⟨hroot, row, hrow, hnew⟩ := exec_creates hseed htx hspec
  obtain ⟨creatorId, creator', hnames, hcreator', hhuman⟩ := hdb' spec.actorId row hrow hroot
  obtain ⟨creator₁, hcreator₁, hchange⟩ := (exec_rows op db).kept spec.creatorId creator hcreator
  rw [hnew.creatorId] at hnames
  cases hnames
  rw [hexec, hcreator'] at hcreator₁
  cases hcreator₁
  rw [hchange.same.actorType, hagent] at hhuman
  cases hhuman

/-- One step: the actors are still all created by humans exactly if they were
before and this was no agent's creation of a human. -/
theorem exec_humansCreate_iff {past : Past} {op : Op} {t : KernelTransition} {id : Nat}
    (hseed : StateStore.Seeded t.before.store) (hexist : CreatorsExist t.before.store)
    (hallowed : allowed past op) (hknown : ∀ d ∈ past, known t.before.store d)
    (hconsistent : Consistent past) (hlabel : t.label = .act id ⟨op, (exec op t.before.store).1⟩) :
    HumansCreate (exec op t.before.store).2 ↔
      ¬ AgentCreatesHuman t ∧ HumansCreate t.before.store := by
  rcases exec_cases op t.before.store with ⟨v, db', htx, hexec⟩ | ⟨e, -, hexec⟩
  swap
  · rw [hexec] at hlabel ⊢
    refine ⟨fun h => ⟨?_, h⟩, fun h => h.2⟩
    rintro ⟨id', op', v, spec, creator, hact, -⟩
    rw [hlabel] at hact
    cases hact
  have hrows := exec_rows op t.before.store
  rw [hexec] at hlabel hrows ⊢
  by_cases hagent : AgentCreatesHuman t
  · refine iff_of_false ?_ fun h => h.1 hagent
    obtain ⟨id', op', v', spec, creator, hact, hspec, -, hcreator, htype⟩ := hagent
    rw [hlabel] at hact
    cases hact
    exact exec_agent_creates hseed htx hexec hspec hcreator htype
  · rw [hrows.humansCreate_iff ?_ hexist]
    · exact ⟨fun h => ⟨hagent, h⟩, fun h => h.2⟩
    intro row hrow
    obtain ⟨spec, hspec, hnew⟩ := hrow.creation
    obtain ⟨creator, hcreator, hagents⟩ := allowed_creation hallowed hknown hconsistent hspec
    refine ⟨spec.creatorId, creator, hnew.creatorId, hcreator, ?_⟩
    cases htype : creator.actorType with
    | human => rfl
    | agent =>
      exact absurd ⟨id, op, v, spec, creator, hlabel, hspec, hagents htype, hcreator, htype⟩ hagent

/-- In every run the actors were all created by humans exactly if no agent's creation of
a human was ever committed. That an agent creates an agent is refused by the code
itself. -/
theorem run_humans_create_iff {tr : List KernelTransition} {pool : KernelPool}
    (h : KernelRun tr pool) :
    HumansCreate pool.store ↔ ∀ t ∈ tr, ¬ AgentCreatesHuman t := by
  refine kernelContract.invariant
    (P := fun tr pool => HumansCreate pool.store ↔ ∀ t ∈ tr, ¬ AgentCreatesHuman t)
    (G := fun _ => True) ?_ ?_ h (fun _ _ _ _ _ => trivial) (fun _ _ => trivial)
  · refine ⟨fun _ t ht => (by cases ht), fun _ actorId actor hfind hroot => ?_⟩
    exact absurd (creators_genesis hfind) hroot
  intro tr pool l pool' hr hs hinv hkeeps _ hP
  rw [List.forall_mem_cons, ← hP]
  -- a step that performs nothing
  have hidle : (∀ id d, l ≠ .act id d) → pool'.store = pool.store →
      (HumansCreate pool'.store ↔ ¬ AgentCreatesHuman ⟨pool, l⟩ ∧ HumansCreate pool.store) := by
    intro hl hsame
    rw [hsame]
    refine ⟨fun h => ⟨?_, h⟩, fun h => h.2⟩
    rintro ⟨id, op, v, spec, creator, hact, -⟩
    exact hl _ _ hact
  cases hs with
  | act store before after id op k past =>
    have hme := hkeeps ⟨id, .vis op k, past⟩ (by simp)
    have hconsistent : Consistent past := KernelRun.consistent hr ⟨id, .vis op k, past⟩ (by simp)
    exact @exec_humansCreate_iff _ past op
      ⟨⟨store, before ++ ⟨id, .vis op k, past⟩ :: after⟩, .act id ⟨op, (exec op store).1⟩⟩ id
      hinv.1 (KernelRun.creatorsExist hr) hme.honors.1 hme.known hconsistent rfl
  | restart store store' tasks hboot =>
    exact hidle (fun _ _ h => by cases h) (bootstrap_eq hinv.1 hboot)
  | _ => exact hidle (fun _ _ h => by cases h) rfl

/-! ## An agent that creates a human -/

omit [Externals] in
/-- The actors of a kernel whose agent has acted under its envelope, and created
nobody. -/
theorem humansCreate_agentAtWork :
    letI := reference
    (∀ t ∈ (kernelPlayed agentAtWork).trace, ¬ AgentCreatesHuman t) ∧
      HumansCreate (kernelPlayed agentAtWork).pool.store := by
  have hiff := @run_humans_create_iff reference _ _ (kernelRun_played agentAtWork)
  have hplayed : (kernelPlayed agentAtWork).pool.store.actors.rows.all (fun actor =>
        actor.actorId = "root" || actor.creatorId = some "root") = true ∧
      ((kernelPlayed agentAtWork).pool.store.actors.find? "root").map
        (·.actorType) = some .human := by
    rw [kernelPlayed_eq]
    decide +kernel
  obtain ⟨hnone, hroot⟩ := hplayed
  have hhumans : HumansCreate (kernelPlayed agentAtWork).pool.store := by
    intro actorId actor hfind hne
    obtain ⟨root, hfindRoot, htype⟩ := Option.map_eq_some_iff.mp hroot
    have hrow := List.all_eq_true.mp hnone actor (Table.mem_of_find? hfind)
    have hkey : actor.actorId = actorId := Table.key_of_find? hfind
    rw [Bool.or_eq_true, decide_eq_true_eq, decide_eq_true_eq, hkey] at hrow
    rcases hrow with heq | hcreator
    · exact absurd heq hne
    · exact ⟨"root", root, hcreator, hfindRoot, htype⟩
  exact ⟨hiff.mp hhumans, hhumans⟩

/-- An agent with an envelope for everything creates a human. -/
def agentCreates : List (Turn Request) :=
  alone 30 (createAgent 0 "agent-1" 500) ++ alone 30 (grantEnvelope 1 "agent-1" 100 []) ++
    alone 30 (submitAt 2 "agent-1" .create "ledger/actor" (Json.object
      [("actor_id", .str "bob"), ("actor_type", .str "human")]))

omit [Externals] in
/-- An agent's human: the parser refuses agents that create agents, and asks nothing
about the rest. -/
theorem agentCreates_human :
    letI := reference
    ¬ ∀ tr pool, KernelRun tr pool → HumansCreate pool.store := by
  intro hclaim
  have hplayed : ((kernelPlayed agentCreates).pool.store.actors.find? "bob").map
        (·.creatorId) = some (some "agent-1") ∧
      ((kernelPlayed agentCreates).pool.store.actors.find? "agent-1").map
        (·.actorType) = some .agent := by
    rw [kernelPlayed_eq]
    decide +kernel
  obtain ⟨hbob, hagent⟩ := hplayed
  obtain ⟨bob, hfindBob, hnames⟩ := Option.map_eq_some_iff.mp hbob
  obtain ⟨agent, hfindAgent, htype⟩ := Option.map_eq_some_iff.mp hagent
  obtain ⟨creatorId, creator, hcreatorId, hcreator, hhuman⟩ :=
    hclaim _ _ (kernelRun_played agentCreates) "bob" bob hfindBob (by decide)
  rw [hnames] at hcreatorId
  cases hcreatorId
  rw [hfindAgent] at hcreator
  cases hcreator
  rw [htype] at hhuman
  cases hhuman

end PunkgoKernel
