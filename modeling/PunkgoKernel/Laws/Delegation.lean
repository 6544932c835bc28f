import PunkgoKernel.Laws.Commits
import PunkgoKernel.Laws.Promised

/-!
# Delegated budgets

Who has an active envelope and grants another one grants it from there: the new
envelope names it as its parent. The request reads its grantor's envelope before
it commits (`GrantsFrom`), so the parent of every envelope is an envelope there
is, and the budgets of the children are counted as promises of the parent's
budget.
-/

namespace PunkgoKernel

open Json (Value)
open Relational (Table key)
open Resumption

variable [Externals]

/-! ## Delegated budgets -/

omit [Externals] in
/-- What an envelope takes of the budget of another, its parent. -/
def EnvelopeRecord.delegatedFrom (row : EnvelopeRecord) (envelopeId : String) : Int :=
  if row.parentEnvelopeId = some envelopeId then row.budget else 0

omit [Externals] in
/-- The budgets of the envelopes granted from an envelope. -/
def Db.delegated (db : Db) (envelopeId : String) : Int :=
  db.envelopes.total fun row => row.delegatedFrom envelopeId

omit [Externals] in
/-- The budget a grant takes of another envelope. -/
def FinalizeTx.delegates (tx : FinalizeTx) (envelopeId : String) : Int :=
  match tx.createEnvelope with
  | some (_, spec, parent) => if parent = some envelopeId then spec.budget else 0
  | none => 0

omit [Externals] in
/-- What a step grants from an envelope, or charges to it. -/
def Label.grants (envelopeId : String) :
    Label KernelSig (KernelResult Outcome) Request → Int
  | .act _ ⟨.finalize tx, .ok _⟩ => tx.delegates envelopeId
  | l => Label.charges envelopeId l

/-- The parent of every envelope is there. -/
def ParentsPlaced (db : Db) : Prop :=
  ∀ row ∈ db.envelopes.rows, ∀ parentId, row.parentEnvelopeId = some parentId →
    (db.envelopes.find? parentId).isSome

omit [Externals] in
/-- Nothing is granted from an envelope there is not. -/
theorem delegated_unknown {db : Db} (hplaced : ParentsPlaced db) {x : String}
    (hnone : db.envelopes.find? x = none) : db.delegated x = 0 := by
  refine Table.total_eq_zero ?_
  intro row hmem
  refine if_neg ?_
  intro hparent
  have hsome := hplaced row hmem x hparent
  rw [hnone] at hsome
  cases hsome

/-! ## The grantor's envelope -/

omit [Externals] in
/-- A request that grants an envelope from another has read that one. -/
def GrantsFrom (past : Past) : Op → Prop
  | .finalize tx => ∀ envelopeId spec parentId,
      tx.createEnvelope = some (envelopeId, spec, some parentId) →
      ∃ actorId parent, Saw past (.getActiveForActor actorId) (some parent) ∧
        parent.envelopeId = parentId
  | _ => True

omit [Externals] in
theorem grantsFrom_of_keepsCommitted (past : Past) (op : Op) (hop : op.keepsCommitted = true) :
    GrantsFrom past op := by
  cases op with
  | finalize tx => cases hop
  | _ => trivial

/-- A program keeps to it that what it grants from it has read. -/
def GrantsRead {α : Type} (p : KernelProg α) (past : Past) : Prop :=
  Attempt.Honors GrantsFrom (fun _ _ => True) (fun _ _ => True) p past

/-- The parent of what is granted is the envelope that was read. -/
theorem parseCreateEnvelopeSpec_grantsRead {α : Type} (env : Env) (action : Action)
    {f : Option (String × EnvelopeSpec × Option String) → KernelProg α} {past : Past}
    (hf : ∀ past' create, (∀ envelopeId spec parentId,
        create = some (envelopeId, spec, some parentId) →
        ∃ parent, Saw past' (.getActiveForActor action.actorId) (some parent) ∧
          parent.envelopeId = parentId) →
      GrantsRead (f create) past') :
    GrantsRead (parseCreateEnvelopeSpec env action >>= f) past := by
  unfold parseCreateEnvelopeSpec
  split
  · exact hf past none fun _ _ _ h => by cases h
  cases parseEnvelopeFields action with
  | error e => trivial
  | ok spec =>
    refine ⟨trivial, ?_⟩
    rintro (e | (grantorEnvelope : Option EnvelopeRecord)) -
    · trivial
    cases grantorEnvelope with
    | none => exact hf _ _ fun _ _ _ h => by cases h
    | some parent =>
      show GrantsRead (check (parentEnvelope spec (some parent)) >>= _ >>= f) _
      cases hparent : parentEnvelope spec (some parent) with
      | error e => trivial
      | ok parentId =>
        obtain ⟨u, -, heq⟩ := bind_eq_ok.mp hparent
        cases heq
        refine hf _ _ ?_
        rintro envelopeId spec' parentId' h
        cases h
        exact ⟨parent, List.mem_cons_self, rfl⟩

theorem commitAction_grantsRead (env : Env) (action : Action) (auth : Option EnvelopeRecord)
    (past : Past) : GrantsRead (commitAction env action auth) past := by
  unfold commitAction
  refine (reading_authorizeLifecycle action _).uncommitting.minds_bind
    grantsFrom_of_keepsCommitted ?_
  intro past₁ _ _
  refine (reading_parseCreateActorSpec action).uncommitting.minds_bind
    grantsFrom_of_keepsCommitted ?_
  intro past₂ createActor _
  refine parseCreateEnvelopeSpec_grantsRead env action ?_
  intro past₃ createEnvelope hread
  refine (uncommitting_quoteAndReserve action).minds_bind grantsFrom_of_keepsCommitted ?_
  rintro past₄ ⟨cost, reservation⟩ hpast
  cases artifactHashOf action with
  | error e => trivial
  | ok artifactHash =>
    refine finalize_minds grantsFrom_of_keepsCommitted ?_
    intro envelopeId spec parentId hcreate
    obtain ⟨parent, hsaw, hid⟩ := hread envelopeId spec parentId hcreate
    exact ⟨action.actorId, parent, hpast.subset hsaw, hid⟩

/-- What requests read before they grant, whatever the database answers. -/
def grantContract : Contract kernelSystem StateStore.genesis where
  inv _ := True
  known _ _ := True
  allowed := GrantsFrom
  answers _ _ := True
  returns _ _ := True
  admits _ := True
  start := trivial
  exec _ _ _ _ _ _ := ⟨trivial, trivial, trivial, fun _ _ => trivial⟩
  fault _ _ _ _ := ⟨trivial, trivial⟩
  reboot _ _ _ _ := trivial
  spawn r _ := program_minds grantsFrom_of_keepsCommitted commitAction_grantsRead r
  again := by
    intro past answer p _ hagain
    cases answer with
    | error e => cases hagain
    | ok outcome =>
      cases outcome with
      | resubmit envs action =>
        cases hagain
        exact submitAction_minds grantsFrom_of_keepsCommitted commitAction_grantsRead envs action past
      | _ => cases hagain

/-- Along every run a request has read what it grants from. -/
theorem KernelRun.grantsFrom {tr : List KernelTransition} {pool : KernelPool}
    (h : KernelRun tr pool) {id : Nat} {op : Op} {k : KernelResult (Val op) → KernelProg Outcome}
    {past : Past} (hmem : (⟨id, .vis op k, past⟩ : Task KernelSig (KernelResult Outcome)) ∈ pool.tasks) :
    GrantsFrom past op :=
  ((grantContract.run h (fun _ _ _ _ _ => trivial)).2 _ hmem).honors.1

/-- A grant is from an envelope there is. -/
theorem GrantsFrom.placed {past : Past} {tx : FinalizeTx} {db : Db}
    (h : GrantsFrom past (.finalize tx)) (hknown : ∀ d ∈ past, known db d) {envelopeId : String}
    {spec : EnvelopeSpec} {parentId : String}
    (hcreate : tx.createEnvelope = some (envelopeId, spec, some parentId)) :
    (db.envelopes.find? parentId).isSome := by
  obtain ⟨actorId, parent, hsaw, rfl⟩ := h envelopeId spec parentId hcreate
  obtain ⟨⟨parent', hfind, -⟩, -⟩ := hknown _ hsaw
  exact Option.isSome_iff_exists.mpr ⟨parent', hfind⟩

/-! ## What a grant does -/

/-- The envelope a commit inserts. -/
structure Granted (tx : FinalizeTx) (db db' : Db) (row : EnvelopeRecord) : Prop where
  asked : ∃ spec, tx.createEnvelope = some (row.envelopeId, spec, row.parentEnvelopeId) ∧
    row.budget = spec.budget
  inserted : db.envelopes.insert? row = some db'.envelopes

/-- A commit inserts the envelope it grants, or leaves the envelopes alone. -/
theorem finalize_envelopes {tx : FinalizeTx} {db db' : Db} {ev : EventRecord}
    (h : finalizeEnergyAndEvent tx db = .ok (ev, db')) :
    (tx.createEnvelope = none ∧ db'.envelopes = db.envelopes) ∨ ∃ row, Granted tx db db' row := by
  obtain ⟨db₁, db₂, db₃, events, hashes, hsettle, hactor, henvelope, -, rfl⟩ := finalize_eq_ok h
  have hsame : db₂.envelopes = db.envelopes := by
    rw [createActorRows_frame hactor, settleReservation_frame hsettle]
  cases hcreate : tx.createEnvelope with
  | none =>
    rw [hcreate] at henvelope
    cases henvelope
    exact .inl ⟨rfl, hsame⟩
  | some create =>
    obtain ⟨envelopeId, spec, parentId⟩ := create
    rw [hcreate] at henvelope
    obtain ⟨row, envelopes, hid, -, hbudget, -, -, hins, rfl⟩ :=
      EnvelopeStore.createInTx_eq_ok henvelope
    obtain ⟨row', hfind, -, hparent, -⟩ := EnvelopeStore.createInTx_find henvelope
    have hrow : envelopes.find? envelopeId = some row := by
      rw [Table.find?_insert hins]
      exact if_pos hid
    obtain rfl := Option.some.inj (hrow.symm.trans hfind)
    refine .inr ⟨row, ⟨spec, ?_, hbudget⟩, ?_⟩
    · rw [hcreate, hid, hparent]
    · rw [← hsame]
      exact hins

/-- Whatever is done but a grant, the same is delegated as before. -/
theorem Effect.delegated {op : Op} (hop : ∀ row, ¬ op.Grants row) {db db' : Db}
    (h : Effect op db db') : db'.delegated = db.delegated := by
  funext x
  cases h with
  | newEnvelope row envelopes hgrants => exact absurd hgrants (hop row)
  | envelopeStatus envelopeId status =>
    exact Table.total_modify_same (f := fun r : EnvelopeRecord => { r with status := status })
      (fun _ => rfl) fun _ => rfl
  | charge row amount =>
    exact Table.total_modify_same
      (f := fun r : EnvelopeRecord => { r with budgetConsumed := row.budgetConsumed + amount })
      (fun _ => rfl) fun _ => rfl
  | _ => rfl

theorem exec_delegated {op : Op} (hop : ∀ row, ¬ op.Grants row) (db : Db) :
    (exec op db).2.delegated = db.delegated :=
  (exec_effects op db).keep (P := fun db' => db'.delegated = db.delegated)
    (fun hstep ha => (hstep.delegated hop).trans ha) rfl

/-- A grant takes its budget from its parent. -/
theorem finalize_delegated {tx : FinalizeTx} {db db' : Db} {ev : EventRecord}
    (h : finalizeEnergyAndEvent tx db = .ok (ev, db')) (x : String) :
    db'.delegated x = db.delegated x + tx.delegates x := by
  rcases finalize_envelopes h with ⟨hnone, hsame⟩ | ⟨row, ⟨spec, hcreate, hbudget⟩, hins⟩
  · unfold Db.delegated FinalizeTx.delegates
    rw [hsame, hnone]
    exact (add_zero _).symm
  · have htotal := Table.total_insert hins fun row => row.delegatedFrom x
    have hrow : row.delegatedFrom x = tx.delegates x := by
      unfold EnvelopeRecord.delegatedFrom FinalizeTx.delegates
      rw [hcreate, hbudget]
    rw [hrow] at htotal
    exact htotal

/-! ## Along every run -/

theorem ParentsPlaced.effect {op : Op} (hop : ∀ row, ¬ op.Grants row) {db db' : Db}
    (h : Effect op db db') (hplaced : ParentsPlaced db) : ParentsPlaced db' := by
  have hlater := h.later
  intro row hmem parentId hparent
  refine envelope_later hlater ?_
  cases h with
  | newEnvelope row envelopes hgrants => exact absurd hgrants (hop row)
  | envelopeStatus envelopeId status =>
    rcases Table.mem_modify (f := fun r : EnvelopeRecord => { r with status := status })
      (fun _ => rfl) hmem with hmem | ⟨row', hrow', rfl⟩
    · exact hplaced row hmem parentId hparent
    · exact hplaced row' (Table.mem_of_find? hrow') parentId hparent
  | charge charged amount =>
    rcases Table.mem_modify
      (f := fun r : EnvelopeRecord => { r with budgetConsumed := charged.budgetConsumed + amount })
      (fun _ => rfl) hmem with hmem | ⟨row', hrow', rfl⟩
    · exact hplaced row hmem parentId hparent
    · exact hplaced row' (Table.mem_of_find? hrow') parentId hparent
  | _ => exact hplaced row hmem parentId hparent

theorem ParentsPlaced.exec {past : Past} {op : Op} {db : Db} (hfrom : GrantsFrom past op)
    (hknown : ∀ d ∈ past, known db d) (hplaced : ParentsPlaced db) :
    ParentsPlaced (exec op db).2 := by
  by_cases hop : ∃ row, op.Grants row
  · cases op with
    | finalize tx =>
      rcases exec_cases (.finalize tx) db with ⟨ev, db', htx, hexec⟩ | ⟨e, -, hexec⟩
      · rw [hexec]
        rcases finalize_envelopes htx with ⟨-, hsame⟩ | ⟨row, ⟨spec, hcreate, -⟩, hins⟩
        · unfold ParentsPlaced
          rw [hsame]
          exact hplaced
        · intro row' hmem parentId hparent
          have hlater := (finalize_effects htx).later
          rw [(Table.insert?_eq_some hins).2] at hmem
          rcases List.mem_append.mp hmem with hold | hnew
          · exact envelope_later hlater (hplaced row' hold parentId hparent)
          · obtain rfl := List.mem_singleton.mp hnew
            rw [hparent] at hcreate
            exact envelope_later hlater (hfrom.placed hknown hcreate)
      · rw [hexec]
        exact hplaced
    | _ =>
      obtain ⟨row, hrow⟩ := hop
      cases hrow
  · exact (exec_effects op db).keep (P := ParentsPlaced)
      (fun hstep ha => ha.effect (fun row hrow => hop ⟨row, hrow⟩) hstep) hplaced

theorem KernelRun.parentsPlaced {tr : List KernelTransition} {pool : KernelPool}
    (h : KernelRun tr pool) : ParentsPlaced pool.store := by
  refine kernelContract.invariant (P := fun _ pool => ParentsPlaced pool.store) (G := fun _ => True)
    (fun _ hmem => by cases hmem) ?_ h (fun _ _ _ _ _ => trivial) (fun _ _ => trivial)
  intro tr pool l pool' hr hs hinv hkeeps _ hP
  cases hs with
  | act store before after id op k past =>
    have hmem : (⟨id, .vis op k, past⟩ : Task KernelSig (KernelResult Outcome)) ∈
        before ++ ⟨id, .vis op k, past⟩ :: after := by simp
    exact hP.exec (KernelRun.grantsFrom hr hmem) (hkeeps _ hmem).known
  | restart store store' tasks hboot =>
    show ParentsPlaced store'
    rw [bootstrap_eq hinv.1 hboot]
    exact hP
  | _ => exact hP

/-- What the grants and the charges take, and nothing else does. -/
theorem accounted_delegated {past : Past} {op : Op} {db : Db} (hfrom : GrantsFrom past op)
    (hknown : ∀ d ∈ past, known db d) (hplaced : ParentsPlaced db) (id : Nat) :
    Accounted Db.delegated (fun x => Label.grants x (.act id ⟨op, (exec op db).1⟩)) op db := by
  have hunknown : ∀ x, db.envelopes.find? x = none → db.delegated x = 0 :=
    fun x hnone => delegated_unknown hplaced hnone
  cases op with
  | finalize tx =>
    rcases exec_cases (.finalize tx) db with ⟨ev, db', htx, hexec⟩ | ⟨e, -, hexec⟩
    · rw [hexec]
      refine ⟨fun x hnone => ⟨hunknown x hnone, ?_⟩, fun x => .inr ?_⟩
      · show tx.delegates x = 0
        unfold FinalizeTx.delegates
        split
        · next envelopeId spec parent hcreate =>
          refine if_neg ?_
          rintro rfl
          have hsome := hfrom.placed hknown hcreate
          rw [hnone] at hsome
          cases hsome
        · rfl
      · rw [exec_consumed (by intro _ _ h; exact h), hexec, finalize_delegated htx]
        exact (add_assoc _ _ _).symm
    · rw [hexec]
      exact Accounted.idle hunknown (by rw [hexec])
  | consumeBudget ctx =>
    refine Accounted.charge id hunknown ?_
    intro x db' htx y
    have hsame := @exec_delegated _ (.consumeBudget ctx) (by intro _ h; exact h) db
    unfold PunkgoKernel.exec at hsame
    rw [show transaction (.consumeBudget ctx) db = _ from htx] at hsame
    rw [← hsame]
  | _ =>
    refine Accounted.quiet (by intro _ _ h; exact h) hunknown ?_
    intro x
    rw [exec_delegated (by intro _ h; exact h)]

/-- In every run, whatever is granted and spent in whatever order: what is
consumed of each budget and granted on from it is within it, if and only if no
step grants from an envelope, or charges to it, more than is neither consumed nor
granted on. -/
theorem run_delegated_within_iff {tr : List KernelTransition} {pool : KernelPool}
    (h : KernelRun tr pool) :
    (∀ db ∈ history tr pool, WithinBudget Db.delegated db) ↔
      ∀ t ∈ tr, ¬ Exceeds Db.delegated Label.grants t := by
  refine KernelRun.withinBudget_iff ?_ ?_ h
  · intro tr pool id op k past hr hmem _ hknown
    exact accounted_delegated (KernelRun.grantsFrom hr hmem) hknown (KernelRun.parentsPlaced hr) id
  · intro x l hgrants
    cases l with
    | act id d => exact ⟨id, d, rfl⟩
    | _ => exact absurd rfl hgrants

/-- An agent grants from its own envelope. -/
def grantOn (n : Nat) (grantorId actorId : String) (budget : Int) : Request :=
  submitAt n grantorId .create "ledger/envelope" (Json.object
    [("actor_id", .str actorId),
     ("budget", .num (.int budget)),
     ("targets", .arr [.str "workspace/**"]),
     ("actions", .arr [.str "mutate"])])

/-- An agent grants once from an envelope of a hundred. -/
def grantedOnce : List (Turn Request) :=
  alone 30 (createAgent 0 "agent-1" 500) ++ alone 30 (createAgent 1 "agent-2" 500) ++
    alone 30 (grantEnvelope 2 "agent-1" 100 []) ++ alone 40 (grantOn 3 "agent-1" "agent-2" 60)

/-- The agent grants twice. -/
def grantedTwice : List (Turn Request) :=
  grantedOnce ++ alone 40 (grantOn 4 "agent-1" "agent-2" 60)

omit [Externals] in
/-- One grant leaves the budget of its parent enough for what the grant itself costs. -/
theorem delegated_grantedOnce :
    letI := reference
    (kernelPlayed grantedOnce).pool.store.delegated "envelope-2" = 60 ∧
      ∀ db ∈ history (kernelPlayed grantedOnce).trace (kernelPlayed grantedOnce).pool,
        WithinBudget Db.delegated db := by
  have hplayed : (kernelPlayed grantedOnce).trace.all (takesWithin Db.delegated Label.grants) =
        true ∧
      (kernelPlayed grantedOnce).pool.store.delegated "envelope-2" = 60 := by
    rw [kernelPlayed_eq]
    decide +kernel
  obtain ⟨hclean, hdelegated⟩ := hplayed
  have hiff := @run_delegated_within_iff reference _ _ (kernelRun_played grantedOnce)
  exact ⟨hdelegated, hiff.mpr (takesWithin_sound hclean)⟩

omit [Externals] in
/-- Two grants promise more than there is: each is within the budget of the parent, and
their sum is not. -/
theorem grantedTwice_exceeds :
    letI := reference
    ¬ ∀ tr pool, KernelRun tr pool → ∀ db ∈ history tr pool, WithinBudget Db.delegated db := by
  intro hclaim
  have hplayed : ((kernelPlayed grantedTwice).pool.store.envelopes.find? "envelope-2").map
        EnvelopeRecord.budget = some 100 ∧
      0 ≤ (kernelPlayed grantedTwice).pool.store.consumed "envelope-2" ∧
      (kernelPlayed grantedTwice).pool.store.delegated "envelope-2" = 120 := by
    rw [kernelPlayed_eq]
    decide +kernel
  obtain ⟨hrow, hconsumed, hdelegated⟩ := hplayed
  obtain ⟨row, hfind, hbudget⟩ := Option.map_eq_some_iff.mp hrow
  have hle := hclaim _ _ (kernelRun_played grantedTwice) _ List.mem_cons_self "envelope-2" row hfind
  rw [consumed_of_find hfind] at hconsumed
  omega

end PunkgoKernel
