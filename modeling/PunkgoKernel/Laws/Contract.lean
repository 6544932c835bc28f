import PunkgoKernel.Laws.Follows
import PunkgoKernel.Laws.Log

/-!
# The kernel keeps its protocol

What a request once read stays true in part: an actor keeps its type, a hold
request its content, an envelope its grant, and an event its place
(`Later`). Those are the facts a past still knows of the database whatever the
other requests did to it (`known`). With them and an invariant of the stored
hold requests (`HoldsSound`), the programs and the database form one contract
(`kernelContract`), from which the laws of whole runs are derived.
-/

namespace PunkgoKernel

open Json (Value)
open Relational (Table key)
open Resumption

/-! ## What lasts -/

/-- Two states of one envelope: what was granted stays, and only what was consumed and
the status may differ. -/
structure SameGrant (e e' : EnvelopeRecord) : Prop where
  envelopeId : e'.envelopeId = e.envelopeId
  actorId : e'.actorId = e.actorId
  budget : e'.budget = e.budget
  holdOn : e'.holdOn = e.holdOn

/-- A row grants what it grants. -/
theorem SameGrant.refl (e : EnvelopeRecord) : SameGrant e e := ⟨rfl, rfl, rfl, rfl⟩

/-- Grants stay along a whole run. -/
theorem SameGrant.trans {a b c : EnvelopeRecord} (h : SameGrant a b) (h' : SameGrant b c) :
    SameGrant a c where
  envelopeId := h'.envelopeId.trans h.envelopeId
  actorId := h'.actorId.trans h.actorId
  budget := h'.budget.trans h.budget
  holdOn := h'.holdOn.trans h.holdOn

/-- The actor still has a row, and it is of the same type: a human stays a human, and an
agent an agent. -/
def ActorLasts (db : Db) (actorId : String) (actor : ActorRecord) : Prop :=
  ∃ actor', db.actors.find? actorId = some actor' ∧ actor'.actorType = actor.actorType

/-- The hold request is still there, and if it was resolved, as it was
resolved. -/
def HoldLasts (db : Db) (holdId : String) (hold : HoldRequest) : Prop :=
  ∃ hold', db.holdRequests.find? holdId = some hold' ∧ SameHold hold hold' ∧
    (hold.status ≠ .pending → hold'.status = hold.status)

/-- The envelope has a row that grants what this one does. -/
def EnvelopeLasts (db : Db) (envelopeId : String) (envelope : EnvelopeRecord) : Prop :=
  ∃ envelope', db.envelopes.find? envelopeId = some envelope' ∧ SameGrant envelope envelope'

/-- The second database is a later state of the first. It is what a request can still
rely on when others have acted since it read: nothing is removed, the log only grows,
and rows keep what identifies them. -/
structure Later (db db' : Db) : Prop where
  actors : ∀ actorId actor, db.actors.find? actorId = some actor → ActorLasts db' actorId actor
  holds : ∀ holdId hold, db.holdRequests.find? holdId = some hold → HoldLasts db' holdId hold
  envelopes : ∀ envelopeId envelope, db.envelopes.find? envelopeId = some envelope →
    EnvelopeLasts db' envelopeId envelope
  events : db.events.rows <+: db'.events.rows
  checkpoints : AuditLog.treeSize db ≤ AuditLog.treeSize db'

/-- A database is a later state of itself. -/
theorem Later.refl (db : Db) : Later db db where
  actors _ actor h := ⟨actor, h, rfl⟩
  holds _ hold h := ⟨hold, h, .refl _, fun _ => rfl⟩
  envelopes _ envelope h := ⟨envelope, h, .refl _⟩
  events := List.prefix_rfl
  checkpoints := le_rfl

/-- An actor lasts. -/
theorem ActorLasts.later {db db' : Db} (h : Later db db') {actorId : String} {actor : ActorRecord}
    (ha : ActorLasts db actorId actor) : ActorLasts db' actorId actor := by
  obtain ⟨actor₁, hfind₁, htype₁⟩ := ha
  obtain ⟨actor₂, hfind₂, htype₂⟩ := h.actors actorId actor₁ hfind₁
  exact ⟨actor₂, hfind₂, htype₂.trans htype₁⟩

/-- A hold lasts, and the status that a decision gave it lasts with it. -/
theorem HoldLasts.later {db db' : Db} (h : Later db db') {holdId : String} {hold : HoldRequest}
    (hh : HoldLasts db holdId hold) : HoldLasts db' holdId hold := by
  obtain ⟨hold₁, hfind₁, hsame₁, hstatus₁⟩ := hh
  obtain ⟨hold₂, hfind₂, hsame₂, hstatus₂⟩ := h.holds holdId hold₁ hfind₁
  refine ⟨hold₂, hfind₂, hsame₁.trans hsame₂, ?_⟩
  intro hresolved
  have hkept := hstatus₁ hresolved
  rw [hstatus₂ (hkept ▸ hresolved), hkept]

/-- An envelope lasts. -/
theorem EnvelopeLasts.later {db db' : Db} (h : Later db db') {envelopeId : String}
    {envelope : EnvelopeRecord} (he : EnvelopeLasts db envelopeId envelope) :
    EnvelopeLasts db' envelopeId envelope := by
  obtain ⟨envelope₁, hfind₁, hsame₁⟩ := he
  obtain ⟨envelope₂, hfind₂, hsame₂⟩ := h.envelopes envelopeId envelope₁ hfind₁
  exact ⟨envelope₂, hfind₂, hsame₁.trans hsame₂⟩

/-- Later states of later states are later, so the relation is carried along a run by
looking at single steps. -/
theorem Later.trans {a b c : Db} (h : Later a b) (h' : Later b c) : Later a c where
  actors actorId actor hfind := (h.actors actorId actor hfind).later h'
  holds holdId hold hfind := (h.holds holdId hold hfind).later h'
  envelopes envelopeId envelope hfind := (h.envelopes envelopeId envelope hfind).later h'
  events := h.events.trans h'.events
  checkpoints := h.checkpoints.trans h'.checkpoints

variable [Externals]

/-- Each kind of write leads to a later state. The proof goes through the kinds, and in
each only the table that is written needs an argument. -/
theorem Effect.later {op : Op} {db db' : Db} (h : Effect op db db') : Later db db' := by
  have events := h.events_extend
  have base := Later.refl db
  cases h with
  | newActor row balance ledger actors _ _ _ hins =>
    refine { base with actors := ?_, events := events }
    intro actorId actor hfind
    exact ⟨actor, Table.find?_insert_of_some hins hfind, rfl⟩
  | actor actorId f hf hsame =>
    refine { base with actors := ?_, events := events }
    intro id actor hfind
    exact Table.find?_modify_keeps (R := fun a a' => a'.actorType = a.actorType) (fun _ => rfl)
      hf (fun a _ => (hsame a).actorType) hfind
  | newEnvelope row envelopes _ _ hins =>
    refine { base with envelopes := ?_, events := events }
    intro envelopeId envelope hfind
    exact ⟨envelope, Table.find?_insert_of_some hins hfind, .refl _⟩
  | envelopeStatus envelopeId status =>
    refine { base with envelopes := ?_, events := events }
    intro id envelope hfind
    refine Table.find?_modify_keeps SameGrant.refl ?_ ?_ hfind
    · exact fun _ => rfl
    · exact fun _ _ => ⟨rfl, rfl, rfl, rfl⟩
  | charge row amount =>
    refine { base with envelopes := ?_, events := events }
    intro id envelope hfind
    refine Table.find?_modify_keeps SameGrant.refl ?_ ?_ hfind
    · exact fun _ => rfl
    · exact fun _ _ => ⟨rfl, rfl, rfl, rfl⟩
  | newHold row holds _ hins =>
    refine { base with holds := ?_, events := events }
    intro holdId hold hfind
    exact ⟨hold, Table.find?_insert_of_some hins hfind, .refl _, fun _ => rfl⟩
  | resolveHold row decision instruction now _ hrow hpending =>
    refine { base with holds := ?_, events := events }
    intro holdId hold hfind
    refine Table.find?_modify_keeps
      (R := fun a a' => SameHold a a' ∧ (a.status ≠ .pending → a'.status = a.status))
      (fun a => ⟨.refl a, fun _ => rfl⟩) ?_ ?_ hfind
    · exact fun _ => rfl
    intro r hr
    obtain rfl := Option.some.inj (hrow.symm.trans hr)
    exact ⟨.resolved _ _ _ _, fun hne => absurd hpending hne⟩
  | checkpoint cp =>
    exact { base with events := events, checkpoints := (AuditLog.treeSize_le_upsert db cp).1 }
  | _ => exact { base with events := events }

/-- So does a sequence of writes, and with it every transaction. -/
theorem Effects.later {op : Op} {db db' : Db} (h : Effects op db db') : Later db db' :=
  h.relate Later.refl Later.trans Effect.later

/-- Performing an operation leads to a later state, also when it fails. -/
theorem exec_later (op : Op) (db : Db) : Later db (exec op db).2 := (exec_effects op db).later

/-! ## What a past knows -/

/-- What a performed operation still says of the database, whoever has acted since: only
what every later state keeps may be in here. -/
def known (db : Db) : Performed KernelSig → Prop
  | ⟨.getActor actorId, .ok (some actor)⟩ => ActorLasts db actorId actor
  | ⟨.getHoldRequest holdId, .ok (some hold)⟩ => HoldLasts db holdId hold
  | ⟨.listPendingHoldsForEnvelope _, .ok holds⟩ =>
    ∀ hold, List.Mem hold holds → HoldLasts db hold.holdId hold
  | ⟨.getActiveForActor actorId, .ok (some envelope)⟩ =>
    EnvelopeLasts db envelope.envelopeId envelope ∧ envelope.actorId = actorId
  | ⟨.resolveHold tx, .ok (event, _)⟩ =>
    (∃ hold, hold.status = tx.decision.status ∧ HoldLasts db tx.holdId hold) ∧
      event ∈ db.events.rows ∧ ∃ idx, event = { tx.event with settledEnergy := tx.cost }.placed idx
  | ⟨.finalize tx, .ok _⟩ =>
    ∀ envelope, tx.authorisedBy = some envelope → EnvelopeLasts db envelope.envelopeId envelope
  | ⟨.countEvents, .ok (eventCount : Nat)⟩ => eventCount ≤ db.events.rows.length
  | ⟨.treeSize, .ok (treeSize : Nat)⟩ => treeSize ≤ AuditLog.treeSize db
  | ⟨.makeCheckpoint treeSize _, .ok _⟩ => treeSize ≤ AuditLog.treeSize db
  | ⟨.actorExists actorId, .ok (known : Bool)⟩ =>
    known = true → ∃ actor, ActorLasts db actorId actor
  | _ => True

/-- What an answer says stays true. This is the reason why a request may rely on what it
has read. -/
theorem known.later {db db' : Db} (h : Later db db') {d : Performed KernelSig}
    (hd : known db d) : known db' d := by
  unfold known at hd ⊢
  split
  · exact hd.later h
  · exact hd.later h
  · intro hold hmem
    exact (hd hold hmem).later h
  · exact ⟨hd.1.later h, hd.2⟩
  · obtain ⟨⟨hold, hstatus, hlasts⟩, hmem, hplaced⟩ := hd
    exact ⟨⟨hold, hstatus, hlasts.later h⟩, h.events.subset hmem, hplaced⟩
  · intro envelope hauth
    exact (hd envelope hauth).later h
  · exact hd.trans h.events.length_le
  · exact hd.trans h.checkpoints
  · exact hd.trans h.checkpoints
  · intro htrue
    obtain ⟨actor, hlasts⟩ := hd htrue
    exact ⟨actor, hlasts.later h⟩
  · trivial

/-- Every stored hold request is one a trigger wrote, for an agent, and is well formed.
Answers about holds rely on it. -/
def HoldsSound (db : Db) : Prop :=
  ∀ holdId hold, db.holdRequests.find? holdId = some hold → hold.WellFormed ∧
    ∃ agent, db.actors.find? hold.agentId = some agent ∧ agent.actorType = .agent

/-- A hold request an operation may write: sound, by what is known of the
database before it. -/
def Op.HoldsSoundly (op : Op) (db : Db) : Prop :=
  ∀ row, op.Holds row → row.WellFormed ∧
    ∃ agent, db.actors.find? row.agentId = some agent ∧ agent.actorType = .agent

omit [Externals] in
/-- An agent stays one, since the type of an actor is never changed. -/
theorem agent_later {db db' : Db} (h : Later db db') {actorId : String}
    (ha : ∃ agent, db.actors.find? actorId = some agent ∧ agent.actorType = .agent) :
    ∃ agent, db'.actors.find? actorId = some agent ∧ agent.actorType = .agent := by
  obtain ⟨agent, hfind, htype⟩ := ha
  obtain ⟨agent', hfind', htype'⟩ := h.actors actorId agent hfind
  exact ⟨agent', hfind', htype'.trans htype⟩

/-- What holds of every stored hold request, given the database. It is stated once for
any such property that later states keep. -/
def AllHolds (P : Db → HoldRequest → Prop) (db : Db) : Prop :=
  ∀ holdId hold, db.holdRequests.find? holdId = some hold → P db hold

/-- What is true of a hold request in every later state of the database is kept
by every write that brings in only such hold requests. -/
theorem AllHolds.effect {P : Db → HoldRequest → Prop}
    (later : ∀ {db db' hold hold'}, Later db db' → SameHold hold hold' → P db hold → P db' hold')
    {op : Op} {db db' : Db} (hop : ∀ row, op.Holds row → P db row) (h : Effect op db db')
    (hall : AllHolds P db) : AllHolds P db' := by
  have hlater := h.later
  -- a row that was there before, possibly in another state
  have hkept : ∀ {hold hold' : HoldRequest} {holdId : String},
      db.holdRequests.find? holdId = some hold → SameHold hold hold' → P db' hold' :=
    fun hfind hsame => later hlater hsame (hall _ _ hfind)
  intro holdId hold hfind
  cases h with
  | newHold row holds hnew hins =>
    rw [Table.find?_insert hins] at hfind
    split at hfind
    · cases hfind
      exact later hlater (.refl _) (hop _ hnew)
    · exact hkept hfind (.refl _)
  | resolveHold row decision instruction now _ hrow _ =>
    have hmem := Table.mem_of_find? hfind
    have hkey : ∀ r, key (EnvelopeStore.resolved decision instruction now r) = key r :=
      fun _ => rfl
    rcases Table.mem_modify hkey hmem with hmem | ⟨row', hrow', rfl⟩
    · exact hkept (Table.find?_of_mem hmem) (.refl _)
    · exact hkept hrow' (.resolved _ _ _ _)
  | _ => exact hkept hfind (.refl _)

/-- A property of all holds is kept if every hold that is written has it: decisions
change rows only in ways that `SameHold` allows. -/
theorem AllHolds.effects {P : Db → HoldRequest → Prop}
    (later : ∀ {db db' hold hold'}, Later db db' → SameHold hold hold' → P db hold → P db' hold')
    {op : Op} {db db' : Db} (hop : ∀ row, op.Holds row → P db row) (h : Effects op db db')
    (hall : AllHolds P db) : AllHolds P db' := by
  have hboth : Later db db' ∧ AllHolds P db' := by
    refine h.keep (P := fun db' => Later db db' ∧ AllHolds P db') ?_ ⟨.refl db, hall⟩
    intro a b hstep ⟨hlater, ha⟩
    refine ⟨hlater.trans hstep.later, ha.effect later ?_ hstep⟩
    intro row hrow
    exact later hlater (.refl _) (hop row hrow)
  exact hboth.2

/-- Stored holds stay sound under a sequence of writes whose new holds are sound. -/
theorem HoldsSound.effects {op : Op} {db db' : Db} (hop : op.HoldsSoundly db)
    (h : Effects op db db') (hsound : HoldsSound db) : HoldsSound db' := by
  refine AllHolds.effects (P := fun db hold => hold.WellFormed ∧
    ∃ agent, db.actors.find? hold.agentId = some agent ∧ agent.actorType = .agent) ?_ hop h hsound
  rintro db db' hold hold' hlater hsame ⟨hwf, hagent⟩
  refine ⟨hsame.wellFormed hwf, ?_⟩
  rw [hsame.agentId]
  exact agent_later hlater hagent

/-- And under an operation. -/
theorem HoldsSound.exec {op : Op} {db : Db} (hop : op.HoldsSoundly db) (hsound : HoldsSound db) :
    HoldsSound (exec op db).2 :=
  hsound.effects hop (exec_effects op db)

/-- A trigger that the protocol allows writes a sound hold: the request has read that
its actor is an agent, and the row is built from its own action. -/
theorem allowed_holdsSoundly {past : Past} {op : Op} {db : Db} (hknown : ∀ d ∈ past, known db d)
    (hallowed : allowed past op) : op.HoldsSoundly db := by
  intro row hrow
  cases op with
  | triggerHold tx =>
    obtain ⟨env, action, envelope, actor, hchanging, hactor, htype, -, -⟩ := hallowed
    cases hrow
    refine ⟨wellFormed_holdTriggerTx env envelope hchanging _, ?_⟩
    obtain ⟨actor', hfind, htype'⟩ := hknown _ hactor
    exact ⟨actor', hfind, htype'.trans htype⟩
  | _ => cases hrow

/-! ## Answers -/

/-- What the database answers is well formed, as its holds are sound. -/
theorem exec_answers {db : Db} (hsound : HoldsSound db) (op : Op) :
    answers op (exec op db).1 := by
  cases op with
  | getHoldRequest holdId =>
    show answers (.getHoldRequest holdId) (.ok (db.holdRequests.find? holdId))
    cases hfind : db.holdRequests.find? holdId with
    | none => trivial
    | some hold => exact ⟨Table.key_of_find? hfind, (hsound holdId hold hfind).1⟩
  | listPendingHoldsForEnvelope envelopeId =>
    intro hold hmem
    have hrow := (EnvelopeStore.mem_listPendingHolds.mp hmem).1
    exact (hsound _ hold (Table.find?_of_mem hrow)).1
  | reserve actorId cost =>
    rcases exec_cases (.reserve actorId cost) db with ⟨v, db', htx, hexec⟩ | ⟨e, -, hexec⟩
    · rw [hexec]
      obtain ⟨row, -, -, -, hres, -⟩ := EnergyLedger.reserve_eq_ok htx
      exact hres
    · rw [hexec]
      trivial
  | _ => trivial

/-- Right after it was performed, an operation says of the database what `known` makes
of it. -/
theorem exec_known {past : Past} {op : Op} {db : Db} (hknown : ∀ d ∈ past, known db d)
    (hallowed : allowed past op) : known (exec op db).2 ⟨op, (exec op db).1⟩ := by
  have hlater := exec_later op db
  cases op with
  | finalize tx =>
    obtain ⟨env, action, artifactHash, -, -, -, hauth, -, -⟩ := hallowed
    generalize (exec (.finalize tx) db).1 = answer
    cases answer with
    | error e => trivial
    | ok event =>
      intro envelope hsome
      rw [hsome] at hauth
      cases hauth with
      | covered actor _ _ _ hfresh => exact (hknown _ hfresh.saw).1.later hlater
  | actorExists actorId =>
    intro htrue
    obtain ⟨actor, hfind⟩ := Option.isSome_iff_exists.mp htrue
    exact ⟨actor, actor, hfind, rfl⟩
  | getActor actorId =>
    show known db ⟨.getActor actorId, .ok (db.actors.find? actorId)⟩
    cases hfind : db.actors.find? actorId with
    | none => trivial
    | some actor => exact ⟨actor, hfind, rfl⟩
  | getHoldRequest holdId =>
    show known db ⟨.getHoldRequest holdId, .ok (db.holdRequests.find? holdId)⟩
    cases hfind : db.holdRequests.find? holdId with
    | none => trivial
    | some hold => exact ⟨hold, hfind, .refl _, fun _ => rfl⟩
  | listPendingHoldsForEnvelope envelopeId =>
    intro hold hmem
    have hrow := (EnvelopeStore.mem_listPendingHolds.mp hmem).1
    exact ⟨hold, Table.find?_of_mem hrow, .refl _, fun _ => rfl⟩
  | getActiveForActor actorId =>
    show known db ⟨.getActiveForActor actorId, .ok (EnvelopeStore.getActiveForActor actorId db)⟩
    cases hfind : EnvelopeStore.getActiveForActor actorId db with
    | none => trivial
    | some envelope =>
      obtain ⟨hrow, hactor, -⟩ := EnvelopeStore.getActiveForActor_some hfind
      exact ⟨⟨envelope, hrow, .refl _⟩, hactor⟩
  | resolveHold tx =>
    rcases exec_cases (.resolveHold tx) db with ⟨⟨event, cost⟩, db', htx, hexec⟩ | ⟨e, -, hexec⟩
    · rw [hexec]
      obtain ⟨db₁, db₂, events, hashes, -, hresolve, hsettle, hcommit, rfl⟩ := resolveHold_eq_ok htx
      obtain ⟨row, hrow, -, rfl⟩ := EnvelopeStore.resolveHoldRequestInTx_eq_ok hresolve
      refine ⟨⟨EnvelopeStore.resolved tx.decision tx.instruction tx.now row, rfl, ?_⟩, ?_,
        _, hcommit.placed⟩
      · have hsettles : Effects (.resolveHold tx) _ db₂ := settleIf_effects hsettle
        have hlater := hsettles.later
        exact HoldLasts.later hlater
          ⟨_, EnvelopeStore.find?_resolved hrow _ _ _, .refl _, fun _ => rfl⟩
      · show event ∈ events.rows
        rw [(Table.insert?_eq_some hcommit.inserted).2]
        exact List.mem_append_right _ (List.mem_singleton_self _)
    · rw [hexec]
      trivial
  | countEvents => exact le_refl db.events.rows.length
  | treeSize => exact le_refl (AuditLog.treeSize db)
  | makeCheckpoint treeSize now =>
    rcases exec_cases (.makeCheckpoint treeSize now) db with ⟨cp, db', htx, hexec⟩ | ⟨e, -, hexec⟩
    · rw [hexec]
      obtain ⟨root, -, hcp, rfl⟩ := AuditLog.makeCheckpoint_eq_ok (auditTx_eq_ok htx)
      have hsize : cp.treeSize = treeSize := by rw [hcp]
      rw [← hsize]
      exact (AuditLog.treeSize_le_upsert db cp).2
    · rw [hexec]
      trivial
  | _ => trivial

/-! ## The contract -/

/-- A denied operation answers with an error, from which nothing is concluded about the
database. -/
theorem refuses_error {op : Op} {x : KernelResult (Val op)} (h : refuses op x) (s : Db) :
    answers op x ∧ known s ⟨op, x⟩ := by
  cases op with
  | consumeBudget tx =>
    obtain ⟨e, -, rfl | rfl⟩ := h <;> exact ⟨trivial, trivial⟩
  | _ =>
    obtain ⟨e, -, rfl⟩ := h
    exact ⟨trivial, trivial⟩

/-- The kernel's programs and its database keep the protocol, whatever runs
beside a request. -/
def kernelContract : Contract kernelSystem StateStore.genesis where
  inv db := StateStore.Seeded db ∧ HoldsSound db
  known := known
  allowed := allowed
  answers := answers
  returns := OnOk Answer
  admits _ := True
  start := ⟨StateStore.seeded_genesis, fun _ _ h => by cases h⟩
  exec := by
    intro past op db ⟨hseed, hsound⟩ hknown hallowed
    exact ⟨⟨(exec_effects op db).keep StateStore.Seeded.effect hseed,
      hsound.exec (allowed_holdsSoundly hknown hallowed)⟩, exec_answers hsound op, exec_known hknown hallowed,
      fun d hd => hd.later (exec_later op db)⟩
  fault := fun op x s h => refuses_error h s
  reboot := by
    intro db db' hboot ⟨hseed, hsound⟩
    rw [bootstrap_eq hseed hboot]
    exact ⟨hseed, hsound⟩
  spawn := fun r _ => program_follows r
  again := by
    intro past answer p hreturns hagain
    cases answer with
    | error e => cases hagain
    | ok outcome =>
      cases outcome with
      | resubmit envs action =>
        cases hagain
        obtain ⟨tx, hresumed⟩ := hreturns
        exact submitAction_follows envs (.resumed tx hresumed)
      | _ => cases hagain

/-- What the contract promises of every pool a run reaches: its holds are sound, and
every task follows the protocol with a past that is known to be so. -/
theorem KernelRun.keeps {tr : List KernelTransition} {pool : KernelPool} (h : KernelRun tr pool) :
    HoldsSound pool.store ∧ ∀ t ∈ pool.tasks, kernelContract.Keeps pool.store t := by
  obtain ⟨⟨-, hsound⟩, hkeeps⟩ := kernelContract.run h (fun _ _ _ _ _ => trivial)
  exact ⟨hsound, hkeeps⟩

omit [Externals] in
/-- A read that the database denies has no value, so a value that was read is one that
the database had. -/
theorem not_refuses_read {op : Op} {v : Val op} (hread : op.isRead = true) :
    ¬ refuses op (.ok v) := by
  intro h
  cases op with
  | consumeBudget tx => cases hread
  | _ =>
    obtain ⟨e, -, heq⟩ := h
    cases heq

/-- What a request has read, it read in a step of its own, from the state of that
step, with the past it then had. -/
theorem KernelRun.read {tr : List KernelTransition} {pool : KernelPool} (h : KernelRun tr pool)
    {task : Task KernelSig (KernelResult Outcome)} (htask : task ∈ pool.tasks) {op : Op} {v : Val op}
    (hread : op.isRead = true) {recent older : Past}
    (hpast : task.past = recent ++ ⟨op, .ok v⟩ :: older) :
    ∃ newer t rest prog, tr = newer ++ t :: rest ∧ t.label = .act task.id ⟨op, .ok v⟩ ∧
      (⟨task.id, prog, older⟩ : Task KernelSig (KernelResult Outcome)) ∈ t.before.tasks ∧
      (exec op t.before.store).1 = .ok v ∧ Unspawned task.id newer := by
  obtain ⟨newer, t, rest, prog, rfl, hlabel, hmem, hnewer⟩ := h.tracked task htask _ _ _ hpast
  obtain ⟨-, pool', hstep⟩ := h.upTo
  rcases hlabel with hact | hfault
  · rw [hact] at hstep
    obtain ⟨-, hanswer, -⟩ := hstep.act_inv
    exact ⟨newer, t, rest, prog, rfl, hact, hmem,
      (eq_of_heq (Performed.mk.inj hanswer).2).symm, hnewer⟩
  · rw [hfault] at hstep
    exact absurd hstep.fault_inv (not_refuses_read hread)

/-- Whatever the requests do, what they leave is a later state of what each of them
began with. The induction is on the run, one step at a time. -/
theorem KernelRun.later {tr : List KernelTransition} {pool : KernelPool} (h : KernelRun tr pool) :
    ∀ t ∈ tr, Later t.before.store pool.store := by
  refine kernelContract.invariant (P := fun tr pool => ∀ t ∈ tr, Later t.before.store pool.store)
    (G := fun _ => True) (fun _ h => nomatch h) ?_ h (fun _ _ _ _ _ => trivial)
    (fun _ _ => trivial)
  intro tr pool l pool' _ hs hinv _ _ hP
  have hstep : Later pool.store pool'.store := by
    cases hs with
    | act store before after id op => exact exec_later op store
    | restart store store' tasks hboot =>
      rw [bootstrap_eq hinv.1 hboot]
      exact .refl _
    | _ => exact .refl _
  intro t ht
  rcases List.mem_cons.mp ht with rfl | ht
  · exact hstep
  · exact (hP t ht).trans hstep

/-! ## The events of a run -/

/-- A committed event becomes the last row of the log, at the next index. -/
theorem Commits.rows {event ev : EventRecord} {db : Db} {events : Table EventRecord}
    {hashes : Table AuditHash} (h : Commits event db ev events hashes) :
    events.rows = db.events.rows ++ [event.placed (nextIdx db)] := by
  rw [← h.placed]
  exact (Table.insert?_eq_some h.inserted).2

omit [Externals] in
/-- The next index depends on the log alone. -/
theorem nextIdx_congr {db db' : Db} (h : db'.events = db.events) : nextIdx db' = nextIdx db := by
  unfold nextIdx
  rw [h]

/-- An operation that commits appends the event it drafted, placed at the next index,
and nothing else. -/
theorem transaction_appends {op : Op} {db db' : Db} {v : Val op} {draft : EventRecord}
    (h : transaction op db = .ok (v, db')) (hcommits : op.Commits draft) :
    db'.events.rows = db.events.rows ++ [draft.placed (nextIdx db)] := by
  cases op with
  | finalize tx =>
    cases hcommits
    obtain ⟨db₁, db₂, db₃, events, hashes, hsettle, hactor, henvelope, hcommit, rfl⟩ :=
      finalize_eq_ok h
    have hsame : db₃.events = db.events := by
      rw [createEnvelopeRow_frame henvelope, createActorRows_frame hactor,
        settleReservation_frame hsettle]
    rw [← nextIdx_congr hsame, ← hsame]
    exact hcommit.rows
  | triggerHold tx =>
    cases hcommits
    obtain ⟨db₁, events, hashes, holds, hreserve, hcommit, -, -, rfl⟩ := triggerHold_eq_ok h
    have hsame : db₁.events = db.events := by rw [reserveIfPositive_frame hreserve]
    rw [← nextIdx_congr hsame, ← hsame]
    exact hcommit.rows
  | resolveHold tx =>
    cases hcommits
    obtain ⟨db₁, db₂, events, hashes, -, hresolve, hsettle, hcommit, rfl⟩ := resolveHold_eq_ok h
    have hsettled := congrArg Db.events (settleIf_frame hsettle)
    obtain ⟨row, -, -, rfl⟩ := EnvelopeStore.resolveHoldRequestInTx_eq_ok hresolve
    have hsame : db₂.events = db.events := hsettled
    rw [← nextIdx_congr hsame, ← hsame]
    exact hcommit.rows
  | expireHold tx =>
    cases hcommits
    obtain ⟨db₁, db₂, events, hashes, hresolve, hsettle, hcommit, rfl⟩ := expireHold_eq_ok h
    have hsettled := congrArg Db.events (settleIf_frame hsettle)
    obtain ⟨row, -, -, rfl⟩ := EnvelopeStore.resolveHoldRequestInTx_eq_ok hresolve
    have hsame : db₂.events = db.events := hsettled
    rw [← nextIdx_congr hsame, ← hsame]
    exact hcommit.rows
  | _ => cases hcommits

/-- An operation that commits appends the event it drafted; every other leaves
the log alone. -/
theorem transaction_commits {op : Op} {db db' : Db} {v : Val op}
    (h : transaction op db = .ok (v, db')) :
    db'.events = db.events ∨ ∃ draft, op.Commits draft ∧
      db'.events.rows = db.events.rows ++ [draft.placed (nextIdx db)] := by
  by_cases hop : ∃ draft, op.Commits draft
  · obtain ⟨draft, hcommits⟩ := hop
    exact .inr ⟨draft, hcommits, transaction_appends h hcommits⟩
  · refine .inl ((transaction_effects h).keep (P := fun db' => db'.events = db.events) ?_ rfl)
    intro a b hstep ha
    cases hstep with
    | commit draft events leaf nodes hcommits => exact absurd ⟨draft, hcommits⟩ hop
    | _ => exact ha

/-- The events an operation adds are the ones it commits, so the log has no entry that
no operation accounts for. -/
theorem exec_new_event (op : Op) (db : Db) {event : EventRecord}
    (h : event ∈ (exec op db).2.events.rows) :
    event ∈ db.events.rows ∨ ∃ draft idx, op.Commits draft ∧ event = draft.placed idx := by
  rcases exec_cases op db with ⟨v, db', htx, hexec⟩ | ⟨e, -, hexec⟩
  · rw [hexec] at h
    rcases transaction_commits htx with hsame | ⟨draft, hcommits, hrows⟩
    · exact .inl (hsame ▸ h)
    · rw [hrows] at h
      rcases List.mem_append.mp h with hold | hnew
      · exact .inl hold
      · exact .inr ⟨draft, _, hcommits, List.mem_singleton.mp hnew⟩
  · rw [hexec] at h
    exact .inl h

/-- What every draft of an allowed operation has, every event of a run has. -/
theorem KernelRun.events_satisfy {P : EventRecord → Prop}
    (draft : ∀ past op event idx, allowed past op → op.Commits event → P (event.placed idx))
    {tr : List KernelTransition} {pool : KernelPool} (h : KernelRun tr pool) :
    ∀ event ∈ pool.store.events.rows, P event := by
  refine kernelContract.invariant (P := fun _ pool => ∀ event ∈ pool.store.events.rows, P event)
    (G := fun _ => True) (fun _ h => (nomatch h)) ?_ h (fun _ _ _ _ _ => trivial)
    (fun _ _ => trivial)
  intro tr pool l pool' _ hs hinv hkeeps _ hP
  cases hs with
  | act store before after id op k past =>
    have hme := hkeeps ⟨id, .vis op k, past⟩ (by simp)
    intro event hmem
    rcases exec_new_event op store hmem with hold | ⟨d, idx, hcommits, rfl⟩
    · exact hP event hold
    · exact draft past op d idx hme.honors.1 hcommits
  | restart store store' tasks hboot =>
    rw [show store'.events = store.events from bootstrap_events hboot]
    exact hP
  | _ => exact hP

end PunkgoKernel
