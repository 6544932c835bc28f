import PunkgoKernel.Laws.FreezeOrder

/-!
# Termination

A termination is carried out as a freeze, and the actor's row remembers nothing
else of it. What follows is about the run after it: as long as no unfreeze of
the agent is carried out, every request reads the agent as frozen, so that none
of its actions is committed (`Terminated.step`), and an unfreeze is all it takes
to undo it (`run_termination_iff`).
-/

namespace PunkgoKernel

open Json (Value)
open Relational (Table key)
open Resumption

/-! ## The log of the agent rests -/

/-- The log has grown by no action of the actor. -/
def Rests (actorId : String) (db db' : Db) : Prop :=
  ∃ added, db'.events.rows = db.events.rows ++ added ∧
    ∀ event ∈ added, event.actionOf actorId = false

theorem Rests.of_eq {actorId : String} {db db' : Db} (h : db'.events.rows = db.events.rows) :
    Rests actorId db db' :=
  ⟨[], by rw [h, List.append_nil], fun event hevent => (by cases hevent)⟩

theorem Rests.trans {actorId : String} {a b c : Db} (h : Rests actorId a b)
    (h' : Rests actorId b c) : Rests actorId a c := by
  obtain ⟨added, hrows, hadded⟩ := h
  obtain ⟨added', hrows', hadded'⟩ := h'
  refine ⟨added ++ added', by rw [hrows', hrows, List.append_assoc], ?_⟩
  intro event hevent
  rcases List.mem_append.mp hevent with hold | hnew
  · exact hadded event hold
  · exact hadded' event hnew

theorem Rests.since {actorId : String} {db db' : Db} (h : Rests actorId db db') :
    ∀ event ∈ db'.events.rows.drop db.events.rows.length, event.actionOf actorId = false := by
  obtain ⟨added, hrows, hadded⟩ := h
  rw [hrows, List.drop_left]
  exact hadded

/-! ## Who may still act -/

/-- Whenever the request has read the actor's row, the actor was frozen. -/
def SawFrozen (actorId : String) (past : Past) : Prop :=
  ∀ found : Option ActorRecord, Saw past (.getActor actorId) found →
    ∃ actor, found = some actor ∧ actor.status = .frozen

/-- The actor is frozen, and whoever has not committed has seen it so. -/
structure Terminated (actorId : String) (pool : KernelPool) : Prop where
  frozen : pool.store.isFrozen actorId
  seen : ∀ task ∈ pool.tasks, committed task.past = true ∨ SawFrozen actorId task.past

theorem committed_cons {d : Performed KernelSig} {past : Past} (h : committed past = true) :
    committed (d :: past) = true := by
  unfold committed
  split
  · next heq => cases heq
  · rfl
  · next heq =>
    cases heq
    exact h

variable [Externals]

/-- The commit of an action follows a check that its actor is active. -/
theorem FinalizeAllowed.not_frozen {past : Past} {tx : FinalizeTx} {actorId : String}
    (h : FinalizeAllowed past tx) (hseen : SawFrozen actorId past) :
    tx.event.actionOf actorId = false := by
  rw [Bool.eq_false_iff]
  intro hact
  rcases h.sawActive hact with ⟨newer, older, hpast, -⟩ | ⟨actor, hsaw, hactive⟩
  · have hsaw : Saw past (.getActor actorId) none := by
      rw [hpast]
      exact List.mem_append_right _ List.mem_cons_self
    obtain ⟨actor, hactor, -⟩ := hseen _ hsaw
    cases hactor
  · obtain ⟨actor', hactor', hstatus⟩ := hseen _ hsaw
    cases hactor'
    rw [hactive] at hstatus
    cases hstatus

/-- An operation of a request that has seen the actor frozen, or has
committed. -/
theorem exec_rests {actorId : String} {past : Past} {op : Op} {db : Db}
    (hallowed : allowed past op) (hseen : committed past = true ∨ SawFrozen actorId past) :
    Rests actorId db (exec op db).2 := by
  rcases exec_log op db with hsame | ⟨draft, v, -, hcommits, hrows⟩
  · exact .of_eq hsame
  refine ⟨_, hrows, ?_⟩
  intro event hevent
  obtain rfl := List.mem_singleton.mp hevent
  rw [Bool.eq_false_iff]
  intro hact
  obtain ⟨tx, rfl⟩ := allowed_commits_action hallowed hcommits (actionOf_type hact)
  cases hcommits
  rcases hseen with hcommitted | hfrozen
  · obtain ⟨env, action, artifactHash, -, -, -, -, -, -, huncommitted, -⟩ := hallowed
    rw [hcommitted] at huncommitted
    cases huncommitted
  · have hnot := FinalizeAllowed.not_frozen hallowed hfrozen
    rw [show tx.event.actionOf actorId = true from hact] at hnot
    cases hnot

/-- The answer to an operation shows the actor frozen, if it is. -/
theorem SawFrozen.exec {actorId : String} {past : Past} {op : Op} {db : Db}
    (hfrozen : db.isFrozen actorId) (h : SawFrozen actorId past) :
    SawFrozen actorId (⟨op, (exec op db).1⟩ :: past) := by
  intro found hsaw
  rcases List.mem_cons.mp hsaw with hnew | hold
  · cases hnew
    obtain ⟨actor, hactor, hstatus⟩ := hfrozen
    exact ⟨actor, hactor, hstatus⟩
  · exact h found hold

omit [Externals] in
theorem SawFrozen.fault {actorId : String} {past : Past} {op : Op} {x : KernelResult (Val op)}
    (hx : refuses op x) (h : SawFrozen actorId past) : SawFrozen actorId (⟨op, x⟩ :: past) := by
  intro found hsaw
  rcases List.mem_cons.mp hsaw with hnew | hold
  · cases hnew
    obtain ⟨e, -, heq⟩ := hx
    cases heq
  · exact h found hold

/-- A step that carries out no unfreeze of the actor. -/
theorem Terminated.step {actorId : String} {tr : List KernelTransition} {pool pool' : KernelPool}
    {l : Label KernelSig (KernelResult Outcome) Request} (hrun : KernelRun tr pool)
    (hs : Step kernelSystem pool l pool')
    (hl : ∀ id v, l ≠ .act id ⟨.executeUnfreeze actorId, .ok v⟩) (h : Terminated actorId pool) :
    Terminated actorId pool' ∧ Rests actorId pool.store pool'.store := by
  obtain ⟨hinv, hkeeps⟩ := kernelContract.run hrun (fun _ _ _ _ _ => trivial)
  -- the other requests, and the one that took the step
  have hothers : ∀ {before after : List (Task KernelSig (KernelResult Outcome))}
      {t t' : Task KernelSig (KernelResult Outcome)},
      (∀ task ∈ before ++ t :: after, committed task.past = true ∨ SawFrozen actorId task.past) →
      (committed t'.past = true ∨ SawFrozen actorId t'.past) →
      ∀ task ∈ before ++ t' :: after, committed task.past = true ∨ SawFrozen actorId task.past := by
    intro before after t t' hall ht' task htask
    rcases List.mem_append.mp htask with hb | ha
    · exact hall task (List.mem_append_left _ hb)
    rcases List.mem_cons.mp ha with rfl | ha
    · exact ht'
    · exact hall task (List.mem_append_right _ (List.mem_cons_of_mem _ ha))
  have hleave : ∀ {before after : List (Task KernelSig (KernelResult Outcome))}
      {t : Task KernelSig (KernelResult Outcome)},
      (∀ task ∈ before ++ t :: after, committed task.past = true ∨ SawFrozen actorId task.past) →
      ∀ task ∈ before ++ after, committed task.past = true ∨ SawFrozen actorId task.past := by
    intro before after t hall task htask
    refine hall task ?_
    rcases List.mem_append.mp htask with hb | ha
    · exact List.mem_append_left _ hb
    · exact List.mem_append_right _ (List.mem_cons_of_mem _ ha)
  cases hs with
  | spawn store tasks id r hfresh =>
    refine ⟨⟨h.frozen, ?_⟩, .of_eq rfl⟩
    intro task htask
    rcases List.mem_cons.mp htask with rfl | htask
    · exact .inr fun found hsaw => by cases hsaw
    · exact h.seen task htask
  | act store before after id op k past =>
    have hme := hkeeps ⟨id, .vis op k, past⟩ (by simp)
    have hseen := h.seen ⟨id, .vis op k, past⟩ (by simp)
    refine ⟨⟨?_, hothers h.seen ?_⟩, exec_rests hme.honors.1 hseen⟩
    · show Db.isFrozen (exec op store).2 actorId
      rcases exec_cases op store with ⟨v, db', -, hexec⟩ | ⟨e, -, hexec⟩
      swap
      · rw [hexec]
        exact h.frozen
      refine isFrozen_kept (exec_rows op store) ?_ h.frozen
      intro hset
      cases op with
      | executeUnfreeze targetId =>
        obtain ⟨rfl, -⟩ := hset
        refine hl id v ?_
        rw [show kernelSystem.handler.exec (.executeUnfreeze actorId) store = _ from hexec]
      | _ => cases hset
    · rcases hseen with hcommitted | hfrozen
      · exact .inl (committed_cons hcommitted)
      · exact .inr (hfrozen.exec h.frozen)
  | fault store before after id op k past x hx =>
    refine ⟨⟨h.frozen, hothers h.seen ?_⟩, .of_eq rfl⟩
    rcases h.seen ⟨id, .vis op k, past⟩ (by simp) with hcommitted | hfrozen
    · exact .inl (committed_cons hcommitted)
    · exact .inr (hfrozen.fault hx)
  | again store before after id a p past hp =>
    exact ⟨⟨h.frozen, hothers h.seen (h.seen ⟨id, .ret a, past⟩ (by simp))⟩, .of_eq rfl⟩
  | finish store before after id a past hp => exact ⟨⟨h.frozen, hleave h.seen⟩, .of_eq rfl⟩
  | cancel store before after t => exact ⟨⟨h.frozen, hleave h.seen⟩, .of_eq rfl⟩
  | restart store store' tasks hboot =>
    obtain rfl := bootstrap_eq hinv.1 hboot
    exact ⟨⟨h.frozen, fun task htask => (by cases htask)⟩, .of_eq rfl⟩

/-! ## After the termination -/

/-- The state a step leaves is one of the states after it. -/
theorem KernelRun.next {newer older : List KernelTransition} {t : KernelTransition}
    {pool : KernelPool} (h : KernelRun (newer ++ t :: older) pool) :
    ∃ next, Step kernelSystem t.before t.label next ∧ KernelRun (t :: older) next ∧
      next.store ∈ history newer pool := by
  induction newer generalizing pool with
  | nil =>
    cases h with
    | step hr hs => exact ⟨pool, hs, hr.step hs, List.mem_cons_self⟩
  | cons t' rest ih =>
    cases h with
    | @step _ before _ l hr hs =>
      obtain ⟨next, hstep, hrun, hmem⟩ := ih hr
      exact ⟨next, hstep, hrun, List.mem_cons_of_mem _ hmem⟩

/-- The step carries out an unfreeze of the actor. -/
def Unfreezes (actorId : String) (t : KernelTransition) : Prop :=
  ∃ id v, t.label = .act id ⟨.executeUnfreeze actorId, .ok v⟩

/-- What an unfreeze leaves. -/
theorem Unfreezes.active {actorId : String} {t : KernelTransition} {next : KernelPool}
    (h : Unfreezes actorId t) (hs : Step kernelSystem t.before t.label next) :
    ¬ next.store.isFrozen actorId := by
  obtain ⟨id, v, hlabel⟩ := h
  rw [hlabel] at hs
  generalize t.before = pool at hs
  generalize hl : (Label.act id ⟨.executeUnfreeze actorId, .ok v⟩ :
    Label KernelSig (KernelResult Outcome) Request) = l at hs
  cases hs with
  | act store before after id' op k past =>
    obtain ⟨-, hdone⟩ := Label.act.inj hl
    obtain ⟨rfl, hans⟩ := Performed.mk.inj hdone
    rcases exec_cases (.executeUnfreeze actorId) store with ⟨v', db', htx, hexec⟩ | ⟨e, -, hexec⟩
    · show ¬ Db.isFrozen (exec (.executeUnfreeze actorId) store).2 actorId
      rw [hexec]
      obtain ⟨-, rfl⟩ := ActorStore.updateInTx_eq_ok (unitTx_eq_ok htx)
      rintro ⟨actor, hfind, hstatus⟩
      have hmodify := Table.find?_modify store.actors actorId actorId
        (fun r => { r with status := .active }) (fun _ => rfl)
      rw [if_pos rfl] at hmodify
      obtain ⟨row, -, rfl⟩ := Option.map_eq_some_iff.mp (hmodify.symm.trans hfind)
      cases hstatus
    · rw [show kernelSystem.handler.exec (.executeUnfreeze actorId) store = _ from hexec] at hans
      cases eq_of_heq hans
  | _ => cases hl

/-- The agent is frozen in every state after the step, and the log has none of
its actions since. -/
def StaysTerminated (actorId : String) (newer : List KernelTransition) (t : KernelTransition)
    (pool : KernelPool) : Prop :=
  (∀ db ∈ history newer pool, db.isFrozen actorId) ∧
    ∀ event ∈ pool.store.events.rows.drop t.before.store.events.rows.length,
      event.actionOf actorId = false

/-- The step that carries out a termination, by the only request in flight. -/
structure Terminates (actorId : String) (t : KernelTransition) : Prop where
  alone : ∃ task, t.before.tasks = [task] ∧
    ∃ reason, uncarried task.past = some (actorId, .terminate reason)
  executed : ∃ id frozenIds, t.label = .act id ⟨.executeFreeze actorId, .ok frozenIds⟩

/-- The state after the step. -/
theorem Terminates.terminated {actorId : String} {older : List KernelTransition}
    {t : KernelTransition} {next : KernelPool} (h : Terminates actorId t)
    (hrun : KernelRun older t.before) (hs : Step kernelSystem t.before t.label next) :
    Terminated actorId next ∧ Rests actorId t.before.store next.store := by
  obtain ⟨⟨task, htasks, reason, huncarried⟩, id, frozenIds, hlabel⟩ := h
  obtain ⟨-, hkeeps⟩ := kernelContract.run hrun (fun _ _ _ _ _ => trivial)
  have hknown := (hkeeps task (by rw [htasks]; exact List.mem_cons_self)).known
  have htargets := KernelRun.targets hrun task (by rw [htasks]; exact List.mem_cons_self)
  have hcommitted : committed task.past = true := by
    by_contra hnot
    rw [Bool.not_eq_true] at hnot
    rw [uncarried_of_uncommitted hnot] at huncarried
    cases huncarried
  rw [hlabel] at hs
  obtain ⟨target, hsaw, -⟩ := htargets actorId _ huncarried
  obtain ⟨agent, hagent, -⟩ := hknown _ hsaw
  rcases exec_executeFreeze (by rw [hagent]; rfl) with ⟨-, db', hexec, hfind⟩ | ⟨-, e, hexec⟩
  swap
  · obtain ⟨-, hanswer, -⟩ := hs.act_inv
    injection hanswer with _ hanswer
    rw [show kernelSystem.handler.exec (.executeFreeze actorId) t.before.store = _ from hexec]
      at hanswer
    cases hanswer
  have hfrozen : db'.isFrozen actorId := by
    have hrow := hfind actorId
    rw [if_pos (show actorId ∈ frozenBy actorId t.before.store from List.mem_cons_self),
      hagent] at hrow
    exact ⟨_, hrow, rfl⟩
  have hrests : Rests actorId t.before.store db' := by
    rcases exec_log (.executeFreeze actorId) t.before.store with hsame | ⟨draft, v, -, hcommits, -⟩
    · rw [hexec] at hsame
      exact .of_eq hsame
    · cases hcommits
  generalize hpool : t.before = pool at hs hexec
  generalize hl : (Label.act id ⟨.executeFreeze actorId, .ok frozenIds⟩ :
    Label KernelSig (KernelResult Outcome) Request) = l at hs
  cases hs with
  | act store before after id' op k past =>
    obtain ⟨-, hdone⟩ := Label.act.inj hl
    obtain ⟨rfl, -⟩ := Performed.mk.inj hdone
    rw [hpool] at htasks hrests
    -- the only request in flight is the one that terminates
    have hsingle : before ++ ⟨id', .vis (.executeFreeze actorId) k, past⟩ :: after = [task] := htasks
    obtain ⟨rfl, rfl, rfl⟩ : before = [] ∧ task = ⟨id', .vis (.executeFreeze actorId) k, past⟩ ∧
        after = [] := by
      cases before with
      | nil =>
        obtain ⟨hhead, htail⟩ := List.cons.inj hsingle
        exact ⟨rfl, hhead.symm, htail⟩
      | cons head rest =>
        obtain ⟨-, htail⟩ := List.cons.inj hsingle
        exact absurd htail (List.append_ne_nil_of_right_ne_nil _ (List.cons_ne_nil _ _))
    have hstore : (kernelSystem.handler.exec (.executeFreeze actorId) store).2 = db' :=
      congrArg Prod.snd hexec
    rw [hstore]
    refine ⟨⟨hfrozen, ?_⟩, hrests⟩
    intro task' htask'
    obtain rfl := List.mem_singleton.mp htask'
    exact .inl (committed_cons hcommitted)
  | _ => cases hl

/-- After a termination the agent stays frozen and none of its actions is committed
exactly as long as no unfreeze of it is carried out. The kernel keeps no other record of
a termination than the status. -/
theorem run_termination_iff {newer older : List KernelTransition} {t : KernelTransition}
    {pool : KernelPool} (h : KernelRun (newer ++ t :: older) pool) {actorId : String}
    (hterminates : Terminates actorId t) :
    StaysTerminated actorId newer t pool ↔ ∀ t' ∈ newer, ¬ Unfreezes actorId t' := by
  constructor
  · rintro ⟨hfrozen, -⟩ t' ht' hunfreezes
    obtain ⟨after, before, rfl⟩ := List.append_of_mem ht'
    rw [List.append_assoc] at h
    obtain ⟨next, hs, -, hmem⟩ := KernelRun.next (t := t') h
    refine hunfreezes.active hs (hfrozen _ ?_)
    rcases List.mem_cons.mp hmem with hlast | hmem
    · rw [hlast]
      exact List.mem_cons_self
    · obtain ⟨u, hu, hstore⟩ := List.mem_map.mp hmem
      refine List.mem_cons_of_mem _ (List.mem_map.mpr ⟨u, ?_, hstore⟩)
      exact List.mem_append_left _ hu
  · intro hnone
    -- along the run the agent stays terminated and its log rests
    have hrun : Terminated actorId pool ∧ Rests actorId t.before.store pool.store ∧
        ∀ db ∈ history newer pool, db.isFrozen actorId := by
      induction newer generalizing pool with
      | nil =>
        cases h with
        | step hr hs =>
          obtain ⟨hterminated, hrests⟩ := hterminates.terminated hr hs
          refine ⟨hterminated, hrests, ?_⟩
          intro db hdb
          obtain rfl := List.mem_singleton.mp hdb
          exact hterminated.frozen
      | cons t' rest ih =>
        cases h with
        | @step _ before _ l hr hs =>
          obtain ⟨hterminated, hrests, hhistory⟩ := ih hr
            (fun u hu => hnone u (List.mem_cons_of_mem _ hu))
          obtain ⟨hterminated', hrests'⟩ := hterminated.step hr hs (fun id v hlabel =>
            hnone _ List.mem_cons_self ⟨id, v, hlabel⟩)
          refine ⟨hterminated', hrests.trans hrests', ?_⟩
          intro db hdb
          rcases List.mem_cons.mp hdb with rfl | hdb
          · exact hterminated'.frozen
          · exact hhistory db hdb
    obtain ⟨-, hrests, hhistory⟩ := hrun
    exact ⟨hhistory, hrests.since⟩

/-- The step that carries out a termination, as can be read off it. -/
def terminates (actorId : String) (t : KernelTransition) : Bool :=
  match t.before.tasks, t.label with
  | [task], .act _ ⟨.executeFreeze targetId, .ok _⟩ => targetId = actorId &&
    match uncarried task.past with
    | some (targetId, .terminate _) => targetId = actorId
    | _ => false
  | _, _ => false

omit [Externals] in
theorem terminates_sound {actorId : String} {t : KernelTransition}
    (h : terminates actorId t = true) : Terminates actorId t := by
  unfold terminates at h
  split at h
  · next task id targetId frozenIds htasks hlabel =>
    obtain ⟨htarget, hmatch⟩ := Bool.and_eq_true_iff.mp h
    obtain rfl : targetId = actorId := of_decide_eq_true htarget
    split at hmatch
    · next targetId' reason huncarried =>
      obtain rfl : targetId' = targetId := of_decide_eq_true hmatch
      exact ⟨⟨task, htasks, reason, huncarried⟩, id, frozenIds, hlabel⟩
    · cases hmatch
  · cases h

def unfreezes (t : KernelTransition) : Bool :=
  match t.label with
  | .act _ ⟨.executeUnfreeze _, .ok _⟩ => true
  | _ => false

/-- An agent at work is terminated and tries to go on. -/
def agentTerminated : List (Turn Request) :=
  agentAtWork ++ alone 30 (lifecycleAt 3 "agent-1" "terminate") ++
    alone 30 (submitAt 4 "agent-1" .mutate "workspace/a" (.obj []))

omit [Externals] in
/-- The terminated agent does not act again, though it asks to, as nobody has unfrozen
it. -/
theorem agentTerminated_stays :
    letI := reference
    ∃ newer t older, (kernelPlayed agentTerminated).trace = newer ++ t :: older ∧
      Terminates "agent-1" t ∧ 30 ≤ newer.length + older.length ∧
      StaysTerminated "agent-1" newer t (kernelPlayed agentTerminated).pool := by
  have hplayed : (kernelPlayed agentTerminated).trace.any (terminates "agent-1") = true ∧
      (kernelPlayed agentTerminated).trace.all (fun t => !unfreezes t) = true ∧
      30 < (kernelPlayed agentTerminated).trace.length := by
    rw [kernelPlayed_eq]
    decide +kernel
  obtain ⟨hterminates, hnone, hlength⟩ := hplayed
  have hrun := kernelRun_played agentTerminated
  obtain ⟨t, ht, hsound⟩ := List.any_eq_true.mp hterminates
  obtain ⟨newer, older, htrace⟩ := List.append_of_mem ht
  rw [htrace, List.length_append, List.length_cons] at hlength
  rw [htrace] at hrun
  refine ⟨newer, t, older, htrace, terminates_sound hsound, by omega, ?_⟩
  refine (@run_termination_iff reference _ _ _ _ hrun _ (terminates_sound hsound)).mpr ?_
  rintro t' ht' ⟨id, v, hlabel⟩
  have hnot := List.all_eq_true.mp hnone t' (by
    rw [htrace]
    exact List.mem_append_left _ ht')
  unfold unfreezes at hnot
  rw [hlabel] at hnot
  cases hnot

/-- Root terminates an agent and unfreezes it. -/
def unfrozenAfterTermination : List (Turn Request) :=
  agentAtWork ++ alone 30 (lifecycleAt 3 "agent-1" "terminate") ++
    alone 30 (lifecycleAt 4 "agent-1" "unfreeze")

omit [Externals] in
/-- A terminated agent that is active again, once root has had it unfrozen. -/
theorem unfrozenAfterTermination_active :
    letI := reference
    ¬ ∀ newer t older pool actorId, KernelRun (newer ++ t :: older) pool →
      Terminates actorId t → StaysTerminated actorId newer t pool := by
  intro hclaim
  have hterminates :
      (kernelPlayed unfrozenAfterTermination).trace.any (terminates "agent-1") = true := by
    rw [kernelPlayed_eq]
    decide +kernel
  have hactive : ((kernelPlayed unfrozenAfterTermination).pool.store.actors.find? "agent-1").map
      (·.status) = some .active := by
    rw [kernelPlayed_eq]
    decide +kernel
  have hrun := kernelRun_played unfrozenAfterTermination
  obtain ⟨t, ht, hsound⟩ := List.any_eq_true.mp hterminates
  obtain ⟨newer, older, htrace⟩ := List.append_of_mem ht
  rw [htrace] at hrun
  obtain ⟨hhistory, -⟩ := hclaim newer t older _ "agent-1" hrun (terminates_sound hsound)
  obtain ⟨actor, hfind, hstatus⟩ := hhistory _ List.mem_cons_self
  rw [hfind, Option.map_some, hstatus] at hactive
  cases hactive

end PunkgoKernel
