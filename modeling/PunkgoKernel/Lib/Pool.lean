import Mathlib.Algebra.BigOperators.Group.List.Basic
import Mathlib.Algebra.Ring.Int.Defs
import PunkgoKernel.Lib.Prog

/-!
# Pools of tasks over one store

Requests are served by tasks that run side by side on one store. A step of
the pool is a step of one task: it performs its next operation, or the store
refuses that operation, or the task has returned and either goes on with a
further program (a tail call) or leaves the pool. A task may be cut off
between any two of its operations, and the whole pool may be killed and
started again on the store it left. `Completes` is one request served from
start to end with nobody else in the pool.

`Run` is the list of the steps taken, newest first, each with the pool it was
taken in, so that a condition on a run is a condition on the steps and on the
states they were taken in. Seven rules serve the proofs:

- `Run.store_invariant`: what every operation keeps, every run keeps.
- `Contract.run` and `Contract.invariant`: an invariant that needs the tasks
  to keep to a protocol.
- `Contract.accounts`: an account of the store that is balanced by what each
  task still carries.
- `Contract.pasts`: what each task keeps about its own past.
- `Contract.each`: what each task keeps about its own request, and the store
  the request began on.
- `Contract.solo`: the same where requests come one after the other, and a
  task may rely on the store being as it left it.
- `Run.tracked`: what a task has done was done in steps of the run.
-/

namespace Resumption

/-- A running program with the operations it performed, newest first. -/
structure Task (S : Signature) (A : Type) where
  id : Nat
  prog : Prog S A
  past : List (Performed S)

/-- The store and the tasks in flight. -/
structure Pool (S : Signature) (A σ : Type) where
  store : σ
  tasks : List (Task S A)

/-- What is needed to run: the store's handler, the program of a request, the
program an answer goes on with (a tail call), and the startup on the store a
stopped pool left, which may refuse. -/
structure System (S : Signature) (A σ R : Type) where
  handler : Handler S σ
  program : R → Prog S A
  again : A → Option (Prog S A)
  reboot : σ → Option σ

/-- The kinds of steps. -/
inductive Label (S : Signature) (A R : Type) where
  | spawn (id : Nat) (r : R)
  | act (id : Nat) (done : Performed S)
  | fault (id : Nat) (done : Performed S)
  | again (id : Nat) (a : A)
  | finish (id : Nat) (a : A)
  | cancel (id : Nat)
  | restart

variable {S : Signature} {A σ R : Type}

/-- One step of the pool. -/
inductive Step (Y : System S A σ R) : Pool S A σ → Label S A R → Pool S A σ → Prop where
  | spawn (store : σ) (tasks : List (Task S A)) (id : Nat) (r : R) :
      (∀ t ∈ tasks, t.id ≠ id) →
      Step Y ⟨store, tasks⟩ (.spawn id r) ⟨store, ⟨id, Y.program r, []⟩ :: tasks⟩
  | act (store : σ) (before after : List (Task S A)) (id : Nat) (op : S.Op)
      (k : S.Ans op → Prog S A) (past : List (Performed S)) :
      Step Y ⟨store, before ++ ⟨id, .vis op k, past⟩ :: after⟩
        (.act id ⟨op, (Y.handler.exec op store).1⟩)
        ⟨(Y.handler.exec op store).2,
          before ++ ⟨id, k (Y.handler.exec op store).1,
            ⟨op, (Y.handler.exec op store).1⟩ :: past⟩ :: after⟩
  | fault (store : σ) (before after : List (Task S A)) (id : Nat) (op : S.Op)
      (k : S.Ans op → Prog S A) (past : List (Performed S)) (x : S.Ans op) :
      Y.handler.refuses op x →
      Step Y ⟨store, before ++ ⟨id, .vis op k, past⟩ :: after⟩ (.fault id ⟨op, x⟩)
        ⟨store, before ++ ⟨id, k x, ⟨op, x⟩ :: past⟩ :: after⟩
  | again (store : σ) (before after : List (Task S A)) (id : Nat) (a : A)
      (p : Prog S A) (past : List (Performed S)) :
      Y.again a = some p →
      Step Y ⟨store, before ++ ⟨id, .ret a, past⟩ :: after⟩ (.again id a)
        ⟨store, before ++ ⟨id, p, past⟩ :: after⟩
  | finish (store : σ) (before after : List (Task S A)) (id : Nat) (a : A)
      (past : List (Performed S)) :
      Y.again a = none →
      Step Y ⟨store, before ++ ⟨id, .ret a, past⟩ :: after⟩ (.finish id a)
        ⟨store, before ++ after⟩
  | cancel (store : σ) (before after : List (Task S A)) (t : Task S A) :
      Step Y ⟨store, before ++ t :: after⟩ (.cancel t.id) ⟨store, before ++ after⟩
  | restart (store store' : σ) (tasks : List (Task S A)) :
      Y.reboot store = some store' →
      Step Y ⟨store, tasks⟩ .restart ⟨store', []⟩

/-- A step with the pool it was taken in. -/
structure Transition (S : Signature) (A σ R : Type) where
  before : Pool S A σ
  label : Label S A R

/-- A task with this past performs this operation in the step. -/
def Transition.Performs (t : Transition S A σ R) (past : List (Performed S))
    (d : Performed S) : Prop :=
  ∃ id prog, t.label = .act id d ∧ ⟨id, prog, past⟩ ∈ t.before.tasks

/-- The step takes the task out of the pool: it has returned, it is cut off,
or the pool is killed. -/
def Transition.Ends (t : Transition S A σ R) (task : Task S A) : Prop :=
  task ∈ t.before.tasks ∧
    ((∃ a, t.label = .finish task.id a) ∨ t.label = .cancel task.id ∨ t.label = .restart)

/-- The runs from a store with no task in flight: the transitions taken,
newest first, and the pool reached. -/
inductive Run (Y : System S A σ R) (init : σ) :
    List (Transition S A σ R) → Pool S A σ → Prop where
  | start : Run Y init [] ⟨init, []⟩
  | step {tr : List (Transition S A σ R)} {pool pool' : Pool S A σ} {l : Label S A R} :
      Run Y init tr pool → Step Y pool l pool' → Run Y init (⟨pool, l⟩ :: tr) pool'

/-- A pool some run reaches. -/
def Reachable (Y : System S A σ R) (init : σ) (pool : Pool S A σ) : Prop :=
  ∃ tr, Run Y init tr pool

variable {Y : System S A σ R} {init : σ}

/-- What the start has and every operation and every startup keeps, every
reachable store has. -/
theorem Run.store_invariant {I : σ → Prop} (start : I init)
    (exec : ∀ op s, I s → I (Y.handler.exec op s).2)
    (reboot : ∀ s s', Y.reboot s = some s' → I s → I s')
    {tr : List (Transition S A σ R)} {pool : Pool S A σ} (h : Run Y init tr pool) :
    I pool.store := by
  induction h with
  | start => exact start
  | step _ hs ih =>
    cases hs with
    | spawn => exact ih
    | act _ _ _ _ op => exact exec op _ ih
    | fault => exact ih
    | again => exact ih
    | finish => exact ih
    | cancel => exact ih
    | restart s s' _ hb => exact reboot s s' hb ih

theorem Step.store_monotone {Q : σ → σ → Prop} (refl : ∀ s, Q s s)
    (exec : ∀ op s, Q s (Y.handler.exec op s).2)
    (reboot : ∀ s s', Y.reboot s = some s' → Q s s')
    {pool pool' : Pool S A σ} {l : Label S A R} (h : Step Y pool l pool') :
    Q pool.store pool'.store := by
  cases h with
  | spawn => exact refl _
  | act _ _ _ _ op => exact exec op _
  | fault => exact refl _
  | again => exact refl _
  | finish => exact refl _
  | cancel => exact refl _
  | restart s s' _ hb => exact reboot s s' hb

/-- What relates an earlier store to every later one, if each operation keeps
it: the rule for facts such as "no row is ever lost". -/
theorem Run.store_monotone {Q : σ → σ → Prop} (refl : ∀ s, Q s s)
    (trans : ∀ {a b c}, Q a b → Q b c → Q a c)
    (exec : ∀ op s, Q s (Y.handler.exec op s).2)
    (reboot : ∀ s s', Y.reboot s = some s' → Q s s')
    {tr : List (Transition S A σ R)} {pool : Pool S A σ} (h : Run Y init tr pool)
    {t : Transition S A σ R} (ht : t ∈ tr) : Q t.before.store pool.store := by
  induction h with
  | start => cases ht
  | step hr hs ih =>
    have one := hs.store_monotone refl exec reboot
    rcases List.mem_cons.mp ht with rfl | hmem
    · exact one
    · exact trans (ih hmem) one

/-- The steps from a pool lead to another. -/
inductive Leads (Y : System S A σ R) (pool : Pool S A σ) : Pool S A σ → Prop where
  | refl : Leads Y pool pool
  | step {mid last : Pool S A σ} {l : Label S A R} :
      Leads Y pool mid → Step Y mid l last → Leads Y pool last

theorem Leads.reachable {pool pool' : Pool S A σ} (h : Leads Y pool pool')
    (hpool : Reachable Y init pool) : Reachable Y init pool' := by
  induction h with
  | refl => exact hpool
  | step _ hs ih =>
    obtain ⟨tr, hr⟩ := ih
    exact ⟨_, hr.step hs⟩

theorem Leads.store_monotone {Q : σ → σ → Prop} (refl : ∀ s, Q s s)
    (trans : ∀ {a b c}, Q a b → Q b c → Q a c)
    (exec : ∀ op s, Q s (Y.handler.exec op s).2)
    (reboot : ∀ s s', Y.reboot s = some s' → Q s s')
    {pool pool' : Pool S A σ} (h : Leads Y pool pool') : Q pool.store pool'.store := by
  induction h with
  | refl => exact refl _
  | step _ hs ih => exact trans ih (hs.store_monotone refl exec reboot)

/-! ## A step, seen from one task -/

theorem mem_middle {before after : List (Task S A)} {t task : Task S A} :
    task ∈ before ++ t :: after ↔ task = t ∨ task ∈ before ++ after :=
  List.perm_middle.mem_iff.trans List.mem_cons

/-- Where a task comes from that is in the pool after a step: it was there and
another task moved, or it is the one that took the step. -/
inductive Came (Y : System S A σ R) (pool : Pool S A σ) : Label S A R → Task S A → Prop where
  | stayed {l : Label S A R} {task : Task S A} :
      task ∈ pool.tasks → (∀ r, l ≠ .spawn task.id r) → Came Y pool l task
  | spawned (id : Nat) (r : R) : (∀ t ∈ pool.tasks, t.id ≠ id) →
      Came Y pool (.spawn id r) ⟨id, Y.program r, []⟩
  | acted {id : Nat} {op : S.Op} {k : S.Ans op → Prog S A} {past : List (Performed S)} :
      ⟨id, .vis op k, past⟩ ∈ pool.tasks →
      Came Y pool (.act id ⟨op, (Y.handler.exec op pool.store).1⟩)
        ⟨id, k (Y.handler.exec op pool.store).1, ⟨op, (Y.handler.exec op pool.store).1⟩ :: past⟩
  | refused {id : Nat} {op : S.Op} {k : S.Ans op → Prog S A} {past : List (Performed S)}
      {x : S.Ans op} : ⟨id, .vis op k, past⟩ ∈ pool.tasks → Y.handler.refuses op x →
      Came Y pool (.fault id ⟨op, x⟩) ⟨id, k x, ⟨op, x⟩ :: past⟩
  | wentOn {id : Nat} {a : A} {p : Prog S A} {past : List (Performed S)} :
      ⟨id, .ret a, past⟩ ∈ pool.tasks → Y.again a = some p →
      Came Y pool (.again id a) ⟨id, p, past⟩

theorem Step.came {pool pool' : Pool S A σ} {l : Label S A R} (h : Step Y pool l pool')
    {task : Task S A} (htask : task ∈ pool'.tasks) : Came Y pool l task := by
  cases h with
  | spawn store tasks id r hfresh =>
    rcases List.mem_cons.mp htask with rfl | hmem
    · exact .spawned id r hfresh
    · refine .stayed hmem ?_
      intro r' heq
      cases heq
      exact hfresh task hmem rfl
  | act =>
    rcases mem_middle.mp htask with rfl | hmem
    · exact .acted (mem_middle.mpr (.inl rfl))
    · exact .stayed (mem_middle.mpr (.inr hmem)) fun _ heq => by cases heq
  | fault _ _ _ _ _ _ _ _ hx =>
    rcases mem_middle.mp htask with rfl | hmem
    · exact .refused (mem_middle.mpr (.inl rfl)) hx
    · exact .stayed (mem_middle.mpr (.inr hmem)) fun _ heq => by cases heq
  | again _ _ _ _ _ _ _ hp =>
    rcases mem_middle.mp htask with rfl | hmem
    · exact .wentOn (mem_middle.mpr (.inl rfl)) hp
    · exact .stayed (mem_middle.mpr (.inr hmem)) fun _ heq => by cases heq
  | finish => exact .stayed (mem_middle.mpr (.inr htask)) fun _ heq => by cases heq
  | cancel => exact .stayed (mem_middle.mpr (.inr htask)) fun _ heq => by cases heq
  | restart => cases htask

/-- What becomes of a task of the pool in a step: another task moves and it stays
as it is, it takes the step itself, or the step takes it out of the pool. -/
inductive Fate (Y : System S A σ R) (pool : Pool S A σ) (l : Label S A R) (pool' : Pool S A σ) :
    Task S A → Prop where
  | stays {task : Task S A} : task ∈ pool'.tasks → Fate Y pool l pool' task
  | acts {id : Nat} {op : S.Op} {k : S.Ans op → Prog S A} {past : List (Performed S)} :
      l = .act id ⟨op, (Y.handler.exec op pool.store).1⟩ →
      ⟨id, k (Y.handler.exec op pool.store).1,
        ⟨op, (Y.handler.exec op pool.store).1⟩ :: past⟩ ∈ pool'.tasks →
      Fate Y pool l pool' ⟨id, .vis op k, past⟩
  | refused {id : Nat} {op : S.Op} {k : S.Ans op → Prog S A} {past : List (Performed S)}
      {x : S.Ans op} : l = .fault id ⟨op, x⟩ → Y.handler.refuses op x →
      ⟨id, k x, ⟨op, x⟩ :: past⟩ ∈ pool'.tasks → Fate Y pool l pool' ⟨id, .vis op k, past⟩
  | goesOn {id : Nat} {a : A} {p : Prog S A} {past : List (Performed S)} : l = .again id a →
      Y.again a = some p → ⟨id, p, past⟩ ∈ pool'.tasks → Fate Y pool l pool' ⟨id, .ret a, past⟩
  | ends {task : Task S A} : (⟨pool, l⟩ : Transition S A σ R).Ends task → Fate Y pool l pool' task

theorem Step.fate {pool pool' : Pool S A σ} {l : Label S A R} (h : Step Y pool l pool')
    {task : Task S A} (htask : task ∈ pool.tasks) : Fate Y pool l pool' task := by
  cases h with
  | spawn => exact .stays (List.mem_cons_of_mem _ htask)
  | act =>
    rcases mem_middle.mp htask with rfl | hmem
    · exact .acts rfl (mem_middle.mpr (.inl rfl))
    · exact .stays (mem_middle.mpr (.inr hmem))
  | fault _ _ _ _ _ _ _ _ hx =>
    rcases mem_middle.mp htask with rfl | hmem
    · exact .refused rfl hx (mem_middle.mpr (.inl rfl))
    · exact .stays (mem_middle.mpr (.inr hmem))
  | again _ _ _ _ _ _ _ hp =>
    rcases mem_middle.mp htask with rfl | hmem
    · exact .goesOn rfl hp (mem_middle.mpr (.inl rfl))
    · exact .stays (mem_middle.mpr (.inr hmem))
  | finish =>
    rcases mem_middle.mp htask with rfl | hmem
    · exact .ends ⟨htask, .inl ⟨_, rfl⟩⟩
    · exact .stays hmem
  | cancel =>
    rcases mem_middle.mp htask with rfl | hmem
    · exact .ends ⟨htask, .inr (.inl rfl)⟩
    · exact .stays hmem
  | restart => exact .ends ⟨htask, .inr (.inr rfl)⟩

/-! ## Protocols under interference -/

/-- A protocol the tasks keep to, with the invariant of the store it keeps.

`allowed` says which operation a task may ask for after its past, `answers`
what the store's answers always satisfy, `returns` what a task may return
after its past, and `known` what a performed operation says about every
later store. -/
structure Contract (Y : System S A σ R) (init : σ) where
  inv : σ → Prop
  known : σ → Performed S → Prop
  allowed : List (Performed S) → S.Op → Prop
  answers : (op : S.Op) → S.Ans op → Prop
  returns : List (Performed S) → A → Prop
  /-- The requests the protocol is promised for. -/
  admits : R → Prop
  start : inv init
  exec : ∀ past op s, inv s → (∀ d ∈ past, known s d) → allowed past op →
    inv (Y.handler.exec op s).2 ∧ answers op (Y.handler.exec op s).1 ∧
      known (Y.handler.exec op s).2 ⟨op, (Y.handler.exec op s).1⟩ ∧
      ∀ d, known s d → known (Y.handler.exec op s).2 d
  fault : ∀ op x s, Y.handler.refuses op x → answers op x ∧ known s ⟨op, x⟩
  reboot : ∀ s s', Y.reboot s = some s' → inv s → inv s'
  spawn : ∀ r, admits r → (Y.program r).Honors allowed answers returns []
  again : ∀ past a p, returns past a → Y.again a = some p →
    p.Honors allowed answers returns past

namespace Contract

variable (C : Contract Y init)

/-- A task keeps to the protocol: its past is true of the store, and the rest
of its program honours it. -/
structure Keeps (s : σ) (t : Task S A) : Prop where
  known : ∀ d ∈ t.past, C.known s d
  honors : t.prog.Honors C.allowed C.answers C.returns t.past

/-- Every spawned request is one the protocol is promised for. -/
def Admitted (tr : List (Transition S A σ R)) : Prop :=
  ∀ t ∈ tr, ∀ id r, t.label = .spawn id r → C.admits r

/-- Along every run of admitted requests the invariant holds and every task
keeps to the protocol. -/
theorem run {tr : List (Transition S A σ R)} {pool : Pool S A σ} (h : Run Y init tr pool)
    (hadm : C.Admitted tr) : C.inv pool.store ∧ ∀ t ∈ pool.tasks, C.Keeps pool.store t := by
  induction h with
  | start => exact ⟨C.start, by simp⟩
  | step hr hs ih =>
    obtain ⟨hinv, hkeeps⟩ := ih (fun t ht => hadm t (List.mem_cons_of_mem _ ht))
    cases hs with
    | spawn store tasks id r hfresh =>
      refine ⟨hinv, ?_⟩
      intro t ht
      rcases List.mem_cons.mp ht with rfl | hold
      · exact ⟨by simp, C.spawn r (hadm _ List.mem_cons_self id r rfl)⟩
      · exact hkeeps t hold
    | act store before after id op k past =>
      have hme := hkeeps ⟨id, .vis op k, past⟩ (by simp)
      obtain ⟨hinv', hans, hnew, hstable⟩ := C.exec past op store hinv hme.known hme.honors.1
      refine ⟨hinv', ?_⟩
      intro t ht
      rcases List.mem_append.mp ht with hb | ha
      · have hold := hkeeps t (List.mem_append_left _ hb)
        exact ⟨fun d hd => hstable d (hold.known d hd), hold.honors⟩
      rcases List.mem_cons.mp ha with rfl | ha
      · refine ⟨?_, hme.honors.2 _ hans⟩
        intro d hd
        rcases List.mem_cons.mp hd with rfl | hd
        · exact hnew
        · exact hstable d (hme.known d hd)
      · have hold := hkeeps t (List.mem_append_right _ (List.mem_cons_of_mem _ ha))
        exact ⟨fun d hd => hstable d (hold.known d hd), hold.honors⟩
    | fault store before after id op k past x hx =>
      have hme := hkeeps ⟨id, .vis op k, past⟩ (by simp)
      obtain ⟨hans, hnew⟩ := C.fault op x store hx
      refine ⟨hinv, ?_⟩
      intro t ht
      rcases List.mem_append.mp ht with hb | ha
      · exact hkeeps t (List.mem_append_left _ hb)
      rcases List.mem_cons.mp ha with rfl | ha
      · refine ⟨?_, hme.honors.2 _ hans⟩
        intro d hd
        rcases List.mem_cons.mp hd with rfl | hd
        · exact hnew
        · exact hme.known d hd
      · exact hkeeps t (List.mem_append_right _ (List.mem_cons_of_mem _ ha))
    | again store before after id a p past hp =>
      have hme := hkeeps ⟨id, .ret a, past⟩ (by simp)
      refine ⟨hinv, ?_⟩
      intro t ht
      rcases List.mem_append.mp ht with hb | ha
      · exact hkeeps t (List.mem_append_left _ hb)
      rcases List.mem_cons.mp ha with rfl | ha
      · exact ⟨hme.known, C.again past a p hme.honors hp⟩
      · exact hkeeps t (List.mem_append_right _ (List.mem_cons_of_mem _ ha))
    | finish store before after id a past hp =>
      refine ⟨hinv, ?_⟩
      intro t ht
      rcases List.mem_append.mp ht with hb | ha
      · exact hkeeps t (List.mem_append_left _ hb)
      · exact hkeeps t (List.mem_append_right _ (List.mem_cons_of_mem _ ha))
    | cancel store before after t' =>
      refine ⟨hinv, ?_⟩
      intro t ht
      rcases List.mem_append.mp ht with hb | ha
      · exact hkeeps t (List.mem_append_left _ hb)
      · exact hkeeps t (List.mem_append_right _ (List.mem_cons_of_mem _ ha))
    | restart store store' tasks hb => exact ⟨C.reboot _ _ hb hinv, by simp⟩

/-- An invariant of the pool and of the run so far, kept by every step that
the protocol's tasks can take and that meets a condition. -/
theorem invariant {P : List (Transition S A σ R) → Pool S A σ → Prop}
    {G : Transition S A σ R → Prop} (start : P [] ⟨init, []⟩)
    (step : ∀ tr pool l pool', Run Y init tr pool → Step Y pool l pool' → C.inv pool.store →
      (∀ t ∈ pool.tasks, C.Keeps pool.store t) → G ⟨pool, l⟩ → P tr pool →
      P (⟨pool, l⟩ :: tr) pool')
    {tr : List (Transition S A σ R)} {pool : Pool S A σ} (h : Run Y init tr pool)
    (hadm : C.Admitted tr) (hgood : ∀ t ∈ tr, G t) : P tr pool := by
  induction h with
  | start => exact start
  | @step tr pool pool' l hr hs ih =>
    have hadm' : C.Admitted tr := fun t ht => hadm t (List.mem_cons_of_mem _ ht)
    have hgood' : ∀ t ∈ tr, G t := fun t ht => hgood t (List.mem_cons_of_mem _ ht)
    obtain ⟨hinv, hkeeps⟩ := C.run hr hadm'
    exact step tr pool l pool' hr hs hinv hkeeps (hgood _ List.mem_cons_self) (ih hadm' hgood')

end Contract

/-! ## Accounts -/

/-- What the tasks carry together, each by its past. -/
def carried (W : List (Performed S) → Int) (tasks : List (Task S A)) : Int :=
  (tasks.map fun t => W t.past).sum

theorem carried_append (W : List (Performed S) → Int) (before after : List (Task S A))
    (t : Task S A) : carried W (before ++ t :: after) = carried W (before ++ after) + W t.past := by
  simp only [carried, List.map_append, List.map_cons, List.sum_append, List.sum_cons]
  omega

theorem carried_eq_zero {W : List (Performed S) → Int} {tasks : List (Task S A)}
    (h : ∀ t ∈ tasks, W t.past = 0) : carried W tasks = 0 :=
  List.sum_eq_zero (by simpa using h)

/-- A relation between the run, the store and what the tasks carry together:
it holds throughout if a step that performs nothing keeps it, if every
operation keeps it with what its own task then carries, if a refusal changes
nothing carried, and if it holds without what a task that ends still carries. -/
theorem Contract.accounts (C : Contract Y init) {W : List (Performed S) → Int}
    {B : List (Transition S A σ R) → σ → Int → Prop} {G : Transition S A σ R → Prop}
    (empty : W [] = 0) (start : B [] init 0)
    (idle : ∀ tr s w t, (∀ id d, t.label ≠ .act id d) → B tr s w → B (t :: tr) s w)
    (act : ∀ tr s before after id op k past,
      let pool : Pool S A σ := ⟨s, before ++ ⟨id, .vis op k, past⟩ :: after⟩
      C.inv s → (∀ t ∈ pool.tasks, C.Keeps s t) →
      G ⟨pool, .act id ⟨op, (Y.handler.exec op s).1⟩⟩ →
      B tr s (carried W (before ++ after) + W past) →
      B (⟨pool, .act id ⟨op, (Y.handler.exec op s).1⟩⟩ :: tr) (Y.handler.exec op s).2
        (carried W (before ++ after) + W (⟨op, (Y.handler.exec op s).1⟩ :: past)))
    (fault : ∀ op x past, Y.handler.refuses op x → W (⟨op, x⟩ :: past) = W past)
    (ends : ∀ tr s w t task, G t → t.Ends task → B tr s (w + W task.past) → B tr s w)
    (reboot : ∀ s s', Y.reboot s = some s' → C.inv s → s' = s)
    {tr : List (Transition S A σ R)} {pool : Pool S A σ} (h : Run Y init tr pool)
    (hadm : C.Admitted tr) (hgood : ∀ t ∈ tr, G t) : B tr pool.store (carried W pool.tasks) := by
  refine C.invariant (P := fun tr pool => B tr pool.store (carried W pool.tasks)) (G := G)
    start ?_ h hadm hgood
  intro tr pool l pool' _ hs hinv hkeeps hG hB
  cases hs with
  | spawn store tasks id r hfresh =>
    have hnew : carried W (⟨id, Y.program r, []⟩ :: tasks) = carried W tasks := by
      show W [] + carried W tasks = carried W tasks
      rw [empty, zero_add]
    show B _ store (carried W (_ :: tasks))
    rw [hnew]
    exact idle tr store _ _ (fun _ _ h => by cases h) hB
  | act store before after id op k past =>
    have hbefore : B tr store (carried W (before ++ after) + W past) :=
      carried_append W before after ⟨id, .vis op k, past⟩ ▸ hB
    show B _ _ (carried W (before ++ _ :: after))
    rw [carried_append]
    exact act tr store before after id op k past hinv hkeeps hG hbefore
  | fault store before after id op k past x hx =>
    have hsame : carried W (before ++ ⟨id, k x, ⟨op, x⟩ :: past⟩ :: after) =
        carried W (before ++ ⟨id, .vis op k, past⟩ :: after) := by
      rw [carried_append, carried_append, fault op x past hx]
    show B _ store (carried W _)
    rw [hsame]
    exact idle tr store _ _ (fun _ _ h => by cases h) hB
  | again store before after id a p past hp =>
    have hsame : carried W (before ++ ⟨id, p, past⟩ :: after) =
        carried W (before ++ ⟨id, .ret a, past⟩ :: after) := by
      rw [carried_append, carried_append]
    show B _ store (carried W _)
    rw [hsame]
    exact idle tr store _ _ (fun _ _ h => by cases h) hB
  | finish store before after id a past hp =>
    have hends : B tr store (carried W (before ++ after)) :=
      ends _ _ _ _ ⟨id, .ret a, past⟩ hG ⟨by simp, .inl ⟨a, rfl⟩⟩ (carried_append W _ _ _ ▸ hB)
    exact idle tr store _ _ (fun _ _ h => by cases h) hends
  | cancel store before after t =>
    have hends : B tr store (carried W (before ++ after)) :=
      ends _ _ _ _ t hG ⟨by simp, .inr (.inl rfl)⟩ (carried_append W _ _ _ ▸ hB)
    exact idle tr store _ _ (fun _ _ h => by cases h) hends
  | restart store store' tasks hboot =>
    obtain rfl := reboot store store' hboot hinv
    -- every task ends, one after the other
    have hnone : ∀ dropped : List (Task S A), dropped ⊆ tasks →
        B tr store' (carried W dropped) → B tr store' 0 := by
      intro dropped hdropped hB
      induction dropped with
      | nil => exact hB
      | cons t rest ih =>
        obtain ⟨ht, hrest⟩ := List.cons_subset.mp hdropped
        refine ih hrest (ends _ _ _ _ t hG ⟨ht, .inr (.inr rfl)⟩ ?_)
        rw [add_comm]
        exact hB
    exact idle tr store' _ _ (fun _ _ h => by cases h) (hnone tasks (List.Subset.refl _) hB)

/-- A step that performs an operation is one of a task that was about to, and
the store answers it. -/
theorem Step.act_inv {pool pool' : Pool S A σ} {id : Nat} {d : Performed S}
    (h : Step Y pool (.act id d) pool') :
    (∃ k past, (⟨id, .vis d.op k, past⟩ : Task S A) ∈ pool.tasks) ∧
      d = ⟨d.op, (Y.handler.exec d.op pool.store).1⟩ ∧
      pool'.store = (Y.handler.exec d.op pool.store).2 := by
  cases h with
  | act store before after id op k past => exact ⟨⟨k, past, by simp⟩, rfl, rfl⟩

/-- A step in which an operation is refused is one the store may take. -/
theorem Step.fault_inv {pool pool' : Pool S A σ} {id : Nat} {d : Performed S}
    (h : Step Y pool (.fault id d) pool') : Y.handler.refuses d.op d.ans := by
  cases h with
  | fault store before after id op k past x hx => exact hx

/-- What every answer of the store keeps about the past of a task that keeps to
the protocol, the past of every task has. -/
theorem Contract.pasts (C : Contract Y init) {W : List (Performed S) → Prop} (start : W [])
    (exec : ∀ past op s, C.inv s → (∀ d ∈ past, C.known s d) → C.allowed past op → W past →
      W (⟨op, (Y.handler.exec op s).1⟩ :: past))
    (fault : ∀ past op x, Y.handler.refuses op x → W past → W (⟨op, x⟩ :: past))
    {tr : List (Transition S A σ R)} {pool : Pool S A σ} (h : Run Y init tr pool)
    (hadm : C.Admitted tr) : ∀ task ∈ pool.tasks, W task.past := by
  refine C.invariant (P := fun _ pool => ∀ task ∈ pool.tasks, W task.past) (G := fun _ => True)
    (by simp) ?_ h hadm (fun _ _ => trivial)
  intro tr pool l pool' _ hs hinv hkeeps _ hP task htask
  cases hs.came htask with
  | stayed hmem _ => exact hP task hmem
  | spawned id r _ => exact start
  | acted hme =>
    have hkept := hkeeps _ hme
    exact exec _ _ _ hinv hkept.known hkept.honors.1 (hP _ hme)
  | refused hme hx => exact fault _ _ _ hx (hP _ hme)
  | @wentOn id a _ past hme _ => exact hP ⟨id, .ret a, past⟩ hme

/-! ## Where a task comes from -/

/-- The request last spawned under an id, and the store it was spawned on. -/
inductive Spawned (id : Nat) (r : R) (s : σ) : List (Transition S A σ R) → Prop where
  | here (tasks : List (Task S A)) (tr : List (Transition S A σ R)) :
      Spawned id r s (⟨⟨s, tasks⟩, .spawn id r⟩ :: tr)
  | earlier (t : Transition S A σ R) (tr : List (Transition S A σ R)) :
      (∀ r', t.label ≠ .spawn id r') → Spawned id r s tr → Spawned id r s (t :: tr)

theorem Spawned.mem {id : Nat} {r : R} {s : σ} {tr : List (Transition S A σ R)}
    (h : Spawned id r s tr) : ∃ t ∈ tr, t.before.store = s ∧ t.label = .spawn id r := by
  induction h with
  | here tasks tr => exact ⟨_, List.mem_cons_self, rfl, rfl⟩
  | earlier t tr _ _ ih =>
    obtain ⟨t', ht', hstore, hlabel⟩ := ih
    exact ⟨t', List.mem_cons_of_mem _ ht', hstore, hlabel⟩

theorem Spawned.tail {id : Nat} {r : R} {s : σ} {t : Transition S A σ R}
    {tr : List (Transition S A σ R)} (h : Spawned id r s (t :: tr))
    (ht : ∀ r', t.label ≠ .spawn id r') : Spawned id r s tr := by
  cases h with
  | here => exact absurd rfl (ht r)
  | earlier _ _ _ hrest => exact hrest

theorem Spawned.newest {id : Nat} {r r' : R} {s : σ} {pool : Pool S A σ}
    {tr : List (Transition S A σ R)} (h : Spawned id r s (⟨pool, .spawn id r'⟩ :: tr)) :
    r = r' ∧ s = pool.store := by
  cases h with
  | here => exact ⟨rfl, rfl⟩
  | earlier _ _ hnot => exact absurd rfl (hnot r')

/-- The request last spawned under an id with its store, to be computed. -/
def spawnedAs (id : Nat) : List (Transition S A σ R) → Option (R × σ)
  | [] => none
  | t :: tr =>
    match t.label with
    | .spawn id' r => if id' = id then some (r, t.before.store) else spawnedAs id tr
    | _ => spawnedAs id tr

theorem spawnedAs_sound {id : Nat} {r : R} {s : σ} {tr : List (Transition S A σ R)}
    (h : spawnedAs id tr = some (r, s)) : Spawned id r s tr := by
  induction tr with
  | nil => cases h
  | cons t tr ih =>
    obtain ⟨⟨store, tasks⟩, label⟩ := t
    unfold spawnedAs at h
    split at h
    · next id' r' hlabel =>
      obtain rfl : label = .spawn id' r' := hlabel
      split at h
      · next hid =>
        subst hid
        cases h
        exact .here tasks tr
      · next hid =>
        refine .earlier _ tr ?_ (ih h)
        intro r'' heq
        exact hid (Label.spawn.inj heq).1
    · next hlabel =>
      refine .earlier _ tr ?_ (ih h)
      intro r' heq
      exact hlabel id r' heq

/-- A run up to one of its steps. -/
theorem Run.upTo {newer older : List (Transition S A σ R)} {t : Transition S A σ R}
    {pool : Pool S A σ} (h : Run Y init (newer ++ t :: older) pool) :
    Run Y init older t.before ∧ ∃ pool', Step Y t.before t.label pool' := by
  induction newer generalizing pool with
  | nil =>
    cases h with
    | step hr hs => exact ⟨hr, _, hs⟩
  | cons t' rest ih =>
    cases h with
    | step hr _ => exact ih hr

/-- No request was spawned under the id in these steps, so what ran under it before
them is the same request after them. -/
def Unspawned (id : Nat) (tr : List (Transition S A σ R)) : Prop :=
  ∀ t ∈ tr, ∀ r, t.label ≠ .spawn id r

theorem Spawned.before {id : Nat} {r : R} {s : σ} {newer rest : List (Transition S A σ R)}
    {t : Transition S A σ R} {d : Performed S} (h : Spawned id r s (newer ++ t :: rest))
    (hnewer : Unspawned id newer) (hlabel : t.label = .act id d ∨ t.label = .fault id d) :
    Spawned id r s rest := by
  induction newer with
  | nil =>
    refine h.tail fun r' heq => ?_
    rcases hlabel with hlabel | hlabel
    · cases hlabel.symm.trans heq
    · cases hlabel.symm.trans heq
  | cons u newer ih =>
    obtain ⟨hu, hnewer⟩ := List.forall_mem_cons.mp hnewer
    exact ih (h.tail hu) hnewer

/-- Each operation of a past was performed, or refused, in a step of the run that
the same request took, with the past it then had. -/
def Tracked (tr : List (Transition S A σ R)) (id : Nat) (past : List (Performed S)) : Prop :=
  ∀ recent d older, past = recent ++ d :: older →
    ∃ newer t rest prog, tr = newer ++ t :: rest ∧ (t.label = .act id d ∨ t.label = .fault id d) ∧
      (⟨id, prog, older⟩ : Task S A) ∈ t.before.tasks ∧ Unspawned id newer

theorem Tracked.later {tr : List (Transition S A σ R)} {id : Nat} {past : List (Performed S)}
    (h : Tracked tr id past) {t : Transition S A σ R} (ht : ∀ r, t.label ≠ .spawn id r) :
    Tracked (t :: tr) id past := by
  intro recent d older hpast
  obtain ⟨newer, t', rest, prog, rfl, hlabel, hmem, hnewer⟩ := h recent d older hpast
  exact ⟨t :: newer, t', rest, prog, rfl, hlabel, hmem, List.forall_mem_cons.mpr ⟨ht, hnewer⟩⟩

theorem Tracked.cons {tr : List (Transition S A σ R)} {id : Nat} {past : List (Performed S)}
    (h : Tracked tr id past) {t : Transition S A σ R} {d : Performed S} {prog : Prog S A}
    (hlabel : t.label = .act id d ∨ t.label = .fault id d)
    (hmem : (⟨id, prog, past⟩ : Task S A) ∈ t.before.tasks) : Tracked (t :: tr) id (d :: past) := by
  have ht : ∀ r, t.label ≠ .spawn id r := by
    intro r heq
    rcases hlabel with hlabel | hlabel
    · cases hlabel.symm.trans heq
    · cases hlabel.symm.trans heq
  intro recent d' older hpast
  cases recent with
  | nil =>
    obtain ⟨rfl, rfl⟩ := List.cons.inj hpast
    exact ⟨[], t, tr, prog, rfl, hlabel, hmem, by simp [Unspawned]⟩
  | cons d'' recent =>
    obtain ⟨rfl, rfl⟩ := List.cons.inj hpast
    exact h.later ht recent d' older rfl

/-- The past of every task is made of steps of the run. -/
theorem Run.tracked {tr : List (Transition S A σ R)} {pool : Pool S A σ} (h : Run Y init tr pool) :
    ∀ task ∈ pool.tasks, Tracked tr task.id task.past := by
  induction h with
  | start => simp
  | @step tr pool pool' l hr hs ih =>
    intro task htask
    cases hs.came htask with
    | stayed hmem hl => exact (ih task hmem).later hl
    | spawned id r _ =>
      intro recent d older hpast
      simp at hpast
    | acted hme => exact (ih _ hme).cons (.inl rfl) hme
    | refused hme _ => exact (ih _ hme).cons (.inr rfl) hme
    | wentOn hme _ => exact (ih _ hme).later fun _ heq => by cases heq

/-- What the program of every request begins with and every step of its task
keeps, whatever the other tasks do, every task has. -/
theorem Contract.each (C : Contract Y init) {K : R → σ → Task S A → Prop}
    (spawn : ∀ id r s, K r s ⟨id, Y.program r, []⟩)
    (act : ∀ tr pool r s id op k past, Run Y init tr pool → Spawned id r s tr →
      C.inv pool.store → C.Keeps pool.store ⟨id, .vis op k, past⟩ →
      K r s ⟨id, .vis op k, past⟩ →
      K r s ⟨id, k (Y.handler.exec op pool.store).1,
        ⟨op, (Y.handler.exec op pool.store).1⟩ :: past⟩)
    (fault : ∀ r s id op k past x, Y.handler.refuses op x → C.answers op x →
      K r s ⟨id, .vis op k, past⟩ → K r s ⟨id, k x, ⟨op, x⟩ :: past⟩)
    (again : ∀ r s id a p past, Y.again a = some p → K r s ⟨id, .ret a, past⟩ → K r s ⟨id, p, past⟩)
    {tr : List (Transition S A σ R)} {pool : Pool S A σ} (h : Run Y init tr pool)
    (hadm : C.Admitted tr) :
    ∀ task ∈ pool.tasks, ∀ r s, Spawned task.id r s tr → K r s task := by
  refine C.invariant (P := fun tr pool =>
    ∀ task ∈ pool.tasks, ∀ r s, Spawned task.id r s tr → K r s task) (G := fun _ => True)
    (by simp) ?_ h hadm (fun _ _ => trivial)
  intro tr pool l pool' hr hs hinv hkeeps _ hP task htask r s hsp
  cases hs.came htask with
  | stayed hmem hl => exact hP task hmem r s (hsp.tail hl)
  | spawned id r' _ =>
    obtain ⟨rfl, rfl⟩ := hsp.newest
    exact spawn id _ _
  | acted hme =>
    have hsp' := hsp.tail fun _ heq => by cases heq
    exact act tr _ r s _ _ _ _ hr hsp' hinv (hkeeps _ hme) (hP _ hme r s hsp')
  | refused hme hx =>
    have hsp' := hsp.tail fun _ heq => by cases heq
    exact fault r s _ _ _ _ _ hx (C.fault _ _ pool.store hx).1 (hP _ hme r s hsp')
  | wentOn hme hp =>
    exact again r s _ _ _ _ hp (hP _ hme r s (hsp.tail fun _ heq => by cases heq))

/-- A property that every operation keeps unless it goes wrong, and loses when it
does, holds in every state of a run if and only if no step goes wrong. -/
theorem Contract.always_iff (C : Contract Y init) {I : σ → Prop} {Bad : Transition S A σ R → Prop}
    (start : I init)
    (act : ∀ tr pool id op k past, Run Y init tr pool →
      (⟨id, .vis op k, past⟩ : Task S A) ∈ pool.tasks → C.inv pool.store →
      C.Keeps pool.store ⟨id, .vis op k, past⟩ → I pool.store →
      (I (Y.handler.exec op pool.store).2 ↔
        ¬ Bad ⟨pool, .act id ⟨op, (Y.handler.exec op pool.store).1⟩⟩))
    (performs : ∀ t, Bad t → ∃ id d, t.label = .act id d)
    (reboot : ∀ s s', C.inv s → Y.reboot s = some s' → I s → I s')
    {tr : List (Transition S A σ R)} {pool : Pool S A σ} (h : Run Y init tr pool)
    (hadm : C.Admitted tr) :
    (∀ s ∈ pool.store :: tr.map (·.before.store), I s) ↔ ∀ t ∈ tr, ¬ Bad t := by
  refine C.invariant (P := fun tr pool =>
    (∀ s ∈ pool.store :: tr.map (·.before.store), I s) ↔ ∀ t ∈ tr, ¬ Bad t)
    (G := fun _ => True) (by simpa using start) ?_ h hadm (fun _ _ => trivial)
  intro tr pool l pool' hr hs hinv hkeeps _ hP
  -- the step decides about the new state, the run before it about the others
  suffices hstep : I pool.store → (I pool'.store ↔ ¬ Bad ⟨pool, l⟩) by
    have hsplit : (∀ s ∈ pool'.store :: (⟨pool, l⟩ :: tr).map (·.before.store), I s) ↔
        I pool'.store ∧ ∀ s ∈ pool.store :: tr.map (·.before.store), I s := List.forall_mem_cons
    rw [hsplit, hP, List.forall_mem_cons]
    refine ⟨fun ⟨hnew, hold⟩ => ?_, fun ⟨hgood, hold⟩ => ?_⟩
    · exact ⟨(hstep (hP.mpr hold pool.store List.mem_cons_self)).mp hnew, hold⟩
    · exact ⟨(hstep (hP.mpr hold pool.store List.mem_cons_self)).mpr hgood, hold⟩
  intro hI
  have hidle : (∀ id d, l ≠ .act id d) → I pool'.store → (I pool'.store ↔ ¬ Bad ⟨pool, l⟩) := by
    intro hl hI'
    refine ⟨fun _ hbad => ?_, fun _ => hI'⟩
    obtain ⟨id, d, hlabel⟩ := performs _ hbad
    exact hl id d hlabel
  cases hs with
  | act store before after id op k past =>
    have hmem : (⟨id, .vis op k, past⟩ : Task S A) ∈ before ++ ⟨id, .vis op k, past⟩ :: after := by
      simp
    exact act tr ⟨store, before ++ ⟨id, .vis op k, past⟩ :: after⟩ id op k past hr hmem hinv
      (hkeeps _ hmem) hI
  | restart store store' tasks hboot =>
    exact hidle (fun _ _ h => by cases h) (reboot store store' hinv hboot hI)
  | _ => exact hidle (fun _ _ h => by cases h) hI

/-! ## One request after the other -/

/-- Requests come one after the other: each finds the pool empty. -/
def Sequential (tr : List (Transition S A σ R)) : Prop :=
  ∀ t ∈ tr, ∀ id r, t.label = .spawn id r → t.before.tasks = []

/-- The pool of a sequential run: empty, or one task of whose past and of the
store something is known. -/
def AloneWith (J : σ → List (Performed S) → Prop) (pool : Pool S A σ) : Prop :=
  pool.tasks = [] ∨ ∃ t, pool.tasks = [t] ∧ J pool.store t.past

theorem alone_append {J : σ → List (Performed S) → Prop} {s : σ} {before after : List (Task S A)}
    {t : Task S A} (h : AloneWith J ⟨s, before ++ t :: after⟩) :
    before = [] ∧ after = [] ∧ J s t.past := by
  rcases h with h | ⟨t', ht, hJ⟩
  · simp at h
  · cases before with
    | nil =>
      obtain ⟨rfl, rfl⟩ : t = t' ∧ after = [] := by simpa using ht
      exact ⟨rfl, rfl, hJ⟩
    | cons x xs => simp at ht

/-- In a sequential run, what every operation of a lone task keeps about the
store and the task's own past holds throughout. -/
theorem Contract.solo (C : Contract Y init) {J : σ → List (Performed S) → Prop}
    (fresh : ∀ s, C.inv s → J s [])
    (exec : ∀ past op s, C.inv s → (∀ d ∈ past, C.known s d) → C.allowed past op → J s past →
      J (Y.handler.exec op s).2 (⟨op, (Y.handler.exec op s).1⟩ :: past))
    (fault : ∀ past op x s, Y.handler.refuses op x → J s past → J s (⟨op, x⟩ :: past))
    {tr : List (Transition S A σ R)} {pool : Pool S A σ} (h : Run Y init tr pool)
    (hadm : C.Admitted tr) (hseq : Sequential tr) : AloneWith J pool := by
  refine C.invariant (P := fun _ pool => AloneWith J pool)
    (G := fun t => ∀ id r, t.label = .spawn id r → t.before.tasks = []) (.inl rfl) ?_ h hadm hseq
  intro tr pool l pool' _ hs hinv hkeeps hgood hP
  cases hs with
  | spawn store tasks id r hfresh =>
    obtain rfl : tasks = [] := hgood id r rfl
    exact .inr ⟨_, rfl, fresh store hinv⟩
  | act store before after id op k past =>
    obtain ⟨rfl, rfl, hJ⟩ := alone_append hP
    have hme := hkeeps ⟨id, .vis op k, past⟩ (by simp)
    exact .inr ⟨_, rfl, exec past op store hinv hme.known hme.honors.1 hJ⟩
  | fault store before after id op k past x hx =>
    obtain ⟨rfl, rfl, hJ⟩ := alone_append hP
    exact .inr ⟨_, rfl, fault past op x store hx hJ⟩
  | again store before after id a p past hp =>
    obtain ⟨rfl, rfl, hJ⟩ := alone_append hP
    exact .inr ⟨_, rfl, hJ⟩
  | finish store before after id a past hp =>
    obtain ⟨rfl, rfl, -⟩ := alone_append hP
    exact .inl rfl
  | cancel store before after t =>
    obtain ⟨rfl, rfl, -⟩ := alone_append hP
    exact .inl rfl
  | restart => exact .inl rfl

/-- A program served from start to end with nobody else in the pool, its tail
calls included: the answer, and the store it leaves. -/
inductive Completes (Y : System S A σ R) : Prog S A → σ → A → σ → Prop where
  | done {p : Prog S A} {s s' : σ} {a : A} :
      p.Executes Y.handler s a s' → Y.again a = none → Completes Y p s a s'
  | again {p p' : Prog S A} {s s₁ s' : σ} {a b : A} :
      p.Executes Y.handler s a s₁ → Y.again a = some p' → Completes Y p' s₁ b s' →
      Completes Y p s b s'

/-- Executing a lone task is a piece of a run. -/
theorem Run.executes {p : Prog S A} {s s' : σ} {a : A} {id : Nat} {past : List (Performed S)}
    {tr : List (Transition S A σ R)} (hr : Run Y init tr ⟨s, [⟨id, p, past⟩]⟩)
    (h : p.Executes Y.handler s a s') :
    ∃ tr' past', Run Y init (tr' ++ tr) ⟨s', [⟨id, .ret a, past'⟩]⟩ := by
  induction p generalizing s past tr with
  | ret b =>
    obtain ⟨rfl, rfl⟩ := h
    exact ⟨[], past, hr⟩
  | vis op k ih =>
    rcases h with h | ⟨x, hx, h⟩
    · obtain ⟨tr', past', hrun⟩ := ih _ (hr.step (Step.act s [] [] id op k past)) h
      exact ⟨tr' ++ [_], past', by simpa using hrun⟩
    · obtain ⟨tr', past', hrun⟩ := ih _ (hr.step (Step.fault s [] [] id op k past x hx)) h
      exact ⟨tr' ++ [_], past', by simpa using hrun⟩

theorem Run.completes {p : Prog S A} {s s' : σ} {a : A} {id : Nat} {past : List (Performed S)}
    {tr : List (Transition S A σ R)} (hr : Run Y init tr ⟨s, [⟨id, p, past⟩]⟩)
    (h : Completes Y p s a s') : ∃ tr', Run Y init (tr' ++ tr) ⟨s', []⟩ := by
  induction h generalizing past tr with
  | done hexec hnone =>
    obtain ⟨tr', past', hrun⟩ := hr.executes hexec
    exact ⟨_ :: tr', hrun.step (Step.finish _ [] [] id _ past' hnone)⟩
  | again hexec hsome _ ih =>
    obtain ⟨tr', past', hrun⟩ := hr.executes hexec
    obtain ⟨tr'', hrun'⟩ := ih (hrun.step (Step.again _ [] [] id _ _ past' hsome))
    exact ⟨tr'' ++ _ :: tr', by simpa using hrun'⟩

/-- What a lone request leaves is reachable. -/
theorem Reachable.completes {s s' : σ} {r : R} {a : A} (hs : Reachable Y init ⟨s, []⟩)
    (h : Completes Y (Y.program r) s a s') : Reachable Y init ⟨s', []⟩ := by
  obtain ⟨tr, hr⟩ := hs
  obtain ⟨tr', hr'⟩ := (hr.step (Step.spawn s [] 0 r (by simp))).completes h
  exact ⟨_, hr'⟩

end Resumption
