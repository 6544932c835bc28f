import PunkgoKernel.Lib.Pool

/-!
# Runs by a schedule

A schedule says whose turn it is; `play` computes the run it makes. A turn that
cannot be taken is passed over, so every schedule makes a run (`run_played`),
and a particular run is given by writing down its schedule.
-/

namespace Resumption

variable {S : Signature} {A σ R : Type}

/-- Whose turn it is. -/
inductive Turn (R : Type) where
  | spawn (id : Nat) (r : R)
  /-- The next step of a task: its next operation, its tail call, or its end. -/
  | go (id : Nat)
  | cancel (id : Nat)
  | restart

/-- A run and the pool it reaches. -/
structure Played (S : Signature) (A σ R : Type) where
  trace : List (Transition S A σ R)
  pool : Pool S A σ

/-- The task with an id, with the tasks before and after it. -/
def findTask (id : Nat) : List (Task S A) → Option (List (Task S A) × Task S A × List (Task S A))
  | [] => none
  | t :: rest =>
    if t.id = id then some ([], t, rest)
    else (findTask id rest).map fun f => (t :: f.1, f.2)

theorem findTask_eq {id : Nat} {tasks before after : List (Task S A)} {t : Task S A}
    (h : findTask id tasks = some (before, t, after)) : tasks = before ++ t :: after := by
  induction tasks generalizing before with
  | nil => cases h
  | cons x rest ih =>
    unfold findTask at h
    split at h
    · cases h
      rfl
    · obtain ⟨⟨before', t', after'⟩, hf, heq⟩ := Option.map_eq_some_iff.mp h
      cases heq
      rw [ih hf]
      rfl

variable (Y : System S A σ R)

/-- The step of one task, given what stands before and after it. -/
def stepOf (store : σ) (before : List (Task S A)) (t : Task S A) (after : List (Task S A)) :
    Label S A R × Pool S A σ :=
  match t.prog with
  | .vis op k =>
    let ans := Y.handler.exec op store
    (.act t.id ⟨op, ans.1⟩, ⟨ans.2, before ++ ⟨t.id, k ans.1, ⟨op, ans.1⟩ :: t.past⟩ :: after⟩)
  | .ret a =>
    match Y.again a with
    | some p => (.again t.id a, ⟨store, before ++ ⟨t.id, p, t.past⟩ :: after⟩)
    | none => (.finish t.id a, ⟨store, before ++ after⟩)

/-- The label and the pool of a turn, if it can be taken. -/
def take (pool : Pool S A σ) : Turn R → Option (Label S A R × Pool S A σ)
  | .spawn id r =>
    if pool.tasks.all (fun t => t.id ≠ id) then
      some (.spawn id r, ⟨pool.store, ⟨id, Y.program r, []⟩ :: pool.tasks⟩)
    else none
  | .go id =>
    (findTask id pool.tasks).map fun f => stepOf Y pool.store f.1 f.2.1 f.2.2
  | .cancel id =>
    (findTask id pool.tasks).map fun f => (.cancel f.2.1.id, ⟨pool.store, f.1 ++ f.2.2⟩)
  | .restart => (Y.reboot pool.store).map fun s => (.restart, ⟨s, []⟩)

/-- Takes the turns in order. -/
def play : List (Turn R) → Played S A σ R → Played S A σ R
  | [], p => p
  | turn :: rest, p =>
    match take Y p.pool turn with
    | some (l, pool') => play rest ⟨⟨p.pool, l⟩ :: p.trace, pool'⟩
    | none => play rest p

theorem step_stepOf (store : σ) (before after : List (Task S A)) (t : Task S A) :
    Step Y ⟨store, before ++ t :: after⟩ (stepOf Y store before t after).1
      (stepOf Y store before t after).2 := by
  obtain ⟨id, prog, past⟩ := t
  cases prog with
  | vis op k => exact .act store before after id op k past
  | ret a =>
    unfold stepOf
    cases h : Y.again a with
    | some p => simpa [h] using Step.again store before after id a p past h
    | none => simpa [h] using Step.finish store before after id a past h

variable {Y}

/-- A turn that is taken is a step. -/
theorem step_take {pool pool' : Pool S A σ} {turn : Turn R} {l : Label S A R}
    (h : take Y pool turn = some (l, pool')) : Step Y pool l pool' := by
  obtain ⟨store, tasks⟩ := pool
  cases turn with
  | spawn id r =>
    simp only [take] at h
    split at h
    · next hfresh =>
      cases h
      exact .spawn store tasks id r (by simpa using hfresh)
    · cases h
  | go id =>
    obtain ⟨⟨before, t, after⟩, hfind, heq⟩ := Option.map_eq_some_iff.mp h
    obtain rfl := findTask_eq hfind
    have hstep := step_stepOf Y store before after t
    rw [show stepOf Y store before t after = (l, pool') from heq] at hstep
    exact hstep
  | cancel id =>
    obtain ⟨⟨before, t, after⟩, hfind, heq⟩ := Option.map_eq_some_iff.mp h
    obtain rfl := findTask_eq hfind
    cases heq
    exact .cancel store before after t
  | restart =>
    obtain ⟨s, hboot, heq⟩ := Option.map_eq_some_iff.mp h
    cases heq
    exact .restart store s tasks hboot

theorem run_play {init : σ} (turns : List (Turn R)) {p : Played S A σ R}
    (h : Run Y init p.trace p.pool) : Run Y init (play Y turns p).trace (play Y turns p).pool := by
  induction turns generalizing p with
  | nil => exact h
  | cons turn rest ih =>
    unfold play
    split
    · next l pool' htake => exact ih (h.step (step_take htake))
    · exact ih h

theorem leads_play {pool : Pool S A σ} (turns : List (Turn R)) {p : Played S A σ R}
    (h : Leads Y pool p.pool) : Leads Y pool (play Y turns p).pool := by
  induction turns generalizing p with
  | nil => exact h
  | cons turn rest ih =>
    unfold play
    split
    · next l pool' htake => exact ih (h.step (step_take htake))
    · exact ih h

theorem play_append (turns more : List (Turn R)) (p : Played S A σ R) :
    play Y (turns ++ more) p = play Y more (play Y turns p) := by
  induction turns generalizing p with
  | nil => rfl
  | cons turn rest ih =>
    cases htake : take Y p.pool turn <;> simp only [List.cons_append, play, htake, ih]

variable (Y)

/-- The run of a schedule from an idle store. -/
def played (init : σ) (turns : List (Turn R)) : Played S A σ R := play Y turns ⟨[], ⟨init, []⟩⟩

/-- Every schedule makes a run. -/
theorem run_played (init : σ) (turns : List (Turn R)) :
    Run Y init (played Y init turns).trace (played Y init turns).pool :=
  run_play turns .start

/-- One request alone, given enough turns to end. -/
def alone (turns : Nat) (r : R) : List (Turn R) := .spawn 0 r :: List.replicate turns (.go 0)

end Resumption
