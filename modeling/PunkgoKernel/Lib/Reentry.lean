import Mathlib.Data.List.Nodup
import PunkgoKernel.Lib.Pool

/-!
# Requests that go on with another program

The answer of a request may be another program to run (a tail call), and nothing
in a pool bounds how often that happens. `reentries` counts it. A request goes on
at most once if its past tells that it did: the mark it must set to go on is one
that a past has for good, and it is set by the operation the request ends with
(`Run.reenters_once`). Then a request that is served alone ends
(`Run.endsWithin`, `EndsWithin.completes`).
-/

namespace Resumption

variable {S : Signature} {A σ R : Type}

/-- How often the request last spawned under an id has gone on. -/
def reentries (id : Nat) : List (Transition S A σ R) → Nat
  | [] => 0
  | t :: tr =>
    match t.label with
    | .spawn id' _ => if id' = id then 0 else reentries id tr
    | .again id' _ => if id' = id then reentries id tr + 1 else reentries id tr
    | _ => reentries id tr

variable {Y : System S A σ R} {init : σ}

@[simp] theorem reentries_again (pool : Pool S A σ) (id : Nat) (a : A)
    (tr : List (Transition S A σ R)) :
    reentries id (⟨pool, .again id a⟩ :: tr) = reentries id tr + 1 := by
  simp [reentries]

@[simp] theorem reentries_spawn (pool : Pool S A σ) (id : Nat) (r : R)
    (tr : List (Transition S A σ R)) : reentries id (⟨pool, .spawn id r⟩ :: tr) = 0 := by
  simp [reentries]

/-- The steps that neither begin the request nor go on with it. -/
theorem reentries_other {t : Transition S A σ R} {id : Nat} (hspawn : ∀ r, t.label ≠ .spawn id r)
    (hagain : ∀ a, t.label ≠ .again id a) (tr : List (Transition S A σ R)) :
    reentries id (t :: tr) = reentries id tr := by
  obtain ⟨pool, l⟩ := t
  cases l with
  | spawn id' r =>
    refine if_neg ?_
    rintro rfl
    exact hspawn r rfl
  | again id' a =>
    refine if_neg ?_
    rintro rfl
    exact hagain a rfl
  | _ => rfl

/-- No two tasks of a pool have one id. -/
theorem Run.ids_nodup {tr : List (Transition S A σ R)} {pool : Pool S A σ} (h : Run Y init tr pool) :
    (pool.tasks.map (·.id)).Nodup := by
  induction h with
  | start => exact List.nodup_nil
  | step _ hs ih =>
    cases hs with
    | spawn store tasks id r hfresh =>
      refine List.nodup_cons.mpr ⟨?_, ih⟩
      intro hmem
      obtain ⟨t, ht, hid⟩ := List.mem_map.mp hmem
      exact hfresh t ht hid
    | act | fault | again => simpa using ih
    | finish store before after id a past =>
      refine List.Nodup.sublist ?_ ih
      exact ((List.sublist_cons_self _ after).append_left before).map _
    | cancel store before after t =>
      refine List.Nodup.sublist ?_ ih
      exact ((List.sublist_cons_self t after).append_left before).map _
    | restart => exact List.nodup_nil

/-- A task that is there before and after another task's operation has another id. -/
theorem Run.act_other {tr : List (Transition S A σ R)} {pool pool' : Pool S A σ} (h : Run Y init tr pool)
    {id : Nat} {d : Performed S} (hs : Step Y pool (.act id d) pool') {task : Task S A}
    (hbefore : task ∈ pool.tasks) (hafter : task ∈ pool'.tasks) : task.id ≠ id := by
  have hids := h.ids_nodup
  cases hs with
  | act store before after id op k past =>
    rw [List.map_append, List.map_cons, List.nodup_middle, List.nodup_cons, ← List.map_append] at hids
    have hrest : task ∈ before ++ after → task.id ≠ id := by
      intro hmem heq
      exact hids.1 (List.mem_map.mpr ⟨task, hmem, heq⟩)
    rcases mem_middle.mp hafter with rfl | hmem
    · rcases mem_middle.mp hbefore with heq | hmem
      · exact absurd (congrArg Task.past heq) (List.cons_ne_self _ _)
      · exact hrest hmem
    · exact hrest hmem

/-- A task that a step did not spawn was there before the step. -/
theorem Step.task_before {pool pool' : Pool S A σ} {l : Label S A R} (h : Step Y pool l pool')
    {id : Nat} (hspawn : ∀ r, l ≠ .spawn id r) (hid : ∃ task ∈ pool'.tasks, task.id = id) :
    ∃ task ∈ pool.tasks, task.id = id := by
  obtain ⟨task, htask, rfl⟩ := hid
  cases h.came htask with
  | stayed hmem _ => exact ⟨task, hmem, rfl⟩
  | spawned id r _ => exact absurd rfl (hspawn r)
  | acted hme => exact ⟨_, hme, rfl⟩
  | refused hme _ => exact ⟨_, hme, rfl⟩
  | wentOn hme _ => exact ⟨_, hme, rfl⟩

/-- A task that a step does not end is still there. -/
theorem Step.task_after {pool pool' : Pool S A σ} {l : Label S A R} (h : Step Y pool l pool')
    {id : Nat} (hrestart : l ≠ .restart) (hfinish : ∀ a, l ≠ .finish id a) (hcancel : l ≠ .cancel id)
    (hid : ∃ task ∈ pool.tasks, task.id = id) : ∃ task ∈ pool'.tasks, task.id = id := by
  obtain ⟨task, htask, rfl⟩ := hid
  cases h.fate htask with
  | stays hmem => exact ⟨task, hmem, rfl⟩
  | acts _ hmem => exact ⟨_, hmem, rfl⟩
  | refused _ _ hmem => exact ⟨_, hmem, rfl⟩
  | goesOn _ _ hmem => exact ⟨_, hmem, rfl⟩
  | ends hends =>
    obtain ⟨-, ⟨a, hl⟩ | hl | hl⟩ := hends
    · exact absurd hl (hfinish a)
    · exact absurd hl hcancel
    · exact absurd hl hrestart

theorem Step.spawn_fresh {pool pool' : Pool S A σ} {id : Nat} {r : R}
    (h : Step Y pool (.spawn id r) pool') : ∀ task ∈ pool.tasks, task.id ≠ id := by
  cases h with
  | spawn store tasks id r hfresh => exact hfresh

theorem Step.spawn_present {pool pool' : Pool S A σ} {id : Nat} {r : R}
    (h : Step Y pool (.spawn id r) pool') : ∃ task ∈ pool'.tasks, task.id = id := by
  cases h with
  | spawn store tasks id r _ => exact ⟨_, List.mem_cons_self, rfl⟩

/-- Every task was spawned. -/
theorem Run.spawned {tr : List (Transition S A σ R)} {pool : Pool S A σ} (h : Run Y init tr pool) :
    ∀ task ∈ pool.tasks, ∃ r s, Spawned task.id r s tr := by
  induction h with
  | start => simp
  | @step tr pool pool' l hr hs ih =>
    intro task htask
    by_cases hspawn : ∃ r, l = .spawn task.id r
    · obtain ⟨r, rfl⟩ := hspawn
      exact ⟨r, pool.store, .here pool.tasks tr⟩
    · have hnot : ∀ r, l ≠ .spawn task.id r := fun r heq => hspawn ⟨r, heq⟩
      obtain ⟨task', htask', hid⟩ := hs.task_before hnot ⟨task, htask, rfl⟩
      obtain ⟨r, s, hsp⟩ := ih task' htask'
      rw [hid] at hsp
      exact ⟨r, s, .earlier _ tr hnot hsp⟩

/-- A request ends where nothing is left of its program. -/
theorem Step.finish_inv {pool pool' : Pool S A σ} {id : Nat} {a : A}
    (h : Step Y pool (.finish id a) pool') :
    ∃ past, (⟨id, .ret a, past⟩ : Task S A) ∈ pool.tasks := by
  cases h with
  | finish store before after id a past _ => exact ⟨past, by simp⟩

/-- A request goes on where its program has returned an answer that says with what. -/
theorem Step.again_inv {pool pool' : Pool S A σ} {id : Nat} {a : A}
    (h : Step Y pool (.again id a) pool') :
    ∃ p past, (⟨id, .ret a, past⟩ : Task S A) ∈ pool.tasks ∧ Y.again a = some p ∧
      (⟨id, p, past⟩ : Task S A) ∈ pool'.tasks := by
  cases h with
  | again store before after id a p past hp => exact ⟨p, past, by simp, hp, by simp⟩

/-- A request that has ended is gone. -/
theorem Run.gone {tr : List (Transition S A σ R)} {pool pool' : Pool S A σ} (h : Run Y init tr pool)
    {id : Nat} {a : A} (hs : Step Y pool (.finish id a) pool') : ∀ task ∈ pool'.tasks, task.id ≠ id := by
  have hids := h.ids_nodup
  cases hs with
  | finish store before after id a past _ =>
    rw [List.map_append, List.map_cons, List.nodup_middle, List.nodup_cons] at hids
    intro task htask heq
    have hmem : task.id ∈ (before ++ after).map (·.id) := List.mem_map_of_mem htask
    rw [heq, List.map_append] at hmem
    exact hids.1 hmem

/-- Where a request of this id has ended and one of this id is there, it was spawned since. -/
theorem Run.respawned {newer older : List (Transition S A σ R)} {pool pool' : Pool S A σ} {id : Nat}
    {a : A} (h : Run Y init (newer ++ ⟨pool, .finish id a⟩ :: older) pool')
    (hid : ∃ task ∈ pool'.tasks, task.id = id) {r : R} {s : σ}
    (hsp : Spawned id r s (newer ++ ⟨pool, .finish id a⟩ :: older)) :
    ∃ t ∈ newer, t.before.store = s ∧ t.label = .spawn id r := by
  induction newer generalizing pool' with
  | nil =>
    obtain ⟨task, htask, hsame⟩ := hid
    cases h with
    | step hr hs => exact absurd hsame (hr.gone hs task htask)
  | cons t rest ih =>
    cases h with
    | step hr hs =>
      rename_i before l
      by_cases hspawn : ∃ r', l = .spawn id r'
      · obtain ⟨r', rfl⟩ := hspawn
        obtain ⟨rfl, rfl⟩ := hsp.newest
        exact ⟨_, List.mem_cons_self, rfl, rfl⟩
      · have hnot : ∀ r', l ≠ .spawn id r' := fun r' heq => hspawn ⟨r', heq⟩
        obtain ⟨t', ht', hstore, hlabel⟩ := ih hr (hs.task_before hnot hid) (hsp.tail hnot)
        exact ⟨t', List.mem_cons_of_mem _ ht', hstore, hlabel⟩

/-! ## Going on at most once -/

/-- The request has gone on with a marked past, and has performed something since
if it is to go on again. -/
def WentOn (Y : System S A σ R) (Marked : List (Performed S) → Prop) (task : Task S A) : Prop :=
  ∃ past₀, Marked past₀ ∧ past₀ <:+ task.past ∧
    (past₀ = task.past → ∀ a, task.prog = .ret a → Y.again a = none)

variable {Marked : List (Performed S) → Prop}

/-- One more operation. -/
theorem WentOn.performs {id : Nat} {p p' : Prog S A} {past : List (Performed S)}
    (h : WentOn Y Marked ⟨id, p, past⟩) (d : Performed S) : WentOn Y Marked ⟨id, p', d :: past⟩ := by
  obtain ⟨past₀, hmarked, hsuffix, -⟩ := h
  have hlength : past₀.length ≤ past.length := hsuffix.length_le
  refine ⟨past₀, hmarked, hsuffix.trans (List.suffix_cons d past), ?_⟩
  rintro rfl
  exact absurd hlength (by simp)

theorem marked_of_suffix (keep : ∀ d past, Marked past → Marked (d :: past))
    {past₀ past : List (Performed S)} (hsuffix : past₀ <:+ past) (h : Marked past₀) :
    Marked past := by
  obtain ⟨recent, rfl⟩ := hsuffix
  induction recent with
  | nil => exact h
  | cons d rest ih => exact keep d _ ih

theorem WentOn.marked (keep : ∀ d past, Marked past → Marked (d :: past)) {task : Task S A}
    (h : WentOn Y Marked task) : Marked task.past := by
  obtain ⟨past₀, hmarked, hsuffix, -⟩ := h
  exact marked_of_suffix keep hsuffix hmarked

/-- A request that has gone on does so no more, if it goes on only right after the
operation that marks its past. -/
theorem WentOn.stops (keep : ∀ d past, Marked past → Marked (d :: past)) {id : Nat} {a : A}
    {d : Performed S} {older : List (Performed S)} (h : WentOn Y Marked ⟨id, .ret a, d :: older⟩)
    (hunmarked : ¬ Marked older) : Y.again a = none := by
  obtain ⟨past₀, hmarked, hsuffix, hstops⟩ := h
  rcases List.suffix_cons_iff.mp hsuffix with heq | holder
  · exact hstops heq a rfl
  · exact absurd (marked_of_suffix keep holder hmarked) hunmarked

/-- What a run keeps of the requests that go on. -/
structure OnceOnly (Y : System S A σ R) (Marked : List (Performed S) → Prop)
    (tr : List (Transition S A σ R)) (pool : Pool S A σ) : Prop where
  bound : ∀ id, reentries id tr ≤ 1
  marked : ∀ task ∈ pool.tasks, reentries task.id tr = 0 ∨ WentOn Y Marked task

/-- A request goes on at most once, and its past is marked from then on: a mark
stays, and what goes on does so right after the operation that marked it, with a
program that performs something before it goes on. -/
theorem Run.reenters_once (keep : ∀ d past, Marked past → Marked (d :: past))
    (returns : ∀ tr pool id a p past, Run Y init tr pool →
      (⟨id, .ret a, past⟩ : Task S A) ∈ pool.tasks → Y.again a = some p →
      Marked past ∧ ∃ d older, past = d :: older ∧ ¬ Marked older)
    (performs : ∀ a b, Y.again a = some (.ret b) → Y.again b = none)
    {tr : List (Transition S A σ R)} {pool : Pool S A σ} (h : Run Y init tr pool) :
    OnceOnly Y Marked tr pool := by
  induction h with
  | start => exact ⟨fun _ => Nat.zero_le _, by simp⟩
  | @step tr pool pool' l hr hs ih =>
    -- the request that goes on does so for the first time
    have hfirst : ∀ {id a p past}, (⟨id, .ret a, past⟩ : Task S A) ∈ pool.tasks →
        Y.again a = some p → Marked past ∧ reentries id tr = 0 := by
      intro id a p past hme hp
      obtain ⟨hmarked, d, older, rfl, hunmarked⟩ := returns tr _ id a p past hr hme hp
      refine ⟨hmarked, (ih.marked _ hme).resolve_right fun hwent => ?_⟩
      have hstops := hwent.stops keep hunmarked
      rw [hp] at hstops
      cases hstops
    -- no other request is counted anew
    have hother : ∀ id, (∀ r, l ≠ .spawn id r) → (∀ a, l ≠ .again id a) →
        reentries id (⟨pool, l⟩ :: tr) = reentries id tr :=
      fun id hspawn hagain => reentries_other hspawn hagain tr
    constructor
    · intro id
      by_cases hspawn : ∃ r, l = .spawn id r
      · obtain ⟨r, rfl⟩ := hspawn
        rw [reentries_spawn]
        exact Nat.zero_le _
      by_cases hagain : ∃ a, l = .again id a
      · obtain ⟨a, rfl⟩ := hagain
        obtain ⟨p, past, hme, hp, -⟩ := hs.again_inv
        have hone := reentries_again pool id a tr
        have hzero := (hfirst hme hp).2
        omega
      · rw [hother id (fun r h => hspawn ⟨r, h⟩) fun a h => hagain ⟨a, h⟩]
        exact ih.bound id
    · intro task htask
      by_cases hagain : ∃ a, l = .again task.id a
      · -- it is the task that went on, since no other has its id
        obtain ⟨a, hl⟩ := hagain
        obtain ⟨id, prog, past'⟩ := task
        obtain ⟨p, past, hme, hp, hafter⟩ := (hl ▸ hs).again_inv
        cases List.inj_on_of_nodup_map (hr.step hs).ids_nodup htask hafter rfl
        refine .inr ⟨_, (hfirst hme hp).1, List.suffix_refl _, ?_⟩
        rintro - b rfl
        exact performs a b hp
      have hnot : ∀ a, l ≠ .again task.id a := fun a h => hagain ⟨a, h⟩
      cases hs.came htask with
      | stayed hmem hl =>
        rw [hother _ hl hnot]
        exact ih.marked task hmem
      | spawned id r hfresh => exact .inl (reentries_spawn _ _ _ _)
      | acted hme =>
        rw [hother _ (fun _ h => by cases h) hnot]
        exact (ih.marked _ hme).imp id fun hwent => hwent.performs _
      | refused hme hx =>
        rw [hother _ (fun _ h => by cases h) hnot]
        exact (ih.marked _ hme).imp id fun hwent => hwent.performs _
      | wentOn hme hp => exact absurd rfl (hnot _)

/-! ## Ending -/

/-- Served alone from this store the program ends after at most so many tail
calls, whatever operations are refused. -/
def EndsWithin (Y : System S A σ R) : Nat → Prog S A → σ → Prop
  | 0, p, s => ∀ a s', p.Executes Y.handler s a s' → Y.again a = none
  | n + 1, p, s => ∀ a s' p', p.Executes Y.handler s a s' → Y.again a = some p' →
    EndsWithin Y n p' s'

theorem EndsWithin.completes {n : Nat} {p : Prog S A} {s : σ} (h : EndsWithin Y n p s) :
    ∃ a s', Completes Y p s a s' := by
  induction n generalizing p s with
  | zero =>
    have hexec := Prog.executes_run Y.handler p s
    exact ⟨_, _, .done hexec (h _ _ hexec)⟩
  | succ n ih =>
    have hexec := Prog.executes_run Y.handler p s
    cases hagain : Y.again (p.run Y.handler s).1 with
    | none => exact ⟨_, _, .done hexec hagain⟩
    | some p' =>
      obtain ⟨a, s', hrest⟩ := ih (h _ _ p' hexec hagain)
      exact ⟨a, s', .again hexec hagain hrest⟩

/-- Executing a lone task is a piece of a run in which it does not go on. -/
theorem Run.executes_reentries {p : Prog S A} {s s' : σ} {a : A} {id : Nat}
    {past : List (Performed S)} {tr : List (Transition S A σ R)}
    (hr : Run Y init tr ⟨s, [⟨id, p, past⟩]⟩) (h : p.Executes Y.handler s a s') :
    ∃ tr' past', Run Y init tr' ⟨s', [⟨id, .ret a, past'⟩]⟩ ∧ reentries id tr' = reentries id tr := by
  induction p generalizing s past tr with
  | ret b =>
    obtain ⟨rfl, rfl⟩ := h
    exact ⟨tr, past, hr, rfl⟩
  | vis op k ih =>
    rcases h with h | ⟨x, hx, h⟩
    · obtain ⟨tr', past', hrun, hsame⟩ := ih _ (hr.step (Step.act s [] [] id op k past)) h
      refine ⟨tr', past', hrun, hsame.trans ?_⟩
      exact reentries_other (fun _ h => by cases h) (fun _ h => by cases h) tr
    · obtain ⟨tr', past', hrun, hsame⟩ := ih _ (hr.step (Step.fault s [] [] id op k past x hx)) h
      refine ⟨tr', past', hrun, hsame.trans ?_⟩
      exact reentries_other (fun _ h => by cases h) (fun _ h => by cases h) tr

/-- What bounds the tail calls of every run bounds those of a request served
alone. -/
theorem Run.endsWithin {n : Nat}
    (bound : ∀ tr pool, Run Y init tr pool → ∀ id, reentries id tr ≤ n)
    {tr : List (Transition S A σ R)} {s : σ} (hr : Run Y init tr ⟨s, []⟩) (r : R) :
    EndsWithin Y n (Y.program r) s := by
  suffices hgen : ∀ m p past (tr : List (Transition S A σ R)) s,
      Run Y init tr ⟨s, [⟨0, p, past⟩]⟩ → reentries 0 tr + m = n → EndsWithin Y m p s from
    hgen n _ _ _ s (hr.step (Step.spawn s [] 0 r (by simp))) (by simp)
  intro m
  induction m with
  | zero =>
    intro p past tr s hr hcount a s' hexec
    obtain ⟨tr', past', hrun, hsame⟩ := hr.executes_reentries hexec
    cases hagain : Y.again a with
    | none => rfl
    | some p' =>
      have hmore := bound _ _ (hrun.step (Step.again s' [] [] 0 a p' past' hagain)) 0
      rw [reentries_again] at hmore
      omega
  | succ m ih =>
    intro p past tr s hr hcount a s' p' hexec hagain
    obtain ⟨tr', past', hrun, hsame⟩ := hr.executes_reentries hexec
    refine ih p' past' _ s' (hrun.step (Step.again s' [] [] 0 a p' past' hagain)) ?_
    show reentries 0 (⟨⟨s', [⟨0, .ret a, past'⟩]⟩, .again 0 a⟩ :: tr') + m = n
    rw [reentries_again]
    omega

end Resumption
