import PunkgoKernel.Laws.Checkpoint

/-!
# Snapshots

A snapshot read counts the events, brings the checkpoints up to date, and reads
the latest checkpoint, in steps of their own. Its answer has the count and the
root hash of that checkpoint. They belong together as long as nobody has made a
checkpoint of more events by the time it is read (`Overtaken`).
-/

namespace PunkgoKernel

open Relational (Table key)
open Resumption

variable [Externals]

/-- The hash is the tree hash over exactly the first `n` events. -/
def SnapshotOf (events : List EventRecord) (n : Nat) (rootHash : String) : Prop :=
  n ≤ events.length ∧ ∃ leaves : List Hash,
    leaves.map (fun leaf => bytesToHex leaf.bytes) = (events.take n).map (·.eventHash) ∧
      rootHash = bytesToHex (treeRoot leaves).bytes

theorem CheckpointSound.snapshot {events : List EventRecord} {cp : AuditCheckpoint}
    (h : CheckpointSound events cp) : SnapshotOf events cp.treeSize cp.rootHash := by
  obtain ⟨-, hle, hleaves⟩ := h
  exact ⟨hle, hleaves⟩

/-- A snapshot read comes to the latest checkpoint when there is one of more
events than it counted. -/
def Overtaken (older : List KernelTransition) (t : KernelTransition) : Prop :=
  ∃ id x prog past now s, ∃ n : Nat, t.label = .act id ⟨.latestCheckpoint, x⟩ ∧
    (⟨id, prog, past⟩ : Task KernelSig (KernelResult Outcome)) ∈ t.before.tasks ∧
    Spawned id (.snapshot now) s older ∧ Saw past .countEvents n ∧
    n < AuditLog.treeSize t.before.store

/-! ## The read -/

omit [Externals] in
/-- The answer of a snapshot read is made of what it counted and of the
checkpoint it read last, after one that reaches the count. -/
def Pictured (past : Past) (answer : KernelResult Outcome) : Prop :=
  ∀ n cp, answer = .ok (.snapshot n cp) → ∃ older, past = ⟨.latestCheckpoint, .ok cp⟩ :: older ∧
    Saw older .countEvents n ∧ (n = 0 ∨ ∃ d ∈ older, n ≤ floor d)

theorem pictured_error {past : Past} {e : KernelError} :
    again (.error e) = none ∧ Pictured past (.error e) := by
  refine ⟨rfl, ?_⟩
  intro n cp h
  cases h

/-- The last step of the read. -/
theorem latestCheckpoint_pictures {past : Past} {eventCount : Nat}
    (hcount : Saw past .countEvents eventCount)
    (hfloor : eventCount = 0 ∨ ∃ d ∈ past, eventCount ≤ floor d) :
    Attempt.Honors (fun _ _ => True) (fun _ _ => True)
      (fun past answer => again answer = none ∧ Pictured past answer)
      (do
        let cp ← call .latestCheckpoint
        pure (.snapshot eventCount cp)) past := by
  refine ⟨trivial, ?_⟩
  rintro (e | cp) -
  · exact pictured_error
  · refine ⟨rfl, ?_⟩
    intro n cp' h
    cases h
    exact ⟨past, rfl, hcount, hfloor⟩

theorem snapshot_pictures (now : Nat) :
    Attempt.Honors (fun _ _ => True) (fun _ _ => True)
      (fun past answer => again answer = none ∧ Pictured past answer) (snapshot now) [] := by
  refine ⟨trivial, ?_⟩
  rintro (e | (eventCount : Nat)) -
  · exact pictured_error
  have hcount : Saw [⟨.countEvents, .ok eventCount⟩] .countEvents eventCount := List.mem_cons_self
  show Attempt.Honors _ _ _ (ensureCheckpoint eventCount now >>= _) _
  unfold ensureCheckpoint
  split
  · next hzero => exact latestCheckpoint_pictures hcount (.inl hzero)
  · refine ⟨trivial, ?_⟩
    rintro (e | (current : Nat)) -
    · exact pictured_error
    show Attempt.Honors _ _ _ ((if eventCount ≤ current then _ else _) >>= _) _
    split
    · next hcurrent =>
      exact latestCheckpoint_pictures (List.mem_cons_of_mem _ hcount)
        (.inr ⟨_, List.mem_cons_self, hcurrent⟩)
    · refine ⟨trivial, ?_⟩
      rintro (e | made) -
      · exact pictured_error
      exact latestCheckpoint_pictures (List.mem_cons_of_mem _ (List.mem_cons_of_mem _ hcount))
        (.inr ⟨_, List.mem_cons_self, le_refl _⟩)

/-- Along every run a snapshot read goes on as its program says. -/
theorem KernelRun.pictured {tr : List KernelTransition} {pool : KernelPool} (h : KernelRun tr pool) :
    ∀ task ∈ pool.tasks, ∀ r s, Spawned task.id r s tr → ∀ now, r = .snapshot now →
      Prog.Honors (fun _ _ => True) (fun _ _ => True)
        (fun past answer => again answer = none ∧ Pictured past answer) task.prog task.past := by
  refine kernelContract.each (K := fun r _ task => ∀ now, r = .snapshot now →
    Prog.Honors (fun _ _ => True) (fun _ _ => True)
      (fun past answer => again answer = none ∧ Pictured past answer) task.prog task.past)
    ?_ ?_ ?_ ?_ h (fun _ _ _ _ _ => trivial)
  · rintro id r s now rfl
    exact snapshot_pictures now
  · intro tr pool r s id op k past _ _ _ _ hhonors now hr
    exact (hhonors now hr).2 _ trivial
  · intro r s id op k past x _ _ hhonors now hr
    exact (hhonors now hr).2 _ trivial
  · intro r s id a p past hp hhonors now hr
    have hends : again a = none := (hhonors now hr).1
    have hp' : again a = some p := hp
    rw [hends] at hp'
    cases hp'

/-! ## Along a run -/

/-- A checkpoint that was read is the latest there was. -/
theorem latestCheckpoint_read {db : Db} {cp : AuditCheckpoint}
    (h : (exec .latestCheckpoint db).1 = .ok cp) :
    cp ∈ db.auditCheckpoints.rows ∧ cp.treeSize = AuditLog.treeSize db := by
  have htx : transaction .latestCheckpoint db =
      auditTx ((AuditLog.latestCheckpoint db).map fun cp => (cp, db)) := rfl
  unfold AuditLog.latestCheckpoint at htx
  unfold AuditLog.treeSize
  cases hlatest : AuditLog.latest? db with
  | none =>
    rw [hlatest] at htx
    unfold exec at h
    rw [htx] at h
    cases h
  | some latest =>
    rw [hlatest] at htx
    unfold exec at h
    rw [htx] at h
    cases h
    exact ⟨AuditLog.latest?_mem hlatest, rfl⟩

omit [Externals] in
/-- What one answer reached, a checkpoint read after it reaches. -/
theorem floor_le_of_told {n : Nat} {older : Past} {cp : AuditCheckpoint}
    (h : AllTold n (⟨.latestCheckpoint, .ok cp⟩ :: older)) : ∀ d ∈ older, floor d ≤ cp.treeSize :=
  h.1

/-- Whatever commits and reads run in between: a snapshot that nobody overtakes has the
tree hash over exactly the events it counted. Of the transparency-log package it takes
what the checkpoints take. -/
theorem run_snapshots (hdistinct : DistinctPositions) (hcomputes : ComputesTreeHash)
    {tr : List KernelTransition} {pool : KernelPool} (h : KernelRun tr pool)
    (hcurrent : ∀ newer t older, tr = newer ++ t :: older → ¬ Overtaken older t) :
    ∀ newer t older id now s n cp, tr = newer ++ t :: older →
      t.label = .finish id (.ok (.snapshot n cp)) → Spawned id (.snapshot now) s older →
      SnapshotOf t.before.store.events.rows n cp.rootHash := by
  intro newer t older id now s n cp htr hlabel hsp
  subst htr
  obtain ⟨hr, pool', hs⟩ := Run.upTo h
  obtain ⟨read, label⟩ := t
  obtain rfl : label = .finish id (.ok (.snapshot n cp)) := hlabel
  have hcurrent' : ∀ newer' u rest, older = newer' ++ u :: rest → ¬ Overtaken rest u := by
    rintro newer' u rest rfl
    refine hcurrent (newer ++ ⟨read, .finish id (.ok (.snapshot n cp))⟩ :: newer') u rest ?_
    simp
  clear hcurrent
  replace hs : Step kernelSystem read (.finish id (.ok (.snapshot n cp))) pool' := hs
  cases hs with
  | finish store before after id a past hp =>
    have hmem : (⟨id, .ret (.ok (.snapshot n cp)), past⟩ : Task KernelSig (KernelResult Outcome)) ∈
        before ++ ⟨id, .ret (.ok (.snapshot n cp)), past⟩ :: after := by simp
    have hpictured := (KernelRun.pictured hr _ hmem _ s hsp now rfl).2
    obtain ⟨counted, rfl, hcount, hfloor⟩ := hpictured n cp rfl
    have htold := (KernelRun.checkpointRead hdistinct hcomputes hr _ hmem _ s hsp).1
    -- the step in which the checkpoint was read
    obtain ⟨newer', u, rest, prog, rfl, hact, htask, hanswer, hnewer⟩ :=
      KernelRun.read hr hmem rfl (List.nil_append _).symm
    obtain ⟨hr', -⟩ := Run.upTo hr
    obtain ⟨hstored, hsize⟩ := latestCheckpoint_read hanswer
    have hnot : ¬ n < AuditLog.treeSize u.before.store := by
      intro hlt
      refine hcurrent' newer' u rest rfl ?_
      exact ⟨id, .ok cp, prog, counted, now, s, n, hact, htask, hsp.before hnewer (.inl hact), hcount, hlt⟩
    have hsound := ((KernelRun.auditSound hdistinct hcomputes hr').checkpoints cp hstored).later
      (KernelRun.later hr u (by simp)).events
    have hreached : n ≤ cp.treeSize := by
      rcases hfloor with rfl | ⟨d, hd, hle⟩
      · exact Nat.zero_le _
      · exact hle.trans (floor_le_of_told htold d hd)
    obtain rfl : n = cp.treeSize := by omega
    exact hsound.snapshot

/-! ## What others do in between -/

/-- Whether a snapshot read of the step counted all the events of the checkpoint
it comes to. -/
def looksUpInTime (t : KernelTransition) : Bool :=
  match t.label with
  | .act id ⟨.latestCheckpoint, _⟩ =>
    t.before.tasks.all fun task => decide (task.id ≠ id) || task.past.all fun d =>
      match d with
      | ⟨.countEvents, .ok (n : Nat)⟩ => decide (AuditLog.treeSize t.before.store ≤ n)
      | _ => true
  | _ => true

omit [Externals] in
theorem looksUpInTime_sound {older : List KernelTransition} {t : KernelTransition}
    (h : looksUpInTime t = true) : ¬ Overtaken older t := by
  rintro ⟨id, x, prog, past, now, s, n, hlabel, hmem, -, hcount, hlt⟩
  unfold looksUpInTime at h
  rw [hlabel] at h
  rcases Bool.or_eq_true _ _ ▸ List.all_eq_true.mp h _ hmem with hid | hpast
  · exact of_decide_eq_true hid rfl
  · have hle : AuditLog.treeSize t.before.store ≤ n :=
      of_decide_eq_true (List.all_eq_true.mp hpast _ hcount)
    omega

/-- Whether a request is a snapshot read whose answer passes a test. -/
def answersSnapshot (test : Db → Nat → AuditCheckpoint → Bool) (r : Request) (_s db : Db)
    (answer : KernelResult Outcome) : Bool :=
  match r, answer with
  | .snapshot _, .ok (.snapshot n cp) => test db n cp
  | _, _ => false

omit [Externals] in
theorem answersSnapshot_sound {test : Db → Nat → AuditCheckpoint → Bool} {tr : List KernelTransition}
    (h : tr.tails.any (answersWith (answersSnapshot test)) = true) :
    ∃ newer t older id now s n cp, tr = newer ++ t :: older ∧
      t.label = .finish id (.ok (.snapshot n cp)) ∧ Spawned id (.snapshot now) s older ∧
      test t.before.store n cp = true := by
  obtain ⟨newer, t, older, id, r, s, answer, htr, hlabel, hsp, htest⟩ := answersWith_sound h
  unfold answersSnapshot at htest
  split at htest
  · next now n cp => exact ⟨newer, t, older, id, now, s, n, cp, htr, hlabel, hsp, htest⟩
  · cases htest

/-- An agent's change is committed after a snapshot read has counted the events
and before it goes on. -/
def snapshotAsked : List (Turn Request) :=
  alone 30 (createAgent 0 "agent-1" 500) ++ alone 30 (grantEnvelope 1 "agent-1" 100 []) ++
    [.spawn 1 (.snapshot 9000), .go 1] ++
    alone 30 (submitAt 2 "agent-1" .mutate "workspace/a" (.obj [])) ++ List.replicate 5 (.go 1)

/-- An envelope is granted and a checkpoint of it made in between. -/
def snapshotOvertaken : List (Turn Request) :=
  alone 30 (createAgent 0 "agent-1" 500) ++ [.spawn 1 (.snapshot 9000), .go 1] ++
    alone 30 (grantEnvelope 1 "agent-1" 100 []) ++ [.spawn 2 (.auditCheckpoint 9500)] ++
    List.replicate 6 (.go 2) ++ List.replicate 5 (.go 1)

omit [Externals] in
/-- The snapshot is of the two events it counted, of the three that are in the log by
the time it answers. -/
theorem snapshotAsked_current :
    letI := reference
    ∃ newer t older, (kernelPlayed snapshotAsked).trace = newer ++ t :: older ∧
      ∃ id cp, t.label = .finish id (.ok (.snapshot 2 cp)) ∧ t.before.store.events.rows.length = 3 ∧
        SnapshotOf t.before.store.events.rows 2 cp.rootHash := by
  have hplayed : (kernelPlayed snapshotAsked).trace.all looksUpInTime = true ∧
      (kernelPlayed snapshotAsked).trace.tails.any (answersWith (answersSnapshot fun db n _ =>
        decide (n = 2) && decide (db.events.rows.length = 3))) = true := by
    rw [kernelPlayed_eq]
    decide +kernel
  obtain ⟨hclean, hanswers⟩ := hplayed
  obtain ⟨newer, t, older, id, now, s, n, cp, htr, hlabel, hsp, htest⟩ :=
    answersSnapshot_sound hanswers
  obtain ⟨hn, hthree⟩ := Bool.and_eq_true _ _ ▸ htest
  obtain rfl : n = 2 := of_decide_eq_true hn
  refine ⟨newer, t, older, htr, id, cp, hlabel, of_decide_eq_true hthree, ?_⟩
  refine @run_snapshots reference distinctPositions_reference computesTreeHash_reference _ _
    (kernelRun_played snapshotAsked) ?_ newer t older id now s 2 cp htr hlabel hsp
  intro newer' u rest hsplit
  refine looksUpInTime_sound (List.all_eq_true.mp hclean u ?_)
  rw [hsplit]
  simp

/-- A tree hash over one event is that event's hash. -/
theorem SnapshotOf.one {event : EventRecord} {rest : List EventRecord} {rootHash : String}
    (h : SnapshotOf (event :: rest) 1 rootHash) : rootHash = event.eventHash := by
  obtain ⟨-, leaves, hleaves, rfl⟩ := h
  obtain ⟨leaf, rfl, hleaf⟩ := List.map_eq_singleton_iff.mp hleaves
  have hroot : treeRoot [leaf] = leaf := Merkle.root_singleton _ _ leaf
  rw [hroot]
  exact hleaf

omit [Externals] in
/-- A snapshot has the count of one event and the tree hash over two, of which a
checkpoint was made while it was under way. -/
theorem snapshotOvertaken_mixed :
    letI := reference
    ¬ ∀ tr pool, KernelRun tr pool → ∀ newer t older id now s n cp, tr = newer ++ t :: older →
      t.label = .finish id (.ok (.snapshot n cp)) → Spawned id (.snapshot now) s older →
      SnapshotOf t.before.store.events.rows n cp.rootHash := by
  intro hclaim
  have hanswers : (kernelPlayed snapshotOvertaken).trace.tails.any
      (answersWith (answersSnapshot fun db n cp => decide (n = 1) && match db.events.rows with
        | event :: _ => decide (cp.rootHash ≠ event.eventHash)
        | [] => false)) = true := by
    rw [kernelPlayed_eq]
    decide +kernel
  obtain ⟨newer, t, older, id, now, s, n, cp, htr, hlabel, hsp, htest⟩ :=
    answersSnapshot_sound hanswers
  obtain ⟨hn, hmixed⟩ := Bool.and_eq_true _ _ ▸ htest
  obtain rfl : n = 1 := of_decide_eq_true hn
  have hsnapshot := hclaim _ _ (kernelRun_played snapshotOvertaken) newer t older id now s 1 cp htr
    hlabel hsp
  split at hmixed
  · next event rest hrows =>
    rw [hrows] at hsnapshot
    exact of_decide_eq_true hmixed (@SnapshotOf.one reference _ _ _ hsnapshot)
  · cases hmixed

end PunkgoKernel
