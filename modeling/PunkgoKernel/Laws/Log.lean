import PunkgoKernel.Laws.Effects
import PunkgoKernel.Runtime.Evaluation

/-!
# The log and its Merkle store stay together

Every commit appends one event and one leaf. The invariant (`LogAligned`) says
more than the leaves: the store holds a node at each position that a complete
subtree occupies and at no other, so the nodes a new leaf completes can always
be computed, and no node ever lands on a leaf.

The one thing taken from the transparency-log package is that its storage
positions are distinct (`DistinctPositions`).
-/

namespace PunkgoKernel

open Relational (Table key)
open Resumption

/-! ## The nodes a leaf completes -/

variable [Externals]

/-- The positions of the Merkle store are distinct. -/
def DistinctPositions : Prop :=
  ∀ level n level' n', Externals.storedHashIndex level n = Externals.storedHashIndex level' n' →
    level = level' ∧ n = n'

omit [Externals] in
/-- One bit further is half as much. -/
theorem shiftRight_succ_eq (n level : Nat) : n >>> (level + 1) = n >>> level / 2 := by
  rw [Nat.shiftRight_succ]

omit [Externals] in
/-- Below a completed level every bit of the leaf's index is set. -/
theorem odd_of_dvd {n level j : Nat} (hj : level < j) (hend : 2 ^ j ∣ n + 1) :
    n >>> level % 2 = 1 := by
  have hdvd : 2 ^ (level + 1) ∣ n + 1 := (Nat.pow_dvd_pow 2 hj).trans hend
  obtain ⟨q, hq⟩ := hdvd
  have hqpos : 0 < q := by
    rcases Nat.eq_zero_or_pos q with rfl | hpos
    · simp at hq
    · exact hpos
  have hn : n = 2 ^ level * (2 * q - 1) + (2 ^ level - 1) := by
    have hpos : 0 < 2 ^ level := by positivity
    obtain ⟨p, rfl⟩ : ∃ p, q = p + 1 := ⟨q - 1, by omega⟩
    have hstep : 2 * (p + 1) - 1 = 2 * p + 1 := by omega
    rw [hstep]
    have hring : 2 ^ (level + 1) * (p + 1) = 2 ^ level * (2 * p + 1) + 2 ^ level := by ring
    omega
  have hpos : 0 < 2 ^ level := by positivity
  rw [Nat.shiftRight_eq_div_pow, hn, Nat.mul_add_div hpos,
    Nat.div_eq_of_lt (by omega : 2 ^ level - 1 < 2 ^ level)]
  omega

/-- Each node a leaf completes is the last of its level, and its subtree ends
with the leaf. -/
theorem completedNodes_sound {hashes : Table AuditHash} {n fuel level : Nat} {current : Hash}
    {nodes : List AuditHash} (h : completedNodes hashes n fuel level current = .ok nodes)
    (hlow : (n >>> level + 1) * 2 ^ level = n + 1) :
    ∀ node ∈ nodes, ∃ j, level < j ∧ node.hashIndex = Externals.storedHashIndex j (n >>> j) ∧
      (n >>> j + 1) * 2 ^ j = n + 1 := by
  induction fuel generalizing level current nodes with
  | zero =>
    cases h
    simp
  | succ fuel ih =>
    unfold completedNodes at h
    split at h
    · next hodd =>
      simp only [bind, Except.bind] at h
      split at h
      · cases h
      split at h
      · cases h
      next rest hrest =>
      cases h
      have hlow' : (n >>> (level + 1) + 1) * 2 ^ (level + 1) = n + 1 := by
        have hhalf : 2 * (n >>> level / 2 + 1) = n >>> level + 1 := by omega
        calc (n >>> (level + 1) + 1) * 2 ^ (level + 1)
            = (2 * (n >>> level / 2 + 1)) * 2 ^ level := by
              rw [shiftRight_succ_eq, pow_succ]
              ring
          _ = n + 1 := by rw [hhalf, hlow]
      intro node hnode
      rcases List.mem_cons.mp hnode with rfl | hnode
      · exact ⟨level + 1, by omega, by rw [shiftRight_succ_eq], hlow'⟩
      · obtain ⟨j, hj, hidx, hend⟩ := ih hrest hlow' node hnode
        exact ⟨j, by omega, hidx, hend⟩
    · cases h
      simp

/-- Every node that ends with leaf `n` above a level is among those computed,
given enough fuel. -/
theorem completedNodes_complete {hashes : Table AuditHash} {n fuel level : Nat} {current : Hash}
    {nodes : List AuditHash} (h : completedNodes hashes n fuel level current = .ok nodes)
    (hfuel : n >>> level ≤ fuel) {j : Nat} (hj : level < j) (hend : 2 ^ j ∣ n + 1) :
    ∃ node ∈ nodes, node.hashIndex = Externals.storedHashIndex j (n >>> j) := by
  induction fuel generalizing level current nodes with
  | zero =>
    -- nothing is left of `n` at this level, so it has a zero bit here
    have hzero : n / 2 ^ level = 0 := by
      rw [← Nat.shiftRight_eq_div_pow]
      exact Nat.le_zero.mp hfuel
    have hlt : n < 2 ^ level := by
      rcases Nat.div_eq_zero_iff.mp hzero with hpow | hlt
      · exact absurd hpow (by positivity)
      · exact hlt
    have hle := Nat.le_of_dvd (Nat.succ_pos n) hend
    have hpow : 2 ^ (level + 1) ≤ 2 ^ j := Nat.pow_le_pow_right (by decide) hj
    rw [pow_succ] at hpow
    have hpos : 0 < 2 ^ level := by positivity
    omega
  | succ fuel ih =>
    have hodd : n >>> level % 2 = 1 := odd_of_dvd hj hend
    unfold completedNodes at h
    rw [if_pos hodd] at h
    simp only [bind, Except.bind] at h
    split at h
    · cases h
    split at h
    · cases h
    next rest hrest =>
    cases h
    rcases Nat.lt_or_ge (level + 1) j with hlt | hge
    · have hfuel' : n >>> (level + 1) ≤ fuel := by
        rw [shiftRight_succ_eq]
        omega
      obtain ⟨node, hnode, hidx⟩ := ih hrest hfuel' hlt
      exact ⟨node, List.mem_cons_of_mem _ hnode, hidx⟩
    · obtain rfl : j = level + 1 := by omega
      exact ⟨_, List.mem_cons_self, by rw [shiftRight_succ_eq]⟩

/-- The computation succeeds when every complete subtree to the left is
stored. -/
theorem completedNodes_total {hashes : Table AuditHash} {n : Nat}
    (hfull : ∀ level k, (k + 1) * 2 ^ level ≤ n →
      (hashes.find? (Externals.storedHashIndex level k)).isSome)
    (fuel level : Nat) (current : Hash) :
    ∃ nodes, completedNodes hashes n fuel level current = .ok nodes := by
  induction fuel generalizing level current with
  | zero => exact ⟨[], rfl⟩
  | succ fuel ih =>
    unfold completedNodes
    split
    · next hodd =>
      have hleft : (n >>> level - 1 + 1) * 2 ^ level ≤ n := by
        have hpos : n >>> level ≠ 0 := by
          intro hzero
          rw [hzero] at hodd
          cases hodd
        rw [Nat.sub_add_cancel (Nat.pos_of_ne_zero hpos), Nat.shiftRight_eq_div_pow]
        exact Nat.div_mul_le_self n (2 ^ level)
      obtain ⟨row, hrow⟩ := Option.isSome_iff_exists.mp (hfull level (n >>> level - 1) hleft)
      have hread : readHashInTx (Externals.storedHashIndex level (n >>> level - 1)) hashes =
          .ok row.hash := by
        unfold readHashInTx
        rw [hrow]
      obtain ⟨nodes, hnodes⟩ := ih (level + 1) (Externals.nodeHash row.hash current)
      simp only [hread, bind, Except.bind, hnodes]
      exact ⟨_, rfl⟩
    · exact ⟨[], rfl⟩

/-! ## Storing the nodes -/

omit [Externals] in
/-- Storing hashes at other positions leaves a position as it is. -/
theorem find?_storeHashes_of_ne {hashes : Table AuditHash} {toStore : List AuditHash} {idx : Nat}
    (h : ∀ r ∈ toStore, r.hashIndex ≠ idx) :
    (storeHashes hashes toStore).find? idx = hashes.find? idx := by
  induction toStore generalizing hashes with
  | nil => rfl
  | cons r rest ih =>
    have hrest : (storeHashes (hashes.upsert r) rest).find? idx = (hashes.upsert r).find? idx :=
      ih fun r' hr' => h r' (List.mem_cons_of_mem _ hr')
    refine Eq.trans hrest ?_
    rw [Table.find?_upsert, key_auditHash, if_neg (h r List.mem_cons_self)]

omit [Externals] in
/-- The positions taken after storing hashes are theirs and those taken before. -/
theorem isSome_find?_storeHashes (hashes : Table AuditHash) (toStore : List AuditHash) (idx : Nat) :
    ((storeHashes hashes toStore).find? idx).isSome ↔
      (∃ r ∈ toStore, r.hashIndex = idx) ∨ (hashes.find? idx).isSome := by
  induction toStore generalizing hashes with
  | nil => simp [storeHashes]
  | cons r rest ih =>
    refine (ih (hashes.upsert r)).trans ?_
    rw [Table.find?_upsert, key_auditHash]
    by_cases hr : r.hashIndex = idx
    · rw [if_pos hr]
      simp [hr]
    · rw [if_neg hr]
      simp [hr]

/-! ## The invariant -/

/-- The log and its Merkle store, aligned: indexes without gaps, hashes of the
events themselves, a leaf for each event, and a node for each complete
subtree and nothing else. -/
structure LogAligned (db : Db) : Prop where
  indexes : db.events.rows.map (·.logIndex) = List.range db.events.rows.length
  hashed : ∀ event ∈ db.events.rows, event.eventHash = computeEventHash event
  leaves : ∀ event ∈ db.events.rows, ∃ row,
    db.auditHashes.find? (Externals.storedHashIndex 0 event.logIndex) = some row ∧
      bytesToHex row.hash.bytes = event.eventHash
  positions : ∀ idx, (db.auditHashes.find? idx).isSome →
    ∃ level n, idx = Externals.storedHashIndex level n ∧
      (n + 1) * 2 ^ level ≤ db.events.rows.length
  full : ∀ level n, (n + 1) * 2 ^ level ≤ db.events.rows.length →
    (db.auditHashes.find? (Externals.storedHashIndex level n)).isSome

/-- Alignment is a matter of the log and of the stored hashes alone. -/
theorem LogAligned.congr {db db' : Db} (hevents : db'.events = db.events)
    (hhashes : db'.auditHashes = db.auditHashes) (h : LogAligned db) : LogAligned db' where
  indexes := by rw [hevents]; exact h.indexes
  hashed := by rw [hevents]; exact h.hashed
  leaves := by rw [hevents, hhashes]; exact h.leaves
  positions := by rw [hevents, hhashes]; exact h.positions
  full := by rw [hevents, hhashes]; exact h.full

omit [Externals] in
/-- The largest of the numbers below `n`, each raised by one, is `n`. -/
theorem foldl_max_range (n : Nat) : ((List.range n).map (· + 1)).foldl max 0 = n := by
  induction n with
  | zero => rfl
  | succ n ih =>
    rw [List.range_succ, List.map_append, List.foldl_append, ih]
    simp

/-- The next index of an aligned log is its length. -/
theorem LogAligned.nextIdx_eq {db : Db} (h : LogAligned db) :
    nextIdx db = db.events.rows.length := by
  have hmap : db.events.rows.map (·.logIndex + 1) =
      (db.events.rows.map (·.logIndex)).map (· + 1) := by
    rw [List.map_map]
    rfl
  unfold nextIdx
  rw [hmap, h.indexes, foldl_max_range]

/-- The empty log is aligned. -/
theorem logAligned_genesis : LogAligned StateStore.genesis where
  indexes := rfl
  hashed := by
    intro event hmem
    cases hmem
  leaves := by
    intro event hmem
    cases hmem
  positions := by
    intro idx hsome
    cases hsome
  full := by
    intro level n hle
    have hpos : 0 < (n + 1) * 2 ^ level := by positivity
    have hzero : StateStore.genesis.events.rows.length = 0 := rfl
    omega

/-- A commit keeps the log and the store aligned. -/
theorem LogAligned.commit (hdistinct : DistinctPositions) {db : Db} (h : LogAligned db)
    {event : EventRecord} {events : Table EventRecord} {leaf : Hash} {nodes : List AuditHash}
    (hins : db.events.insert? (event.placed (nextIdx db)) = some events)
    (hhex : hexToHash (event.placed (nextIdx db)).eventHash = some (.ok leaf))
    (hnodes : completedNodes db.auditHashes (nextIdx db) (nextIdx db) 0 leaf = .ok nodes) :
    LogAligned { db with
      events := events
      auditHashes := storeHashes db.auditHashes
        (⟨Externals.storedHashIndex 0 (nextIdx db), leaf⟩ :: nodes) } := by
  rw [h.nextIdx_eq] at hins hhex hnodes ⊢
  obtain ⟨-, hrows⟩ := Table.insert?_eq_some hins
  have hlen : events.rows.length = db.events.rows.length + 1 := by
    rw [hrows, List.length_append, List.length_singleton]
  have hsound := completedNodes_sound hnodes (by simp)
  have hleafHex : bytesToHex leaf.bytes = (event.placed db.events.rows.length).eventHash := by
    have hread := hexToHash_bytesToHex
      (Externals.sha256 (eventHashInput (event.placed db.events.rows.length)))
    have heq : (event.placed db.events.rows.length).eventHash = bytesToHex
        (Externals.sha256 (eventHashInput (event.placed db.events.rows.length))).bytes := rfl
    rw [heq, hread] at hhex
    cases hhex
    exact heq.symm
  -- the inner nodes lie above level zero, so no leaf is overwritten by one
  have hinner : ∀ i, ∀ r ∈ nodes, r.hashIndex ≠ Externals.storedHashIndex 0 i := by
    intro i r hr heq
    obtain ⟨j, hj, hidx, -⟩ := hsound r hr
    rw [hidx] at heq
    have := (hdistinct _ _ _ _ heq).1
    omega
  constructor
  · rw [hrows, List.map_append, h.indexes, List.length_append, List.length_singleton,
      List.range_succ]
    rfl
  · intro e he
    rw [hrows, List.mem_append, List.mem_singleton] at he
    rcases he with he | rfl
    · exact h.hashed e he
    · exact (computeEventHash_placed event _).symm
  · intro e he
    rw [hrows, List.mem_append, List.mem_singleton] at he
    rcases he with he | rfl
    · obtain ⟨row, hrow, hhash⟩ := h.leaves e he
      have hlt : e.logIndex < db.events.rows.length := by
        have hmem : e.logIndex ∈ db.events.rows.map (·.logIndex) := List.mem_map_of_mem he
        rw [h.indexes] at hmem
        exact List.mem_range.mp hmem
      refine ⟨row, ?_, hhash⟩
      rw [find?_storeHashes_of_ne, hrow]
      intro r hr
      rcases List.mem_cons.mp hr with rfl | hr
      · intro heq
        have := (hdistinct _ _ _ _ heq).2
        omega
      · exact hinner _ r hr
    · refine ⟨⟨Externals.storedHashIndex 0 db.events.rows.length, leaf⟩, ?_, hleafHex⟩
      show (storeHashes (db.auditHashes.upsert _) nodes).find? _ = _
      rw [find?_storeHashes_of_ne (hinner _), Table.find?_upsert, key_auditHash]
      exact if_pos rfl
  · intro idx hsome
    rw [hlen]
    rcases (isSome_find?_storeHashes _ _ idx).mp hsome with ⟨r, hr, hidx⟩ | hold
    · rcases List.mem_cons.mp hr with rfl | hr
      · exact ⟨0, db.events.rows.length, hidx.symm, by simp⟩
      · obtain ⟨j, -, hj, hend⟩ := hsound r hr
        exact ⟨j, db.events.rows.length >>> j, hidx.symm.trans hj, hend.le⟩
    · obtain ⟨level, n, hidx, hle⟩ := h.positions idx hold
      exact ⟨level, n, hidx, by omega⟩
  · intro level n hle
    rw [hlen] at hle
    rw [isSome_find?_storeHashes]
    rcases Nat.lt_or_ge db.events.rows.length ((n + 1) * 2 ^ level) with hlt | hge
    · -- a subtree that is new ends with the new leaf
      have hend : (n + 1) * 2 ^ level = db.events.rows.length + 1 := by omega
      have hn : n = db.events.rows.length >>> level := by
        rw [Nat.shiftRight_eq_div_pow]
        have hpos : 0 < 2 ^ level := by positivity
        have hsplit : db.events.rows.length = 2 ^ level * n + (2 ^ level - 1) := by
          have hring : (n + 1) * 2 ^ level = 2 ^ level * n + 2 ^ level := by ring
          omega
        rw [hsplit, Nat.mul_add_div hpos, Nat.div_eq_of_lt (by omega), Nat.add_zero]
      rcases Nat.eq_zero_or_pos level with rfl | hlevel
      · exact .inl ⟨_, List.mem_cons_self, by rw [hn]; rfl⟩
      · obtain ⟨node, hnode, hidx⟩ := completedNodes_complete hnodes (by simp) hlevel
          ⟨n + 1, by rw [← hend, mul_comm]⟩
        exact .inl ⟨node, List.mem_cons_of_mem _ hnode, by rw [hidx, ← hn]⟩
    · exact .inr (h.full level n hge)

/-- What operations do to the store keeps the log aligned: each appends an event with
its leaf and the nodes it completes, or leaves the log alone. -/
theorem LogAligned.effect (hdistinct : DistinctPositions) {op : Op} {db db' : Db} (he : Effect op db db')
    (h : LogAligned db) : LogAligned db' := by
  cases he with
  | commit event events leaf nodes _ hins hhex hnodes => exact h.commit hdistinct hins hhex hnodes
  | _ => exact ⟨h.indexes, h.hashed, h.leaves, h.positions, h.full⟩

/-! ## Along every run -/

/-- The database with its log consistent, as a reader of the tables sees it. -/
structure LogConsistent (db : Db) : Prop where
  /-- The indexes are exactly those below the number of events, in order. -/
  indexes : db.events.rows.map (·.logIndex) = List.range db.events.rows.length
  /-- Every event carries its own hash. -/
  hashed : ∀ event ∈ db.events.rows, event.eventHash = computeEventHash event
  /-- The leaf at a position is the hash of the event there; past the last
  event there is none. -/
  leaves : ∀ i, (db.auditHashes.find? (Externals.storedHashIndex 0 i)).map
    (fun row => bytesToHex row.hash.bytes) = db.events.rows[i]?.map (·.eventHash)

/-- In an aligned log the event at a position has that index. -/
theorem LogAligned.logIndex_eq {db : Db} (h : LogAligned db) {i : Nat} {event : EventRecord}
    (hi : db.events.rows[i]? = some event) : event.logIndex = i := by
  have hmap : (db.events.rows.map (·.logIndex))[i]? = some event.logIndex := by
    rw [List.getElem?_map, hi]
    rfl
  rw [h.indexes, List.getElem?_range (List.getElem?_eq_some_iff.mp hi).1] at hmap
  exact (Option.some.inj hmap).symm

/-- An aligned log is consistent: a leaf past the last event would be a stored node that
the log has no room for. -/
theorem LogAligned.consistent (hdistinct : DistinctPositions) {db : Db} (h : LogAligned db) :
    LogConsistent db := by
  refine ⟨h.indexes, h.hashed, ?_⟩
  intro i
  cases hi : db.events.rows[i]? with
  | some event =>
    obtain ⟨row, hrow, hhash⟩ := h.leaves event (List.mem_of_getElem? hi)
    rw [h.logIndex_eq hi] at hrow
    rw [hrow, Option.map_some, hhash, Option.map_some]
  | none =>
    have hge : db.events.rows.length ≤ i := List.getElem?_eq_none_iff.mp hi
    cases hfind : db.auditHashes.find? (Externals.storedHashIndex 0 i) with
    | none => rfl
    | some row =>
      obtain ⟨level, n, hidx, hle⟩ := h.positions _ (by rw [hfind]; rfl)
      obtain ⟨rfl, rfl⟩ := hdistinct _ _ _ _ hidx
      omega

/-- No effect takes an event away or moves it. -/
theorem Effect.events_extend {op : Op} {db db' : Db} (h : Effect op db db') :
    db.events.rows <+: db'.events.rows := by
  cases h with
  | commit event events leaf nodes _ hins =>
    rw [(Table.insert?_eq_some hins).2]
    exact List.prefix_append _ _
  | _ => exact List.prefix_rfl

/-- An operation only appends to the log. -/
theorem exec_events_extend (op : Op) (db : Db) :
    db.events.rows <+: (exec op db).2.events.rows :=
  (exec_effects op db).relate (R := fun a b => a.events.rows <+: b.events.rows)
    (fun _ => List.prefix_rfl) List.IsPrefix.trans Effect.events_extend

omit [Externals] in
/-- A start leaves the log as it is. -/
theorem bootstrap_events {db db' : Db} (h : StateStore.bootstrap db = some db') :
    db'.events = db.events := by
  unfold StateStore.bootstrap at h
  split at h
  · cases h
    rfl
  · cases h

/-- The log of an earlier state is the beginning of every later one. -/
theorem KernelRun.events_extend {tr : List KernelTransition} {pool : KernelPool}
    (h : KernelRun tr pool) {t : KernelTransition} (ht : t ∈ tr) :
    t.before.store.events.rows <+: pool.store.events.rows := by
  refine Run.store_monotone (Q := fun a b => a.events.rows <+: b.events.rows)
    (fun _ => List.prefix_rfl) List.IsPrefix.trans exec_events_extend ?_ h ht
  intro db db' hboot
  rw [bootstrap_events hboot]

/-- In every state of every run the log and the Merkle store agree, and every event of
an earlier state is where it was. Requests may run side by side, fail, and be cut off by
a restart. -/
theorem run_logConsistent (hdistinct : DistinctPositions) {tr : List KernelTransition}
    {pool : KernelPool} (h : KernelRun tr pool) :
    LogConsistent pool.store ∧
      ∀ t ∈ tr, ∀ (i : Nat) (event : EventRecord), t.before.store.events.rows[i]? = some event →
        event.logIndex = i ∧ pool.store.events.rows[i]? = some event := by
  have haligned : LogAligned pool.store :=
    KernelRun.keep logAligned_genesis (LogAligned.effect hdistinct) h
  refine ⟨haligned.consistent hdistinct, ?_⟩
  intro t ht i event hi
  have hlater : pool.store.events.rows[i]? = some event := by
    obtain ⟨rest, hrest⟩ := KernelRun.events_extend h ht
    rw [← hrest, List.getElem?_append_left (List.getElem?_eq_some_iff.mp hi).1, hi]
  exact ⟨haligned.logIndex_eq hlater, hlater⟩

omit [Externals] in
/-- The tree package gives the nodes of a tree positions of their own. -/
theorem distinctPositions_reference : letI := reference; DistinctPositions := by
  intro level n level' n' h
  exact Merkle.storedHashIndex_injective h

omit [Externals] in
/-- The log after an agent's first three events, each with its leaf at the index that it
has. -/
theorem logConsistent_agentAtWork :
    letI := reference
    (kernelPlayed agentAtWork).pool.store.events.rows.length = 3 ∧
      LogConsistent (kernelPlayed agentAtWork).pool.store := by
  refine ⟨?_, (@run_logConsistent reference distinctPositions_reference _ _
    (kernelRun_played agentAtWork)).1⟩
  rw [kernelPlayed_eq]
  decide +kernel

end PunkgoKernel
