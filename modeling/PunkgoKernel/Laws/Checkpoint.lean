import PunkgoKernel.Laws.Contract
import PunkgoKernel.Lib.Merkle
import PunkgoKernel.Runtime.Evaluation

/-!
# Checkpoints

A checkpoint is made when somebody asks for one: the events are counted, the
checkpoints are looked at, the hashes are read, the row is written, each in a
step of its own. What makes this safe is that the Merkle store only grows: it
holds the hash of every complete subtree of the log (`HoldsSubtrees`), and those
a smaller tree is made of stay as they are.

Taken from the transparency-log package: its storage positions are distinct
(`DistinctPositions`), and its `tree_hash` finds the tree hash from the hashes of
the complete subtrees (`ComputesTreeHash`).
-/

namespace PunkgoKernel

open Relational (Table key)
open Resumption

variable [Externals]

/-! ## The tree of the log -/

/-- The hash of the empty tree. -/
def emptyHash : Hash := Externals.sha256 ByteArray.empty

/-- The tree hash of a list of leaves, by the package's inner nodes. -/
def treeRoot (leaves : List Hash) : Hash := Merkle.root Externals.nodeHash emptyHash leaves

/-- The reader has the hash of every complete subtree, at its position. -/
def HoldsSubtrees (leaves : List Hash) (read : Nat → Option Hash) : Prop :=
  ∀ level n, (n + 1) * 2 ^ level ≤ leaves.length →
    read (Externals.storedHashIndex level n) =
      some (Merkle.subtree Externals.nodeHash emptyHash leaves level n)

/-- The package computes the tree hash from the hashes of the complete
subtrees. -/
def ComputesTreeHash : Prop :=
  ∀ leaves read, leaves ≠ [] → HoldsSubtrees leaves read →
    Externals.treeHash leaves.length read = .ok (treeRoot leaves)

/-- The leaf of an event. -/
def EventRecord.leaf (event : EventRecord) : Hash := Externals.sha256 (eventHashInput event)

/-- The leaves of the log, in order. -/
def Db.leaves (db : Db) : List Hash := db.events.rows.map EventRecord.leaf

/-- A tree is made of the subtrees of any larger one. -/
theorem HoldsSubtrees.take {leaves : List Hash} {read : Nat → Option Hash}
    (h : HoldsSubtrees leaves read) {n : Nat} (hn : n ≤ leaves.length) :
    HoldsSubtrees (leaves.take n) read := by
  intro level k hk
  have hlen : (leaves.take n).length = n := by
    rw [List.length_take]
    omega
  have hwhole := h level k (by omega)
  have hsame := Merkle.subtree_append Externals.nodeHash emptyHash hk (leaves.drop n)
  rw [List.take_append_drop] at hsame
  rw [hwhole, hsame]

/-! ## A new leaf -/

omit [Externals] in
/-- Of the rows stored under one index the last one counts. -/
theorem find?_storeHashes_of_mem {hashes : Table AuditHash} {toStore : List AuditHash} {idx : Nat}
    (h : ∃ r ∈ toStore, r.hashIndex = idx) :
    ∃ r ∈ toStore, r.hashIndex = idx ∧ (storeHashes hashes toStore).find? idx = some r := by
  induction toStore generalizing hashes with
  | nil =>
    obtain ⟨r, hr, -⟩ := h
    cases hr
  | cons r rest ih =>
    by_cases hrest : ∃ r' ∈ rest, r'.hashIndex = idx
    · obtain ⟨r', hr', hidx, hfind⟩ := @ih (hashes.upsert r) hrest
      exact ⟨r', List.mem_cons_of_mem _ hr', hidx, hfind⟩
    · have hidx : r.hashIndex = idx := by
        obtain ⟨r', hr', hidx⟩ := h
        rcases List.mem_cons.mp hr' with rfl | hr'
        · exact hidx
        · exact absurd ⟨r', hr', hidx⟩ hrest
      have hnone : ∀ r' ∈ rest, r'.hashIndex ≠ idx := fun r' hr' heq => hrest ⟨r', hr', heq⟩
      refine ⟨r, List.mem_cons_self, hidx, ?_⟩
      show (storeHashes (hashes.upsert r) rest).find? idx = some r
      rw [find?_storeHashes_of_ne hnone, Table.find?_upsert, key_auditHash, if_pos hidx]

/-- Each node a leaf completes has the hash of its subtree. -/
theorem completedNodes_hashed {hashes : Table AuditHash} {leaves : List Hash} {leaf : Hash}
    (hstored : HoldsSubtrees leaves fun i => (hashes.find? i).map (·.hash)) {fuel level : Nat}
    {current : Hash} {nodes : List AuditHash}
    (h : completedNodes hashes leaves.length fuel level current = .ok nodes)
    (hlow : (leaves.length >>> level + 1) * 2 ^ level = leaves.length + 1)
    (hcurrent : current = Merkle.subtree Externals.nodeHash emptyHash (leaves ++ [leaf]) level
      (leaves.length >>> level)) :
    ∀ node ∈ nodes, ∃ j, level < j ∧
      node.hashIndex = Externals.storedHashIndex j (leaves.length >>> j) ∧
      node.hash = Merkle.subtree Externals.nodeHash emptyHash (leaves ++ [leaf]) j
        (leaves.length >>> j) := by
  induction fuel generalizing level current nodes with
  | zero =>
    cases h
    simp
  | succ fuel ih =>
    unfold completedNodes at h
    split at h
    swap
    · cases h
      simp
    next hodd =>
    simp only [bind, Except.bind] at h
    split at h
    · cases h
    next left hleft =>
    split at h
    · cases h
    next rest hrest =>
    cases h
    have hhalf : 2 * (leaves.length >>> level / 2 + 1) = leaves.length >>> level + 1 := by omega
    have hlow' : (leaves.length >>> (level + 1) + 1) * 2 ^ (level + 1) = leaves.length + 1 := by
      calc (leaves.length >>> (level + 1) + 1) * 2 ^ (level + 1)
          = (2 * (leaves.length >>> level / 2 + 1)) * 2 ^ level := by
            rw [shiftRight_succ_eq, pow_succ]
            ring
        _ = leaves.length + 1 := by rw [hhalf, hlow]
    -- the left sibling was complete before
    have hsibling : left = Merkle.subtree Externals.nodeHash emptyHash (leaves ++ [leaf]) level
        (leaves.length >>> level - 1) := by
      have hbefore : (leaves.length >>> level - 1 + 1) * 2 ^ level ≤ leaves.length := by
        have hpos := Nat.two_pow_pos level
        have hmul : (leaves.length >>> level + 1) * 2 ^ level =
            leaves.length >>> level * 2 ^ level + 2 ^ level := by ring
        have hsome : 1 ≤ leaves.length >>> level := by
          refine Nat.pos_of_ne_zero ?_
          intro hzero
          rw [hzero] at hodd
          cases hodd
        rw [Nat.sub_add_cancel hsome]
        omega
      have hfound : (hashes.find? (Externals.storedHashIndex level (leaves.length >>> level - 1))).map
          (·.hash) = some (Merkle.subtree Externals.nodeHash emptyHash leaves level
            (leaves.length >>> level - 1)) := hstored level _ hbefore
      rw [Merkle.subtree_append Externals.nodeHash emptyHash hbefore [leaf]]
      unfold readHashInTx at hleft
      split at hleft
      · next row hrow =>
        cases hleft
        rw [hrow] at hfound
        exact Option.some.inj hfound
      · cases hleft
    have hparent : Externals.nodeHash left current = Merkle.subtree Externals.nodeHash emptyHash
        (leaves ++ [leaf]) (level + 1) (leaves.length >>> (level + 1)) := by
      have hle : (leaves.length >>> (level + 1) + 1) * 2 ^ (level + 1) ≤ (leaves ++ [leaf]).length := by
        rw [List.length_append, List.length_singleton, hlow']
      rw [Merkle.subtree_succ Externals.nodeHash emptyHash hle, hsibling, hcurrent]
      congr 2
      · rw [shiftRight_succ_eq]
        omega
      · rw [shiftRight_succ_eq]
        omega
    intro node hnode
    rcases List.mem_cons.mp hnode with rfl | hnode
    · refine ⟨level + 1, by omega, ?_, hparent⟩
      rw [shiftRight_succ_eq]
    · obtain ⟨j, hj, hidx, hhash⟩ := ih hrest hlow' hparent node hnode
      exact ⟨j, by omega, hidx, hhash⟩

/-- Whatever is stored for a leaf is a subtree that ends with it. -/
theorem stored_subtrees (hdistinct : DistinctPositions) {hashes : Table AuditHash}
    {leaves : List Hash} {leaf : Hash} {nodes : List AuditHash}
    (hstored : HoldsSubtrees leaves fun i => (hashes.find? i).map (·.hash))
    (hnodes : completedNodes hashes leaves.length leaves.length 0 leaf = .ok nodes) :
    ∀ r ∈ (⟨Externals.storedHashIndex 0 leaves.length, leaf⟩ : AuditHash) :: nodes, ∃ j,
      r.hashIndex = Externals.storedHashIndex j (leaves.length >>> j) ∧
      (leaves.length >>> j + 1) * 2 ^ j = leaves.length + 1 ∧
      r.hash = Merkle.subtree Externals.nodeHash emptyHash (leaves ++ [leaf]) j
        (leaves.length >>> j) := by
  have hleaf : leaf = Merkle.subtree Externals.nodeHash emptyHash (leaves ++ [leaf]) 0
      (leaves.length >>> 0) := by
    have hone : Merkle.leavesUnder (leaves ++ [leaf]) 0 (leaves.length >>> 0) = [leaf] := by
      simp [Merkle.leavesUnder]
    unfold Merkle.subtree
    rw [hone, Merkle.root_singleton]
  have hsound := completedNodes_sound hnodes (by simp)
  have hhashed := completedNodes_hashed hstored hnodes (by simp) hleaf
  intro r hr
  rcases List.mem_cons.mp hr with rfl | hr
  · exact ⟨0, by simp, by simp, hleaf⟩
  · obtain ⟨j, -, hidx, hend⟩ := hsound r hr
    obtain ⟨j', -, hidx', hhash⟩ := hhashed r hr
    obtain ⟨rfl, -⟩ := hdistinct _ _ _ _ (hidx.symm.trans hidx')
    exact ⟨j, hidx, hend, hhash⟩

/-- A leaf with the nodes it completes makes the subtrees of the longer log. -/
theorem HoldsSubtrees.append (hdistinct : DistinctPositions) {hashes : Table AuditHash}
    {leaves : List Hash} {leaf : Hash} {nodes : List AuditHash}
    (hstored : HoldsSubtrees leaves fun i => (hashes.find? i).map (·.hash))
    (hnodes : completedNodes hashes leaves.length leaves.length 0 leaf = .ok nodes) :
    HoldsSubtrees (leaves ++ [leaf]) fun i =>
      ((storeHashes hashes (⟨Externals.storedHashIndex 0 leaves.length, leaf⟩ :: nodes)).find? i).map
        (·.hash) := by
  have hall := stored_subtrees hdistinct hstored hnodes
  intro level n hle
  rw [List.length_append, List.length_singleton] at hle
  simp only
  rcases Nat.lt_or_ge leaves.length ((n + 1) * 2 ^ level) with hnew | hold
  · have hend : (n + 1) * 2 ^ level = leaves.length + 1 := by omega
    have hn : n = leaves.length >>> level := by
      rw [Nat.shiftRight_eq_div_pow]
      have hpos : 0 < 2 ^ level := by positivity
      have hsplit : leaves.length = 2 ^ level * n + (2 ^ level - 1) := by
        have hring : (n + 1) * 2 ^ level = 2 ^ level * n + 2 ^ level := by ring
        omega
      rw [hsplit, Nat.mul_add_div hpos, Nat.div_eq_of_lt (by omega), Nat.add_zero]
    have hstores : ∃ r ∈ (⟨Externals.storedHashIndex 0 leaves.length, leaf⟩ : AuditHash) :: nodes,
        r.hashIndex = Externals.storedHashIndex level n := by
      rcases Nat.eq_zero_or_pos level with rfl | hlevel
      · exact ⟨_, List.mem_cons_self, by rw [hn]; rfl⟩
      · obtain ⟨node, hnode, hidx⟩ := completedNodes_complete hnodes (by simp) hlevel
          ⟨n + 1, by rw [← hend, mul_comm]⟩
        exact ⟨node, List.mem_cons_of_mem _ hnode, by rw [hidx, ← hn]⟩
    obtain ⟨r, hr, hidx, hfind⟩ := find?_storeHashes_of_mem hstores
    obtain ⟨j, hj, -, hhash⟩ := hall r hr
    obtain ⟨rfl, -⟩ := hdistinct _ _ _ _ (hidx.symm.trans hj)
    rw [hfind, Option.map_some, hhash, ← hn]
  · have hkept : ∀ r ∈ (⟨Externals.storedHashIndex 0 leaves.length, leaf⟩ : AuditHash) :: nodes,
        r.hashIndex ≠ Externals.storedHashIndex level n := by
      intro r hr heq
      obtain ⟨j, hj, hend, -⟩ := hall r hr
      obtain ⟨rfl, rfl⟩ := hdistinct _ _ _ _ (heq.symm.trans hj)
      omega
    rw [find?_storeHashes_of_ne hkept, Merkle.subtree_append Externals.nodeHash emptyHash hold [leaf]]
    exact hstored level n hold

/-! ## What a checkpoint says -/

/-- The checkpoint is of a beginning of the log, and its root hash is the tree
hash of the event hashes there. -/
def CheckpointSound (events : List EventRecord) (cp : AuditCheckpoint) : Prop :=
  1 ≤ cp.treeSize ∧ cp.treeSize ≤ events.length ∧
    ∃ leaves : List Hash,
      leaves.map (fun leaf => bytesToHex leaf.bytes) =
        (events.take cp.treeSize).map (·.eventHash) ∧
      cp.rootHash = bytesToHex (treeRoot leaves).bytes

/-- The Merkle store holds the subtrees of the log, and every checkpoint is
sound. -/
structure AuditSound (db : Db) : Prop where
  aligned : LogAligned db
  nodes : HoldsSubtrees db.leaves (AuditLog.reader db)
  checkpoints : ∀ cp ∈ db.auditCheckpoints.rows, CheckpointSound db.events.rows cp

/-- A checkpoint that is sound stays so while the log is only appended to. -/
theorem CheckpointSound.later {events events' : List EventRecord} {cp : AuditCheckpoint}
    (hbegins : events <+: events') (h : CheckpointSound events cp) : CheckpointSound events' cp := by
  obtain ⟨hpos, hle, leaves, hleaves, hroot⟩ := h
  obtain ⟨more, rfl⟩ := hbegins
  refine ⟨hpos, ?_, leaves, ?_, hroot⟩
  · rw [List.length_append]
    omega
  · rw [hleaves, List.take_append_of_le_length hle]

/-- On the first start there is no checkpoint. -/
theorem auditSound_genesis : AuditSound StateStore.genesis where
  aligned := logAligned_genesis
  nodes := by
    intro level n hle
    have hpos : 0 < (n + 1) * 2 ^ level := by positivity
    have hzero : StateStore.genesis.leaves.length = 0 := rfl
    omega
  checkpoints := by
    intro cp hmem
    cases hmem

/-- What the tree hash of a beginning of the log is, as the store gives it. -/
theorem AuditSound.treeHash (hcomputes : ComputesTreeHash) {db : Db} (h : AuditSound db) {n : Nat}
    (hpos : 0 < n) (hle : n ≤ db.events.rows.length) :
    Externals.treeHash n (AuditLog.reader db) = .ok (treeRoot (db.leaves.take n)) := by
  have hlen : db.leaves.length = db.events.rows.length := by
    unfold Db.leaves
    rw [List.length_map]
  have htake : (db.leaves.take n).length = n := by
    rw [List.length_take]
    omega
  have hne : db.leaves.take n ≠ [] := by
    intro hnil
    rw [hnil] at htake
    exact absurd htake (by simp; omega)
  have hroot := hcomputes _ _ hne (h.nodes.take (by omega))
  rw [htake] at hroot
  exact hroot

/-- A checkpoint with that tree hash is sound. -/
theorem AuditSound.checkpoint (hcomputes : ComputesTreeHash) {db : Db} (h : AuditSound db)
    {cp : AuditCheckpoint} {root : Hash} (hpos : 0 < cp.treeSize)
    (hle : cp.treeSize ≤ db.events.rows.length)
    (hroot : Externals.treeHash cp.treeSize (AuditLog.reader db) = .ok root)
    (htext : cp.rootHash = bytesToHex root.bytes) : CheckpointSound db.events.rows cp := by
  rw [h.treeHash hcomputes hpos hle] at hroot
  cases hroot
  refine ⟨hpos, hle, _, ?_, htext⟩
  unfold Db.leaves
  rw [← List.map_take, List.map_map]
  refine List.map_congr_left ?_
  intro event hmem
  have hhashed := h.aligned.hashed event (List.mem_of_mem_take hmem)
  rw [hhashed]
  rfl

/-- Every effect keeps the audit log sound, if a checkpoint it writes is of
events there are. -/
theorem AuditSound.effect (hdistinct : DistinctPositions) (hcomputes : ComputesTreeHash) {op : Op}
    {db db' : Db} (he : Effect op db db')
    (hsize : ∀ n, op.Checkpoints n → 0 < n ∧ n ≤ db.events.rows.length) (h : AuditSound db) :
    AuditSound db' := by
  have hbegins := he.events_extend
  have haligned := h.aligned.effect hdistinct he
  cases he with
  | commit event events leaf nodes _ hins hhex hnodes =>
    obtain ⟨-, hrows⟩ := Table.insert?_eq_some hins
    rw [h.aligned.nextIdx_eq] at hrows hhex hnodes ⊢
    have hlen : db.leaves.length = db.events.rows.length := by
      unfold Db.leaves
      rw [List.length_map]
    have hleaf : leaf = (event.placed db.events.rows.length).leaf := by
      have hread := hexToHash_bytesToHex (event.placed db.events.rows.length).leaf
      have htext : (event.placed db.events.rows.length).eventHash =
          bytesToHex (event.placed db.events.rows.length).leaf.bytes := rfl
      rw [htext, hread] at hhex
      cases hhex
      rfl
    refine ⟨?_, ?_, ?_⟩
    · rw [h.aligned.nextIdx_eq] at haligned
      exact haligned
    · have hleaves : events.rows.map EventRecord.leaf = db.leaves ++ [leaf] := by
        rw [hrows, List.map_append, hleaf]
        rfl
      rw [← hlen] at hnodes ⊢
      have happended := h.nodes.append hdistinct hnodes
      show HoldsSubtrees (events.rows.map EventRecord.leaf) _
      rw [hleaves]
      exact happended
    · intro cp hmem
      exact (h.checkpoints cp hmem).later hbegins
  | checkpoint cp root hop hroot htext =>
    obtain ⟨hpos, hle⟩ := hsize _ hop
    refine ⟨haligned, h.nodes, ?_⟩
    intro cp' hmem
    have hmem' : cp' ∈ (db.auditCheckpoints.upsert cp).rows := hmem
    have hfind := Table.find?_upsert db.auditCheckpoints cp cp'.treeSize
    have hstored : (db.auditCheckpoints.upsert cp).find? cp'.treeSize = some cp' :=
      Table.find?_of_mem hmem'
    rw [hstored] at hfind
    split at hfind
    · cases hfind
      exact h.checkpoint hcomputes hpos hle hroot htext
    · exact h.checkpoints cp' (Table.mem_of_find? hfind.symm)
  | _ => exact ⟨haligned, h.nodes, h.checkpoints⟩

/-- What operations do keeps the audit log sound, if the checkpoints they make are of
trees within the log. -/
theorem AuditSound.effects (hdistinct : DistinctPositions) (hcomputes : ComputesTreeHash) {op : Op}
    {db db' : Db} (he : Effects op db db')
    (hsize : ∀ n, op.Checkpoints n → 0 < n ∧ n ≤ db.events.rows.length) (h : AuditSound db) :
    AuditSound db' := by
  have hboth : AuditSound db' ∧ db.events.rows <+: db'.events.rows := by
    refine he.keep (P := fun b => AuditSound b ∧ db.events.rows <+: b.events.rows) ?_
      ⟨h, List.prefix_rfl⟩
    intro a b hstep ⟨ha, hbegins⟩
    refine ⟨ha.effect hdistinct hcomputes hstep ?_, hbegins.trans hstep.events_extend⟩
    intro n hop
    obtain ⟨hpos, hle⟩ := hsize n hop
    exact ⟨hpos, hle.trans hbegins.length_le⟩
  exact hboth.1

/-- A request makes a checkpoint of a size it has seen the log to have. -/
theorem allowed_checkpoints {past : Past} {op : Op} {db : Db} (hknown : ∀ d ∈ past, known db d)
    (hallowed : allowed past op) :
    ∀ n, op.Checkpoints n → 0 < n ∧ n ≤ db.events.rows.length := by
  intro n hop
  cases op with
  | makeCheckpoint size now =>
    obtain rfl : n = size := hop
    obtain ⟨hpos, hcount⟩ := hallowed
    exact ⟨hpos, hknown _ hcount⟩
  | _ => cases hop

/-- In every run the audit log is sound: every checkpoint is the root of the events it
counts. -/
theorem KernelRun.auditSound (hdistinct : DistinctPositions) (hcomputes : ComputesTreeHash)
    {tr : List KernelTransition} {pool : KernelPool} (h : KernelRun tr pool) :
    AuditSound pool.store := by
  refine kernelContract.invariant (P := fun _ pool => AuditSound pool.store) (G := fun _ => True)
    auditSound_genesis ?_ h (fun _ _ _ _ _ => trivial) (fun _ _ => trivial)
  intro tr pool l pool' _ hs hinv hkeeps _ hP
  cases hs with
  | act store before after id op k past =>
    have hme := hkeeps ⟨id, .vis op k, past⟩ (by simp)
    exact AuditSound.effects hdistinct hcomputes (exec_effects op store)
      (allowed_checkpoints hme.known hme.honors.1) hP
  | restart store store' tasks hboot =>
    rw [bootstrap_eq hinv.1 hboot]
    exact hP
  | _ => exact hP

/-! ## What a read of the checkpoint is told -/

omit [Externals] in
/-- The tree size an answer says there is. -/
def floor : Performed KernelSig → Nat
  | ⟨.treeSize, .ok (treeSize : Nat)⟩ => treeSize
  | ⟨.makeCheckpoint treeSize _, .ok _⟩ => treeSize
  | _ => 0

omit [Externals] in
/-- An answer about the checkpoints, to a request that began when there were
`n` events. -/
def Told (n : Nat) (older : Past) : Performed KernelSig → Prop
  | ⟨.countEvents, .ok (eventCount : Nat)⟩ => n ≤ eventCount
  | ⟨.latestCheckpoint, .ok (cp : AuditCheckpoint)⟩ => ∀ d ∈ older, floor d ≤ cp.treeSize
  | ⟨.latestCheckpoint, .error e⟩ => DatabaseFailure e ∨ ∀ d ∈ older, floor d = 0
  | ⟨.countEvents, .error e⟩ => DatabaseFailure e
  | ⟨.treeSize, .error e⟩ => DatabaseFailure e
  | ⟨.makeCheckpoint _ _, .error e⟩ => DatabaseFailure e
  | _ => True

omit [Externals] in
/-- Every answer about the checkpoints fits a request that began when there were `n`
events. -/
def AllTold (n : Nat) : Past → Prop
  | [] => True
  | d :: older => Told n older d ∧ AllTold n older

omit [Externals] in
/-- The answer of a read with this past: a checkpoint of at least `n` events, unless the
database denied one of the read's own operations, which is then what it answers. -/
def UpToDate (n : Nat) (past : Past) (answer : KernelResult Outcome) : Prop :=
  (∃ cp, answer = .ok (.checkpoint cp) ∧ n ≤ cp.treeSize) ∨
    ∃ op e, (⟨op, .error e⟩ : Performed KernelSig) ∈ past ∧ DatabaseFailure e ∧ answer = .error e

/-- No answer tells of a larger tree than the store has. -/
theorem floor_le {db : Db} {d : Performed KernelSig} (h : known db d) :
    floor d ≤ AuditLog.treeSize db := by
  unfold floor
  split
  · exact h
  · exact h
  · exact Nat.zero_le _

omit [Externals] in
/-- A refusal of the store is a failure of the database, which is an answer that
fits. -/
theorem told_refused {n : Nat} {older : Past} {op : Op} {x : KernelResult (Val op)}
    (h : refuses op x) : Told n older ⟨op, x⟩ := by
  cases op with
  | countEvents | treeSize | makeCheckpoint =>
    obtain ⟨e, he, rfl⟩ := h
    exact he
  | latestCheckpoint =>
    obtain ⟨e, he, rfl⟩ := h
    exact .inl he
  | _ => trivial

/-- What the database answers is so. -/
theorem AuditSound.told (hcomputes : ComputesTreeHash) {db : Db} (h : AuditSound db) {past : Past}
    {op : Op} {n : Nat} (hn : n ≤ db.events.rows.length) (hknown : ∀ d ∈ past, known db d)
    (hallowed : allowed past op) : Told n past ⟨op, (exec op db).1⟩ := by
  cases op with
  | countEvents => exact hn
  | latestCheckpoint =>
    have hfloor : ∀ d ∈ past, floor d ≤ AuditLog.treeSize db := fun d hd => floor_le (hknown d hd)
    have htx : transaction .latestCheckpoint db =
        auditTx ((AuditLog.latestCheckpoint db).map fun cp => (cp, db)) := rfl
    unfold AuditLog.treeSize at hfloor
    unfold AuditLog.latestCheckpoint at htx
    unfold exec
    cases hlatest : AuditLog.latest? db with
    | none =>
      rw [hlatest] at hfloor htx
      rw [htx]
      exact .inr fun d hd => Nat.le_zero.mp (hfloor d hd)
    | some cp =>
      rw [hlatest] at hfloor htx
      rw [htx]
      exact hfloor
  | makeCheckpoint size now =>
    obtain ⟨hpos, hle⟩ := allowed_checkpoints hknown hallowed size rfl
    have hroot := h.treeHash hcomputes hpos hle
    have htx : transaction (.makeCheckpoint size now) db =
        auditTx (AuditLog.makeCheckpoint size now db) := rfl
    unfold AuditLog.makeCheckpoint at htx
    rw [hroot] at htx
    unfold exec
    rw [htx]
    trivial
  | _ => trivial

/-- The answer of an `audit_checkpoint` read fits what it was told. -/
def Answered (past : Past) (answer : KernelResult Outcome) : Prop :=
  again answer = none ∧ ∀ n, 1 ≤ n → AllTold n past → UpToDate n past answer

/-- The last step of the read, once some answer reached the number of events. -/
theorem latestCheckpoint_answers {past : Past}
    (hfloor : ∀ n, 1 ≤ n → AllTold n past → ∃ d ∈ past, n ≤ floor d) :
    Attempt.Honors (fun _ _ => True) (fun _ _ => True) Answered
      (do
        let cp ← call .latestCheckpoint
        pure (.checkpoint cp)) past := by
  refine ⟨trivial, ?_⟩
  rintro (e | cp) -
  · refine ⟨rfl, ?_⟩
    rintro n hn ⟨hlatest, htold⟩
    obtain ⟨d, hd, hle⟩ := hfloor n hn htold
    rcases hlatest with hdenied | hzero
    · exact .inr ⟨.latestCheckpoint, e, List.mem_cons_self, hdenied, rfl⟩
    · have hnone := hzero d hd
      omega
  · refine ⟨rfl, ?_⟩
    rintro n hn ⟨hlatest, htold⟩
    obtain ⟨d, hd, hle⟩ := hfloor n hn htold
    exact .inl ⟨cp, rfl, hle.trans (hlatest d hd)⟩

/-- What an `audit_checkpoint` read answers fits what it was told. -/
theorem auditCheckpoint_answers (now : Nat) :
    Attempt.Honors (fun _ _ => True) (fun _ _ => True) Answered (auditCheckpoint now) [] := by
  refine ⟨trivial, ?_⟩
  rintro (e | (eventCount : Nat)) -
  · exact ⟨rfl, fun n hn htold => .inr ⟨.countEvents, e, List.mem_cons_self, htold.1, rfl⟩⟩
  show Attempt.Honors _ _ _ (ensureCheckpoint eventCount now >>= _) _
  unfold ensureCheckpoint
  split
  · -- no events: the read did not begin when there were any
    next hzero =>
    refine latestCheckpoint_answers ?_
    intro n hn htold
    have hle : n ≤ eventCount := htold.1
    omega
  · refine ⟨trivial, ?_⟩
    rintro (e | (current : Nat)) -
    · exact ⟨rfl, fun n hn htold => .inr ⟨.treeSize, e, List.mem_cons_self, htold.1, rfl⟩⟩
    show Attempt.Honors _ _ _ ((if eventCount ≤ current then _ else _) >>= _) _
    split
    · next hcurrent =>
      refine latestCheckpoint_answers ?_
      intro n hn htold
      have hle : n ≤ eventCount := htold.2.1
      exact ⟨_, List.mem_cons_self, hle.trans hcurrent⟩
    · refine ⟨trivial, ?_⟩
      rintro (e | made) -
      · exact ⟨rfl, fun n hn htold =>
          .inr ⟨.makeCheckpoint eventCount now, e, List.mem_cons_self, htold.1, rfl⟩⟩
      refine latestCheckpoint_answers ?_
      intro n hn htold
      have hle : n ≤ eventCount := htold.2.2.1
      exact ⟨_, List.mem_cons_self, hle⟩

/-- What every request is told of the checkpoints, and how an
`audit_checkpoint` read answers. -/
def CheckpointRead (r : Request) (s : Db) (task : Task KernelSig (KernelResult Outcome)) : Prop :=
  AllTold s.events.rows.length task.past ∧
    ∀ now, r = .auditCheckpoint now →
      Prog.Honors (fun _ _ => True) (fun _ _ => True) Answered task.prog task.past

/-- In every run each request is told of checkpoints what fits the log it began with,
and an `audit_checkpoint` read is at a point from which it answers by that. -/
theorem KernelRun.checkpointRead (hdistinct : DistinctPositions) (hcomputes : ComputesTreeHash)
    {tr : List KernelTransition} {pool : KernelPool} (h : KernelRun tr pool) :
    ∀ task ∈ pool.tasks, ∀ r s, Spawned task.id r s tr → CheckpointRead r s task := by
  refine kernelContract.each (K := CheckpointRead) ?_ ?_ ?_ ?_ h (fun _ _ _ _ _ => trivial)
  · intro id r s
    refine ⟨trivial, ?_⟩
    rintro now rfl
    exact auditCheckpoint_answers now
  · intro tr pool r s id op k past hr hsp hinv hme ⟨htold, hanswers⟩
    have hsound := KernelRun.auditSound hdistinct hcomputes hr
    obtain ⟨t, ht, rfl, -⟩ := hsp.mem
    have hbegan := (KernelRun.later hr t ht).events.length_le
    exact ⟨⟨hsound.told hcomputes hbegan hme.known hme.honors.1, htold⟩,
      fun now hr => (hanswers now hr).2 _ trivial⟩
  · intro r s id op k past x hx _ ⟨htold, hanswers⟩
    exact ⟨⟨told_refused hx, htold⟩, fun now hr => (hanswers now hr).2 _ trivial⟩
  · intro r s id a p past hp ⟨htold, hanswers⟩
    refine ⟨htold, fun now hr => ?_⟩
    have hends : again a = none := (hanswers now hr).1
    have hp' : again a = some p := hp
    rw [hends] at hp'
    cases hp'

/-! ## Checkpoints of a run -/

/-- Two sound checkpoints of one size say the same. -/
theorem CheckpointSound.unique {events : List EventRecord} {cp cp' : AuditCheckpoint}
    (h : CheckpointSound events cp) (h' : CheckpointSound events cp')
    (hsize : cp.treeSize = cp'.treeSize) : cp.rootHash = cp'.rootHash := by
  obtain ⟨-, -, leaves, hleaves, hroot⟩ := h
  obtain ⟨-, -, leaves', hleaves', hroot'⟩ := h'
  have hinj : Function.Injective fun leaf : Hash => bytesToHex leaf.bytes := by
    intro a b hab
    have hread := hexToHash_bytesToHex a
    have hsame : bytesToHex a.bytes = bytesToHex b.bytes := hab
    rw [hsame, hexToHash_bytesToHex b] at hread
    cases hread
    rfl
  have hsame : leaves = leaves' := by
    refine hinj.list_map ?_
    rw [hleaves, hleaves', hsize]
  rw [hroot, hroot', hsame]

/-- Whatever commits and reads run in between: every stored checkpoint is of a
beginning of the log and has its tree hash, a size keeps the root hash it once
had, and a read of the checkpoint that began when there were events answers with
a checkpoint of at least these, unless the database denied it an operation. Of the
transparency-log package it takes that stored hashes do not share a position, and
that a tree hash is computed from the hashes of the complete subtrees. -/
theorem run_checkpoints (hdistinct : DistinctPositions) (hcomputes : ComputesTreeHash)
    {tr : List KernelTransition} {pool : KernelPool} (h : KernelRun tr pool) :
    (∀ cp ∈ pool.store.auditCheckpoints.rows, CheckpointSound pool.store.events.rows cp) ∧
      (∀ t ∈ tr, ∀ cp ∈ t.before.store.auditCheckpoints.rows,
        ∀ cp' ∈ pool.store.auditCheckpoints.rows,
          cp.treeSize = cp'.treeSize → cp.rootHash = cp'.rootHash) ∧
      ∀ newer t older id now s answer, tr = newer ++ t :: older → t.label = .finish id answer →
        Spawned id (.auditCheckpoint now) s older → 1 ≤ s.events.rows.length →
        ∃ past, Tracked older id past ∧ UpToDate s.events.rows.length past answer := by
  have hsound := KernelRun.auditSound hdistinct hcomputes h
  refine ⟨hsound.checkpoints, ?_, ?_⟩
  · intro t ht cp hcp cp' hcp' hsize
    obtain ⟨newer, older, rfl⟩ := List.append_of_mem ht
    have hearlier := KernelRun.auditSound hdistinct hcomputes (Run.upTo h).1
    have hbegins := (KernelRun.later h t ht).events
    exact ((hearlier.checkpoints cp hcp).later hbegins).unique (hsound.checkpoints cp' hcp') hsize
  · intro newer t older id now s answer htr hlabel hsp hevents
    subst htr
    obtain ⟨hr, pool', hs⟩ := Run.upTo h
    obtain ⟨before, label⟩ := t
    obtain rfl : label = .finish id answer := hlabel
    cases hs with
    | finish store before after id a past hp =>
      obtain ⟨htold, hanswers⟩ := KernelRun.checkpointRead hdistinct hcomputes hr
        ⟨id, .ret answer, past⟩ (by simp) _ s hsp
      exact ⟨past, Run.tracked hr ⟨id, .ret answer, past⟩ (by simp),
        (hanswers now rfl).2 _ hevents htold⟩

omit [Externals] in
/-- The reference packages compute tree hashes as assumed. -/
theorem computesTreeHash_reference : letI := reference; ComputesTreeHash := by
  intro leaves read _ hstored
  have hroot := Merkle.treeHash_eq nodeHashOf (sha256Bytes []) hstored le_rfl
  rw [List.take_length] at hroot
  exact treeHash_reference hroot

/-- A checkpoint is asked for, and counts the events just before another one is
committed. -/
def checkpointAsked : List (Turn Request) :=
  alone 30 (createAgent 0 "agent-1" 500) ++ alone 30 (grantEnvelope 1 "agent-1" 100 []) ++
    [.spawn 1 (.auditCheckpoint 9000), .go 1] ++
    alone 30 (submitAt 2 "agent-1" .mutate "workspace/a" (.obj [])) ++ List.replicate 4 (.go 1)

/-- Whether a beginning of a run ends with the answer to a request, and the request, the
stores it began and ended in and the answer pass a test. -/
def answersWith (test : Request → Db → Db → KernelResult Outcome → Bool) :
    List KernelTransition → Bool
  | t :: older =>
    match t.label with
    | .finish id answer =>
      match spawnedAs id older with
      | some (r, s) => test r s t.before.store answer
      | none => false
    | _ => false
  | [] => false

omit [Externals] in
/-- The test finds the step of a run in which a request was answered. -/
theorem answersWith_sound {test : Request → Db → Db → KernelResult Outcome → Bool}
    {tr : List KernelTransition} (h : tr.tails.any (answersWith test) = true) :
    ∃ newer t older id r s answer, tr = newer ++ t :: older ∧ t.label = .finish id answer ∧
      Spawned id r s older ∧ test r s t.before.store answer = true := by
  obtain ⟨rest, hrest, hanswers⟩ := List.any_eq_true.mp h
  obtain ⟨newer, rfl⟩ := (List.mem_tails _ _).mp hrest
  unfold answersWith at hanswers
  split at hanswers
  · next t older =>
    split at hanswers
    · next id answer hlabel =>
      split at hanswers
      · next r s hsp =>
        exact ⟨newer, t, older, id, r, s, answer, rfl, hlabel, spawnedAs_sound hsp, hanswers⟩
      · cases hanswers
    · cases hanswers
  · cases hanswers

/-- A read of the checkpoint that began with two events in the log and ends with three. -/
def readsMeanwhile (r : Request) (s db : Db) (answer : KernelResult Outcome) : Bool :=
  match r, answer with
  | .auditCheckpoint _, .ok (.checkpoint _) =>
    decide (s.events.rows.length = 2) && decide (db.events.rows.length = 3)
  | _, _ => false

omit [Externals] in
/-- The read answers with a checkpoint of the two events there were when it began, and
the third is in the log by then. -/
theorem checkpoints_checkpointAsked :
    letI := reference
    (kernelPlayed checkpointAsked).pool.store.auditCheckpoints.rows.map (·.treeSize) = [2] ∧
      (∀ cp ∈ (kernelPlayed checkpointAsked).pool.store.auditCheckpoints.rows,
        CheckpointSound (kernelPlayed checkpointAsked).pool.store.events.rows cp) ∧
      ∃ newer t older id cp, (kernelPlayed checkpointAsked).trace = newer ++ t :: older ∧
        t.before.store.events.rows.length = 3 ∧ t.label = .finish id (.ok (.checkpoint cp)) ∧
        2 ≤ cp.treeSize := by
  have hplayed :
      (kernelPlayed checkpointAsked).pool.store.auditCheckpoints.rows.map (·.treeSize) = [2] ∧
        (kernelPlayed checkpointAsked).trace.tails.any (answersWith readsMeanwhile) = true := by
    rw [kernelPlayed_eq]
    decide +kernel
  obtain ⟨hsizes, hanswers⟩ := hplayed
  obtain ⟨newer, t, older, id, r, s, answer, htr, hlabel, hsp, htest⟩ := answersWith_sound hanswers
  obtain ⟨hsound, -, hreads⟩ := @run_checkpoints reference distinctPositions_reference
    computesTreeHash_reference _ _ (kernelRun_played checkpointAsked)
  refine ⟨hsizes, hsound, newer, t, older, id, ?_⟩
  unfold readsMeanwhile at htest
  split at htest
  · next now cp =>
    obtain ⟨htwo, hthree⟩ := (Bool.and_eq_true _ _).mp htest
    have htwo' : s.events.rows.length = 2 := of_decide_eq_true htwo
    obtain ⟨past, -, hanswer⟩ := hreads newer t older id now s _ htr hlabel hsp (by omega)
    refine ⟨cp, htr, of_decide_eq_true hthree, hlabel, ?_⟩
    rw [htwo'] at hanswer
    rcases hanswer with ⟨cp', hsame, hsize⟩ | ⟨op, e, -, -, herr⟩
    · cases hsame
      exact hsize
    · cases herr
  · cases htest

end PunkgoKernel
