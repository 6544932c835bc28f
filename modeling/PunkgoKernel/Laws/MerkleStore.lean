import PunkgoKernel.Laws.Checkpoint

/-!
# The Merkle store

Appending a leaf stores its hash and the hashes of the inner nodes it completes,
which it computes from hashes stored before. What is stored is exactly the
complete subtrees, once each (`Represents`): the nodes a leaf completes end with
it, so none of them was there before, and `INSERT OR REPLACE` only ever inserts
(`appendLeaves_represents`).
-/

namespace PunkgoKernel

open Relational (Table key)

/-! ## Rows that are only inserted -/

/-- Rows with new keys are stored after the rows that are there. -/
theorem rows_storeHashes {hashes : Table AuditHash} {toStore : List AuditHash}
    (hnodup : (toStore.map (·.hashIndex)).Nodup)
    (hnew : ∀ r ∈ toStore, ∀ r' ∈ hashes.rows, r'.hashIndex ≠ r.hashIndex) :
    (storeHashes hashes toStore).rows = hashes.rows ++ toStore := by
  induction toStore generalizing hashes with
  | nil => simp [storeHashes]
  | cons r rest ih =>
    have hfresh : key r ∉ hashes.rows.map key := by
      intro hmem
      obtain ⟨r', hr', hkey⟩ := List.mem_map.mp hmem
      exact hnew r List.mem_cons_self r' hr' hkey
    have hrows : (hashes.upsert r).rows = hashes.rows ++ [r] := by
      unfold Table.upsert
      rw [dif_neg hfresh]
    rw [List.map_cons, List.nodup_cons] at hnodup
    obtain ⟨hhead, htail⟩ := hnodup
    have hrest : (storeHashes (hashes.upsert r) rest).rows = (hashes.upsert r).rows ++ rest := by
      apply ih htail
      intro x hx r' hr'
      rw [hrows] at hr'
      rcases List.mem_append.mp hr' with hold | hlast
      · exact hnew x (List.mem_cons_of_mem _ hx) r' hold
      · obtain rfl := List.mem_singleton.mp hlast
        intro heq
        exact hhead (List.mem_map.mpr ⟨x, hx, heq.symm⟩)
    refine Eq.trans hrest ?_
    simp [hrows]

variable [Externals]

/-- The nodes a leaf completes are one on each level, from the lowest up. -/
theorem completedNodes_levels {hashes : Table AuditHash} {n fuel level : Nat} {current : Hash}
    {nodes : List AuditHash} (h : completedNodes hashes n fuel level current = .ok nodes) :
    nodes.map (·.hashIndex) = (List.range' (level + 1) nodes.length).map fun j =>
      Externals.storedHashIndex j (n >>> j) := by
  induction fuel generalizing level current nodes with
  | zero =>
    cases h
    rfl
  | succ fuel ih =>
    unfold completedNodes at h
    split at h
    swap
    · cases h
      rfl
    simp only [bind, Except.bind] at h
    split at h
    · cases h
    split at h
    · cases h
    next rest hrest =>
    cases h
    simp [List.range'_succ, shiftRight_succ_eq, ih hrest]

/-- The rows of a leaf are at different positions. -/
theorem stored_nodup (hdistinct : DistinctPositions) {hashes : Table AuditHash} {n fuel : Nat}
    {leaf : Hash} {nodes : List AuditHash} (h : completedNodes hashes n fuel 0 leaf = .ok nodes) :
    (((⟨Externals.storedHashIndex 0 n, leaf⟩ : AuditHash) :: nodes).map (·.hashIndex)).Nodup := by
  have hlevels : ((⟨Externals.storedHashIndex 0 n, leaf⟩ : AuditHash) :: nodes).map (·.hashIndex) =
      (List.range' 0 (nodes.length + 1)).map fun j => Externals.storedHashIndex j (n >>> j) := by
    rw [List.map_cons, completedNodes_levels h, List.range'_succ, List.map_cons]
    simp
  rw [hlevels]
  apply List.Nodup.map_on ?_ List.nodup_range'
  intro j _ j' _ heq
  exact (hdistinct _ _ _ _ heq).1

/-! ## What the store represents -/

/-- The store holds the hash of each complete subtree in one row, at the
position of the subtree, and nothing else. -/
structure Represents (leaves : List Hash) (hashes : Table AuditHash) : Prop where
  stored : ∀ level k, (k + 1) * 2 ^ level ≤ leaves.length →
    hashes.rows.filter (fun r => r.hashIndex = Externals.storedHashIndex level k) =
      [⟨Externals.storedHashIndex level k,
        Merkle.subtree Externals.nodeHash emptyHash leaves level k⟩]
  only : ∀ r ∈ hashes.rows, ∃ level k, (k + 1) * 2 ^ level ≤ leaves.length ∧
    r.hashIndex = Externals.storedHashIndex level k

omit [Externals] in
/-- A row that is found is the only one at its position. -/
theorem filter_eq_singleton {hashes : Table AuditHash} {idx : Nat} {r : AuditHash}
    (h : hashes.find? idx = some r) : hashes.rows.filter (fun r => r.hashIndex = idx) = [r] := by
  have hmem : r ∈ hashes.rows := Table.mem_of_find? h
  have hidx : r.hashIndex = idx := Table.key_of_find? h
  obtain ⟨before, after, hsplit⟩ := List.append_of_mem hmem
  have hunique := hashes.unique
  rw [hsplit, List.map_append, List.map_cons] at hunique
  have hnot : ∀ x ∈ before ++ after, x.hashIndex ≠ idx := by
    intro x hx heq
    have hsame : key x = key r := heq.trans hidx.symm
    rw [List.nodup_append, List.nodup_cons] at hunique
    obtain ⟨-, ⟨hafter, -⟩, hbefore⟩ := hunique
    rcases List.mem_append.mp hx with hb | ha
    · exact hbefore (key x) (List.mem_map_of_mem hb) (key r) List.mem_cons_self hsame
    · exact hafter (hsame ▸ List.mem_map_of_mem ha)
  rw [hsplit, List.filter_append, List.filter_cons_of_pos (by simpa using hidx)]
  have hb : before.filter (fun r => r.hashIndex = idx) = [] := by
    apply List.filter_eq_nil_iff.mpr
    intro x hx
    simpa using hnot x (List.mem_append_left _ hx)
  have ha : after.filter (fun r => r.hashIndex = idx) = [] := by
    apply List.filter_eq_nil_iff.mpr
    intro x hx
    simpa using hnot x (List.mem_append_right _ hx)
  rw [hb, ha]
  rfl

theorem Represents.holds {leaves : List Hash} {hashes : Table AuditHash}
    (h : Represents leaves hashes) :
    HoldsSubtrees leaves fun i => (hashes.find? i).map (·.hash) := by
  intro level k hle
  have hrow := h.stored level k hle
  have hmem : (⟨Externals.storedHashIndex level k,
      Merkle.subtree Externals.nodeHash emptyHash leaves level k⟩ : AuditHash) ∈ hashes.rows := by
    have hfilter := List.mem_singleton_self (⟨Externals.storedHashIndex level k,
      Merkle.subtree Externals.nodeHash emptyHash leaves level k⟩ : AuditHash)
    rw [← hrow] at hfilter
    exact (List.mem_filter.mp hfilter).1
  have hfind : hashes.find? (Externals.storedHashIndex level k) = some _ := Table.find?_of_mem hmem
  simp [hfind]

theorem represents_nil {hashes : Table AuditHash} (h : hashes.rows = []) : Represents [] hashes where
  stored level k hle := by
    have hpos : 0 < (k + 1) * 2 ^ level := by positivity
    simp at hle
  only r hr := by
    rw [h] at hr
    cases hr

/-! ## Appending -/

/-- One more leaf: the call succeeds, and it only inserts rows. -/
theorem Represents.append (hdistinct : DistinctPositions) {leaves : List Hash} {db : Db}
    (h : Represents leaves db.auditHashes) (leaf : Hash) :
    ∃ db' toStore, AuditLog.appendLeafInTx leaves.length (bytesToHex leaf.bytes) db = .ok db' ∧
      db'.auditHashes.rows = db.auditHashes.rows ++ toStore ∧
      Represents (leaves ++ [leaf]) db'.auditHashes := by
  have hfull : ∀ level k, (k + 1) * 2 ^ level ≤ leaves.length →
      (db.auditHashes.find? (Externals.storedHashIndex level k)).isSome := by
    intro level k hle
    have hsome := h.holds level k hle
    obtain ⟨row, hrow, -⟩ := Option.map_eq_some_iff.mp hsome
    rw [hrow]
    rfl
  obtain ⟨nodes, hnodes⟩ := completedNodes_total hfull leaves.length 0 leaf
  have happend : AuditLog.appendLeafInTx leaves.length (bytesToHex leaf.bytes) db = .ok
      { db with
        auditHashes := storeHashes db.auditHashes
          (⟨Externals.storedHashIndex 0 leaves.length, leaf⟩ :: nodes) } := by
    unfold AuditLog.appendLeafInTx
    rw [hexToHash_bytesToHex]
    simp only [hnodes, bind, Except.bind]
  have hall := stored_subtrees hdistinct h.holds hnodes
  -- the stored subtrees end with the new leaf, and the old ones do not
  have hrows := @rows_storeHashes db.auditHashes _ (stored_nodup hdistinct hnodes) (by
    intro r hr r' hr' heq
    obtain ⟨j, hidx, hend, -⟩ := hall r hr
    obtain ⟨level, k, hle, hidx'⟩ := h.only r' hr'
    obtain ⟨rfl, rfl⟩ := hdistinct _ _ _ _ (hidx'.symm.trans (heq.trans hidx))
    omega)
  refine ⟨_, _, happend, hrows, ?_⟩
  constructor
  · intro level k hle
    have hholds := HoldsSubtrees.append hdistinct h.holds hnodes level k hle
    obtain ⟨row, hrow, hhash⟩ := Option.map_eq_some_iff.mp hholds
    have hidx : row.hashIndex = Externals.storedHashIndex level k := Table.key_of_find? hrow
    rw [filter_eq_singleton hrow, ← hidx, ← hhash]
  · intro r hr
    simp only [List.length_append, List.length_singleton]
    have hr' : r ∈ db.auditHashes.rows ++
        (⟨Externals.storedHashIndex 0 leaves.length, leaf⟩ :: nodes) := hrows ▸ hr
    rcases List.mem_append.mp hr' with hold | hnew
    · obtain ⟨level, k, hle, hidx⟩ := h.only r hold
      exact ⟨level, k, by omega, hidx⟩
    · obtain ⟨j, hidx, hend, -⟩ := hall r hnew
      exact ⟨j, _, hend.le, hidx⟩

/-- Calls `append_leaf_in_tx` for each leaf in turn, from an index on. -/
def appendLeaves : (n : Nat) → List Hash → Db → Except AuditError Db
  | _, [], db => .ok db
  | n, leaf :: rest, db => do
    let db ← AuditLog.appendLeafInTx n (bytesToHex leaf.bytes) db
    appendLeaves (n + 1) rest db

theorem appendLeaves_append (n : Nat) (leaves more : List Hash) (db : Db) :
    appendLeaves n (leaves ++ more) db =
      appendLeaves n leaves db >>= appendLeaves (n + leaves.length) more := by
  induction leaves generalizing n db with
  | nil => rfl
  | cons leaf rest ih =>
    rw [List.cons_append]
    unfold appendLeaves
    cases happend : AuditLog.appendLeafInTx n (bytesToHex leaf.bytes) db with
    | error e => rfl
    | ok db₁ =>
      show appendLeaves (n + 1) (rest ++ more) db₁ = _
      rw [ih, List.length_cons, Nat.add_assoc, Nat.add_comm 1]
      rfl

/-- From an empty store the leaves are appended without an error. The store then
holds each complete subtree in one row and nothing else, and every call has only
added rows to those of the calls before it. -/
theorem appendLeaves_represents (hdistinct : DistinctPositions) (leaves : List Hash) (db : Db)
    (hempty : db.auditHashes.rows = []) :
    ∃ db', appendLeaves 0 leaves db = .ok db' ∧ Represents leaves db'.auditHashes ∧
      ∀ before leaf after, leaves = before ++ leaf :: after →
        ∃ db₁ db₂ toStore, appendLeaves 0 before db = .ok db₁ ∧
          AuditLog.appendLeafInTx before.length (bytesToHex leaf.bytes) db₁ = .ok db₂ ∧
          db₂.auditHashes.rows = db₁.auditHashes.rows ++ toStore := by
  have hstore : ∀ leaves : List Hash, ∃ db', appendLeaves 0 leaves db = .ok db' ∧
      Represents leaves db'.auditHashes := by
    intro leaves
    induction leaves using List.reverseRecOn with
    | nil => exact ⟨db, rfl, represents_nil hempty⟩
    | append_singleton rest leaf ih =>
      obtain ⟨db₁, hrest, hrepresents⟩ := ih
      obtain ⟨db₂, toStore, happend, -, hrepresents'⟩ := hrepresents.append hdistinct leaf
      refine ⟨db₂, ?_, hrepresents'⟩
      rw [appendLeaves_append, hrest, Nat.zero_add]
      show (AuditLog.appendLeafInTx rest.length (bytesToHex leaf.bytes) db₁ >>= fun db => .ok db) = _
      rw [happend]
      rfl
  obtain ⟨db', hleaves, hrepresents⟩ := hstore leaves
  refine ⟨db', hleaves, hrepresents, ?_⟩
  intro before leaf after _
  obtain ⟨db₁, hbefore, hrepresents₁⟩ := hstore before
  obtain ⟨db₂, toStore, happend, hrows, -⟩ := hrepresents₁.append hdistinct leaf
  exact ⟨db₁, db₂, toStore, hbefore, happend, hrows⟩

omit [Externals] in
/-- The store of the leaves of ten events, with one row for each complete subtree over
them. -/
theorem appendLeaves_ten :
    letI := reference
    ∃ db', appendLeaves 0 ((List.range 10).map fun i => sha256Bytes [i.toUInt8])
        StateStore.genesis = .ok db' ∧
      Represents ((List.range 10).map fun i => sha256Bytes [i.toUInt8]) db'.auditHashes := by
  obtain ⟨db', hleaves, hrepresents, -⟩ := @appendLeaves_represents reference
    distinctPositions_reference ((List.range 10).map fun i => sha256Bytes [i.toUInt8])
    StateStore.genesis rfl
  exact ⟨db', hleaves, hrepresents⟩

end PunkgoKernel
