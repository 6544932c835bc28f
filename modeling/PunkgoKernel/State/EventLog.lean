import PunkgoKernel.State.Db

/-!
# The event log and its Merkle store (`event_log.rs`, `audit.rs`)

An append takes the next index, computes the event's hash over its canonical
encoding and inserts the row; the hash then becomes a leaf of the Merkle
store, together with every inner node the leaf completes.

`canonicalEvent` is the encoding, field by field: `target` is not one of its
fields.
-/

namespace PunkgoKernel

open Json (Value)
open Relational (Table key)

variable [Externals]

/-! ## Event hashes -/

omit [Externals] in
/-- The canonical encoding (`CanonicalEvent`): the fields in alphabetical
order, `artifact_hash` left out when there is none. -/
def canonicalEvent (event : EventRecord) : Value :=
  .obj
    ([("action_type", .str event.actionType),
      ("actor_id", .str event.actorId)] ++
     (match event.artifactHash with
      | some h => [("artifact_hash", .str h)]
      | none => []) ++
     [("event_id", .str event.id),
      ("log_index", .num (.int event.logIndex)),
      ("payload_hash", .str event.payloadHash),
      ("reserved_energy", .num (.int event.reservedEnergy)),
      ("settled_energy", .num (.int event.settledEnergy)),
      ("timestamp", .str event.timestamp),
      ("v", .str "punkgo-event-v1")])

omit [Externals] in
/-- The bytes that are hashed: a zero byte, which sets leaves apart from inner
nodes, and the canonical encoding. -/
def eventHashInput (event : EventRecord) : ByteArray :=
  ⟨#[0]⟩ ++ (canonicalEvent event).toVec

/-- The hash of an event as it is stored: the digest of a zero byte and its canonical
encoding, in hexadecimal digits. -/
def computeEventHash (event : EventRecord) : String :=
  bytesToHex (Externals.sha256 (eventHashInput event)).bytes

/-! ## Appending -/

omit [Externals] in
/-- `COALESCE(MAX(log_index), -1) + 1`: one above the largest index of the log, zero for
the empty log. -/
def nextIdx (db : Db) : Nat := (db.events.rows.map (·.logIndex + 1)).foldl max 0

/-- Assigns the index and the hash, and inserts the row. The next index is
never taken, so the only key that can clash is the identifier. -/
def EventLog.appendInTx (event : EventRecord) (db : Db) : KernelResult (EventRecord × Db) :=
  let event := { event with logIndex := nextIdx db }
  let event := { event with eventHash := computeEventHash event }
  match db.events.insert? event with
  | none => .error (uniqueViolation "events.id")
  | some events => .ok (event, { db with events := events })

/-! ## The Merkle store -/

omit [Externals] in
/-- What the audit log can fail with: the proof package refused, a node is missing, a
text is no hash, or there is no checkpoint to show. -/
inductive AuditError where
  | proof (detail : String)
  | hashNotFound (index : Nat)
  | invalidHex (text : String)
  | noCheckpoint
deriving DecidableEq

omit [Externals] in
/-- The text of an audit error, which the kernel's own error carries on. -/
def AuditError.toString : AuditError → String
  | .proof detail => s!"proof error: {detail}"
  | .hashNotFound index => s!"hash not found at index {index}"
  | .invalidHex text => s!"invalid hex hash: {text}"
  | .noCheckpoint => "no checkpoint exists yet"

omit [Externals] in
/-- The value of a hexadecimal digit of either case. -/
def hexValue (c : Char) : Option Nat :=
  if c.isDigit then some (c.toNat - '0'.toNat)
  else if 'a' ≤ c ∧ c ≤ 'f' then some (c.toNat - 'a'.toNat + 10)
  else if 'A' ≤ c ∧ c ≤ 'F' then some (c.toNat - 'A'.toNat + 10)
  else none

omit [Externals] in
/-- `u8::from_str_radix` on two ASCII characters: a leading plus sign is
accepted. -/
def fromStrRadix16 (c d : Char) : Option UInt8 :=
  if c = '+' then (hexValue d).map UInt8.ofNat
  else (hexValue c).bind fun hi => (hexValue d).map fun lo => UInt8.ofNat (16 * hi + lo)

omit [Externals] in
/-- The bytes of a text of an even number of bytes, read two bytes at a time.
`none` is the panic of a slice that would cut a character. -/
def hexBytes (hex : String) : List Char → Option (Except AuditError (List UInt8))
  | [] => some (.ok [])
  | [c] => if c.utf8Size = 2 then some (.error (.invalidHex hex)) else none
  | c :: d :: rest =>
    if c.utf8Size = 2 then some (.error (.invalidHex hex))
    else if c.utf8Size ≠ 1 ∨ d.utf8Size ≠ 1 then none
    else
      match fromStrRadix16 c d with
      | none => some (.error (.invalidHex hex))
      | some b => (hexBytes hex rest).map fun bytes => bytes.map (b :: ·)

omit [Externals] in
/-- A text of sixty-four bytes as the hash it spells. A digit that is none is an error;
`none` is the panic of a slice that cuts a character. -/
def hexToHash (hex : String) : Option (Except AuditError Hash) :=
  if hex.utf8ByteSize ≠ 64 then some (.error (.invalidHex hex))
  else
    match hexBytes hex hex.toList with
    | some (.ok bytes) => if h : bytes.length = 32 then some (.ok ⟨bytes, h⟩) else none
    | some (.error e) => some (.error e)
    | none => none

omit [Externals] in
/-- A digit that the encoder writes is read back as its value, is no plus sign, and
takes one byte. -/
theorem hexDigit_spec : ∀ d < 16, hexValue (Json.hexDigit d) = some d ∧
    Json.hexDigit d ≠ '+' ∧ (Json.hexDigit d).utf8Size = 1 := by
  decide

omit [Externals] in
/-- The two digits of a byte read back as the byte. -/
theorem fromStrRadix16_hexPair (b : UInt8) :
    fromStrRadix16 (Json.hexDigit (b.toNat / 16)) (Json.hexDigit (b.toNat % 16)) = some b := by
  have hlt : b.toNat < 256 := b.toNat_lt
  obtain ⟨hhi, hplus, -⟩ := hexDigit_spec (b.toNat / 16) (by omega)
  obtain ⟨hlo, -, -⟩ := hexDigit_spec (b.toNat % 16) (by omega)
  unfold fromStrRadix16
  rw [if_neg hplus, hhi, hlo]
  have hsum : 16 * (b.toNat / 16) + b.toNat % 16 = b.toNat := by omega
  rw [Option.bind_some, Option.map_some, hsum, UInt8.ofNat_toNat]

omit [Externals] in
/-- The digits of a list of bytes read back as the bytes. -/
theorem hexBytes_flatMap (hex : String) (bytes : List UInt8) :
    hexBytes hex (bytes.flatMap hexPair) = some (.ok bytes) := by
  induction bytes with
  | nil => rfl
  | cons b rest ih =>
    have hlt : b.toNat < 256 := b.toNat_lt
    obtain ⟨-, -, hhi⟩ := hexDigit_spec (b.toNat / 16) (by omega)
    obtain ⟨-, -, hlo⟩ := hexDigit_spec (b.toNat % 16) (by omega)
    rw [List.flatMap_cons]
    show hexBytes hex (Json.hexDigit (b.toNat / 16) :: Json.hexDigit (b.toNat % 16) ::
      rest.flatMap hexPair) = _
    unfold hexBytes
    rw [if_neg (by omega), if_neg (by omega), fromStrRadix16_hexPair, ih]
    rfl

omit [Externals] in
/-- Every byte is spelled by two digits of one byte each. -/
theorem utf8Len_flatMap_hexPair (bytes : List UInt8) :
    String.utf8Len (bytes.flatMap hexPair) = 2 * bytes.length := by
  induction bytes with
  | nil => rfl
  | cons b rest ih =>
    have hlt : b.toNat < 256 := b.toNat_lt
    obtain ⟨-, -, hhi⟩ := hexDigit_spec (b.toNat / 16) (by omega)
    obtain ⟨-, -, hlo⟩ := hexDigit_spec (b.toNat % 16) (by omega)
    rw [List.flatMap_cons, String.utf8Len_append, ih]
    have hpair : String.utf8Len (hexPair b) = 2 := by
      simp [hexPair, hhi, hlo]
    rw [hpair, List.length_cons]
    omega

omit [Externals] in
/-- The text of a hash reads back as the hash, so what an append stores in the log is
never refused as a leaf. -/
theorem hexToHash_bytesToHex (h : Hash) : hexToHash (bytesToHex h.bytes) = some (.ok h) := by
  have hsize : (bytesToHex h.bytes).utf8ByteSize = 64 := by
    unfold bytesToHex
    rw [String.utf8ByteSize_ofList, utf8Len_flatMap_hexPair, h.size]
  have hbytes : hexBytes (bytesToHex h.bytes) (bytesToHex h.bytes).toList = some (.ok h.bytes) := by
    unfold bytesToHex
    rw [String.toList_ofList]
    exact hexBytes_flatMap _ _
  unfold hexToHash
  rw [if_neg (by omega), hbytes]
  simp [h.size]

omit [Externals] in
/-- The hash stored at an index, which has to be there. -/
def readHashInTx (idx : Nat) (hashes : Table AuditHash) : Except AuditError Hash :=
  match hashes.find? idx with
  | some row => .ok row.hash
  | none => .error (.hashNotFound idx)

/-- The inner nodes that leaf `n` completes, from `level` up: as long as the
node at this level is a right child, its parent is complete. `fuel` bounds the
levels; a number has fewer of them than its value. -/
def completedNodes (hashes : Table AuditHash) (n : Nat) :
    (fuel : Nat) → (level : Nat) → (current : Hash) → Except AuditError (List AuditHash)
  | 0, _, _ => .ok []
  | fuel + 1, level, current =>
    if (n >>> level) % 2 = 1 then do
      let nAtLevel := n >>> level
      let left ← readHashInTx (Externals.storedHashIndex level (nAtLevel - 1)) hashes
      let parent := Externals.nodeHash left current
      let rest ← completedNodes hashes n fuel (level + 1) parent
      .ok (⟨Externals.storedHashIndex (level + 1) (nAtLevel / 2), parent⟩ :: rest)
    else .ok []

omit [Externals] in
/-- `INSERT OR REPLACE` of each hash, in order. -/
def storeHashes (hashes : Table AuditHash) (toStore : List AuditHash) : Table AuditHash :=
  toStore.foldl Table.upsert hashes

/-- Appends a leaf with the nodes it completes. A panic of the hexadecimal
reader ends the request and its transaction, as an error does. -/
def AuditLog.appendLeafInTx (logIndex : Nat) (leafHashHex : String) (db : Db) :
    Except AuditError Db :=
  match hexToHash leafHashHex with
  | none => .error (.invalidHex leafHashHex)
  | some (.error e) => .error e
  | some (.ok leaf) => do
    let nodes ← completedNodes db.auditHashes logIndex logIndex 0 leaf
    .ok { db with
      auditHashes := storeHashes db.auditHashes
        (⟨Externals.storedHashIndex 0 logIndex, leaf⟩ :: nodes) }

/-- The hash of an appended event becomes a leaf of the audit tree, in the event's own
transaction: where the leaf is refused, the event is not written either. -/
def appendAudit (event : EventRecord) (db : Db) : KernelResult Db :=
  match AuditLog.appendLeafInTx event.logIndex event.eventHash db with
  | .ok db => .ok db
  | .error e => .error (.audit e.toString)

/-! ## What an append does -/

/-- An appended event: the draft with the next index and its own hash. -/
def EventRecord.placed (event : EventRecord) (idx : Nat) : EventRecord :=
  { event with
    logIndex := idx
    eventHash := computeEventHash { event with logIndex := idx } }

/-- The hash stored with a placed event is the hash of the event itself, since the hash
is no part of what is hashed. -/
@[simp] theorem computeEventHash_placed (event : EventRecord) (idx : Nat) :
    computeEventHash (event.placed idx) = (event.placed idx).eventHash := rfl

/-- What an append that succeeds did: the draft took the next index and its hash, and
the row was inserted. -/
theorem EventLog.appendInTx_eq_ok {event ev : EventRecord} {db db' : Db}
    (h : EventLog.appendInTx event db = .ok (ev, db')) :
    ev = event.placed (nextIdx db) ∧
      ∃ events, db.events.insert? ev = some events ∧ db' = { db with events := events } := by
  unfold EventLog.appendInTx at h
  simp only at h
  split at h
  · cases h
  · next events hins =>
    cases h
    exact ⟨rfl, events, hins, rfl⟩

/-- What a leaf that was accepted did: it is stored with the inner nodes it completes,
and nothing else of the store changed. -/
theorem appendAudit_eq_ok {event : EventRecord} {db db' : Db}
    (h : appendAudit event db = .ok db') :
    ∃ leaf nodes, hexToHash event.eventHash = some (.ok leaf) ∧
      completedNodes db.auditHashes event.logIndex event.logIndex 0 leaf = .ok nodes ∧
      db' = { db with
        auditHashes := storeHashes db.auditHashes
          (⟨Externals.storedHashIndex 0 event.logIndex, leaf⟩ :: nodes) } := by
  unfold appendAudit at h
  split at h
  · next db'' hleaf =>
    cases h
    unfold AuditLog.appendLeafInTx at hleaf
    split at hleaf
    · cases hleaf
    · cases hleaf
    · next leaf hhex =>
      cases hnodes : completedNodes db.auditHashes event.logIndex event.logIndex 0 leaf with
      | error e =>
        rw [hnodes] at hleaf
        cases hleaf
      | ok nodes =>
        rw [hnodes] at hleaf
        cases hleaf
        exact ⟨leaf, nodes, hhex, hnodes, rfl⟩
  · cases h

/-! ## Checkpoints -/

omit [Externals] in
/-- The number of events in the log. -/
def EventLog.count (db : Db) : Nat := db.events.rows.length

omit [Externals] in
/-- The checkpoint of the larger tree, the earlier of two equal ones: one step of `ORDER
BY tree_size DESC LIMIT 1`. -/
def AuditLog.larger (best : Option AuditCheckpoint) (cp : AuditCheckpoint) :
    Option AuditCheckpoint :=
  match best with
  | none => some cp
  | some b => if b.treeSize < cp.treeSize then some cp else some b

omit [Externals] in
/-- The checkpoint of the largest tree, if any is stored. -/
def AuditLog.latest? (db : Db) : Option AuditCheckpoint :=
  db.auditCheckpoints.rows.foldl AuditLog.larger none

omit [Externals] in
/-- The size of the largest tree that has a checkpoint, zero where none has. -/
def AuditLog.treeSize (db : Db) : Nat := ((AuditLog.latest? db).map (·.treeSize)).getD 0

omit [Externals] in
/-- The checkpoint of the largest tree, as the reads ask for it: it is an error if none
is stored. -/
def AuditLog.latestCheckpoint (db : Db) : Except AuditError AuditCheckpoint :=
  match AuditLog.latest? db with
  | some cp => .ok cp
  | none => .error .noCheckpoint

omit [Externals] in
/-- The larger of a list, from a best so far, is at least as large as each of them. -/
theorem AuditLog.foldl_larger {rows : List AuditCheckpoint} {best : Option AuditCheckpoint}
    {cp : AuditCheckpoint} (h : cp ∈ rows ∨ best = some cp) :
    ∃ b, rows.foldl larger best = some b ∧ cp.treeSize ≤ b.treeSize := by
  induction rows generalizing best cp with
  | nil =>
    rcases h with h | h
    · cases h
    · exact ⟨cp, h, le_refl _⟩
  | cons r rest ih =>
    have hbetter : ∃ b, larger best r = some b ∧ r.treeSize ≤ b.treeSize ∧
        (best = some cp → cp.treeSize ≤ b.treeSize) := by
      cases best with
      | none => exact ⟨r, rfl, le_refl _, fun h => by cases h⟩
      | some b =>
        unfold larger
        simp only
        split
        · next hlt => exact ⟨r, rfl, le_refl _, fun h => by cases h; exact hlt.le⟩
        · next hge => exact ⟨b, rfl, not_lt.mp hge, fun h => by cases h; exact le_refl _⟩
    obtain ⟨b, hb, hr, hbest⟩ := hbetter
    rw [List.foldl_cons, hb]
    obtain ⟨b', hfound, hle⟩ := @ih (some b) b (.inr rfl)
    rcases h with hmem | hsome
    · rcases List.mem_cons.mp hmem with rfl | hrest
      · exact ⟨b', hfound, hr.trans hle⟩
      · exact ih (.inl hrest)
    · exact ⟨b', hfound, (hbest hsome).trans hle⟩

omit [Externals] in
/-- The larger of a list is one of the list, or the best so far. -/
theorem AuditLog.foldl_larger_mem {rows : List AuditCheckpoint} {best : Option AuditCheckpoint}
    {cp : AuditCheckpoint} (h : rows.foldl larger best = some cp) : cp ∈ rows ∨ best = some cp := by
  induction rows generalizing best with
  | nil => exact .inr h
  | cons r rest ih =>
    rcases ih h with hrest | hbest
    · exact .inl (List.mem_cons_of_mem _ hrest)
    · unfold larger at hbest
      split at hbest
      · cases hbest
        exact .inl List.mem_cons_self
      · split at hbest
        · cases hbest
          exact .inl List.mem_cons_self
        · exact .inr hbest

omit [Externals] in
/-- The latest checkpoint is a stored one. -/
theorem AuditLog.latest?_mem {db : Db} {cp : AuditCheckpoint} (h : AuditLog.latest? db = some cp) :
    cp ∈ db.auditCheckpoints.rows := by
  rcases AuditLog.foldl_larger_mem h with hmem | hnone
  · exact hmem
  · cases hnone

omit [Externals] in
/-- No stored checkpoint is of a larger tree than the latest. -/
theorem AuditLog.le_treeSize {db : Db} {cp : AuditCheckpoint} (h : cp ∈ db.auditCheckpoints.rows) :
    cp.treeSize ≤ AuditLog.treeSize db := by
  have hfold : ∃ b, AuditLog.latest? db = some b ∧ cp.treeSize ≤ b.treeSize :=
    AuditLog.foldl_larger (.inl h)
  obtain ⟨b, hlatest, hle⟩ := hfold
  unfold AuditLog.treeSize
  rw [hlatest]
  exact hle

omit [Externals] in
/-- The size of the largest tree is stored, unless nothing is. -/
theorem AuditLog.treeSize_stored (db : Db) : AuditLog.treeSize db = 0 ∨
    ∃ cp ∈ db.auditCheckpoints.rows, cp.treeSize = AuditLog.treeSize db := by
  unfold AuditLog.treeSize
  cases hlatest : AuditLog.latest? db with
  | none => exact .inl rfl
  | some cp => exact .inr ⟨cp, AuditLog.latest?_mem hlatest, rfl⟩

omit [Externals] in
/-- A new checkpoint takes no size away: afterwards the largest tree is at least as
large as before, and as the new one. -/
theorem AuditLog.treeSize_le_upsert (db : Db) (cp : AuditCheckpoint) :
    AuditLog.treeSize db ≤
        AuditLog.treeSize { db with auditCheckpoints := db.auditCheckpoints.upsert cp } ∧
      cp.treeSize ≤
        AuditLog.treeSize { db with auditCheckpoints := db.auditCheckpoints.upsert cp } := by
  have hstored : ∀ size, (size = cp.treeSize ∨ ∃ r ∈ db.auditCheckpoints.rows, r.treeSize = size) →
      size ≤ AuditLog.treeSize { db with auditCheckpoints := db.auditCheckpoints.upsert cp } := by
    intro size hsize
    have hfind := Table.find?_upsert db.auditCheckpoints cp size
    have hsome : ∃ r, (db.auditCheckpoints.upsert cp).find? size = some r := by
      rw [hfind]
      split
      · exact ⟨cp, rfl⟩
      · next hne =>
        rcases hsize with rfl | ⟨r, hr, rfl⟩
        · exact absurd rfl hne
        · exact ⟨r, Table.find?_of_mem hr⟩
    obtain ⟨r, hr⟩ := hsome
    have hkey : r.treeSize = size := Table.key_of_find? hr
    rw [← hkey]
    exact AuditLog.le_treeSize (Table.mem_of_find? hr)
  refine ⟨?_, hstored _ (.inl rfl)⟩
  rcases AuditLog.treeSize_stored db with hzero | ⟨r, hr, hsize⟩
  · omega
  · exact hstored _ (.inr ⟨r, hr, hsize⟩)

/-- The hashes of the store, as the Merkle functions read them
(`InMemHashReader`). -/
def AuditLog.reader (db : Db) (idx : Nat) : Option Hash := (db.auditHashes.find? idx).map (·.hash)

/-- Computes the root of the tree of a size and stores the checkpoint, in the place of
one of the same size. -/
def AuditLog.makeCheckpoint (treeSize now : Nat) (db : Db) :
    Except AuditError (AuditCheckpoint × Db) :=
  match Externals.treeHash treeSize (AuditLog.reader db) with
  | .error detail => .error (.proof detail)
  | .ok root =>
    let cp : AuditCheckpoint :=
      ⟨treeSize, bytesToHex root.bytes, Externals.checkpointText treeSize root, now⟩
    .ok (cp, { db with auditCheckpoints := db.auditCheckpoints.upsert cp })

/-- What a checkpoint that was made is: the row of the root the tree package computed,
stored by its size. -/
theorem AuditLog.makeCheckpoint_eq_ok {treeSize now : Nat} {db db' : Db} {cp : AuditCheckpoint}
    (h : AuditLog.makeCheckpoint treeSize now db = .ok (cp, db')) :
    ∃ root, Externals.treeHash treeSize (AuditLog.reader db) = .ok root ∧
      cp = ⟨treeSize, bytesToHex root.bytes, Externals.checkpointText treeSize root, now⟩ ∧
      db' = { db with auditCheckpoints := db.auditCheckpoints.upsert cp } := by
  unfold AuditLog.makeCheckpoint at h
  split at h
  · cases h
  · next root hroot =>
    cases h
    exact ⟨root, hroot, rfl, rfl⟩

/-- The audit path of a leaf in the tree of a size, as texts. -/
def AuditLog.inclusionProof (logIndex treeSize : Nat) (db : Db) : Except AuditError (List String) :=
  match Externals.proveRecord treeSize logIndex (AuditLog.reader db) with
  | .error detail => .error (.proof detail)
  | .ok path => .ok (path.map fun h => bytesToHex h.bytes)

end PunkgoKernel
