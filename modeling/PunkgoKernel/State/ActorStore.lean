import PunkgoKernel.State.Db

/-!
# The actor store (`actor_store.rs`)

Lookups, creation and the two updates of an actor's row. Two queries compare
text with the database's `LIKE`: `_` matches one character, `%` any number of
them, and ASCII letters match in either case. `LIKE` reads the pattern and the
text only up to their first NUL, reads two noncharacters as the replacement
character, and refuses a pattern of more than 50000 bytes. The lineage column is
compared as the JSON text it is stored as.
-/

namespace PunkgoKernel

open Json (Value)
open Relational (Table key)

/-! ## `LIKE` -/

/-- One character of the text against one of the pattern. -/
def likeChar (p c : Char) : Bool := p = '_' || p.toLower = c.toLower

/-- The characters of a text against those of a pattern, both as `LIKE` reads
them. -/
def likeChars : List Char → List Char → Bool
  | [], text => text.isEmpty
  | p :: ps, text =>
    if p = '%' then text.tails.any (likeChars ps)
    else
      match text with
      | [] => false
      | c :: cs => likeChar p c && likeChars ps cs

/-- A character as the database decodes it: U+FFFE and U+FFFF are read as
U+FFFD. -/
def readChar (c : Char) : Char :=
  if c = Char.ofNat 0xFFFE ∨ c = Char.ofNat 0xFFFF then Char.ofNat 0xFFFD else c

/-- The character that ends a text for SQLite's `LIKE`, though not for the column it is
stored in. -/
def nul : Char := Char.ofNat 0

/-- What `LIKE` reads of a text, which it takes to end at the first NUL. -/
def readText (text : List Char) : List Char := (text.takeWhile (· ≠ nul)).map readChar

/-- `text LIKE pattern`, for a pattern that is not too long. -/
def sqlLike (pattern text : List Char) : Bool := likeChars (readText pattern) (readText text)

/-- The length in bytes up to which the database takes a pattern. -/
def likePatternLimit : Nat := 50000

/-- The database's refusal of a pattern that is too long. There is always a row to
compare, root's, so it looks at every pattern it is given. -/
def checkPattern (pattern : String) : KernelResult Unit :=
  if likePatternLimit < pattern.utf8ByteSize then .error (.db "LIKE or GLOB pattern too complex")
  else .ok ()

namespace ActorStore

/-! ## Queries and updates -/

/-- An actor by its identifier, whatever its status. -/
def get (actorId : String) (db : Db) : Option ActorRecord := db.actors.find? actorId

/-- Whether the actor has a row and is active. One that has no row is not. -/
def isActive (actorId : String) (db : Db) : Bool :=
  match db.actors.find? actorId with
  | some actor => actor.status = .active
  | none => false

/-- Inserts a new actor, active. The identifier is the primary key, so a second
insertion under it is refused. -/
def createInTx (spec : CreateActorSpec) (db : Db) : KernelResult Db :=
  if isBlank spec.actorId then .error (.policyViolation "actor_id cannot be empty")
  else
    match db.actors.find? spec.actorId with
    | some _ => .error (.policyViolation s!"actor already exists: {spec.actorId}")
    | none =>
      match db.actors.insert?
        { actorId := spec.actorId
          actorType := spec.actorType
          creatorId := some spec.creatorId
          lineage := spec.lineage
          purpose := spec.purpose
          status := .active
          writableTargets := spec.writableTargets
          energyShare := spec.energyShare
          reductionPolicy := spec.reductionPolicy } with
      | none => .error (uniqueViolation "actors.actor_id")
      | some actors => .ok { db with actors := actors }

/-- An update of one actor's row, refused when there is none. -/
def updateInTx (actorId : String) (f : ActorRecord → ActorRecord)
    (hf : ∀ r, key (f r) = key r) (db : Db) : KernelResult Db :=
  match db.actors.find? actorId with
  | none => .error (.actorNotFound actorId)
  | some _ => .ok { db with actors := db.actors.modify actorId f hf }

/-- Sets the status of an actor that exists. -/
def setStatusInTx (actorId : String) (status : ActorStatus) (db : Db) : KernelResult Db :=
  updateInTx actorId (fun r => { r with status := status }) (fun _ => rfl) db

/-- Sets the share of the production of an actor that exists. -/
def updateEnergyShareInTx (actorId : String) (energyShare : ℚ) (db : Db) : KernelResult Db :=
  if energyShare < 0 then
    .error (.policyViolation "energy_share must be a finite non-negative number")
  else updateInTx actorId (fun r => { r with energyShare := energyShare }) (fun _ => rfl) db

/-- The pattern that counts the agents of a creator for a purpose, with the purpose as
it was given. -/
def sequencePattern (creatorId purpose : String) : String := s!"{creatorId}/{purpose}/%"

/-- One more than the number of actors whose id looks derived from this creator
and this purpose. -/
def nextNumber (creatorId purpose : String) (db : Db) : Nat :=
  (db.actors.rows.filter fun r =>
    sqlLike (sequencePattern creatorId purpose).toList r.actorId.toList).length + 1

/-- The number of the next agent for a purpose: one more than there are identifiers that
match. -/
def nextSequence (creatorId purpose : String) (db : Db) : KernelResult Nat := do
  checkPattern (sequencePattern creatorId purpose)
  .ok (nextNumber creatorId purpose db)

/-- The active agents with a share of the production, in the order in which they get
what is left over. -/
def listActiveWithShares (db : Db) : List (String × ℚ) :=
  (db.actors.rows.filter fun r =>
    r.status = .active ∧ 0 < r.energyShare ∧ r.actorType = .agent).map
    fun r => (r.actorId, r.energyShare)

/-- The text of the lineage column: the JSON array of the ancestors' identifiers,
escaped as JSON escapes them. -/
def lineageJson (lineage : List String) : List Char := (Value.arr (lineage.map .str)).toChars

/-- The pattern that looks for an ancestor in that text, between quotation marks, and
not escaped. -/
def lineagePattern (ancestorId : String) : String := s!"%\"{ancestorId}\"%"

/-- The active actors whose lineage column matches the ancestor's id in
quotes. -/
def descendants (ancestorId : String) (db : Db) : List ActorRecord :=
  db.actors.rows.filter fun r =>
    sqlLike (lineagePattern ancestorId).toList (lineageJson r.lineage) ∧ r.status = .active

/-- The actors whose lineage column matches the pattern for the ancestor. It is text
that is matched, with wildcards and without regard to case. -/
def listDescendants (ancestorId : String) (db : Db) : KernelResult (List ActorRecord) := do
  checkPattern (lineagePattern ancestorId)
  .ok (descendants ancestorId db)

/-! ## What each write does -/

/-- The row a creation writes, field by field. -/
structure NewRow (spec : CreateActorSpec) (row : ActorRecord) : Prop where
  actorId : row.actorId = spec.actorId
  actorType : row.actorType = spec.actorType
  creatorId : row.creatorId = some spec.creatorId
  lineage : row.lineage = spec.lineage
  purpose : row.purpose = spec.purpose
  status : row.status = .active

/-- What the creation of an actor found and wrote. -/
theorem createInTx_eq_ok {spec : CreateActorSpec} {db db' : Db}
    (h : createInTx spec db = .ok db') :
    db.actors.find? spec.actorId = none ∧ ∃ row actors, NewRow spec row ∧
      db.actors.insert? row = some actors ∧ db' = { db with actors := actors } := by
  unfold createInTx at h
  split at h
  · cases h
  split at h
  · cases h
  next hnone =>
  split at h
  · cases h
  next actors hins =>
  cases h
  exact ⟨hnone, _, actors, ⟨rfl, rfl, rfl, rfl, rfl, rfl⟩, hins, rfl⟩

/-- What a change of an actor's row found and wrote. -/
theorem updateInTx_eq_ok {actorId : String} {f : ActorRecord → ActorRecord}
    {hf : ∀ r, key (f r) = key r} {db db' : Db} (h : updateInTx actorId f hf db = .ok db') :
    (db.actors.find? actorId).isSome ∧
      db' = { db with actors := db.actors.modify actorId f hf } := by
  unfold updateInTx at h
  split at h
  · cases h
  · next row hrow =>
    cases h
    exact ⟨by rw [hrow]; rfl, rfl⟩

end ActorStore

end PunkgoKernel
