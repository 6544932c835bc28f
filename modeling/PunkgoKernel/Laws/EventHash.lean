import PunkgoKernel.Laws.Contract
import PunkgoKernel.Runtime.Evaluation

/-!
# What an event's hash commits to

The hash is taken over the canonical encoding, which is injective in the
fields it has. Two fields of an event are not among them: the payload, which
is committed to through its own hash, and the target, which is not committed
to at all.

Collision-freeness is assumed of the inputs at hand only; no function to
thirty-two bytes is free of collisions.
-/

namespace PunkgoKernel

open Json (Value)
open Resumption

variable [Externals]

/-- SHA-256 has no collision among the given inputs. -/
def NoCollision (inputs : List ByteArray) : Prop :=
  ∀ a ∈ inputs, ∀ b ∈ inputs, Externals.sha256 a = Externals.sha256 b → a = b

/-- The event carries the hash of its payload, as every commit path records
it. -/
def PayloadHashed (event : EventRecord) : Prop :=
  event.payloadHash = bytesToHex (Externals.sha256 event.payload.toVec).bytes

/-- Every commit path records the hash of its payload. -/
theorem KernelRun.payloadHashed {tr : List KernelTransition} {pool : KernelPool}
    (h : KernelRun tr pool) : ∀ event ∈ pool.store.events.rows, PayloadHashed event := by
  refine KernelRun.events_satisfy ?_ h
  intro past op draft idx hallowed hdraft
  cases op with
  | finalize tx =>
    obtain rfl : draft = tx.event := hdraft
    obtain ⟨env, action, artifactHash, hevent, -⟩ := hallowed
    rw [hevent]
    rfl
  | triggerHold tx =>
    obtain rfl : draft = tx.event := hdraft
    obtain ⟨env, action, envelope, actor, -⟩ := hallowed
    rfl
  | resolveHold tx =>
    obtain rfl : draft = { tx.event with settledEnergy := tx.cost } := hdraft
    obtain ⟨env, humanAction, holdId, decision, instruction, hold, caller, -⟩ := hallowed
    rfl
  | expireHold tx =>
    obtain rfl : draft = tx.event := hdraft
    obtain ⟨env, round, hold, envelopeId, holds, -⟩ := hallowed
    rfl
  | _ => cases hdraft

omit [Externals] in
/-- Two events that agree on everything recorded but the target. -/
structure SameButTarget (e₁ e₂ : EventRecord) : Prop where
  id : e₁.id = e₂.id
  logIndex : e₁.logIndex = e₂.logIndex
  actorId : e₁.actorId = e₂.actorId
  actionType : e₁.actionType = e₂.actionType
  payload : e₁.payload = e₂.payload
  payloadHash : e₁.payloadHash = e₂.payloadHash
  artifactHash : e₁.artifactHash = e₂.artifactHash
  reservedEnergy : e₁.reservedEnergy = e₂.reservedEnergy
  settledEnergy : e₁.settledEnergy = e₂.settledEnergy
  timestamp : e₁.timestamp = e₂.timestamp

/-- Two events that agree on everything recorded. -/
structure SameRecord (e₁ e₂ : EventRecord) : Prop extends SameButTarget e₁ e₂ where
  target : e₁.target = e₂.target

omit [Externals] in
theorem bytesToHex_injective {h₁ h₂ : Hash} (h : bytesToHex h₁.bytes = bytesToHex h₂.bytes) :
    h₁ = h₂ := by
  have hread := hexToHash_bytesToHex h₁
  rw [h, hexToHash_bytesToHex h₂] at hread
  cases hread
  rfl

omit [Externals] in
theorem eventHashInput_injective {e₁ e₂ : EventRecord} (h : eventHashInput e₁ = eventHashInput e₂) :
    canonicalEvent e₁ = canonicalEvent e₂ := by
  unfold eventHashInput at h
  exact Value.toVec_injective ((ByteArray.append_right_inj _).mp h)

omit [Externals] in
/-- The canonical encoding determines the fields it has. -/
theorem canonicalEvent_injective {e₁ e₂ : EventRecord} (h : canonicalEvent e₁ = canonicalEvent e₂) :
    e₁.id = e₂.id ∧ e₁.logIndex = e₂.logIndex ∧ e₁.actorId = e₂.actorId ∧
      e₁.actionType = e₂.actionType ∧ e₁.payloadHash = e₂.payloadHash ∧
      e₁.artifactHash = e₂.artifactHash ∧ e₁.reservedEnergy = e₂.reservedEnergy ∧
      e₁.settledEnergy = e₂.settledEnergy ∧ e₁.timestamp = e₂.timestamp := by
  unfold canonicalEvent at h
  -- an omitted artifact hash shortens the list, so the two cannot be confused
  cases h₁ : e₁.artifactHash <;> cases h₂ : e₂.artifactHash <;>
    simp_all

/-- Events that agree on everything but the target have the same hash. -/
theorem SameButTarget.computeEventHash_eq {e₁ e₂ : EventRecord} (h : SameButTarget e₁ e₂) :
    computeEventHash e₁ = computeEventHash e₂ := by
  have hcanonical : canonicalEvent e₁ = canonicalEvent e₂ := by
    unfold canonicalEvent
    rw [h.id, h.logIndex, h.actorId, h.actionType, h.payloadHash, h.artifactHash,
      h.reservedEnergy, h.settledEnergy, h.timestamp]
  unfold computeEventHash eventHashInput
  rw [hcanonical]

/-- Events with the same hash agree on everything but the target. -/
theorem sameButTarget_of_computeEventHash_eq {e₁ e₂ : EventRecord} (h₁ : PayloadHashed e₁)
    (h₂ : PayloadHashed e₂)
    (hfree : NoCollision [eventHashInput e₁, eventHashInput e₂, e₁.payload.toVec, e₂.payload.toVec])
    (h : computeEventHash e₁ = computeEventHash e₂) : SameButTarget e₁ e₂ := by
  have hinput : eventHashInput e₁ = eventHashInput e₂ :=
    hfree _ (by simp) _ (by simp) (bytesToHex_injective h)
  obtain ⟨hid, hindex, hactor, htype, hpayloadHash, hartifact, hreserved, hsettled, htime⟩ :=
    canonicalEvent_injective (eventHashInput_injective hinput)
  have hpayload : e₁.payload = e₂.payload := by
    rw [PayloadHashed] at h₁ h₂
    rw [h₁, h₂] at hpayloadHash
    exact Value.toVec_injective
      (hfree _ (by simp) _ (by simp) (bytesToHex_injective hpayloadHash))
  exact ⟨hid, hindex, hactor, htype, hpayload, hpayloadHash, hartifact, hreserved, hsettled, htime⟩

/-- The hash commits two events to each other's record exactly when they do not differ
in the target alone. That the digest does not collide is assumed of the four inputs that
are hashed here, and of no others. -/
theorem eventHash_commits_iff {e₁ e₂ : EventRecord} (h₁ : PayloadHashed e₁)
    (h₂ : PayloadHashed e₂)
    (hfree : NoCollision
      [eventHashInput e₁, eventHashInput e₂, e₁.payload.toVec, e₂.payload.toVec]) :
    (computeEventHash e₁ = computeEventHash e₂ → SameRecord e₁ e₂) ↔
      ¬ (SameButTarget e₁ e₂ ∧ e₁.target ≠ e₂.target) := by
  constructor
  · rintro hcommits ⟨hsame, hne⟩
    exact hne (hcommits hsame.computeEventHash_eq).target
  · intro hcond heq
    have hsame := sameButTarget_of_computeEventHash_eq h₁ h₂ hfree heq
    refine ⟨hsame, ?_⟩
    by_contra hne
    exact hcond ⟨hsame, hne⟩

/-! ## Two events -/

/-- The event a change by an actor leaves at the beginning of a log. -/
def firstEvent (actorId target : String) : EventRecord :=
  letI := reference
  { draftEvent (envAt 0) ⟨actorId, .mutate, target, .obj [], none⟩ 16 none with logIndex := 0 }

omit [Externals] in
theorem head_firstEvent :
    (reference.sha256 (eventHashInput (firstEvent "root" "workspace/a"))).bytes.head? = some 40 ∧
      (reference.sha256 (eventHashInput (firstEvent "agent-1" "workspace/a"))).bytes.head? =
        some 25 ∧
      (reference.sha256 (Value.obj []).toVec).bytes.head? = some 68 := by
  rw [head_eventHash, head_eventHash]
  refine ⟨by decide +kernel, by decide +kernel, by decide +kernel⟩

omit [Externals] in
/-- Digests that begin differently are of different inputs. -/
theorem noCollision_of_head {a b c : ByteArray} {i j k : UInt8}
    (ha : (reference.sha256 a).bytes.head? = some i) (hb : (reference.sha256 b).bytes.head? = some j)
    (hc : (reference.sha256 c).bytes.head? = some k) (hij : i = j → a = b) (hik : i ≠ k)
    (hjk : j ≠ k) : letI := reference; NoCollision [a, b, c, c] := by
  intro x hx y hy heq
  have hhead : (reference.sha256 x).bytes.head? = (reference.sha256 y).bytes.head? :=
    congrArg (fun h : Hash => h.bytes.head?) heq
  have hcases : ∀ z ∈ [a, b, c, c], z = a ∨ z = b ∨ z = c := by simp
  rcases hcases x hx with rfl | rfl | rfl <;> rcases hcases y hy with rfl | rfl | rfl <;> grind

omit [Externals] in
/-- Two events of different actors, and what their hashes commit to: the inputs differ,
and so no hash is shared. -/
theorem eventHash_commits_firstEvent :
    letI := reference
    (computeEventHash (firstEvent "root" "workspace/a") =
        computeEventHash (firstEvent "agent-1" "workspace/a") →
      SameRecord (firstEvent "root" "workspace/a") (firstEvent "agent-1" "workspace/a")) ↔
    ¬ (SameButTarget (firstEvent "root" "workspace/a") (firstEvent "agent-1" "workspace/a") ∧
      (firstEvent "root" "workspace/a").target ≠ (firstEvent "agent-1" "workspace/a").target) := by
  refine @eventHash_commits_iff reference _ _ rfl rfl ?_
  obtain ⟨hroot, hagent, hpayload⟩ := head_firstEvent
  exact noCollision_of_head hroot hagent hpayload (fun h => by cases h) (by decide) (by decide)

/-- Root's change of a target, as the first of a log. -/
def rootMutates (target : String) : List (Turn Request) :=
  alone 30 (submitAt 0 "root" .mutate target (.obj []))

/-- What is recorded of an event besides the two hashes. -/
def recordOf (event : EventRecord) : EventRecord := { event with eventHash := "", payloadHash := "" }

/-- A hashed event is determined by its record. -/
theorem eventHashInput_eq {e₁ e₂ : EventRecord} (h₁ : PayloadHashed e₁) (h₂ : PayloadHashed e₂)
    (h : recordOf e₁ = recordOf e₂) : eventHashInput e₁ = eventHashInput e₂ := by
  simp only [recordOf, EventRecord.mk.injEq] at h
  obtain ⟨hid, hindex, -, hactor, htype, -, hpayload, -, hartifact, hreserved, hsettled, htime⟩ := h
  have hhash : e₁.payloadHash = e₂.payloadHash := by
    rw [show e₁.payloadHash = _ from h₁, show e₂.payloadHash = _ from h₂, hpayload]
  unfold eventHashInput canonicalEvent
  rw [hid, hindex, hactor, htype, hhash, hartifact, hreserved, hsettled, htime]

omit [Externals] in
/-- The log root's first change leaves. -/
theorem rootMutates_event (target : String)
    (hrows : (lazyPlayed (rootMutates target)).pool.store.events.rows.map recordOf =
      [recordOf (firstEvent "root" target)]) :
    letI := reference
    ∃ event ∈ (kernelPlayed (rootMutates target)).pool.store.events.rows,
      recordOf event = recordOf (firstEvent "root" target) ∧
      eventHashInput event = eventHashInput (firstEvent "root" "workspace/a") := by
  rw [← kernelPlayed_eq] at hrows
  have hmem : recordOf (firstEvent "root" target) ∈
      (kernelPlayed (rootMutates target)).pool.store.events.rows.map recordOf := by
    rw [hrows]
    exact List.mem_singleton_self _
  obtain ⟨event, hevent, hrecord⟩ := List.mem_map.mp hmem
  refine ⟨event, hevent, hrecord, ?_⟩
  have hhashed := @KernelRun.payloadHashed reference _ _ (kernelRun_played (rootMutates target))
  have hinput : eventHashInput event = eventHashInput (firstEvent "root" target) :=
    @eventHashInput_eq reference _ _ (hhashed event hevent) rfl hrecord
  rw [hinput]
  rfl

omit [Externals] in
/-- Two logs whose only events differ in the target and share their hash, which is
computed from every other field. -/
theorem target_not_committed :
    letI := reference
    ¬ ∀ tr₁ pool₁ tr₂ pool₂, KernelRun tr₁ pool₁ → KernelRun tr₂ pool₂ →
      ∀ e₁ ∈ pool₁.store.events.rows, ∀ e₂ ∈ pool₂.store.events.rows,
        NoCollision [eventHashInput e₁, eventHashInput e₂, e₁.payload.toVec, e₂.payload.toVec] →
        computeEventHash e₁ = computeEventHash e₂ → SameRecord e₁ e₂ := by
  intro hclaim
  obtain ⟨e₁, hmem₁, hrecord₁, hinput₁⟩ := rootMutates_event "workspace/a" (by decide +kernel)
  obtain ⟨e₂, hmem₂, hrecord₂, hinput₂⟩ := rootMutates_event "workspace/b" (by decide +kernel)
  have htarget₁ : e₁.target = "workspace/a" := congrArg EventRecord.target hrecord₁
  have htarget₂ : e₂.target = "workspace/b" := congrArg EventRecord.target hrecord₂
  have hpayload₁ : e₁.payload = .obj [] := congrArg EventRecord.payload hrecord₁
  have hpayload₂ : e₂.payload = .obj [] := congrArg EventRecord.payload hrecord₂
  have hsame : eventHashInput e₁ = eventHashInput e₂ := hinput₁.trans hinput₂.symm
  have hrecord := hclaim _ _ _ _ (kernelRun_played (rootMutates "workspace/a"))
    (kernelRun_played (rootMutates "workspace/b")) e₁ hmem₁ e₂ hmem₂ ?_ ?_
  · have htargets := hrecord.target
    rw [htarget₁, htarget₂] at htargets
    exact absurd htargets (by decide)
  · obtain ⟨hroot, -, hpayload⟩ := head_firstEvent
    rw [← hsame, hinput₁, hpayload₁, hpayload₂]
    exact noCollision_of_head hroot hroot hpayload (fun _ => rfl) (by decide) (by decide)
  · unfold computeEventHash
    rw [hsame]

end PunkgoKernel
