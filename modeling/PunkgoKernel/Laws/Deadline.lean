import PunkgoKernel.Runtime.Evaluation

/-!
# Deadlines as they are computed

An envelope's deadline and a hold's timeout are asked for in seconds, as signed
64-bit numbers, and computed in unsigned 64-bit milliseconds. A product or a sum
that does not fit wraps round, so a very long time becomes a short one; a
negative number of seconds is cast to a number whose product never fits
(`overflows_of_neg`). The deadlines are those asked for exactly when nothing
wraps (`deadlines_iff`).

The three computations of the kernel are one definition each (`createInTx`,
`timedOut`); what they share is `secsToMillis`.
-/

namespace PunkgoKernel

open Relational (Table key)

/-- The computation of a deadline stays within 64 bits. -/
def DeadlineFits (now : Nat) (secs : Int) : Prop :=
  (secs % 2 ^ 64).toNat * 1000 < 2 ^ 64 ∧ parseU64 now + (secs % 2 ^ 64).toNat * 1000 < 2 ^ 64

/-- What was asked for is what is enforced, in exact integers and at every
64-bit reading of the clock. -/
structure DeadlinesAsAsked (spec : EnvelopeSpec) (now : Nat) (row : EnvelopeRecord) : Prop where
  duration : ∀ secs, spec.durationSecs = some secs → 0 ≤ secs → ∀ t : Nat, t < 2 ^ 64 →
    (isEnvelopeExpired row t = true ↔ (now : Int) + 1000 * secs ≤ t)
  negative : ∀ secs, spec.durationSecs = some secs → secs < 0 → DeadlineFits now secs
  timeout : ∀ secs, spec.holdTimeoutSecs = some secs → 0 < secs → ∀ h t : Nat, h < 2 ^ 64 →
    t < 2 ^ 64 → (timedOut t h secs = true ↔ 1000 * secs < (t : Int) - h)

/-! ## Seconds in milliseconds -/

theorem secsToMillis_of_nonneg {secs : Int} (hpos : 0 ≤ secs) :
    secsToMillis secs = (1000 * secs).toNat % 2 ^ 64 := by
  unfold secsToMillis
  omega

theorem secsToMillis_of_fits {secs : Int} (hpos : 0 ≤ secs) (hfits : 1000 * secs < 2 ^ 64) :
    (secsToMillis secs : Int) = 1000 * secs := by
  rw [secsToMillis_of_nonneg hpos]
  omega

/-- A negative number of seconds does not fit. -/
theorem overflows_of_neg {secs : Int} (hmin : Json.i64Min ≤ secs) (hneg : secs < 0) (now : Nat) :
    ¬ DeadlineFits now secs := by
  rintro ⟨hproduct, -⟩
  unfold Json.i64Min at hmin
  omega

theorem parseU64_of_lt {n : Nat} (h : n < 2 ^ 64) : parseU64 n = n := if_pos h

/-! ## The two deadlines -/

/-- An envelope expires when it was asked to, exactly if its deadline fits. -/
theorem expires_as_asked_iff {row : EnvelopeRecord} {now : Nat} {secs : Int} (hpos : 0 ≤ secs)
    (hrow : row.expiresAt = some ((parseU64 now + secsToMillis secs) % 2 ^ 64)) :
    (∀ t : Nat, t < 2 ^ 64 → (isEnvelopeExpired row t = true ↔ (now : Int) + 1000 * secs ≤ t)) ↔
      (now : Int) + 1000 * secs < 2 ^ 64 := by
  have hexpired : ∀ t, isEnvelopeExpired row t = true ↔
      (parseU64 now + secsToMillis secs) % 2 ^ 64 ≤ t := by
    intro t
    unfold isEnvelopeExpired
    rw [hrow]
    exact decide_eq_true_iff
  constructor
  · intro h
    -- the reading at which the row expires
    have hreading : (parseU64 now + secsToMillis secs) % 2 ^ 64 < 2 ^ 64 :=
      Nat.mod_lt _ (by decide)
    have hasked := (h _ hreading).mp ((hexpired _).mpr le_rfl)
    omega
  · intro hfits t _
    have hnow : parseU64 now = now := parseU64_of_lt (by omega)
    have hmillis := secsToMillis_of_fits hpos (by omega)
    rw [hexpired, hnow]
    omega

/-- A hold times out when it was asked to, exactly if the timeout fits. -/
theorem times_out_as_asked_iff {secs : Int} (hpos : 0 < secs) :
    (∀ h t : Nat, h < 2 ^ 64 → t < 2 ^ 64 →
        (timedOut t h secs = true ↔ 1000 * secs < (t : Int) - h)) ↔ 1000 * secs < 2 ^ 64 := by
  have htimedOut : ∀ h t : Nat, h < 2 ^ 64 →
      (timedOut t h secs = true ↔ secsToMillis secs < t - h) := by
    intro h t hlt
    unfold timedOut
    rw [parseU64_of_lt hlt]
    exact decide_eq_true_iff
  constructor
  · intro h
    by_contra hwraps
    -- a multiple of eight, so below the last reading of the clock
    have hmillis := secsToMillis_of_nonneg hpos.le
    have hlast := (h 0 (2 ^ 64 - 1) (by decide) (by decide)).mp
      ((htimedOut 0 (2 ^ 64 - 1) (by decide)).mpr (by omega))
    omega
  · intro hfits h t hh _
    have hmillis := secsToMillis_of_fits hpos.le hfits
    rw [htimedOut h t hh]
    omega

variable [Externals]

/-- An accepted duration is a signed 64-bit number. -/
theorem parseEnvelopeFields_durationSecs {action : Action} {spec : EnvelopeSpec} {secs : Int}
    (h : parseEnvelopeFields action = .ok spec) (hsecs : spec.durationSecs = some secs) :
    Json.i64Min ≤ secs ∧ secs ≤ Json.i64Max := by
  unfold parseEnvelopeFields at h
  simp only at h
  split at h
  · cases h
  split at h
  · cases h
  split at h
  · cases h
  split at h
  · cases h
  obtain ⟨targets, -, h⟩ := bind_eq_ok.mp h
  obtain ⟨actions, -, h⟩ := bind_eq_ok.mp h
  obtain ⟨holdOn, -, h⟩ := bind_eq_ok.mp h
  cases h
  obtain ⟨value, -, hvalue⟩ := Option.bind_eq_some_iff.mp hsecs
  unfold Json.Value.asI64? at hvalue
  split at hvalue
  · split at hvalue
    · next hrange =>
      cases hvalue
      exact hrange
    · cases hvalue
  · cases hvalue

/-- The deadlines of an envelope are those it was asked for exactly when its
duration is not negative and, in milliseconds, leaves room for the clock, and its
timeout fits in milliseconds. -/
theorem deadlines_iff {action : Action} {spec : EnvelopeSpec} {envelopeId : String}
    {parentId : Option String} {now : Nat} {db db' : Db} {row : EnvelopeRecord}
    (haccepted : parseEnvelopeFields action = .ok spec)
    (hcreate : EnvelopeStore.createInTx envelopeId spec parentId now db = .ok db')
    (hrow : db'.envelopes.find? envelopeId = some row) :
    DeadlinesAsAsked spec now row ↔
      (∀ secs, spec.durationSecs = some secs → 0 ≤ secs ∧ (now : Int) + 1000 * secs < 2 ^ 64) ∧
        ∀ secs, spec.holdTimeoutSecs = some secs → 0 < secs → 1000 * secs < 2 ^ 64 := by
  obtain ⟨row', hfind, -, -, -, -, -, -, -, hexpires⟩ := EnvelopeStore.createInTx_find hcreate
  rw [hrow] at hfind
  cases hfind
  have hexpiresAt : ∀ secs, spec.durationSecs = some secs →
      row.expiresAt = some ((parseU64 now + secsToMillis secs) % 2 ^ 64) := by
    intro secs hsecs
    rw [hexpires, hsecs]
    rfl
  constructor
  · intro h
    refine ⟨?_, fun secs hsecs hpos => (times_out_as_asked_iff hpos).mp (h.timeout secs hsecs hpos)⟩
    intro secs hsecs
    have hpos : 0 ≤ secs := by
      by_contra hneg
      have hmin := (parseEnvelopeFields_durationSecs haccepted hsecs).1
      exact overflows_of_neg hmin (not_le.mp hneg) now (h.negative secs hsecs (not_le.mp hneg))
    exact ⟨hpos, (expires_as_asked_iff hpos (hexpiresAt secs hsecs)).mp (h.duration secs hsecs hpos)⟩
  · rintro ⟨hduration, htimeout⟩
    constructor
    · intro secs hsecs hpos
      exact (expires_as_asked_iff hpos (hexpiresAt secs hsecs)).mpr (hduration secs hsecs).2
    · intro secs hsecs hneg
      exact absurd (hduration secs hsecs).1 (not_le.mpr hneg)
    · intro secs hsecs hpos
      exact (times_out_as_asked_iff hpos).mpr (htimeout secs hsecs hpos)

/-! ## An hour, and a span that wraps -/

/-- Root grants an envelope for a number of seconds. -/
def grantForSecs (secs : Int) : Action where
  actorId := "root"
  actionType := .create
  target := "ledger/envelope"
  payload := Json.object
    [("actor_id", .str "agent-1"),
     ("budget", .num (.int 10)),
     ("targets", .arr [.str "**"]),
     ("actions", .arr [.str "mutate"]),
     ("duration_secs", .num (.int secs)),
     ("hold_timeout_secs", .num (.int 60))]
  timestamp := none

def specForSecs (secs : Int) : EnvelopeSpec where
  actorId := "agent-1"
  grantorId := "root"
  budget := 10
  targets := ["**"]
  actions := ["mutate"]
  durationSecs := some secs
  reportEvery := none
  holdOn := []
  holdTimeoutSecs := some 60

omit [Externals] in
/-- An envelope for an hour, with holds for a minute, and the deadlines it gets. -/
theorem deadlines_anHour :
    letI := reference
    ∃ db row, EnvelopeStore.createInTx "envelope-1" (specForSecs 3600) none 1000
        StateStore.genesis = .ok db ∧
      db.envelopes.find? "envelope-1" = some row ∧ DeadlinesAsAsked (specForSecs 3600) 1000 row := by
  refine ⟨_, _, rfl, rfl, ?_⟩
  refine (@deadlines_iff reference (grantForSecs 3600) (specForSecs 3600) "envelope-1" none 1000
    StateStore.genesis _ _ (by decide) rfl rfl).mpr ⟨?_, ?_⟩
  · intro secs hsecs
    obtain rfl : (3600 : Int) = secs := Option.some.inj hsecs
    decide
  · intro secs hsecs _
    obtain rfl : (60 : Int) = secs := Option.some.inj hsecs
    decide

omit [Externals] in
/-- Half a billion years wrap to less than half a second, as milliseconds are counted in
64 bits. -/
theorem deadlines_wrap :
    letI := reference
    ¬ ∀ action spec envelopeId parentId now db db' row, parseEnvelopeFields action = .ok spec →
      EnvelopeStore.createInTx envelopeId spec parentId now db = .ok db' →
      db'.envelopes.find? envelopeId = some row → DeadlinesAsAsked spec now row := by
  intro hclaim
  have hasked := hclaim (grantForSecs 18446744073709552) (specForSecs 18446744073709552)
    "envelope-1" none 1000 StateStore.genesis _ _ (by decide) rfl rfl
  have hexpired := (hasked.duration 18446744073709552 rfl (by decide) 2000 (by decide)).mp
    (by decide)
  exact absurd hexpired (by decide)

end PunkgoKernel
