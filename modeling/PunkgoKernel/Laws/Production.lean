import PunkgoKernel.Lib.Apportion
import PunkgoKernel.Laws.Conservation
import PunkgoKernel.Laws.Ledger

/-!
# Production ticks

A tick gives out exactly what it is asked to, to the active agents with a share
and in proportion to it (`produceTick_neutral`). Every one of them has a ledger
row, so no credit is refused; what rounding down leaves is less than one unit for
each, so the loop that gives it out in single units ends before it comes round.
-/

namespace PunkgoKernel

open Relational (Table key)
open Resumption
open Apportion (handOut turns)

/-! ## The credits of a tick -/

/-- One more unit for an actor. -/
def oneMore (a : String × Int) : String × Int := (a.1, a.2 + 1)

/-- One more unit, many times over. -/
theorem oneMore_iterate (n : Nat) (a : String × Int) : oneMore^[n] a = (a.1, a.2 + n) := by
  induction n with
  | zero => exact (congrArg (Prod.mk a.1) (add_zero a.2)).symm
  | succ n ih =>
    rw [Function.iterate_succ_apply', ih]
    refine congrArg (Prod.mk a.1) ?_
    show a.2 + n + 1 = a.2 + (n + 1 : Nat)
    omega

/-- The loop over the remainder hands out one unit after the other, in turns. -/
theorem distributeRemainder_eq (remainder idx : Nat) (allocations : List (String × Int)) :
    distributeRemainder remainder idx allocations = handOut oneMore remainder idx allocations := by
  induction remainder generalizing idx allocations with
  | zero => rfl
  | succ remainder ih => exact ih _ _

section Credits

variable {F : Type} (ops : ShareArithmetic F)

/-- The units that rounding down leaves. -/
def leftover (energyPerTick : Int) (actors : List (String × ℚ)) : Nat :=
  (energyPerTick - (actors.map fun a =>
    floorPart ops energyPerTick (totalShares ops actors) a.2).sum).toNat

/-- What the actor in one place of the list gets: its part rounded down, and one unit
for each turn in which it comes up. -/
def creditAt (energyPerTick : Int) (actors : List (String × ℚ)) (i : Nat) (share : ℚ) : Int :=
  floorPart ops energyPerTick (totalShares ops actors) share +
    turns (leftover ops energyPerTick actors) actors.length 0 i

/-- The credits of a tick: the parts rounded down, with the units that this leaves
handed out in turns. -/
theorem allocate_eq (energyPerTick : Int) (actors : List (String × ℚ)) :
    allocate ops energyPerTick actors = handOut oneMore (leftover ops energyPerTick actors) 0
      (actors.map fun a => (a.1, floorPart ops energyPerTick (totalShares ops actors) a.2)) := by
  unfold allocate leftover
  simp only
  rw [distributeRemainder_eq, List.map_map]
  rfl

/-- A tick credits the actors it has found, in their order. -/
theorem ids_allocate (energyPerTick : Int) (actors : List (String × ℚ)) :
    (allocate ops energyPerTick actors).map (·.1) = actors.map (·.1) := by
  rw [allocate_eq, Apportion.map_handOut (f := oneMore) (fun _ => rfl), List.map_map]
  rfl

/-- The credits of a tick, one by one. -/
theorem getElem?_allocate (energyPerTick : Int) {actors : List (String × ℚ)} {i : Nat}
    {a : String × ℚ} (ha : actors[i]? = some a) :
    (allocate ops energyPerTick actors)[i]? =
      some (a.1, creditAt ops energyPerTick actors i a.2) := by
  have hi : i < actors.length := (List.getElem?_eq_some_iff.mp ha).1
  rw [allocate_eq, Apportion.getElem?_handOut oneMore (by rw [List.length_map]; omega)
    (by rwa [List.length_map]), List.getElem?_map, ha, List.length_map, Option.map_some,
    Option.map_some, oneMore_iterate]
  rfl

end Credits

/-! ## Exact credits -/

/-- The actors a tick gives to, each with a share. -/
structure Sharing (actors : List (String × ℚ)) : Prop where
  nonempty : actors ≠ []
  positive : ∀ a ∈ actors, 0 < a.2

/-- The shares together are something. -/
theorem Sharing.sum_pos {actors : List (String × ℚ)} (h : Sharing actors) :
    0 < (actors.map (·.2)).sum := by
  refine List.sum_pos _ ?_ ?_
  · intro s hs
    obtain ⟨a, ha, rfl⟩ := List.mem_map.mp hs
    exact h.positive a ha
  · exact List.map_eq_nil_iff.not.mpr h.nonempty

/-- Added up exactly, the total is the sum of the shares. -/
theorem totalShares_rationals (actors : List (String × ℚ)) :
    totalShares rationals actors = (actors.map (·.2)).sum := by
  have hfold : ∀ (rest : List (String × ℚ)) (start : ℚ),
      rest.foldl (fun total a => total + a.2) start = start + (rest.map (·.2)).sum := by
    intro rest
    induction rest with
    | nil => exact fun start => (add_zero start).symm
    | cons a rest ih =>
      intro start
      rw [List.foldl_cons, ih, List.map_cons, List.sum_cons, add_assoc]
  exact (hfold actors 0).trans (zero_add _)

/-- An actor's exact part of the production, rounded down. -/
theorem floorPart_rationals (energyPerTick : Int) (actors : List (String × ℚ)) (share : ℚ) :
    floorPart rationals energyPerTick (totalShares rationals actors) share =
      ⌊(energyPerTick : ℚ) * (share / (actors.map (·.2)).sum)⌋ := by
  rw [totalShares_rationals]
  rfl

/-- Less is left than there are actors. -/
theorem leftover_lt (energyPerTick : Int) {actors : List (String × ℚ)} (h : Sharing actors) :
    (leftover rationals energyPerTick actors : Int) = energyPerTick - (actors.map fun a =>
        floorPart rationals energyPerTick (totalShares rationals actors) a.2).sum ∧
      leftover rationals energyPerTick actors < actors.length := by
  have hparts := Apportion.sum_parts (energyPerTick : ℚ) h.sum_pos.ne'
  have hne : ((actors.map (·.2)).map fun s =>
      (energyPerTick : ℚ) * (s / (actors.map (·.2)).sum)) ≠ [] := by
    simpa using h.nonempty
  obtain ⟨hle, hlt⟩ := Apportion.leftover_bounds hparts hne
  rw [List.map_map, List.map_map] at hle hlt
  rw [List.length_map, List.length_map] at hlt
  have hsame : (Int.floor ∘ fun s => (energyPerTick : ℚ) * (s / (actors.map (·.2)).sum)) ∘
      (fun a : String × ℚ => a.2) = fun a =>
        floorPart rationals energyPerTick (totalShares rationals actors) a.2 :=
    funext fun a => (floorPart_rationals energyPerTick actors a.2).symm
  rw [hsame] at hle hlt
  unfold leftover
  omega

/-- The first actors get one unit more than their parts, and none gets two. -/
theorem creditAt_rationals (energyPerTick : Int) {actors : List (String × ℚ)} (h : Sharing actors)
    {i : Nat} (hi : i < actors.length) (share : ℚ) :
    creditAt rationals energyPerTick actors i share =
      ⌊(energyPerTick : ℚ) * (share / (actors.map (·.2)).sum)⌋ +
        if i < leftover rationals energyPerTick actors then 1 else 0 := by
  unfold creditAt
  rw [Apportion.turns_start_of_lt (leftover_lt energyPerTick h).2.le hi, floorPart_rationals]
  split <;> rfl

/-- With exact shares a tick gives out exactly what it is asked to. -/
theorem sum_allocate (energyPerTick : Int) {actors : List (String × ℚ)} (h : Sharing actors) :
    ((allocate rationals energyPerTick actors).map (·.2)).sum = energyPerTick := by
  have hpos := List.length_pos_iff.mpr h.nonempty
  rw [allocate_eq, Apportion.sum_handOut (fun _ => rfl) (by rwa [List.length_map]),
    (leftover_lt energyPerTick h).1, List.map_map]
  exact add_sub_cancel _ _

/-- No credit is negative. -/
theorem allocate_nonneg {energyPerTick : Int} (hnonneg : 0 ≤ energyPerTick)
    {actors : List (String × ℚ)} (h : Sharing actors) :
    ∀ a ∈ allocate rationals energyPerTick actors, 0 ≤ a.2 := by
  intro c hc
  obtain ⟨i, hi⟩ := List.mem_iff_getElem?.mp hc
  have hlength : (allocate rationals energyPerTick actors).length = actors.length := by
    have hids := congrArg List.length (ids_allocate rationals energyPerTick actors)
    rwa [List.length_map, List.length_map] at hids
  have hless : i < actors.length := hlength ▸ (List.getElem?_eq_some_iff.mp hi).1
  have ha := List.getElem?_eq_getElem hless
  rw [getElem?_allocate rationals energyPerTick ha, creditAt_rationals energyPerTick h hless] at hi
  cases hi
  have hshare := h.positive _ (List.getElem_mem hless)
  have hfloor : 0 ≤ ⌊(energyPerTick : ℚ) * (actors[i].2 / (actors.map (·.2)).sum)⌋ := by
    refine Int.floor_nonneg.mpr (mul_nonneg (by exact_mod_cast hnonneg) ?_)
    exact div_nonneg hshare.le h.sum_pos.le
  show 0 ≤ ⌊(energyPerTick : ℚ) * (actors[i].2 / (actors.map (·.2)).sum)⌋ + _
  split <;> omega

/-! ## The credits in the ledger -/

/-- The credits of a list: those of its first entry and those of the rest. -/
theorem credits_cons (actorId : String) (credit : Int) (rest : List (String × Int)) (x : String) :
    credits ((actorId, credit) :: rest) x =
      (if 0 < credit then amountFor actorId credit x else 0) + credits rest x := List.sum_cons

/-- An actor that is not listed gets nothing. -/
theorem credits_of_not_mem {allocations : List (String × Int)} {x : String}
    (h : x ∉ allocations.map (·.1)) : credits allocations x = 0 := by
  induction allocations with
  | nil => rfl
  | cons a rest ih =>
    obtain ⟨actorId, credit⟩ := a
    have hne : actorId ≠ x := fun heq => h (heq ▸ List.mem_cons_self)
    have hrest : x ∉ rest.map (·.1) := fun hx => h (List.mem_cons_of_mem _ hx)
    rw [credits_cons, ih hrest, add_zero]
    unfold amountFor
    rw [if_neg hne, ite_self]

/-- An actor that is listed once gets its credit. -/
theorem credits_of_mem {allocations : List (String × Int)}
    (hnodup : (allocations.map (·.1)).Nodup) {a : String × Int} (ha : a ∈ allocations)
    (hnonneg : 0 ≤ a.2) : credits allocations a.1 = a.2 := by
  induction allocations with
  | nil => cases ha
  | cons b rest ih =>
    obtain ⟨hfirst, hrest⟩ := List.nodup_cons.mp hnodup
    rw [credits_cons b.1 b.2]
    unfold amountFor
    rcases List.mem_cons.mp ha with rfl | ha
    · rw [credits_of_not_mem hfirst, if_pos rfl, add_zero]
      split <;> omega
    · have hne : b.1 ≠ a.1 := by
        intro heq
        have hmem := List.mem_map_of_mem (f := (·.1)) ha
        rw [← heq] at hmem
        exact hfirst hmem
      rw [if_neg hne, ite_self, zero_add]
      exact ih hrest ha

/-- The balances grow by some amounts, and nothing else changes. -/
structure Grown (amount : String → Int) (db db' : Db) : Prop where
  frame : { db' with energyLedger := db.energyLedger } = db
  rows : ∀ x, db'.energyLedger.find? x = (db.energyLedger.find? x).map fun row =>
    { row with energyBalance := row.energyBalance + amount x }

/-- Nothing grows where nothing is done. -/
theorem Grown.refl (db : Db) : Grown (fun _ => 0) db db := by
  refine ⟨rfl, ?_⟩
  intro x
  cases db.energyLedger.find? x with
  | none => rfl
  | some row =>
    show some row = some { row with energyBalance := row.energyBalance + 0 }
    rw [add_zero]

/-- Where balances grow twice, they grow by both amounts. -/
theorem Grown.trans {amount amount' : String → Int} {a b c : Db} (h : Grown amount a b)
    (h' : Grown amount' b c) : Grown (fun x => amount x + amount' x) a c := by
  refine ⟨?_, ?_⟩
  · have hframe := congrArg (fun db : Db => { db with energyLedger := a.energyLedger }) h'.frame
    exact hframe.trans h.frame
  · intro x
    rw [h'.rows x, h.rows x, Option.map_map]
    congr 1
    funext row
    show (⟨_, _, _⟩ : EnergyRow) = ⟨_, _, _⟩
    rw [add_assoc]

/-- A credit to an actor with a ledger row is not refused, and adds to that row's
balance. -/
theorem creditEnergyInTx_ok {actorId : String} {credit : Int} {db : Db} (hpos : 0 < credit)
    (hrow : (db.energyLedger.find? actorId).isSome) :
    ∃ db', EnergyLedger.creditEnergyInTx actorId credit db = .ok db' ∧
      Grown (amountFor actorId credit) db db' := by
  obtain ⟨row, hrow⟩ := Option.isSome_iff_exists.mp hrow
  unfold EnergyLedger.creditEnergyInTx
  rw [if_neg (not_le.mpr hpos), hrow]
  refine ⟨_, rfl, rfl, ?_⟩
  intro x
  show (db.energyLedger.modify actorId _).find? x = _
  rw [Table.find?_modify]
  unfold amountFor
  by_cases hx : x = actorId
  · rw [if_pos hx, if_pos hx.symm, hx]
  · rw [if_neg hx, if_neg (Ne.symm hx)]
    exact ((Grown.refl db).rows x)

/-- Where every actor has its row, no credit is refused. -/
theorem creditAll_ok {allocations : List (String × Int)} {db : Db}
    (hrows : ∀ a ∈ allocations, (db.energyLedger.find? a.1).isSome) :
    ∃ count db',
      creditAll allocations db = .ok ((count, (allocations.map fun a => max a.2 0).sum), db') ∧
      Grown (credits allocations) db db' := by
  induction allocations generalizing db with
  | nil => exact ⟨0, db, rfl, Grown.refl db⟩
  | cons a rest ih =>
    obtain ⟨actorId, credit⟩ := a
    have hsum : (((actorId, credit) :: rest).map fun a => max a.2 0).sum =
        max credit 0 + (rest.map fun a => max a.2 0).sum := List.sum_cons
    have hcredits : credits ((actorId, credit) :: rest) = fun x =>
        (if 0 < credit then amountFor actorId credit x else 0) + credits rest x :=
      funext (credits_cons actorId credit rest)
    rw [hsum, hcredits]
    unfold creditAll
    by_cases hpos : 0 < credit
    · obtain ⟨db₁, hcredit, hgrown⟩ := creditEnergyInTx_ok hpos (hrows _ List.mem_cons_self)
      obtain ⟨count, db', hok, hrest⟩ := @ih db₁ fun a ha => by
        rw [hgrown.rows, Option.isSome_map]
        exact hrows a (List.mem_cons_of_mem _ ha)
      refine ⟨count + 1, db', ?_, ?_⟩
      · rw [if_neg (not_le.mpr hpos), max_eq_left hpos.le, add_comm credit]
        exact bind_eq_ok.mpr ⟨db₁, hcredit, bind_eq_ok.mpr ⟨_, hok, rfl⟩⟩
      · simp only [if_pos hpos]
        exact hgrown.trans hrest
    · obtain ⟨count, db', hok, hrest⟩ := @ih db fun a ha =>
        hrows a (List.mem_cons_of_mem _ ha)
      refine ⟨count, db', ?_, ?_⟩
      · rw [if_pos (not_lt.mp hpos), max_eq_right (not_lt.mp hpos), zero_add]
        exact hok
      · simp only [if_neg hpos, zero_add]
        exact hrest

/-! ## One tick -/

/-- The actor takes part in the production: it is an active agent with a share. -/
def Db.Produces (db : Db) (x : String) : Prop :=
  ∃ row, db.actors.find? x = some row ∧ row.status = .active ∧ row.actorType = .agent ∧
    0 < row.energyShare

/-- The list a tick looks up is the actors that take part in the production. -/
theorem mem_listActive_iff (db : Db) (x : String) :
    x ∈ (ActorStore.listActiveWithShares db).map (·.1) ↔ db.Produces x := by
  unfold ActorStore.listActiveWithShares Db.Produces
  rw [List.map_map, List.mem_map]
  constructor
  · rintro ⟨row, hrow, rfl⟩
    obtain ⟨hmem, hshares⟩ := List.mem_filter.mp hrow
    obtain ⟨hactive, hpos, hagent⟩ := of_decide_eq_true hshares
    exact ⟨row, Table.find?_of_mem hmem, hactive, hagent, hpos⟩
  · rintro ⟨row, hfind, hactive, hagent, hpos⟩
    refine ⟨row, List.mem_filter.mpr ⟨Table.mem_of_find? hfind, ?_⟩, Table.key_of_find? hfind⟩
    exact decide_eq_true ⟨hactive, hpos, hagent⟩

/-- No actor is listed twice. -/
theorem nodup_listActive (db : Db) : ((ActorStore.listActiveWithShares db).map (·.1)).Nodup := by
  unfold ActorStore.listActiveWithShares
  rw [List.map_map]
  exact List.Sublist.nodup (List.Sublist.map _ List.filter_sublist) db.actors.unique

/-- Where somebody takes part, the list is one that a tick can share among. -/
theorem sharing_listActive {db : Db} (h : ∃ x, db.Produces x) :
    Sharing (ActorStore.listActiveWithShares db) := by
  refine ⟨?_, ?_⟩
  · obtain ⟨x, hx⟩ := h
    intro hnil
    have hmem := (mem_listActive_iff db x).mpr hx
    rw [hnil] at hmem
    cases hmem
  · intro a ha
    unfold ActorStore.listActiveWithShares at ha
    obtain ⟨row, hrow, rfl⟩ := List.mem_map.mp ha
    exact (of_decide_eq_true (List.mem_filter.mp hrow).2).2.1

/-- The credits of a tick, from the list of actors. -/
theorem map_credits_allocate {energyPerTick : Int} (hnonneg : 0 ≤ energyPerTick)
    {actors : List (String × ℚ)} (h : Sharing actors) (hnodup : (actors.map (·.1)).Nodup) :
    actors.map (fun a => credits (allocate rationals energyPerTick actors) a.1) =
      (allocate rationals energyPerTick actors).map (·.2) := by
  have hids := ids_allocate rationals energyPerTick actors
  have hmap : actors.map (fun a => credits (allocate rationals energyPerTick actors) a.1) =
      (allocate rationals energyPerTick actors).map fun a => credits (allocate rationals energyPerTick actors) a.1 := by
    have hcredits := congrArg (List.map (credits (allocate rationals energyPerTick actors))) hids
    rw [List.map_map, List.map_map] at hcredits
    exact hcredits.symm
  rw [hmap]
  refine List.map_congr_left ?_
  intro a ha
  exact credits_of_mem (hids ▸ hnodup) ha (allocate_nonneg hnonneg h a ha)

variable [Externals]

/-- A tick where nobody has a share. -/
theorem run_produceTick_nil (energyPerTick : Int) {db : Db}
    (h : ActorStore.listActiveWithShares db = []) :
    Attempt.run database (produceTick rationals energyPerTick) db = (.ok (.ticked 0 0), db) := by
  have hlist : Attempt.run database (call .listActiveWithShares) db =
      (.ok (ActorStore.listActiveWithShares db), db) := rfl
  unfold produceTick
  refine (Attempt.run_bind_ok database hlist).trans ?_
  rw [h, if_pos (.inl rfl)]
  rfl

/-- A tick whose credits go through ends with what it credited, and to how many. -/
theorem run_produceTick {energyPerTick : Int} {db db' : Db} {count : Nat} {total : Int}
    (h : Sharing (ActorStore.listActiveWithShares db))
    (hcredit : creditAll (allocate rationals energyPerTick (ActorStore.listActiveWithShares db)) db =
      .ok ((count, total), db')) :
    Attempt.run database (produceTick rationals energyPerTick) db = (.ok (.ticked total count), db') := by
  have hlist : Attempt.run database (call .listActiveWithShares) db =
      (.ok (ActorStore.listActiveWithShares db), db) := rfl
  have hcall : Attempt.run database
      (call (.creditAll (allocate rationals energyPerTick (ActorStore.listActiveWithShares db)))) db =
      (.ok (count, total), db') := by
    show exec _ db = _
    simp only [exec, transaction, hcredit]
  have hshared : ¬ (ActorStore.listActiveWithShares db = [] ∨
      rationals.nonpos (totalShares rationals (ActorStore.listActiveWithShares db)) = true) := by
    rintro (hnil | hle)
    · exact h.nonempty hnil
    · rw [totalShares_rationals] at hle
      exact absurd h.sum_pos (not_lt.mpr (of_decide_eq_true hle))
  unfold produceTick
  refine (Attempt.run_bind_ok database hlist).trans ?_
  rw [if_neg hshared]
  exact (Attempt.run_bind_ok database hcall).trans rfl

/-- A tick on a reachable state succeeds. If some active agent has a share, what
it credits is exactly the production: the agents get their parts rounded down, and
the first of them one unit more. Nobody else gets anything, and nothing but
balances changes. -/
theorem produceTick_neutral {pool : KernelPool}
    (h : Reachable kernelSystem StateStore.genesis pool) {energyPerTick : Int}
    (hnonneg : 0 ≤ energyPerTick) :
    ∃ (credit : String → Int) (count : Nat) (db' : Db),
      Attempt.run database (produceTick rationals energyPerTick) pool.store =
        (.ok (.ticked (((ActorStore.listActiveWithShares pool.store).map fun a => credit a.1).sum)
          count), db') ∧
      Grown credit pool.store db' ∧
      (∀ x, ¬ pool.store.Produces x → credit x = 0) ∧
      ((∃ x, pool.store.Produces x) →
        ((ActorStore.listActiveWithShares pool.store).map fun a => credit a.1).sum = energyPerTick ∧
        ∃ extra, extra < (ActorStore.listActiveWithShares pool.store).length ∧
          ∀ i actorId share,
            (ActorStore.listActiveWithShares pool.store)[i]? = some (actorId, share) →
            credit actorId = ⌊(energyPerTick : ℚ) *
              (share / ((ActorStore.listActiveWithShares pool.store).map (·.2)).sum)⌋ +
                if i < extra then 1 else 0) := by
  obtain ⟨tr, hrun⟩ := h
  have hsafe : LedgerSafe pool.store := KernelRun.keep ledgerSafe_genesis LedgerSafe.effect hrun
  generalize pool.store = db at hsafe ⊢
  by_cases hsome : ∃ x, db.Produces x
  · have hshare := sharing_listActive hsome
    have hids := ids_allocate rationals energyPerTick (ActorStore.listActiveWithShares db)
    have hrows : ∀ a ∈ allocate rationals energyPerTick (ActorStore.listActiveWithShares db),
        (db.energyLedger.find? a.1).isSome := by
      intro a ha
      have hmem := List.mem_map_of_mem (f := (·.1)) ha
      rw [hids, mem_listActive_iff] at hmem
      obtain ⟨row, hrow, -⟩ := hmem
      exact (hsafe.sameIds a.1).mp (by rw [hrow]; rfl)
    obtain ⟨count, db', hcredit, hgrown⟩ := creditAll_ok hrows
    have hmap := map_credits_allocate hnonneg hshare (nodup_listActive db)
    have hmax : (allocate rationals energyPerTick (ActorStore.listActiveWithShares db)).map
        (fun a => max a.2 0) = (allocate rationals energyPerTick (ActorStore.listActiveWithShares db)).map (·.2) :=
      List.map_congr_left fun a ha => max_eq_left (allocate_nonneg hnonneg hshare a ha)
    have htick := run_produceTick hshare hcredit
    rw [hmax, ← hmap] at htick
    refine ⟨_, count, db', htick, hgrown, ?_, ?_⟩
    · intro x hx
      refine credits_of_not_mem ?_
      rw [hids, mem_listActive_iff]
      exact hx
    · intro _
      refine ⟨?_, _, (leftover_lt energyPerTick hshare).2, ?_⟩
      · rw [hmap]
        exact sum_allocate energyPerTick hshare
      · intro i actorId share hi
        have hcredit := getElem?_allocate rationals energyPerTick hi
        have hplace := (List.getElem?_eq_some_iff.mp hi).1
        rw [creditAt_rationals energyPerTick hshare hplace] at hcredit
        have hmem := List.mem_of_getElem? hcredit
        exact credits_of_mem (hids ▸ nodup_listActive db) hmem
          (allocate_nonneg hnonneg hshare _ hmem)
  · have hnil : ActorStore.listActiveWithShares db = [] := by
      rw [← List.map_eq_nil_iff (f := (·.1)), List.eq_nil_iff_forall_not_mem]
      intro x hx
      exact hsome ⟨x, (mem_listActive_iff db x).mp hx⟩
    refine ⟨fun _ => 0, 0, db, ?_, Grown.refl db, fun _ _ => rfl, fun h => absurd h hsome⟩
    rw [run_produceTick_nil energyPerTick hnil, hnil]
    rfl

/-- Root creates an agent with a share of the production. -/
def createSharing (n : Nat) (actorId : String) (share : Int) : Request :=
  submitAt n "root" .create "ledger/actor" (Json.object
    [("actor_id", .str actorId), ("energy_balance", .num (.int 500)),
      ("energy_share", .num (.int share))])

/-- Three agents, the second with twice the share of the first, the third with none. -/
def agentsSharing : List (Turn Request) :=
  alone 30 (createSharing 0 "agent-1" 1) ++ alone 30 (createSharing 1 "agent-2" 2) ++
    alone 30 (createSharing 2 "agent-3" 0)

omit [Externals] in
/-- Of ten units the first agent gets three and the one that is left, the second six. -/
theorem produceTick_neutral_ten :
    letI := reference
    letI pool := (kernelPlayed agentsSharing).pool
    ActorStore.listActiveWithShares pool.store = [("agent-1", 1), ("agent-2", 2)] ∧
    ∃ (credit : String → Int) (count : Nat) (db' : Db),
      Attempt.run database (produceTick rationals 10) pool.store = (.ok (.ticked 10 count), db') ∧
      Grown credit pool.store db' ∧ credit "agent-1" = 4 ∧ credit "agent-2" = 6 ∧
      credit "agent-3" = 0 ∧ credit "root" = 0 := by
  have hlist : ActorStore.listActiveWithShares (kernelPlayed agentsSharing).pool.store =
      [("agent-1", 1), ("agent-2", 2)] := by
    rw [kernelPlayed_eq]
    decide +kernel
  have hproduces := mem_listActive_iff (kernelPlayed agentsSharing).pool.store
  obtain ⟨credit, count, db', htick, hgrown, hnobody, hsharing⟩ :=
    @produceTick_neutral reference _ ⟨_, kernelRun_played agentsSharing⟩ 10 (by decide)
  simp only [hlist] at htick hsharing hproduces
  obtain ⟨hsum, extra, hextra, hcredit⟩ := hsharing ⟨"agent-1", (hproduces _).mp (by decide)⟩
  have hfirst := hcredit 0 "agent-1" 1 rfl
  have hsecond := hcredit 1 "agent-2" 2 rfl
  have hthird : ⌊((10 : Int) : ℚ) * (1 / ([("agent-1", 1), ("agent-2", 2)].map
      fun a : String × ℚ => a.2).sum)⌋ = 3 := by decide +kernel
  have hthirds : ⌊((10 : Int) : ℚ) * (2 / ([("agent-1", 1), ("agent-2", 2)].map
      fun a : String × ℚ => a.2).sum)⌋ = 6 := by decide +kernel
  have htotal : credit "agent-1" + (credit "agent-2" + 0) = 10 := hsum
  have hless : extra < 2 := hextra
  rw [hthird] at hfirst
  rw [hthirds, if_neg (by omega)] at hsecond
  refine ⟨hlist, credit, count, db', ?_, hgrown, by omega, by omega, ?_, ?_⟩
  · rw [htick, hsum]
  · exact hnobody _ fun h => absurd ((hproduces _).mpr h) (by decide)
  · exact hnobody _ fun h => absurd ((hproduces _).mpr h) (by decide)

end PunkgoKernel
