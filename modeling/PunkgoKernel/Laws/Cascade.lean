import PunkgoKernel.Laws.Freezing

/-!
# How far a freeze reaches

A freeze is to reach the target and its active descendants, those with the
target in their lineage. The query asks whether the lineage's JSON text shows the
target's id between two quotation marks, and takes the id as a pattern for it
(`Shown`). So it finds other ids, where the case of a letter, a wildcard or a NUL
makes the difference, and misses the id itself where its JSON spelling is another. A
freeze reaches exactly whom it should as long as neither happens to an active actor,
and the id is short enough for a pattern at all (`freezes_exactly_iff`).
-/

namespace PunkgoKernel

open Json (Value)
open Relational (Table key)
open Resumption

/-! ## The reach of a freeze -/

/-- The actor is to be frozen with the target. -/
def Descends (targetId : String) (row : ActorRecord) : Prop :=
  row.status = .active ∧ targetId ∈ row.lineage

/-- A freeze sets the target and its active descendants to frozen, says so, each
once, and leaves the others as they are. -/
def FreezesExactly (targetId : String) (db : Db) : Prop :=
  ∃ frozenIds db', executeFreeze targetId db = .ok (frozenIds, db') ∧ frozenIds.Nodup ∧
    (∀ x, x ∈ frozenIds ↔
      x = targetId ∨ ∃ row, db.actors.find? x = some row ∧ Descends targetId row) ∧
    ∀ x, db'.actors.find? x = if x ∈ frozenIds
      then (db.actors.find? x).map fun r => { r with status := .frozen }
      else db.actors.find? x

/-- The lineage columns of the active actors show the target's id where it is in
the lineage, and only there. -/
structure ShowsLineages (targetId : String) (db : Db) : Prop where
  others : ∀ row ∈ db.actors.rows, row.status = .active → row.actorId ≠ targetId →
    (Shown targetId row.lineage ↔ targetId ∈ row.lineage)
  own : ∀ row ∈ db.actors.rows, row.status = .active → row.actorId = targetId →
    ¬ Shown targetId row.lineage

theorem mem_frozenBy {targetId x : String} {db : Db} :
    x ∈ frozenBy targetId db ↔ x = targetId ∨
      ∃ row, db.actors.find? x = some row ∧ row.status = .active ∧ Shown targetId row.lineage := by
  unfold frozenBy
  rw [List.mem_cons, List.mem_map]
  constructor
  · rintro (rfl | ⟨row, hrow, rfl⟩)
    · exact .inl rfl
    · obtain ⟨hmem, hfound⟩ := mem_descendants.mp hrow
      exact .inr ⟨row, Table.find?_of_mem hmem, hfound⟩
  · rintro (rfl | ⟨row, hrow, hfound⟩)
    · exact .inl rfl
    · exact .inr ⟨row, mem_descendants.mpr ⟨Table.mem_of_find? hrow, hfound⟩,
        Table.key_of_find? hrow⟩

/-- Nobody is frozen twice, unless the target is found among its own
descendants. -/
theorem nodup_frozenBy {targetId : String} {db : Db} :
    (frozenBy targetId db).Nodup ↔
      ∀ row ∈ db.actors.rows, row.status = .active → row.actorId = targetId →
        ¬ Shown targetId row.lineage := by
  have hsub : ((ActorStore.descendants targetId db).map (·.actorId)).Nodup :=
    List.Nodup.sublist (List.filter_sublist.map _) db.actors.unique
  unfold frozenBy
  rw [List.nodup_cons]
  constructor
  · rintro ⟨hnot, -⟩ row hrow hactive hself hshown
    exact hnot (List.mem_map.mpr ⟨row, mem_descendants.mpr ⟨hrow, hactive, hshown⟩, hself⟩)
  · intro h
    refine ⟨?_, hsub⟩
    intro hmem
    obtain ⟨row, hrow, hself⟩ := List.mem_map.mp hmem
    obtain ⟨hrow, hactive, hshown⟩ := mem_descendants.mp hrow
    exact h row hrow hactive hself hshown

/-- A freeze reaches the target and its active descendants and nobody else,
exactly if the target's id is short enough for the query, and the query finds every
active descendant, no other actor and not the target. -/
theorem freezes_exactly_iff {targetId : String} {db : Db}
    (hexists : (db.actors.find? targetId).isSome) :
    FreezesExactly targetId db ↔ ShortId targetId ∧ ShowsLineages targetId db := by
  constructor
  · rintro ⟨frozenIds, db', hok, hnodup, hids, -⟩
    obtain ⟨rfl, -⟩ := executeFreeze_eq_ok hok
    refine ⟨shortId_of_executeFreeze hok, ?_, nodup_frozenBy.mp hnodup⟩
    intro row hrow hactive hother
    have hfind : db.actors.find? row.actorId = some row := Table.find?_of_mem hrow
    have hreach := mem_frozenBy.symm.trans (hids row.actorId)
    simp only [hother, false_or, hfind, Option.some.injEq, exists_eq_left'] at hreach
    constructor
    · intro hshown
      exact (hreach.mp ⟨hactive, hshown⟩).2
    · intro hlineage
      exact (hreach.mpr ⟨hactive, hlineage⟩).2
  · rintro ⟨hshort, h⟩
    obtain ⟨db', hfreeze, hrows⟩ := executeFreeze_eq hshort hexists
    refine ⟨frozenBy targetId db, db', hfreeze, nodup_frozenBy.mpr h.own, ?_, hrows⟩
    intro x
    rw [mem_frozenBy]
    by_cases hself : x = targetId
    · exact ⟨fun _ => .inl hself, fun _ => .inl hself⟩
    constructor
    · rintro (heq | ⟨row, hrow, hactive, hshown⟩)
      · exact absurd heq hself
      · have hid : row.actorId = x := Table.key_of_find? hrow
        refine .inr ⟨row, hrow, hactive, ?_⟩
        exact (h.others row (Table.mem_of_find? hrow) hactive (hid ▸ hself)).mp hshown
    · rintro (heq | ⟨row, hrow, hactive, hlineage⟩)
      · exact absurd heq hself
      · have hid : row.actorId = x := Table.key_of_find? hrow
        refine .inr ⟨row, hrow, hactive, ?_⟩
        exact (h.others row (Table.mem_of_find? hrow) hactive (hid ▸ hself)).mpr hlineage

/-! ## Plain ids, and siblings -/

/-- Among actors with one plain creator each, or none, the columns show a target that
is a pattern of itself alone, unless it is somebody's creator in another case of
letters. -/
theorem showsLineages_plain {targetId : String} {db : Db} (htarget : PlainPattern targetId)
    (hlineages : ∀ row ∈ db.actors.rows, row.lineage = [] ∨
      ∃ creatorId, row.lineage = [creatorId] ∧ PlainId creatorId) :
    ShowsLineages targetId db ↔ ∀ row ∈ db.actors.rows, row.status = .active →
      ∀ creatorId ∈ row.lineage, folded creatorId.toList = folded targetId.toList →
        row.actorId ≠ targetId ∧ creatorId = targetId := by
  constructor
  · intro h row hrow hactive creatorId hcreator hfolded
    rcases hlineages row hrow with hnil | ⟨c, hlineage, hplain⟩
    · rw [hnil] at hcreator
      cases hcreator
    rw [hlineage] at hcreator
    obtain rfl := List.mem_singleton.mp hcreator
    have hshown : Shown targetId row.lineage := by
      rw [hlineage]
      exact (shown_plain hplain htarget).mpr hfolded
    have hother : row.actorId ≠ targetId := fun hself => h.own row hrow hactive hself hshown
    have hmem := (h.others row hrow hactive hother).mp hshown
    rw [hlineage] at hmem
    exact ⟨hother, (List.mem_singleton.mp hmem).symm⟩
  · intro h
    constructor
    · intro row hrow hactive hother
      rcases hlineages row hrow with hnil | ⟨c, hlineage, hplain⟩
      · rw [hnil]
        exact ⟨fun hshown => absurd hshown not_shown_nil, fun hmem => by cases hmem⟩
      · have hcreator := h row hrow hactive c (by rw [hlineage]; simp)
        rw [hlineage, shown_plain hplain htarget, List.mem_singleton]
        constructor
        · intro hfolded
          exact (hcreator hfolded).2.symm
        · rintro rfl
          rfl
    · intro row hrow hactive hself hshown
      rcases hlineages row hrow with hnil | ⟨c, hlineage, hplain⟩
      · rw [hnil] at hshown
        exact not_shown_nil hshown
      · rw [hlineage] at hshown
        have hfolded := (shown_plain hplain htarget).mp hshown
        exact (h row hrow hactive c (by rw [hlineage]; simp) hfolded).1 hself

/-- Root creates two agents. -/
def siblings (agentId : String) : List (Turn Request) :=
  alone 30 (createAgent 0 agentId 500) ++ alone 30 (createAgent 1 "agent-2" 500)

/-- An agent is frozen without its sibling, whose creator has another name
altogether. -/
theorem siblings_freeze_exactly :
    letI := reference
    ((kernelPlayed (siblings "agent-1")).pool.store.actors.find? "agent-1").isSome ∧
      FreezesExactly "agent-1" (kernelPlayed (siblings "agent-1")).pool.store := by
  have hexists :
      ((kernelPlayed (siblings "agent-1")).pool.store.actors.find? "agent-1").isSome = true := by
    rw [kernelPlayed_eq]
    decide +kernel
  have hrows : (kernelPlayed (siblings "agent-1")).pool.store.actors.rows.all (fun row =>
      decide (row.lineage = []) || decide (row.lineage = ["root"])) = true := by
    rw [kernelPlayed_eq]
    decide +kernel
  have hlineage : ∀ row ∈ (kernelPlayed (siblings "agent-1")).pool.store.actors.rows,
      row.lineage = [] ∨ row.lineage = ["root"] := by
    intro row hrow
    have hcases := List.all_eq_true.mp hrows row hrow
    rwa [Bool.or_eq_true, decide_eq_true_eq, decide_eq_true_eq] at hcases
  have hroot : PlainId "root" := by
    intro c hc
    simp only [show "root".toList = ['r', 'o', 'o', 't'] from rfl, List.mem_cons, List.not_mem_nil,
      or_false] at hc
    rcases hc with rfl | rfl | rfl | rfl <;> decide
  have hshort : ShortId "agent-1" := by decide
  refine ⟨hexists, (freezes_exactly_iff hexists).mpr ⟨hshort, (showsLineages_plain ?_ ?_).mpr ?_⟩⟩
  · have hascii : ∀ c ∈ "agent-1".toList, c.toNat < 128 := by simp
    exact ⟨⟨by decide, by decide⟩, by simp [nul], fun c hc => readChar_of_ascii (hascii c hc)⟩
  · intro row hrow
    exact (hlineage row hrow).imp_right fun h => ⟨"root", h, hroot⟩
  · intro row hrow _ creatorId hcreator hfolded
    rcases hlineage row hrow with hnil | hone
    · rw [hnil] at hcreator
      cases hcreator
    · rw [hone] at hcreator
      obtain rfl := List.mem_singleton.mp hcreator
      exact absurd hfolded (by decide)

/-- An agent called `ROOT` is frozen with its sibling, whose creator is root. -/
theorem siblings_frozen_together :
    letI := reference
    ¬ ∀ tr pool, KernelRun tr pool → ∀ targetId, (pool.store.actors.find? targetId).isSome →
      FreezesExactly targetId pool.store := by
  intro hclaim
  have hplayed : ((kernelPlayed (siblings "ROOT")).pool.store.actors.find? "ROOT").isSome = true ∧
      "agent-2" ∈ frozenBy "ROOT" (kernelPlayed (siblings "ROOT")).pool.store ∧
      ((kernelPlayed (siblings "ROOT")).pool.store.actors.find? "agent-2").map
        (·.lineage) = some ["root"] := by
    rw [kernelPlayed_eq]
    decide +kernel
  obtain ⟨hexists, hfound, hlineage⟩ := hplayed
  obtain ⟨frozenIds, db', hok, -, hids, -⟩ := hclaim _ _ (kernelRun_played (siblings "ROOT")) "ROOT"
    hexists
  obtain ⟨rfl, -⟩ := executeFreeze_eq_ok hok
  rcases (hids "agent-2").mp hfound with hself | ⟨row, hrow, -, hmem⟩
  · exact absurd hself (by decide)
  · have hrow' : row.lineage = ["root"] := by
      rw [hrow] at hlineage
      exact Option.some.inj hlineage
    rw [hrow'] at hmem
    exact absurd hmem (by decide)

end PunkgoKernel
