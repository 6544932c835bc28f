import PunkgoKernel.Laws.Log
import PunkgoKernel.Runtime.Reads

/-!
# Paging through the events

The log is in the order of its indexes and grows only at its end, so a client
that pages through it over a running kernel is the client of `Paging`
(`Observed.growing`, `eventsRead_eq`).

- Backward, by `before_index`, it gets all events there were at its first request
  (`follows_events`).
- Forward, by `after_index`, a page has the NEWEST events after the index, and
  what lies between is never asked for again. Nothing is lost exactly if no more
  events come between two requests than a page has (`polls_events_iff`).
-/

namespace PunkgoKernel

open Paging (Page Ascending Growing Follow Poll newest within grown)
open Resumption

/-! ## The order of the log -/

/-- The index as it goes over the wire. -/
def EventRecord.index (event : EventRecord) : Int := event.logIndex

/-- The log is in the order of its indexes. -/
def EventsAscending (db : Db) : Prop := Ascending EventRecord.index db.events.rows

/-- Every index of the log is below the next. -/
theorem lt_nextIdx {db : Db} {event : EventRecord} (h : event ∈ db.events.rows) :
    event.logIndex < nextIdx db := by
  have hle : ∀ (indexes : List Nat) (m : Nat), m ≤ indexes.foldl max m ∧
      ∀ i ∈ indexes, i ≤ indexes.foldl max m := by
    intro indexes
    induction indexes with
    | nil => exact fun m => ⟨le_rfl, fun i hi => nomatch hi⟩
    | cons j rest ih =>
      intro m
      obtain ⟨hstart, hrest⟩ := ih (max m j)
      refine ⟨(le_max_left m j).trans hstart, ?_⟩
      intro i hi
      rcases List.mem_cons.mp hi with rfl | hi
      · exact (le_max_right m i).trans hstart
      · exact hrest i hi
  exact (hle _ 0).2 _ (List.mem_map_of_mem h)

variable [Externals]

/-- What operations do leaves the log ascending: what they append has an index above
all. -/
theorem EventsAscending.effect {op : Op} {db db' : Db} (he : Effect op db db')
    (h : EventsAscending db) : EventsAscending db' := by
  cases he with
  | commit event events leaf nodes _ hins =>
    show Ascending EventRecord.index events.rows
    rw [(Relational.Table.insert?_eq_some hins).2]
    refine List.pairwise_append.mpr ⟨h, List.pairwise_singleton _ _, ?_⟩
    intro x hx y hy
    obtain rfl := List.mem_singleton.mp hy
    exact Int.ofNat_lt.mpr (lt_nextIdx hx)
  | _ => exact h

/-! ## What a client sees -/

/-- The running kernel at one request of a client after the other: whatever
happens in between, happens. -/
structure Observed (pools : Nat → KernelPool) : Prop where
  reachable : Reachable kernelSystem StateStore.genesis (pools 0)
  leads : ∀ n, Leads kernelSystem (pools n) (pools (n + 1))

/-- The events of the log that a filter lets through, as they are read. -/
def matching (actorId : Option String) (db : Db) : List EventRecord :=
  (db.events.rows.filter fun row => actorId.all fun a => row.actorId = a).map EventRecord.readBack

/-- A row read back keeps its index. -/
@[simp] theorem index_readBack (row : EventRecord) : row.readBack.index = row.index := rfl

/-- The events that match a read are ascending as the log is. -/
theorem matching_ascending {db : Db} (h : EventsAscending db) (actorId : Option String) :
    Ascending EventRecord.index (matching actorId db) :=
  List.Pairwise.map _ (fun _ _ hlt => hlt) (h.filter _)

namespace Observed

variable {pools : Nat → KernelPool}

/-- Every store a reader has seen is reachable. -/
theorem reachable_at (h : Observed pools) (n : Nat) :
    Reachable kernelSystem StateStore.genesis (pools n) := by
  induction n with
  | zero => exact h.reachable
  | succ n ih => exact (h.leads n).reachable ih

/-- Every log a reader has seen is ascending. -/
theorem ascending (h : Observed pools) (n : Nat) : EventsAscending (pools n).store := by
  obtain ⟨tr, hr⟩ := h.reachable_at n
  exact KernelRun.keep List.Pairwise.nil EventsAscending.effect hr

/-- What a client pages through is in order and grows at its end. -/
theorem growing (h : Observed pools) (actorId : Option String) :
    Growing EventRecord.index fun n => matching actorId (pools n).store where
  ascending n := matching_ascending (h.ascending n) actorId
  grows n := by
    have hextend : (pools n).store.events.rows <+: (pools (n + 1)).store.events.rows := by
      refine (h.leads n).store_monotone (Q := fun a b => a.events.rows <+: b.events.rows)
        (fun _ => List.prefix_rfl) List.IsPrefix.trans exec_events_extend ?_
      intro db db' hboot
      rw [bootstrap_events hboot]
    exact (hextend.filter _).map _

end Observed

/-! ## What the query answers -/

omit [Externals] in
/-- The clause of the query is the agent's own condition and the bounds of the page. -/
theorem selects_eq (actorId : Option String) (beforeIndex afterIndex : Option Int) :
    EventLog.selects actorId beforeIndex afterIndex = fun row =>
      (actorId.all fun a => row.actorId = a) && within afterIndex beforeIndex row.index := by
  funext row
  unfold EventLog.selects within
  rw [Bool.and_assoc]
  rfl

omit [Externals] in
/-- Sorting what is in order the other way round turns it round. -/
theorem insertionSort_of_ascending {rows : List EventRecord}
    (h : Ascending EventRecord.index rows) :
    rows.insertionSort (fun a b => b.logIndex ≤ a.logIndex) = rows.reverse := by
  have hreverse : rows.reverse.Pairwise fun a b => b.logIndex < a.logIndex := by
    refine List.pairwise_reverse.mpr (h.imp ?_)
    intro a b hlt
    exact Int.ofNat_lt.mp hlt
  have hsorted := List.pairwise_insertionSort (fun a b : EventRecord => b.logIndex ≤ a.logIndex) rows
  have hperm := (List.perm_insertionSort (fun a b : EventRecord => b.logIndex ≤ a.logIndex) rows).trans
    (List.reverse_perm rows).symm
  -- sorted the same way, and no two events at one index
  refine hperm.eq_of_pairwise ?_ hsorted (hreverse.imp le_of_lt)
  intro a b ha hb hba hab
  have heq : a.logIndex = b.logIndex := le_antisymm hab hba
  exact h.index_inj ((List.perm_insertionSort _ _).mem_iff.mp ha) (List.mem_reverse.mp hb)
    (congrArg Int.ofNat heq)

/-- The events of a filter within bounds, as the `WHERE` clause has them. -/
theorem filter_matching (actorId : Option String) (beforeIndex afterIndex : Option Int) (db : Db) :
    ((matching actorId db).filter fun event => within afterIndex beforeIndex event.index) =
      (db.events.rows.filter (EventLog.selects actorId beforeIndex afterIndex)).map
        EventRecord.readBack := by
  unfold matching
  rw [List.filter_map, List.filter_filter, selects_eq]
  congr 2
  funext row
  exact Bool.and_comm _ _

/-- A query answers the newest events within its bounds. -/
theorem query_eq_newest {db : Db} (h : EventsAscending db) (actorId : Option String)
    (beforeIndex afterIndex : Option Int) {limit : Int} (hlimit : 0 ≤ limit) :
    EventLog.query actorId beforeIndex afterIndex limit db =
      newest EventRecord.index limit.toNat afterIndex beforeIndex (matching actorId db) := by
  have hsorted : Ascending EventRecord.index
      (db.events.rows.filter (EventLog.selects actorId beforeIndex afterIndex)) := h.filter _
  unfold EventLog.query limited newest
  simp only
  rw [if_neg (not_lt.mpr hlimit), insertionSort_of_ascending hsorted, filter_matching,
    List.map_take, List.map_reverse]

omit [Externals] in
/-- No page is asked for less than one event. -/
theorem clampedLimit_pos (query : EventsQuery) : 0 < query.clampedLimit := by
  unfold EventsQuery.clampedLimit
  omega

/-- An `events` read answers a page. -/
theorem eventsRead_eq {db : Db} (h : EventsAscending db) (query : EventsQuery) :
    eventsRead query db = Paging.pageOf EventRecord.index query.clampedLimit.toNat
      (newest EventRecord.index query.clampedLimit.toNat query.afterIndex query.beforeIndex
        (matching query.actorId db)) := by
  have hpos := clampedLimit_pos query
  unfold eventsRead Paging.pageOf
  simp only [query_eq_newest h query.actorId query.beforeIndex query.afterIndex hpos.le]
  congr 1
  refine decide_eq_decide.mpr ?_
  omega

/-! ## Backward -/

/-- The client of a backward reading at its request number `n`. -/
def pageBackward (actorId : Option String) (afterIndex limit : Option Int) (pools : Nat → KernelPool)
    (n : Nat) (cursor : Option Int) : Page EventRecord :=
  eventsRead ⟨actorId, cursor, afterIndex, limit⟩ (pools n).store

/-- Paging backward with the read is paging backward over the matching events. -/
theorem pageBackward_eq {pools : Nat → KernelPool} (h : Observed pools) (actorId : Option String)
    (afterIndex limit : Option Int) :
    pageBackward actorId afterIndex limit pools =
      Paging.backward EventRecord.index (max 1 (min 500 (limit.getD 20))).toNat afterIndex
        fun n => matching actorId (pools n).store := by
  funext n cursor
  exact eventsRead_eq (h.ascending n) ⟨actorId, cursor, afterIndex, limit⟩

/-- Whatever happens between the requests, a client that follows the cursors
comes to an end, and has got the matching events there were at its first request:
all of them, each once, from the newest down. -/
theorem follows_events {pools : Nat → KernelPool} (h : Observed pools) (actorId : Option String)
    (beforeIndex afterIndex limit : Option Int) :
    (∃ received, Follow (pageBackward actorId afterIndex limit pools) 0 beforeIndex received) ∧
      ∀ received, Follow (pageBackward actorId afterIndex limit pools) 0 beforeIndex received →
        (received.Pairwise fun newer older => older.logIndex < newer.logIndex) ∧
        received.Nodup ∧
        ∀ event, event ∈ received ↔ ∃ row ∈ (pools 0).store.events.rows,
          EventLog.selects actorId beforeIndex afterIndex row = true ∧ row.readBack = event := by
  have hgrowing := h.growing actorId
  have hpos : 0 < (EventsQuery.clampedLimit ⟨actorId, none, afterIndex, limit⟩).toNat :=
    Int.lt_toNat.mpr (clampedLimit_pos _)
  rw [pageBackward_eq h]
  refine ⟨Paging.exists_follow hgrowing hpos 0 beforeIndex, ?_⟩
  intro received hfollow
  have hreceived := hfollow.items_eq hgrowing hpos
  have hascending : Ascending EventRecord.index ((matching actorId (pools 0).store).filter
      fun event => within afterIndex beforeIndex event.index) := (hgrowing.ascending 0).filter _
  refine ⟨?_, ?_, ?_⟩
  · rw [hreceived]
    refine List.pairwise_reverse.mpr (hascending.imp ?_)
    intro older newer hlt
    exact Int.ofNat_lt.mp hlt
  · rw [hreceived]
    exact List.nodup_reverse.mpr hascending.nodup
  · intro event
    rw [hreceived, List.mem_reverse, filter_matching, List.mem_map]
    constructor
    · rintro ⟨row, hrow, rfl⟩
      obtain ⟨hmem, hselects⟩ := List.mem_filter.mp hrow
      exact ⟨row, hmem, hselects, rfl⟩
    · rintro ⟨row, hmem, hselects, rfl⟩
      exact ⟨row, List.mem_filter.mpr ⟨hmem, hselects⟩, rfl⟩

/-- A kernel seen in one state and ever after in another. -/
def seenTwice (pool pool' : KernelPool) : Nat → KernelPool
  | 0 => pool
  | _ + 1 => pool'

/-- Two stores of a run, one after the other, are what a reader can see. -/
theorem observed_seenTwice {pool pool' : KernelPool}
    (h : Reachable kernelSystem StateStore.genesis pool) (hleads : Leads kernelSystem pool pool') :
    Observed (seenTwice pool pool') where
  reachable := h
  leads n := by
    cases n with
    | zero => exact hleads
    | succ n => exact .refl

omit [Externals] in
/-- What a schedule leaves is reachable. -/
theorem reachable_played (turns : List (Turn Request)) :
    @Reachable _ _ _ _ (@kernelSystem reference) StateStore.genesis (kernelPlayed turns).pool :=
  ⟨_, kernelRun_played turns⟩

omit [Externals] in
/-- One event a page, while the log grows from one event to three. -/
theorem follows_growing :
    letI := reference
    letI start := kernelPlayed (alone 30 (createAgent 0 "agent-1" 500))
    letI pools := seenTwice start.pool (play kernelSystem
      (alone 30 (grantEnvelope 1 "agent-1" 100 []) ++
        alone 30 (submitAt 2 "agent-1" .mutate "workspace/a" (.obj []))) start).pool
    (∃ received, Follow (pageBackward none none (some 1) pools) 0 none received) ∧
      ∀ received, Follow (pageBackward none none (some 1) pools) 0 none received →
        (received.Pairwise fun newer older => older.logIndex < newer.logIndex) ∧
        received.Nodup ∧
        ∀ event, event ∈ received ↔ ∃ row ∈ (pools 0).store.events.rows,
          EventLog.selects none none none row = true ∧ row.readBack = event :=
  @follows_events reference _
    (@observed_seenTwice reference _ _ (reachable_played _) (leads_play _ .refl)) none none none
    (some 1)

/-! ## Forward -/

/-- The client that polls for new events, at its request number `n`. -/
def pollForward (actorId : Option String) (limit : Option Int) (pools : Nat → KernelPool) (n : Nat)
    (received : Int) : List EventRecord :=
  (eventsRead ⟨actorId, none, some received, limit⟩ (pools n).store).items

/-- The number of matching events that are new at a client's request. -/
def newlyCommitted (actorId : Option String) (pools : Nat → KernelPool) : Nat → Nat :=
  grown fun n => matching actorId (pools n).store

/-- A client that polls until a page is empty has every matching event exactly
once if and only if at no request there are more new ones than a page has. -/
theorem polls_events_iff {pools : Nat → KernelPool} (h : Observed pools) (actorId : Option String)
    (limit : Option Int) {last : Nat} {received : List EventRecord}
    (hpoll : Poll EventRecord.index (pollForward actorId limit pools) 0 (-1) last received) :
    received.Perm (matching actorId (pools last).store) ↔
      ∀ n, n ≤ last → (newlyCommitted actorId pools n : Int) ≤ max 1 (min 500 (limit.getD 20)) := by
  have hforward : pollForward actorId limit pools =
      Paging.forward EventRecord.index (max 1 (min 500 (limit.getD 20))).toNat
        fun n => matching actorId (pools n).store := by
    funext n c
    exact congrArg Page.items (eventsRead_eq (h.ascending n) ⟨actorId, none, some c, limit⟩)
  have hpos : 0 < (max 1 (min 500 (limit.getD 20))).toNat := by omega
  rw [hforward] at hpoll
  rw [hpoll.perm_iff (h.growing actorId) hpos ?_]
  · constructor
    · intro hfits n hn
      have hle : newlyCommitted actorId pools n ≤ _ := hfits n hn
      omega
    · intro hfits n hn
      have hle := hfits n hn
      unfold newlyCommitted at hle
      omega
  · intro n event _
    show (-1 : Int) < event.logIndex
    omega

/-- A store that nothing changes is what a reader can see. -/
theorem observed_idle {pool : KernelPool} (h : Reachable kernelSystem StateStore.genesis pool) :
    Observed fun _ => pool := ⟨h, fun _ => .refl⟩

omit [Externals] in
/-- A kernel that has created an agent and granted it an envelope, and then idles. -/
def seenIdle : Nat → KernelPool := fun _ =>
  (lazyPlayed (alone 30 (createAgent 0 "agent-1" 500) ++
    alone 30 (grantEnvelope 1 "agent-1" 100 []))).pool

omit [Externals] in
/-- So is the store of this run. -/
theorem observed_seenIdle : @Observed reference seenIdle := by
  unfold seenIdle
  rw [← kernelPlayed_eq]
  exact @observed_idle reference _ (reachable_played _)

omit [Externals] in
/-- How long its log is, and how long the first two pages of a client are, with a
limit or without one. -/
theorem pages_seenIdle :
    letI := reference
    (matching none (seenIdle 1).store).length = 2 ∧
      ∀ limit ∈ [none, some 1],
        ((pollForward none limit seenIdle 0 (-1)).length : Int) = limit.getD 2 ∧
        (pollForward none limit seenIdle 1 (Paging.largest EventRecord.index (-1)
          (pollForward none limit seenIdle 0 (-1)))).length = 0 := by
  decide +kernel

omit [Externals] in
/-- A client of it is done at its second request. -/
theorem poll_seenIdle {limit : Option Int} (hlimit : limit ∈ [none, some 1]) :
    letI := reference
    Poll EventRecord.index (pollForward none limit seenIdle) 0 (-1) 1
      (pollForward none limit seenIdle 0 (-1) ++ []) := by
  have hsome : limit.getD 2 ≠ 0 := by
    rcases List.mem_pair.mp hlimit with rfl | rfl <;> decide
  obtain ⟨hfirst, hsecond⟩ := pages_seenIdle.2 limit hlimit
  refine .more ?_ (.done (List.length_eq_zero_iff.mp hsecond))
  intro hnil
  rw [← hfirst, hnil] at hsome
  exact hsome rfl

omit [Externals] in
/-- Without a limit a page has twenty events, so the poll gets both. -/
theorem polls_seenIdle :
    letI := reference
    (pollForward none none seenIdle 0 (-1) ++ []).Perm (matching none (seenIdle 1).store) ↔
      ∀ n, n ≤ 1 →
        (newlyCommitted none seenIdle n : Int) ≤ max 1 (min 500 ((none : Option Int).getD 20)) :=
  @polls_events_iff reference _ observed_seenIdle none none _ _ (poll_seenIdle (by decide))

omit [Externals] in
/-- With one event a page, one of the two events is lost: the page is of the newest, and
the cursor moves past the other. -/
theorem loses_seenIdle :
    letI := reference
    ¬ ∀ (pools : Nat → KernelPool), Observed pools → ∀ (actorId : Option String)
      (limit : Option Int) (last : Nat) (received : List EventRecord),
      Poll EventRecord.index (pollForward actorId limit pools) 0 (-1) last received →
      received.Perm (matching actorId (pools last).store) := by
  intro h
  have hperm := h seenIdle observed_seenIdle none (some 1) _ _ (poll_seenIdle (by decide))
  have hlength := hperm.length_eq
  obtain ⟨hall, hpages⟩ := pages_seenIdle
  obtain ⟨hfirst, -⟩ := hpages (some 1) (by decide)
  rw [List.append_nil, hall] at hlength
  rw [hlength] at hfirst
  exact absurd hfirst (by decide)

end PunkgoKernel
