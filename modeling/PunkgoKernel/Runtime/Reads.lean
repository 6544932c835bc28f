import Mathlib.Data.List.Sort
import PunkgoKernel.Lib.Paging
import PunkgoKernel.State.EventLog
import PunkgoKernel.State.EnvelopeStore

/-!
# The `events` read

One query serves both directions of paging: it has a bound from above and one
from below, it orders by the index from the newest down, and it is cut off at
the limit.
-/

namespace PunkgoKernel

variable [Externals]

/-- A row of `events` read back. -/
def EventRecord.readBack (row : EventRecord) : EventRecord := { row with payload := reread row.payload }

omit [Externals] in
/-- The `WHERE` clause: the conditions that are asked for, all of them. -/
def EventLog.selects (actorId : Option String) (beforeIndex afterIndex : Option Int)
    (row : EventRecord) : Bool :=
  actorId.all (fun a => row.actorId = a) && beforeIndex.all (fun b => decide ((row.logIndex : Int) < b)) &&
    afterIndex.all (fun a => decide (a < (row.logIndex : Int)))

omit [Externals] in
/-- `LIMIT`, where a negative number is none. -/
def limited (limit : Int) (rows : List EventRecord) : List EventRecord :=
  if limit < 0 then rows else rows.take limit.toNat

/-- The page of a read: the rows the clause selects, the newest first, cut off at the
limit. -/
def EventLog.query (actorId : Option String) (beforeIndex afterIndex : Option Int) (limit : Int)
    (db : Db) : List EventRecord :=
  let rows := db.events.rows.filter (EventLog.selects actorId beforeIndex afterIndex)
  let rows := rows.insertionSort fun a b => b.logIndex ≤ a.logIndex
  (limited limit rows).map EventRecord.readBack

/-- What an `events` read is asked for. -/
structure EventsQuery where
  actorId : Option String
  beforeIndex : Option Int
  afterIndex : Option Int
  limit : Option Int
deriving DecidableEq

omit [Externals] in
/-- `query.limit.unwrap_or(20).clamp(1, 500)`. -/
def EventsQuery.clampedLimit (query : EventsQuery) : Int := max 1 (min 500 (query.limit.getD 20))

/-- The `events` branch of `read_query`. There is more where the page is full,
which the code does not look into further, and the cursor is the index of the
page's last event. -/
def eventsRead (query : EventsQuery) (db : Db) : Paging.Page EventRecord :=
  let events := EventLog.query query.actorId query.beforeIndex query.afterIndex query.clampedLimit db
  { items := events
    hasMore := (events.length : Int) = query.clampedLimit
    nextCursor := events.getLast?.map fun e => (e.logIndex : Int) }

end PunkgoKernel
