import PunkgoKernel.Runtime.Evaluation
import PunkgoKernel.Laws.EventHash
import PunkgoKernel.Laws.Budget
import PunkgoKernel.Laws.Restart
import PunkgoKernel.Laws.Approval
import PunkgoKernel.Laws.Footprint
import PunkgoKernel.Laws.Resolution
import PunkgoKernel.Laws.MerkleStore
import PunkgoKernel.Laws.Reduction
import PunkgoKernel.Laws.Conservation
import PunkgoKernel.Laws.Termination
import PunkgoKernel.Laws.HumanGrant
import PunkgoKernel.Laws.LazyExpiry
import PunkgoKernel.Laws.Snapshot
import PunkgoKernel.Laws.Deadline
import PunkgoKernel.Laws.Reexecution
import PunkgoKernel.Laws.Cascade
import PunkgoKernel.Laws.Pagination
import PunkgoKernel.Laws.Production
import PunkgoKernel.Laws.Overflow
import PunkgoKernel.Laws.Timeout
import PunkgoKernel.Laws.AgentId
import PunkgoKernel.Laws.HexText
import PunkgoKernel.Laws.Inclusion
import PunkgoKernel.Laws.Delegation
import PunkgoKernel.Laws.Recursion
import PunkgoKernel.Laws.Freshness
import PunkgoKernel.Laws.Mediation
import PunkgoKernel.Laws.History
import PunkgoKernel.Laws.Provenance
import PunkgoKernel.Laws.Receipts
import PunkgoKernel.Laws.Clients
import PunkgoKernel.Laws.Charging
