import PunkgoKernel.Core.Action

/-!
# Actors and their writable boundary (`actor.rs`, `boundary.rs`)

An actor is a human or an agent, active or frozen, with a creation lineage and
a list of writable targets. The boundary check denies by default: an action
other than an observation needs an entry that matches its target and lists its
type, and under `system/` and `ledger/` an entry whose pattern is `**`.
-/

namespace PunkgoKernel

open Json (Value)

/-- Humans and agents. Nothing ever changes the type of an actor. -/
inductive ActorType where
  | human
  | agent
deriving DecidableEq

/-- The text that the type column has. -/
def ActorType.asStr : ActorType → String
  | .human => "human"
  | .agent => "agent"

/-- The type that a payload names, of which any other text is an error. -/
def ActorType.parse (s : String) : Option ActorType :=
  if s = "human" then some .human else if s = "agent" then some .agent else none

/-- The debug spelling, as error texts show it, which starts with a capital. -/
def ActorType.debug : ActorType → String
  | .human => "Human"
  | .agent => "Agent"

/-- Active, or frozen. A termination leaves no status of its own. -/
inductive ActorStatus where
  | active
  | frozen
deriving DecidableEq

/-- The text that the status column has. -/
def ActorStatus.asStr : ActorStatus → String
  | .active => "active"
  | .frozen => "frozen"

/-- A glob pattern with the action types it grants, one entry of an actor's boundary. -/
structure WritableTarget where
  target : String
  actions : List String
deriving DecidableEq

/-- A row of the `actors` table. `created_at` and `updated_at` are written and
never read by the kernel. -/
structure ActorRecord where
  actorId : String
  actorType : ActorType
  creatorId : Option String
  lineage : List String
  purpose : Option String
  status : ActorStatus
  writableTargets : List WritableTarget
  energyShare : ℚ
  reductionPolicy : String
deriving DecidableEq

/-- What a creation asks for, after the defaults were filled in and the checks were
passed. -/
structure CreateActorSpec where
  actorId : String
  actorType : ActorType
  creatorId : String
  lineage : List String
  purpose : Option String
  writableTargets : List WritableTarget
  energyBalance : Int
  energyShare : ℚ
  reductionPolicy : String
deriving DecidableEq

/-- The lifecycle operations on actors. A termination is told from a freeze in the log
only. -/
inductive LifecycleOp where
  | freeze (reason : Option String)
  | unfreeze
  | terminate (reason : Option String)
  | updateEnergyShare (energyShare : ℚ)
deriving DecidableEq

/-! ## Identity and lineage -/

/-- Collapses runs of hyphens; `prev` says whether the last character kept was
one. -/
def collapseHyphens (prev : Bool) : List Char → List Char
  | [] => []
  | c :: cs =>
    if c = '-' then
      if prev then collapseHyphens true cs else c :: collapseHyphens true cs
    else c :: collapseHyphens false cs

/-- `trim_matches('-')`, on both ends. -/
def trimHyphens (cs : List Char) : List Char :=
  ((cs.dropWhile (· = '-')).reverse.dropWhile (· = '-')).reverse

/-- A purpose as it stands in an actor id: ASCII letters, digits and hyphens,
in lower case. -/
def sanitizePurpose (purpose : String) : String :=
  let s := purpose.toList.map fun c =>
    if (c.isAlpha || c.isDigit) || c = '-' then c.toLower else '-'
  String.ofList (trimHyphens (collapseHyphens false s))

/-- The identifier of an agent that is not named: creator, sanitised purpose and number,
with slashes between them. -/
def deriveAgentId (creatorId purpose : String) (seq : Nat) : String :=
  let sanitized := sanitizePurpose purpose
  s!"{creatorId}/{sanitized}/{seq}"

/-- The lineage of a new actor: its creator, whatever the creator's type. -/
def buildLineage (creatorType : ActorType) (creatorId : String)
    (_creatorLineage : List String) : List String :=
  match creatorType with
  | .human => [creatorId]
  | .agent => [creatorId]

/-! ## The writable boundary -/

/-- `s.strip_prefix(p)`: what follows the prefix, where there is one. -/
def stripPrefix (p s : String) : Option String :=
  if p.toList.isPrefixOf s.toList then some (String.ofList (s.toList.drop p.toList.length)) else none

/-- The beginnings of the targets that need more than an ordinary entry. -/
def privilegedPrefixes : List String := ["system/", "ledger/"]

/-- Whether the target begins with one of them. -/
def isPrivilegedTarget (target : String) : Bool :=
  privilegedPrefixes.any fun p => p.toList.isPrefixOf target.toList

/-- On a privileged target the actor needs a `**` entry, whatever actions that entry
lists. -/
def checkPrivilegedAccess (actor : ActorRecord) (target : String) : KernelResult Unit :=
  if actor.writableTargets.any (fun wt => wt.target = "**") then .ok ()
  else .error (.boundaryViolation
    s!"actor {actor.actorId} denied access to privileged target {target}")

variable [Externals]

/-- A pattern the matcher cannot compile matches nothing, so an entry with one grants
nothing. -/
def globMatch (pattern target : String) : Bool := Externals.globMatch pattern target

/-- The check of an action against the boundary of its actor: on a privileged
target the entry for everything, elsewhere an entry that matches the target and
lists the action. -/
def checkWritableBoundary (actor : ActorRecord) (target : String) (actionType : ActionType) :
    KernelResult Unit :=
  if actionType = .observe then .ok ()
  else if isPrivilegedTarget target then checkPrivilegedAccess actor target
  else
    let actionStr := actionType.asStr
    if actor.writableTargets.any (fun wt =>
        globMatch wt.target target && wt.actions.any (· = actionStr)) then .ok ()
    else .error (.boundaryViolation
      s!"actor {actor.actorId} has no writable_target granting {actionStr} on {target}")

/-- Whether a parent's pattern covers a child's: `**`, the same text, or a
match of the child's pattern taken as a literal. -/
def patternCovers (parentPattern childPattern : String) : Bool :=
  parentPattern = "**" || parentPattern = childPattern || globMatch parentPattern childPattern

/-- One entry of the child is covered by one entry of the parent. -/
def targetCovered (parent : ActorRecord) (child : WritableTarget) : Bool :=
  parent.writableTargets.any fun wt =>
    patternCovers wt.target child.target &&
      child.actions.all fun a => wt.actions.any (· = a)

/-- Each entry of a child is compared with the entries of its parent, by their text or
as a pattern that matches the text. -/
def validateChildTargets (parent : ActorRecord) : List WritableTarget → KernelResult Unit
  | [] => .ok ()
  | child :: rest =>
    if targetCovered parent child then validateChildTargets parent rest
    else
      let actions := Externals.debugStrings child.actions
      .error (.boundaryViolation
        s!"child writable_target '{child.target}' with actions {actions} exceeds parent boundary")

end PunkgoKernel
