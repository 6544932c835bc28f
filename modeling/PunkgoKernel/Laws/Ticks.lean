import PunkgoKernel.Lib.Reentry
import PunkgoKernel.Laws.Production

/-!
# What the ticks of a run give

A tick is asked for an amount, looks up the actors with their shares, and credits them.
The amount and the actors determine the credits, and both can be read off the run: the
amount is in the request that was spawned (`Spawned`), the actors are all its past
(`tickOf`). So what the ticks of a run credit to an actor is a sum of closed terms in
the amounts and the shares (`KernelRun.produced_eq`): the actor's part in doubles,
rounded down, and a unit for each turn of the loop in which it comes up (`tickGives`).
-/

namespace PunkgoKernel

open Relational (Table key)
open Resumption
open Apportion (turns)

/-! ## The credits of one tick -/

/-- Asks for the actors first. -/
def Lists : KernelProg Outcome → Prop
  | .vis .listActiveWithShares _ => True
  | _ => False

/-- A tick once it has asked for the actors. -/
def tickRest (energyPerTick : Int) :
    KernelResult (List (String × ℚ)) → KernelProg Outcome
  | .error e => .ret (.error e)
  | .ok actors =>
    if actors = [] ∨ doubles.nonpos (totalShares doubles actors) then pure (.ticked 0 0)
    else do
      let (count, total) ← call (.creditAll (allocate doubles energyPerTick actors))
      pure (.ticked total count)

/-- A tick asks for the actors with their shares, and does the rest with what it
gets. -/
theorem produceTick_eq (energyPerTick : Int) :
    produceTick doubles energyPerTick = .vis .listActiveWithShares (tickRest energyPerTick) := by
  show Prog.vis _ _ = Prog.vis _ _
  congr 1
  funext x
  cases x <;> rfl

/-- A request that is no tick asks for something else before any actors. -/
def NoTick (prog : KernelProg Outcome) (past : Past) : Prop :=
  (past = [] → ¬ Lists prog) ∧ ∀ d, past.getLast? = some d → d.op ≠ .listActiveWithShares

/-- A request that does not ask for the actors first begins as no tick. -/
theorem NoTick.start {prog : KernelProg Outcome} (h : ¬ Lists prog) : NoTick prog [] :=
  ⟨fun _ => h, by simp⟩

/-- Whatever such a request performs, it goes on as no tick: the first of its operations
is known by now. -/
theorem NoTick.performs {op : Op} {k : KernelSig.Ans op → KernelProg Outcome} {past : Past}
    (h : NoTick (.vis op k) past) (x : KernelSig.Ans op) : NoTick (k x) (⟨op, x⟩ :: past) := by
  refine ⟨by simp, ?_⟩
  cases past with
  | nil =>
    intro d hd
    obtain rfl : ⟨op, x⟩ = d := Option.some.inj hd
    rintro rfl
    exact h.1 rfl trivial
  | cons d older => exact h.2

variable [Externals]

/-- Where the request of a tick stands. -/
inductive TickAt (energyPerTick : Int) : KernelProg Outcome → Past → Prop
  | start : TickAt energyPerTick (produceTick doubles energyPerTick) []
  | listed (x : KernelResult (List (String × ℚ))) :
    TickAt energyPerTick (tickRest energyPerTick x) [⟨.listActiveWithShares, x⟩]
  | done (past : Past) (a : KernelResult Outcome) (ends : again a = none) :
    TickAt energyPerTick (.ret a) past

/-- What a tick does after it asked for the actors: credits what was allocated to them. -/
theorem tickRest_vis {energyPerTick : Int} {x : KernelResult (List (String × ℚ))} {op : Op}
    {k : KernelSig.Ans op → KernelProg Outcome} (h : tickRest energyPerTick x = .vis op k) :
    ∃ actors, x = .ok actors ∧ op = .creditAll (allocate doubles energyPerTick actors) ∧
      ∀ y, ∃ a, k y = .ret a ∧ again a = none := by
  unfold tickRest at h
  split at h
  · cases h
  · next actors =>
    split at h
    · cases h
    · obtain ⟨rfl, hk⟩ := Prog.vis.inj h
      refine ⟨actors, rfl, rfl, ?_⟩
      obtain rfl := eq_of_heq hk
      rintro (e | ⟨count, total⟩)
      · exact ⟨_, rfl, rfl⟩
      · exact ⟨_, rfl, rfl⟩

/-- A tick ends for good. -/
theorem tickRest_ret {energyPerTick : Int} {x : KernelResult (List (String × ℚ))}
    {a : KernelResult Outcome} (h : tickRest energyPerTick x = .ret a) : again a = none := by
  unfold tickRest at h
  split at h
  · cases h
    rfl
  · split at h
    · cases h
      rfl
    · cases h

/-- A tick goes on where it stands: after the list comes what is left of it, after the
credits its end. -/
theorem TickAt.performs {energyPerTick : Int} {op : Op} {k : KernelSig.Ans op → KernelProg Outcome}
    {past : Past} (h : TickAt energyPerTick (.vis op k) past) (x : KernelSig.Ans op) :
    TickAt energyPerTick (k x) (⟨op, x⟩ :: past) := by
  generalize hprog : (Prog.vis op k : KernelProg Outcome) = prog at h
  cases h with
  | start =>
    rw [produceTick_eq] at hprog
    obtain ⟨rfl, hk⟩ := Prog.vis.inj hprog
    obtain rfl := eq_of_heq hk
    exact .listed x
  | listed y =>
    obtain ⟨actors, -, -, hends⟩ := tickRest_vis hprog.symm
    obtain ⟨a, ha, hnone⟩ := hends x
    rw [ha]
    exact .done _ a hnone
  | done past a ends => cases hprog

/-- Wherever a tick ends, it ends for good. -/
theorem TickAt.ends {energyPerTick : Int} {a : KernelResult Outcome} {past : Past}
    (h : TickAt energyPerTick (.ret a) past) : again a = none := by
  generalize hprog : (Prog.ret a : KernelProg Outcome) = prog at h
  cases h with
  | start => cases hprog
  | listed x => exact tickRest_ret hprog.symm
  | done past a ends =>
    cases hprog
    exact ends

/-- Where the task of a request stands. -/
def StandsAt (r : Request) (prog : KernelProg Outcome) (past : Past) : Prop :=
  match r with
  | .tick energyPerTick => TickAt energyPerTick prog past
  | _ => NoTick prog past

/-- The task of a request goes on where it stands, whatever it is answered. -/
theorem StandsAt.performs {r : Request} {op : Op} {k : KernelSig.Ans op → KernelProg Outcome}
    {past : Past} (h : StandsAt r (.vis op k) past) (x : KernelSig.Ans op) :
    StandsAt r (k x) (⟨op, x⟩ :: past) := by
  cases r with
  | tick energyPerTick => exact TickAt.performs h x
  | _ => exact NoTick.performs h x

end PunkgoKernel
