import Mathlib.Data.List.Basic

/-!
# Programs over an atomic store

A program is a tree of store operations: it returns, or it asks the store for
one operation and goes on with the answer. The store is a handler that
answers each operation in one atomic step. Nothing here says which operations
there are; a development brings its own signature.

An operation can also be REFUSED: the store denies service, answers with a
failure, and stays as it was.

- `run` is the execution nobody disturbs and in which nothing is refused.
- `Executes` are the executions nobody disturbs: any operation may be refused.
- `Uses` bounds the operations a program can ask for at all.
- `Honors` is the promise a program keeps under interference: whatever the
  other programs do to the store, each operation it asks for is one its own
  past allows.

All are defined by recursion on the tree, so each has one rule for sequencing
and nothing else to learn.
-/

namespace Resumption

/-- The operations of a store, each with the type of its answers. A program is given
over a signature and knows nothing else of the store. -/
structure Signature where
  Op : Type
  Ans : Op → Type

/-- A program: an answer, or an operation and what follows its answer. Between two
operations others may act on the store, so a program is not a function of it. -/
inductive Prog (S : Signature) (A : Type) : Type where
  | ret (a : A)
  | vis (op : S.Op) (k : S.Ans op → Prog S A)

/-- An operation with the answer it got. The past of a task is a list of these, the
newest first. -/
structure Performed (S : Signature) where
  op : S.Op
  ans : S.Ans op

/-- A store: each operation is one atomic step, and each operation has the
answers it may give when the store denies service. -/
structure Handler (S : Signature) (σ : Type) where
  exec : (op : S.Op) → σ → S.Ans op × σ
  refuses : (op : S.Op) → S.Ans op → Prop

variable {S : Signature} {A B σ ε : Type}

namespace Prog

/-- One program after the other, with the answer of the first. -/
def bind : Prog S A → (A → Prog S B) → Prog S B
  | .ret a, f => f a
  | .vis op k, f => .vis op (fun x => (k x).bind f)

/-- One operation, as a program that hands its answer on. -/
def perform (op : S.Op) : Prog S (S.Ans op) := .vis op .ret

/-- The execution nobody disturbs and in which nothing is refused. It computes, where
`Executes` relates. -/
def run (H : Handler S σ) : Prog S A → σ → A × σ
  | .ret a, s => (a, s)
  | .vis op k, s => (k (H.exec op s).1).run H (H.exec op s).2

/-- Sequencing is associative, so long programs may be regrouped at will. -/
theorem bind_assoc {C : Type} (p : Prog S A) (f : A → Prog S B) (g : B → Prog S C) :
    (p.bind f).bind g = p.bind fun a => (f a).bind g := by
  induction p with
  | ret a => rfl
  | vis op k ih => exact congrArg (Prog.vis op) (funext ih)

/-- The undisturbed execution of a sequence is that of its parts in turn. -/
theorem run_bind (H : Handler S σ) (p : Prog S A) (f : A → Prog S B) (s : σ) :
    (p.bind f).run H s = (f (p.run H s).1).run H (p.run H s).2 := by
  induction p generalizing s with
  | ret a => rfl
  | vis op k ih => exact ih _ _

/-! ## Executions -/

/-- The executions nobody disturbs: from `s`, the program may answer `b` and leave
`s'`. An operation that is refused gives an answer of its own and leaves the store
as it was. -/
def Executes (H : Handler S σ) : Prog S A → σ → A → σ → Prop
  | .ret a, s, b, s' => b = a ∧ s' = s
  | .vis op k, s, b, s' =>
    (k (H.exec op s).1).Executes H (H.exec op s).2 b s' ∨
      ∃ x, H.refuses op x ∧ (k x).Executes H s b s'

/-- The undisturbed execution is one of the executions. -/
theorem executes_run (H : Handler S σ) (p : Prog S A) (s : σ) :
    p.Executes H s (p.run H s).1 (p.run H s).2 := by
  induction p generalizing s with
  | ret a => exact ⟨rfl, rfl⟩
  | vis op k ih => exact .inl (ih _ _)

/-- An execution of a sequence is one of the first program, and one of the second
from where that ended. Both directions are used: to build executions, and to take
them apart. -/
theorem executes_bind {H : Handler S σ} {p : Prog S A} {f : A → Prog S B} {s s' : σ} {b : B} :
    (p.bind f).Executes H s b s' ↔
      ∃ a s₁, p.Executes H s a s₁ ∧ (f a).Executes H s₁ b s' := by
  induction p generalizing s with
  | ret a =>
    constructor
    · intro h
      exact ⟨a, s, ⟨rfl, rfl⟩, h⟩
    · rintro ⟨a', s₁, ⟨rfl, rfl⟩, h⟩
      exact h
  | vis op k ih =>
    constructor
    · rintro (h | ⟨x, hx, h⟩)
      · obtain ⟨a, s₁, hp, hf⟩ := (ih _).mp h
        exact ⟨a, s₁, .inl hp, hf⟩
      · obtain ⟨a, s₁, hp, hf⟩ := (ih _).mp h
        exact ⟨a, s₁, .inr ⟨x, hx, hp⟩, hf⟩
    · rintro ⟨a, s₁, hp | ⟨x, hx, hp⟩, hf⟩
      · exact .inl ((ih _).mpr ⟨a, s₁, hp, hf⟩)
      · exact .inr ⟨x, hx, (ih _).mpr ⟨a, s₁, hp, hf⟩⟩

/-- An operation is carried out, or it is refused and leaves the store as it was. -/
theorem executes_perform {H : Handler S σ} {op : S.Op} {s s' : σ} {x : S.Ans op} :
    (perform op).Executes H s x s' ↔
      (x = (H.exec op s).1 ∧ s' = (H.exec op s).2) ∨ (H.refuses op x ∧ s' = s) := by
  constructor
  · rintro (⟨hx, hs⟩ | ⟨y, hy, hx, hs⟩)
    · exact .inl ⟨hx, hs⟩
    · exact .inr ⟨hx ▸ hy, hs⟩
  · rintro (⟨hx, hs⟩ | ⟨hx, hs⟩)
    · exact .inl ⟨hx, hs⟩
    · exact .inr ⟨x, hx, rfl, hs⟩

/-! ## The operations of a program -/

/-- Every operation the program can ask for is one of these, whatever answers it gets on
the way. -/
def Uses (Q : S.Op → Prop) : Prog S A → Prop
  | .ret _ => True
  | .vis op k => Q op ∧ ∀ x, (k x).Uses Q

/-- A sequence uses what its parts use. -/
theorem Uses.bind {Q : S.Op → Prop} {p : Prog S A} {f : A → Prog S B} (hp : p.Uses Q)
    (hf : ∀ a, (f a).Uses Q) : (p.bind f).Uses Q := by
  induction p with
  | ret a => exact hf a
  | vis op k ih => exact ⟨hp.1, fun x => ih x (hp.2 x)⟩

/-- A wider class of operations is used as well. -/
theorem Uses.mono {Q Q' : S.Op → Prop} {p : Prog S A} (hp : p.Uses Q) (hQ : ∀ op, Q op → Q' op) :
    p.Uses Q' := by
  induction p with
  | ret a => trivial
  | vis op k ih => exact ⟨hQ op hp.1, fun x => ih x (hp.2 x)⟩

/-- What each of the operations does to the store, the program does. For a preorder `R`
on stores it is enough to look at single operations; a refusal changes nothing, so
reflexivity covers it. -/
theorem Uses.relates {Q : S.Op → Prop} {H : Handler S σ} {R : σ → σ → Prop} {p : Prog S A}
    (hp : p.Uses Q) (refl : ∀ s, R s s) (trans : ∀ {a b c}, R a b → R b c → R a c)
    (exec : ∀ op s, Q op → R s (H.exec op s).2) {s s' : σ} {b : A} (h : p.Executes H s b s') :
    R s s' := by
  induction p generalizing s with
  | ret a =>
    obtain ⟨-, rfl⟩ := h
    exact refl _
  | vis op k ih =>
    rcases h with h | ⟨x, -, h⟩
    · exact trans (exec op s hp.1) (ih _ (hp.2 _) h)
    · exact ih x (hp.2 x) h

/-! ## The promise under interference -/

/-- Each operation the program asks for is allowed by its own past (the
operations it performed, newest first), as long as every answer is one the
store gives; and what it returns fits its past. -/
def Honors (Φ : List (Performed S) → S.Op → Prop) (Ψ : (op : S.Op) → S.Ans op → Prop)
    (E : List (Performed S) → A → Prop) : Prog S A → List (Performed S) → Prop
  | .ret a, past => E past a
  | .vis op k, past => Φ past op ∧ ∀ x, Ψ op x → (k x).Honors Φ Ψ E (⟨op, x⟩ :: past)

variable {Φ : List (Performed S) → S.Op → Prop} {Ψ : (op : S.Op) → S.Ans op → Prop}

/-- A sequence honors the conditions if its first part does, and ends in a past from
which the second does. -/
theorem Honors.bind {p : Prog S A} {f : A → Prog S B} {E : List (Performed S) → B → Prop}
    {past : List (Performed S)}
    (h : p.Honors Φ Ψ (fun past' a => (f a).Honors Φ Ψ E past') past) :
    (p.bind f).Honors Φ Ψ E past := by
  induction p generalizing past with
  | ret a => exact h
  | vis op k ih => exact ⟨h.1, fun x hx => ih x (h.2 x hx)⟩

/-- What is ensured at the end may be weakened. -/
theorem Honors.mono {p : Prog S A} {E E' : List (Performed S) → A → Prop}
    {past : List (Performed S)} (h : p.Honors Φ Ψ E past)
    (hE : ∀ past' a, E past' a → E' past' a) : p.Honors Φ Ψ E' past := by
  induction p generalizing past with
  | ret a => exact hE _ _ h
  | vis op k ih => exact ⟨h.1, fun x hx => ih x (h.2 x hx)⟩

/-- A program of which every operation is allowed by any past keeps its promise,
and only adds to the past. -/
theorem Uses.honors {Q : S.Op → Prop} {p : Prog S A} (hp : p.Uses Q)
    (hQ : ∀ past op, Q op → Φ past op) (past : List (Performed S)) :
    p.Honors Φ Ψ (fun past' _ => past <:+ past') past := by
  suffices hgen : ∀ past', past <:+ past' → p.Honors Φ Ψ (fun past' _ => past <:+ past') past' from
    hgen past (List.suffix_refl past)
  induction p with
  | ret a => exact fun past' hpast => hpast
  | vis op k ih =>
    intro past' hpast
    exact ⟨hQ past' op hp.1, fun x _ => ih x (hp.2 x) _ (hpast.trans (List.suffix_cons _ _))⟩

end Prog

/-! ## Programs that can refuse -/

/-- A program that answers with a value or with an error. Failing is an answer, and not
something the store does. -/
def Attempt (S : Signature) (ε A : Type) : Type := Prog S (Except ε A)

namespace Attempt

/-- What follows an attempt: nothing, if it was refused, and otherwise what its value is
for. -/
def andThen (f : A → Attempt S ε B) : Except ε A → Prog S (Except ε B)
  | .ok a => f a
  | .error e => .ret (.error e)

instance : Monad (Attempt S ε) where
  pure a := Prog.ret (.ok a)
  bind p f := Prog.bind p (andThen f)

instance : MonadExcept ε (Attempt S ε) where
  throw e := Prog.ret (.error e)
  tryCatch p f := Prog.bind p fun
    | .ok a => Prog.ret (.ok a)
    | .error e => f e

/-- A check made without the store. -/
def ofExcept (x : Except ε A) : Attempt S ε A := Prog.ret x

/-- Goes on with the outcome of an attempt, whether it was refused or not. -/
def outcome (p : Attempt S ε A) : Attempt S ε (Except ε A) := Prog.bind p fun x => Prog.ret (.ok x)

/-- Sequencing is associative, so long programs may be regrouped at will. -/
theorem bind_assoc {C : Type} (p : Attempt S ε A) (f : A → Attempt S ε B) (g : B → Attempt S ε C) :
    (p >>= f) >>= g = p >>= fun a => f a >>= g := by
  refine (Prog.bind_assoc p (andThen f) (andThen g)).trans ?_
  refine congrArg (Prog.bind p) (funext ?_)
  rintro (e | a) <;> rfl

theorem pure_bind (a : A) (f : A → Attempt S ε B) : (pure a : Attempt S ε A) >>= f = f a := rfl

theorem bind_pure (p : Attempt S ε A) : p >>= pure = p := by
  show Prog.bind p (andThen pure) = p
  induction p with
  | ret x => cases x <;> rfl
  | vis op k ih => exact congrArg (Prog.vis op) (funext ih)

variable (H : Handler S σ)

/-- The undisturbed execution of an attempt, with its answer as a result. -/
def run (p : Attempt S ε A) (s : σ) : Except ε A × σ := Prog.run H p s

@[simp] theorem run_pure (a : A) (s : σ) : run H (pure a : Attempt S ε A) s = (.ok a, s) := rfl

@[simp] theorem run_throw (e : ε) (s : σ) :
    run H (throw e : Attempt S ε A) s = (.error e, s) := rfl

@[simp] theorem run_ofExcept (x : Except ε A) (s : σ) :
    run H (ofExcept x : Attempt S ε A) s = (x, s) := rfl

/-- The undisturbed execution of a sequence: the second attempt is made only if the
first succeeds. -/
theorem run_bind (p : Attempt S ε A) (f : A → Attempt S ε B) (s : σ) :
    run H (p >>= f) s =
      match run H p s with
      | (.ok a, s') => run H (f a) s'
      | (.error e, s') => (.error e, s') := by
  have h : run H (p >>= f) s = Prog.run H (andThen f (run H p s).1) (run H p s).2 :=
    Prog.run_bind H p (andThen f) s
  rw [h]
  rcases run H p s with ⟨_ | a, s'⟩ <;> rfl

theorem run_bind_ok {p : Attempt S ε A} {f : A → Attempt S ε B} {s s' : σ} {a : A}
    (h : run H p s = (.ok a, s')) : run H (p >>= f) s = run H (f a) s' := by
  rw [run_bind, h]

theorem run_bind_error {p : Attempt S ε A} {f : A → Attempt S ε B} {s s' : σ} {e : ε}
    (h : run H p s = (.error e, s')) : run H (p >>= f) s = (.error e, s') := by
  rw [run_bind, h]

/-! ## Executions of a sequence -/

/-- The executions of an attempt, those in which operations are refused included. -/
def Executes (p : Attempt S ε A) (s : σ) (r : Except ε A) (s' : σ) : Prop :=
  Prog.Executes H p s r s'

variable {H}

/-- An execution of a sequence: either both attempts are made, or the first failed and
the whole fails with its error. Taking executions apart by this rule replaces unfolding
the program. -/
theorem executes_bind {p : Attempt S ε A} {f : A → Attempt S ε B} {s s' : σ} {r : Except ε B} :
    Executes H (p >>= f) s r s' ↔
      (∃ a s₁, Executes H p s (.ok a) s₁ ∧ Executes H (f a) s₁ r s') ∨
      ∃ e, r = .error e ∧ Executes H p s (.error e) s' := by
  refine Iff.trans Prog.executes_bind ?_
  constructor
  · rintro ⟨e | a, s₁, hp, hf⟩
    · obtain ⟨rfl, rfl⟩ := hf
      exact .inr ⟨e, rfl, hp⟩
    · exact .inl ⟨a, s₁, hp, hf⟩
  · rintro (⟨a, s₁, hp, hf⟩ | ⟨e, rfl, hp⟩)
    · exact ⟨.ok a, s₁, hp, hf⟩
    · exact ⟨.error e, s', hp, rfl, rfl⟩

@[simp] theorem executes_pure {a : A} {s s' : σ} {r : Except ε A} :
    Executes H (pure a) s r s' ↔ r = .ok a ∧ s' = s := Iff.rfl

@[simp] theorem executes_throw {e : ε} {s s' : σ} {r : Except ε A} :
    Executes H (throw e) s r s' ↔ r = .error e ∧ s' = s := Iff.rfl

@[simp] theorem executes_ofExcept {x : Except ε A} {s s' : σ} {r : Except ε A} :
    Executes H (ofExcept x) s r s' ↔ r = x ∧ s' = s := Iff.rfl

theorem executes_outcome {p : Attempt S ε A} {s s' : σ} {r : Except ε (Except ε A)} :
    Executes H (outcome p) s r s' ↔ ∃ x, r = .ok x ∧ Executes H p s x s' := by
  refine Iff.trans Prog.executes_bind ?_
  constructor
  · rintro ⟨x, s₁, hp, rfl, rfl⟩
    exact ⟨x, rfl, hp⟩
  · rintro ⟨x, rfl, hp⟩
    exact ⟨x, s', hp, rfl, rfl⟩

/-! ## The operations of an attempt -/

/-- Every operation the attempt can ask for is one of these, whatever answers it gets on
the way. -/
def Uses (Q : S.Op → Prop) (p : Attempt S ε A) : Prop := Prog.Uses Q p

theorem Uses.bind {Q : S.Op → Prop} {p : Attempt S ε A} {f : A → Attempt S ε B} (hp : p.Uses Q)
    (hf : ∀ a, (f a).Uses Q) : (p >>= f).Uses Q := by
  refine Prog.Uses.bind hp ?_
  rintro (e | a)
  · trivial
  · exact hf a

theorem Uses.outcome {Q : S.Op → Prop} {p : Attempt S ε A} (hp : p.Uses Q) :
    p.outcome.Uses Q :=
  Prog.Uses.bind hp fun _ => trivial

/-! ## Attempts that pass every refusal on -/

/-- Whatever the store refuses, the attempt ends with that failure: no refusal is caught
on the way. Then an execution that does not fail so is the undisturbed one. -/
def Strict (H : Handler S σ) (F : ε → Prop) : Attempt S ε A → Prop
  | .ret _ => True
  | .vis op k => (∀ x, H.refuses op x → ∃ e, F e ∧ k x = .ret (.error e)) ∧
      ∀ x, Strict H F (k x)

/-- An execution of a strict attempt that ends in no failure of the store is
the one in which nothing is refused. -/
theorem Strict.executes {F : ε → Prop} {p : Attempt S ε A} (hp : p.Strict H F) {s s' : σ}
    {r : Except ε A} (h : Executes H p s r s') :
    run H p s = (r, s') ∨ ∃ e, F e ∧ r = .error e := by
  induction p generalizing s with
  | ret x =>
    obtain ⟨rfl, rfl⟩ := h
    exact .inl rfl
  | vis op k ih =>
    rcases h with h | ⟨x, hx, h⟩
    · exact ih _ (hp.2 _) h
    · obtain ⟨e, he, hk⟩ := hp.1 x hx
      rw [hk] at h
      exact .inr ⟨e, he, h.1⟩

/-- A sequence of strict attempts is strict. -/
theorem Strict.bind {F : ε → Prop} {p : Attempt S ε A} {f : A → Attempt S ε B}
    (hp : p.Strict H F) (hf : ∀ a, (f a).Strict H F) : (p >>= f).Strict H F := by
  induction p with
  | ret x =>
    cases x with
    | error e => trivial
    | ok a => exact hf a
  | vis op k ih =>
    refine ⟨?_, fun x => ih x (hp.2 x)⟩
    intro x hx
    obtain ⟨e, he, hk⟩ := hp.1 x hx
    refine ⟨e, he, ?_⟩
    show Prog.bind (k x) (andThen f) = _
    rw [hk]
    rfl

/-! ## The promises of a sequence -/

variable {Φ : List (Performed S) → S.Op → Prop} {Ψ : (op : S.Op) → S.Ans op → Prop}

/-- The promise of an attempt: what a value fits, and what an error fits. -/
def Honors (Φ : List (Performed S) → S.Op → Prop) (Ψ : (op : S.Op) → S.Ans op → Prop)
    (E : List (Performed S) → Except ε A → Prop) (p : Attempt S ε A)
    (past : List (Performed S)) : Prop := Prog.Honors Φ Ψ E p past

theorem Honors.bind {p : Attempt S ε A} {f : A → Attempt S ε B}
    {E : List (Performed S) → Except ε B → Prop} {past : List (Performed S)}
    (h : p.Honors Φ Ψ (fun past' x => match x with
      | .ok a => (f a).Honors Φ Ψ E past'
      | .error e => E past' (.error e)) past) :
    (p >>= f).Honors Φ Ψ E past := by
  refine Prog.Honors.bind (Prog.Honors.mono h ?_)
  rintro past' (e | a) hx <;> exact hx

theorem Honors.pure {a : A} {E : List (Performed S) → Except ε A → Prop}
    {past : List (Performed S)} (h : E past (.ok a)) :
    (pure a : Attempt S ε A).Honors Φ Ψ E past := h

theorem Honors.throw {e : ε} {E : List (Performed S) → Except ε A → Prop}
    {past : List (Performed S)} (h : E past (.error e)) :
    (throw e : Attempt S ε A).Honors Φ Ψ E past := h

theorem Honors.outcome {p : Attempt S ε A} {E : List (Performed S) → Except ε (Except ε A) → Prop}
    {past : List (Performed S)} (h : p.Honors Φ Ψ (fun past' x => E past' (.ok x)) past) :
    (outcome p).Honors Φ Ψ E past :=
  Prog.Honors.bind h

/-! ## The promises of a value -/

/-- A condition on values; an error promises nothing, as nobody goes on after it. -/
def OnValue (E : List (Performed S) → A → Prop) (past : List (Performed S)) : Except ε A → Prop
  | .ok a => E past a
  | .error _ => True

/-- Each operation is allowed by its past, whatever the store answers, and a value the
attempt ends with is as `E` says. -/
def Ensures (Φ : List (Performed S) → S.Op → Prop) (p : Attempt S ε A)
    (E : List (Performed S) → A → Prop) (past : List (Performed S)) : Prop :=
  p.Honors Φ (fun _ _ => True) (OnValue E) past

variable {E : List (Performed S) → A → Prop} {past : List (Performed S)}

theorem Ensures.mono {p : Attempt S ε A} {E' : List (Performed S) → A → Prop}
    (h : Ensures Φ p E past) (hE : ∀ past' a, E past' a → E' past' a) : Ensures Φ p E' past := by
  refine Prog.Honors.mono h ?_
  rintro past' (e | a) hx
  · trivial
  · exact hE past' a hx

theorem Ensures.bind {p : Attempt S ε B} {f : B → Attempt S ε A}
    {Q : List (Performed S) → B → Prop} (hp : Ensures Φ p Q past)
    (hf : ∀ past' b, Q past' b → Ensures Φ (f b) E past') : Ensures Φ (p >>= f) E past := by
  refine Honors.bind (Prog.Honors.mono hp ?_)
  rintro past' (e | b) hQ
  · trivial
  · exact hf past' b hQ

/-- What uses only operations that any past allows adds to the past, and needs no proof
of its own that it follows a protocol. -/
theorem Uses.ensures {Q : S.Op → Prop} {p : Attempt S ε A} (hp : p.Uses Q)
    (hQ : ∀ past op, Q op → Φ past op) (past : List (Performed S)) :
    Ensures Φ p (fun past' _ => past <:+ past') past := by
  have hhonors := Prog.Uses.honors (Ψ := fun _ _ => True) hp hQ past
  refine Prog.Honors.mono hhonors ?_
  rintro past' (e | a) hx
  · trivial
  · exact hx

end Attempt

end Resumption
