import Mathlib.Data.Bool.Basic
import Mathlib.Order.Nat
import PunkgoKernel.Lib.Reentry

/-!
# Connections over a pool

A server takes requests from its connections, each of which it serves one request at a
time. What it makes of a request is said once (`Intake`): it passes it over, answers it out
of hand, answers it by a look at the store, or spawns a task of the pool and answers what
the task ends with. Other tasks run in the same pool, connections may be lost at any time
and the whole pool with them.

- What the pool does under a server is a run of the pool (`Serving.run`), so whatever holds
  along every run holds under a server.
- Every connection is answered in order, one reply for each request (`Serving.orderly`), and
  with what was found for that request (`Serving.replied`).
- No end of a task is the answer to two requests (`Serving.distinct`).
- A task that is not the server's own was asked for on a connection (`Serving.asked`).
- An answer that closes the connection is the last on it (`Serving.last`).
-/

namespace Resumption

variable {S : Signature} {A σ R L B : Type}

/-- What a server makes of a request. -/
inductive Intake (σ A R B : Type) where
  | skip
  /-- An answer that needs no store; it may be the last on its connection. -/
  | reply (b : B) (last : Bool)
  /-- An answer that depends on the store, which may refuse to be read. -/
  | look (render : σ → B) (refusal : B → Prop)
  | serve (r : R) (render : A → B)

def Intake.isSkip : Intake σ A R B → Bool
  | .skip => true
  | _ => false

/-- What a connection is about to do. An answer about to be written has the number of steps
the pool had taken when it was found, if a task had to end for it. -/
inductive Phase (σ A B : Type) where
  | fresh
  | idle
  | looking (render : σ → B) (refusal : B → Prop)
  | waiting (task : Nat) (render : A → B)
  | writing (b : B) (stamp : Option Nat) (last : Bool)
  | closed

/-- A request with its answer. -/
structure Exchange (L B : Type) where
  arrival : L
  reply : B
  stamp : Option Nat

/-- A connection: the requests taken from it and the exchanges made on it, newest first. -/
structure Conn (σ A L B : Type) where
  taken : List L
  sent : List (Exchange L B)
  phase : Phase σ A B

/-- A connection that is not open yet. -/
def Conn.fresh : Conn σ A L B := ⟨[], [], .fresh⟩

/-- The connection waits for the task to end. -/
def Conn.Waits (c : Conn σ A L B) (task : Nat) : Prop := ∃ render, c.phase = .waiting task render

/-- A connection that was open is closed. -/
def Conn.lost (c : Conn σ A L B) : Conn σ A L B :=
  match c.phase with
  | .fresh => c
  | _ => { c with phase := .closed }

/-- A pool, and the connections it serves. -/
structure Server (S : Signature) (A σ L B : Type) where
  pool : Pool S A σ
  conns : Nat → Conn σ A L B

variable (Y : System S A σ R) (init : σ) (intake : L → Intake σ A R B) (own : R → Prop)

/-- What a connection does without a step of the pool, over a store. -/
inductive Conn.Moves (store : σ) : Conn σ A L B → Conn σ A L B → Prop where
  | accept : Moves store .fresh ⟨[], [], .idle⟩
  | skip (taken : List L) (sent : List (Exchange L B)) (l : L) : intake l = .skip →
      Moves store ⟨taken, sent, .idle⟩ ⟨l :: taken, sent, .idle⟩
  | reply (taken : List L) (sent : List (Exchange L B)) (l : L) (b : B) (last : Bool) :
      intake l = .reply b last →
      Moves store ⟨taken, sent, .idle⟩ ⟨l :: taken, sent, .writing b none last⟩
  | look (taken : List L) (sent : List (Exchange L B)) (l : L) (render : σ → B)
      (refusal : B → Prop) : intake l = .look render refusal →
      Moves store ⟨taken, sent, .idle⟩ ⟨l :: taken, sent, .looking render refusal⟩
  | see (taken : List L) (sent : List (Exchange L B)) (render : σ → B) (refusal : B → Prop) :
      Moves store ⟨taken, sent, .looking render refusal⟩
        ⟨taken, sent, .writing (render store) none false⟩
  | refuse (taken : List L) (sent : List (Exchange L B)) (render : σ → B) (refusal : B → Prop)
      (b : B) : refusal b →
      Moves store ⟨taken, sent, .looking render refusal⟩ ⟨taken, sent, .writing b none false⟩
  | write (taken : List L) (sent : List (Exchange L B)) (l : L) (b : B) (stamp : Option Nat)
      (last : Bool) :
      Moves store ⟨l :: taken, sent, .writing b stamp last⟩
        ⟨l :: taken, ⟨l, b, stamp⟩ :: sent, if last then .closed else .idle⟩
  | close (c : Conn σ A L B) : (∀ task, ¬ c.Waits task) → Moves store c c.lost

/-- The runs of a server: the steps its pool has taken, newest first, and the server
reached. -/
inductive Serving : List (Transition S A σ R) → Server S A σ L B → Prop where
  | start : Serving [] ⟨⟨init, []⟩, fun _ => .fresh⟩
  | move {tr : List (Transition S A σ R)} {server : Server S A σ L B} (id : Nat)
      (c : Conn σ A L B) : Serving tr server →
      (server.conns id).Moves intake server.pool.store c →
      Serving tr ⟨server.pool, Function.update server.conns id c⟩
  | serve {tr : List (Transition S A σ R)} {server : Server S A σ L B} {pool : Pool S A σ}
      (id task : Nat) (taken : List L) (sent : List (Exchange L B)) (l : L) (r : R)
      (render : A → B) : Serving tr server → server.conns id = ⟨taken, sent, .idle⟩ →
      intake l = .serve r render → Step Y server.pool (.spawn task r) pool →
      Serving (⟨server.pool, .spawn task r⟩ :: tr)
        ⟨pool, Function.update server.conns id ⟨l :: taken, sent, .waiting task render⟩⟩
  | finish {tr : List (Transition S A σ R)} {server : Server S A σ L B} {pool : Pool S A σ}
      (id task : Nat) (taken : List L) (sent : List (Exchange L B)) (render : A → B) (a : A) :
      Serving tr server → server.conns id = ⟨taken, sent, .waiting task render⟩ →
      Step Y server.pool (.finish task a) pool →
      Serving (⟨server.pool, .finish task a⟩ :: tr)
        ⟨pool, Function.update server.conns id
          ⟨taken, sent, .writing (render a) (some tr.length) false⟩⟩
  /-- The connection is lost, and its task with it. -/
  | drop {tr : List (Transition S A σ R)} {server : Server S A σ L B} {pool : Pool S A σ}
      (id task : Nat) : Serving tr server → (server.conns id).Waits task →
      Step Y server.pool (.cancel task) pool →
      Serving (⟨server.pool, .cancel task⟩ :: tr)
        ⟨pool, Function.update server.conns id (server.conns id).lost⟩
  /-- The pool takes a step that no connection waits for. What it begins is the server's own. -/
  | apart {tr : List (Transition S A σ R)} {server : Server S A σ L B} {pool : Pool S A σ}
      (l : Label S A R) : Serving tr server → Step Y server.pool l pool → l ≠ .restart →
      (∀ task r, l = .spawn task r → own r) →
      (∀ id task, (server.conns id).Waits task → (∀ a, l ≠ .finish task a) ∧ l ≠ .cancel task) →
      Serving (⟨server.pool, l⟩ :: tr) ⟨pool, server.conns⟩
  | restart {tr : List (Transition S A σ R)} {server : Server S A σ L B} {pool : Pool S A σ} :
      Serving tr server → Step Y server.pool .restart pool →
      Serving (⟨server.pool, .restart⟩ :: tr) ⟨pool, fun id => (server.conns id).lost⟩

variable {Y init intake own} {tr : List (Transition S A σ R)} {server : Server S A σ L B}

/-- What the pool does under a server is a run of the pool. -/
theorem Serving.run (h : Serving Y init intake own tr server) : Run Y init tr server.pool := by
  induction h with
  | start => exact .start
  | move id c _ _ ih => exact ih
  | serve id task taken sent l r render _ _ _ hs ih => exact ih.step hs
  | finish id task taken sent render a _ _ hs ih => exact ih.step hs
  | drop id task _ _ hs ih => exact ih.step hs
  | apart l _ hs _ _ _ ih => exact ih.step hs
  | restart _ hs ih => exact ih.step hs

/-! ## What a reply is of -/

variable (Y init intake) in
/-- A request is answered so, after the pool has taken these steps. -/
inductive Replied (tr : List (Transition S A σ R)) (l : L) : B → Option Nat → Prop where
  | reply (b : B) (last : Bool) : intake l = .reply b last → Replied tr l b none
  | look (render : σ → B) (refusal : B → Prop) (newer older : List (Transition S A σ R))
      (pool : Pool S A σ) : intake l = .look render refusal → tr = newer ++ older →
      Run Y init older pool → Replied tr l (render pool.store) none
  | refusal (render : σ → B) (refusal : B → Prop) (b : B) : intake l = .look render refusal →
      refusal b → Replied tr l b none
  | serve (r : R) (render : A → B) (newer older : List (Transition S A σ R))
      (t : Transition S A σ R) (task : Nat) (a : A) (s : σ) : intake l = .serve r render →
      tr = newer ++ t :: older → t.label = .finish task a → Spawned task r s older →
      Replied tr l (render a) (some older.length)

theorem Replied.not_skip {l : L} {b : B} {stamp : Option Nat}
    (h : Replied Y init intake tr l b stamp) : (intake l).isSkip = false := by
  cases h with
  | reply _ _ hl => rw [hl]; rfl
  | look _ _ _ _ _ hl => rw [hl]; rfl
  | refusal _ _ _ hl _ => rw [hl]; rfl
  | serve _ _ _ _ _ _ _ _ hl => rw [hl]; rfl

/-- What a request was answered with that a task had to end for. -/
theorem Replied.served {l : L} {b : B} {stamp : Option Nat} {r : R} {render : A → B}
    (h : Replied Y init intake tr l b stamp) (hl : intake l = .serve r render) :
    ∃ newer older t task a s, tr = newer ++ t :: older ∧ t.label = .finish task a ∧
      Spawned task r s older ∧ b = render a ∧ stamp = some older.length := by
  cases h with
  | reply _ _ hl' =>
    rw [hl] at hl'
    cases hl'
  | look _ _ _ _ _ hl' =>
    rw [hl] at hl'
    cases hl'
  | refusal _ _ _ hl' =>
    rw [hl] at hl'
    cases hl'
  | serve r' render' newer older t task a s hl' htr hlabel hspawned =>
    rw [hl] at hl'
    cases hl'
    exact ⟨newer, older, t, task, a, s, htr, hlabel, hspawned, rfl, rfl⟩

theorem Replied.later {l : L} {b : B} {stamp : Option Nat}
    (h : Replied Y init intake tr l b stamp) (t : Transition S A σ R) :
    Replied Y init intake (t :: tr) l b stamp := by
  cases h with
  | reply _ last hl => exact .reply b last hl
  | look render refusal newer older pool hl htr hr =>
    exact .look render refusal (t :: newer) older pool hl (by rw [htr]; rfl) hr
  | refusal render refusal _ hl hb => exact .refusal render refusal b hl hb
  | serve r render newer older t' task a s hl htr hlabel hsp =>
    exact .serve r render (t :: newer) older t' task a s hl (by rw [htr]; rfl) hlabel hsp

/-- Whatever a request is answered with has a property. -/
def Intake.Answers (P : B → Prop) : Intake σ A R B → Prop
  | .skip => True
  | .reply b _ => P b
  | .look render refusal => (∀ s, P (render s)) ∧ ∀ b, refusal b → P b
  | .serve _ render => ∀ a, P (render a)

theorem Replied.answers {l : L} {b : B} {stamp : Option Nat} {P : B → Prop}
    (h : Replied Y init intake tr l b stamp) (hP : (intake l).Answers P) : P b := by
  cases h with
  | reply _ last hl =>
    rw [hl] at hP
    exact hP
  | look render refusal newer older pool hl =>
    rw [hl] at hP
    exact hP.1 _
  | refusal render refusal _ hl hb =>
    rw [hl] at hP
    exact hP.2 b hb
  | serve r render newer older t task a s hl =>
    rw [hl] at hP
    exact hP a

/-- The requests that are to be answered. -/
def requests (intake : L → Intake σ A R B) (taken : List L) : List L :=
  taken.filter fun l => !(intake l).isSkip

theorem requests_skip {l : L} {taken : List L} (h : intake l = .skip) :
    requests intake (l :: taken) = requests intake taken := by
  unfold requests
  exact List.filter_cons_of_neg (by simp [h, Intake.isSkip])

theorem requests_cons {l : L} {taken : List L} (h : (intake l).isSkip = false) :
    requests intake (l :: taken) = l :: requests intake taken := by
  unfold requests
  exact List.filter_cons_of_pos (by simp [h])

variable (Y init intake) in
/-- A connection is where its requests have brought it. -/
inductive AtPhase (tr : List (Transition S A σ R)) (answered : List L) :
    List L → Phase σ A B → Prop where
  | fresh : answered = [] → AtPhase tr answered [] .fresh
  | idle (taken : List L) : requests intake taken = answered → AtPhase tr answered taken .idle
  | looking (taken : List L) (l : L) (render : σ → B) (refusal : B → Prop) :
      requests intake taken = answered → intake l = .look render refusal →
      AtPhase tr answered (l :: taken) (.looking render refusal)
  | waiting (taken : List L) (l : L) (task : Nat) (r : R) (s : σ) (render : A → B) :
      requests intake taken = answered → intake l = .serve r render → Spawned task r s tr →
      AtPhase tr answered (l :: taken) (.waiting task render)
  | writing (taken : List L) (l : L) (b : B) (stamp : Option Nat) (last : Bool) :
      requests intake taken = answered → Replied Y init intake tr l b stamp →
      AtPhase tr answered (l :: taken) (.writing b stamp last)
  | closed (taken pending : List L) : requests intake taken = pending ++ answered →
      pending.length ≤ 1 → AtPhase tr answered taken .closed

variable (Y init intake) in
/-- A connection is answered in order, and with what was found for each request. -/
structure Orderly (tr : List (Transition S A σ R)) (c : Conn σ A L B) : Prop where
  at_phase : AtPhase Y init intake tr (c.sent.map Exchange.arrival) c.taken c.phase
  replied : ∀ e ∈ c.sent, Replied Y init intake tr e.arrival e.reply e.stamp

/-- All the requests of a connection but at most the newest are answered, in order. -/
theorem AtPhase.answered {answered taken : List L} {phase : Phase σ A B}
    (h : AtPhase Y init intake tr answered taken phase) :
    ∃ pending, requests intake taken = pending ++ answered ∧ pending.length ≤ 1 := by
  have hone : ∀ {l : L} {taken : List L}, (intake l).isSkip = false →
      requests intake taken = answered →
      ∃ pending, requests intake (l :: taken) = pending ++ answered ∧ pending.length ≤ 1 := by
    intro l taken hl hrest
    exact ⟨[l], by rw [requests_cons hl, hrest]; rfl, le_rfl⟩
  cases h with
  | fresh hnil => exact ⟨[], by rw [hnil]; rfl, Nat.zero_le _⟩
  | idle _ hall => exact ⟨[], hall, Nat.zero_le _⟩
  | looking taken l render refusal hrest hl => exact hone (by rw [hl]; rfl) hrest
  | waiting taken l task r s render hrest hl _ => exact hone (by rw [hl]; rfl) hrest
  | writing taken l b stamp last hrest hreplied => exact hone hreplied.not_skip hrest
  | closed _ pending hall hlen => exact ⟨pending, hall, hlen⟩

theorem Orderly.lost {c : Conn σ A L B} (h : Orderly Y init intake tr c) :
    Orderly Y init intake tr c.lost := by
  obtain ⟨pending, hall, hlen⟩ := h.at_phase.answered
  have hclosed : Orderly Y init intake tr { c with phase := .closed } :=
    ⟨.closed _ pending hall hlen, h.replied⟩
  unfold Conn.lost
  split
  · exact h
  · exact hclosed

theorem AtPhase.later {answered taken : List L} {phase : Phase σ A B}
    (h : AtPhase Y init intake tr answered taken phase) {t : Transition S A σ R}
    (ht : ∀ task render, phase = .waiting task render → ∀ r, t.label ≠ .spawn task r) :
    AtPhase Y init intake (t :: tr) answered taken phase := by
  cases h with
  | fresh hnil => exact .fresh hnil
  | idle _ hall => exact .idle _ hall
  | looking taken l render refusal hrest hl => exact .looking taken l render refusal hrest hl
  | waiting taken l task r s render hrest hl hsp =>
    exact .waiting taken l task r s render hrest hl (.earlier t tr (ht task render rfl) hsp)
  | writing taken l b stamp last hrest hreplied =>
    exact .writing taken l b stamp last hrest (hreplied.later t)
  | closed _ pending hall hlen => exact .closed _ pending hall hlen

theorem Orderly.later {c : Conn σ A L B} (h : Orderly Y init intake tr c)
    {t : Transition S A σ R} (ht : ∀ task, c.Waits task → ∀ r, t.label ≠ .spawn task r) :
    Orderly Y init intake (t :: tr) c where
  at_phase := h.at_phase.later fun task render hphase => ht task ⟨render, hphase⟩
  replied e he := (h.replied e he).later t

/-! ## Who waits for what -/

theorem Conn.lost_not_waits (c : Conn σ A L B) (task : Nat) : ¬ c.lost.Waits task := by
  rintro ⟨render, hphase⟩
  unfold Conn.lost at hphase
  split at hphase
  · next hfresh =>
    rw [hfresh] at hphase
    cases hphase
  · cases hphase

theorem Conn.Moves.not_waits {store : σ} {c c' : Conn σ A L B} (h : c.Moves intake store c')
    (task : Nat) : ¬ c'.Waits task := by
  intro hwaits
  cases h with
  | close _ => exact Conn.lost_not_waits _ task hwaits
  | write taken sent l b stamp last =>
    obtain ⟨render, hphase⟩ := hwaits
    cases last <;> cases hphase
  | _ =>
    obtain ⟨render, hphase⟩ := hwaits
    cases hphase

/-- The tasks that connections wait for are there, and each is waited for by one. -/
structure Awaited (server : Server S A σ L B) : Prop where
  present : ∀ id task, (server.conns id).Waits task → ∃ t ∈ server.pool.tasks, t.id = task
  one : ∀ id id' task, (server.conns id).Waits task → (server.conns id').Waits task → id = id'

theorem waits_update {conns : Nat → Conn σ A L B} {id id' task : Nat} {c : Conn σ A L B}
    (h : (Function.update conns id c id').Waits task) :
    (id' = id ∧ c.Waits task) ∨ (id' ≠ id ∧ (conns id').Waits task) := by
  by_cases hid : id' = id
  · subst hid
    rw [Function.update_self] at h
    exact .inl ⟨rfl, h⟩
  · rw [Function.update_of_ne hid] at h
    exact .inr ⟨hid, h⟩

/-- A connection that changes and does not wait leaves the others what they wait for. -/
theorem Awaited.update {pool pool' : Pool S A σ} {conns : Nat → Conn σ A L B}
    (h : Awaited ⟨pool, conns⟩) {id : Nat} {c : Conn σ A L B} (hc : ∀ task, ¬ c.Waits task)
    (hkept : ∀ id' task, id' ≠ id → (conns id').Waits task →
      (∃ t ∈ pool.tasks, t.id = task) → ∃ t ∈ pool'.tasks, t.id = task) :
    Awaited ⟨pool', Function.update conns id c⟩ := by
  have hwaits : ∀ {id' task}, (Function.update conns id c id').Waits task →
      id' ≠ id ∧ (conns id').Waits task := by
    intro id' task hw
    rcases waits_update hw with ⟨-, hself⟩ | hother
    · exact absurd hself (hc task)
    · exact hother
  constructor
  · intro id' task hw
    obtain ⟨hne, hw⟩ := hwaits hw
    exact hkept id' task hne hw (h.present id' task hw)
  · intro id₁ id₂ task hw₁ hw₂
    exact h.one id₁ id₂ task (hwaits hw₁).2 (hwaits hw₂).2

theorem Serving.awaited (h : Serving Y init intake own tr server) : Awaited server := by
  induction h with
  | start =>
    have hnone : ∀ task, ¬ (Conn.fresh : Conn σ A L B).Waits task := by
      rintro task ⟨render, hphase⟩
      cases hphase
    exact ⟨fun _ task hw => absurd hw (hnone task), fun _ _ task hw => absurd hw (hnone task)⟩
  | move id c _ hmoves ih => exact ih.update hmoves.not_waits fun _ _ _ _ ht => ht
  | @serve tr server pool id task taken sent l r render _ hconn _ hs ih =>
    have hnew : ∀ id' task', (server.conns id').Waits task' → task' ≠ task := by
      rintro id' task' hw rfl
      obtain ⟨t, ht, hid⟩ := ih.present id' task' hw
      exact hs.spawn_fresh t ht hid
    have hself : ∀ task', (⟨l :: taken, sent, .waiting task render⟩ : Conn σ A L B).Waits task' →
        task' = task := by
      rintro task' ⟨render', hphase⟩
      cases hphase
      rfl
    constructor
    · intro id' task' hw
      rcases waits_update hw with ⟨-, hw⟩ | ⟨-, hw⟩
      · rw [hself task' hw]
        exact hs.spawn_present
      · exact hs.task_after (by simp) (by simp) (by simp) (ih.present id' task' hw)
    · intro id₁ id₂ task' hw₁ hw₂
      rcases waits_update hw₁ with ⟨hid₁, hnew₁⟩ | ⟨-, hold₁⟩
      · rcases waits_update hw₂ with ⟨hid₂, -⟩ | ⟨-, hold₂⟩
        · rw [hid₁, hid₂]
        · exact absurd (hself task' hnew₁) (hnew id₂ task' hold₂)
      · rcases waits_update hw₂ with ⟨-, hnew₂⟩ | ⟨-, hold₂⟩
        · exact absurd (hself task' hnew₂) (hnew id₁ task' hold₁)
        · exact ih.one id₁ id₂ task' hold₁ hold₂
  | @finish tr server pool id task taken sent render a _ hconn hs ih =>
    refine ih.update (fun _ ⟨_, hphase⟩ => by cases hphase) ?_
    intro id' task' hne hw hpresent
    -- the task that ends is the one this connection waits for
    have hother : task ≠ task' := by
      rintro rfl
      exact hne (ih.one id' id task hw ⟨render, by rw [hconn]⟩)
    exact hs.task_after (by simp) (fun _ heq => hother (Label.finish.inj heq).1) (by simp) hpresent
  | @drop tr server pool id task _ hwaits hs ih =>
    refine ih.update (Conn.lost_not_waits _) ?_
    intro id' task' hne hw hpresent
    have hother : task ≠ task' := by
      rintro rfl
      exact hne (ih.one id' id task hw hwaits)
    exact hs.task_after (by simp) (by simp) (fun heq => hother (Label.cancel.inj heq)) hpresent
  | @apart tr server pool l _ hs hrestart _ hends ih =>
    refine ⟨fun id task hw => ?_, ih.one⟩
    exact hs.task_after hrestart (hends id task hw).1 (hends id task hw).2 (ih.present id task hw)
  | restart _ _ _ =>
    exact ⟨fun id task hw => absurd hw (Conn.lost_not_waits _ task),
      fun id _ task hw => absurd hw (Conn.lost_not_waits _ task)⟩

/-! ## In order -/

theorem Orderly.moves {c c' : Conn σ A L B} (h : Orderly Y init intake tr c) {pool : Pool S A σ}
    (hr : Run Y init tr pool) (hmoves : c.Moves intake pool.store c') :
    Orderly Y init intake tr c' := by
  obtain ⟨hphase, hreplied⟩ := h
  cases hmoves with
  | accept => exact ⟨.idle [] rfl, hreplied⟩
  | skip taken sent l hl =>
    cases hphase with
    | idle _ hall => exact ⟨.idle _ ((requests_skip hl).trans hall), hreplied⟩
  | reply taken sent l b last hl =>
    cases hphase with
    | idle _ hall => exact ⟨.writing taken l b none last hall (.reply b last hl), hreplied⟩
  | look taken sent l render refusal hl =>
    cases hphase with
    | idle _ hall => exact ⟨.looking taken l render refusal hall hl, hreplied⟩
  | see taken sent render refusal =>
    cases hphase with
    | looking taken l _ _ hrest hl =>
      refine ⟨.writing taken l _ none false hrest ?_, hreplied⟩
      exact .look render refusal [] tr pool hl rfl hr
  | refuse taken sent render refusal b hb =>
    cases hphase with
    | looking taken l _ _ hrest hl =>
      exact ⟨.writing taken l b none false hrest (.refusal render refusal b hl hb), hreplied⟩
  | write taken sent l b stamp last =>
    cases hphase with
    | writing _ _ _ _ _ hrest hone =>
      have hall : requests intake (l :: taken) =
          (⟨l, b, stamp⟩ :: sent : List (Exchange L B)).map Exchange.arrival := by
        rw [requests_cons hone.not_skip, hrest]
        rfl
      refine ⟨?_, List.forall_mem_cons.mpr ⟨hone, hreplied⟩⟩
      cases last with
      | true => exact .closed _ [] hall (Nat.zero_le _)
      | false => exact .idle _ hall
  | close _ => exact Orderly.lost ⟨hphase, hreplied⟩

theorem orderly_update {conns : Nat → Conn σ A L B} (h : ∀ id, Orderly Y init intake tr (conns id))
    {id : Nat} {c : Conn σ A L B} (hc : Orderly Y init intake tr c) (id' : Nat) :
    Orderly Y init intake tr (Function.update conns id c id') := by
  by_cases hid : id' = id
  · subst hid
    rw [Function.update_self]
    exact hc
  · rw [Function.update_of_ne hid]
    exact h id'

/-- Every connection is answered in order, and with what was found for each request. -/
theorem Serving.orderly (h : Serving Y init intake own tr server) :
    ∀ id, Orderly Y init intake tr (server.conns id) := by
  induction h with
  | start =>
    intro id
    exact ⟨.fresh rfl, fun e he => nomatch he⟩
  | @move tr server id c hserving hmoves ih =>
    exact orderly_update ih ((ih id).moves hserving.run hmoves)
  | @serve tr server pool id task taken sent l r render hserving hconn hl hs ih =>
    have hlater : ∀ id', Orderly Y init intake (⟨server.pool, .spawn task r⟩ :: tr)
        (server.conns id') := by
      intro id'
      refine (ih id').later fun task' hw r' heq => ?_
      obtain ⟨t, ht, hid⟩ := hserving.awaited.present id' task' hw
      exact hs.spawn_fresh t ht (hid.trans (Label.spawn.inj heq).1.symm)
    refine orderly_update hlater ?_
    obtain ⟨hphase, hreplied⟩ := hlater id
    rw [hconn] at hphase hreplied
    cases hphase with
    | idle _ hall => exact ⟨.waiting taken l task r _ render hall hl (.here _ tr), hreplied⟩
  | @finish tr server pool id task taken sent render a hserving hconn hs ih =>
    have hlater : ∀ id', Orderly Y init intake (⟨server.pool, .finish task a⟩ :: tr)
        (server.conns id') := fun id' => (ih id').later fun _ _ _ heq => by cases heq
    refine orderly_update hlater ?_
    obtain ⟨-, hreplied⟩ := hlater id
    have hphase := (ih id).at_phase
    rw [hconn] at hphase hreplied
    cases hphase with
    | waiting taken l _ r s _ hrest hl hsp =>
      refine ⟨.writing taken l _ (some tr.length) false hrest ?_, hreplied⟩
      exact .serve r render [] tr _ task a s hl rfl rfl hsp
  | @drop tr server pool id task hserving hwaits hs ih =>
    have hlater : ∀ id', Orderly Y init intake (⟨server.pool, .cancel task⟩ :: tr)
        (server.conns id') := fun id' => (ih id').later fun _ _ _ heq => by cases heq
    exact orderly_update hlater (hlater id).lost
  | @apart tr server pool l hserving hs _ _ _ ih =>
    intro id
    refine (ih id).later fun task hw r heq => ?_
    obtain ⟨t, ht, hid⟩ := hserving.awaited.present id task hw
    have hspawn : Step Y server.pool (.spawn task r) pool := by
      rw [← heq]
      exact hs
    exact hspawn.spawn_fresh t ht hid
  | @restart tr server pool hserving hs ih =>
    intro id
    refine (ih id).lost.later fun task hw => ?_
    exact absurd hw (Conn.lost_not_waits _ task)

/-- A reply is what was found for its request. -/
theorem Serving.replied (h : Serving Y init intake own tr server) {id : Nat} {e : Exchange L B}
    (he : e ∈ (server.conns id).sent) : Replied Y init intake tr e.arrival e.reply e.stamp :=
  (h.orderly id).replied e he

/-! ## Who asked -/

theorem Conn.Moves.taken {store : σ} {c c' : Conn σ A L B} (h : c.Moves intake store c') {l : L}
    (hl : l ∈ c.taken) : l ∈ c'.taken := by
  cases h with
  | accept => cases hl
  | skip | reply | look => exact List.mem_cons_of_mem _ hl
  | see | refuse | write => exact hl
  | close _ =>
    unfold Conn.lost
    split <;> exact hl

theorem taken_update {conns : Nat → Conn σ A L B} {id : Nat} {c : Conn σ A L B}
    (hc : ∀ l ∈ (conns id).taken, l ∈ c.taken) {id' : Nat} {l : L} (hl : l ∈ (conns id').taken) :
    l ∈ (Function.update conns id c id').taken := by
  by_cases hid : id' = id
  · subst hid
    rw [Function.update_self]
    exact hc l hl
  · rw [Function.update_of_ne hid]
    exact hl

theorem Conn.lost_taken (c : Conn σ A L B) : c.lost.taken = c.taken := by
  unfold Conn.lost
  split <;> rfl

variable (intake own) in
/-- The server began the task of itself, or a connection asked for it. -/
def Asked (conns : Nat → Conn σ A L B) (r : R) : Prop :=
  own r ∨ ∃ id, ∃ l ∈ (conns id).taken, ∃ render, intake l = .serve r render

theorem Asked.mono {conns conns' : Nat → Conn σ A L B} {r : R} (h : Asked intake own conns r)
    (hkeep : ∀ id l, l ∈ (conns id).taken → l ∈ (conns' id).taken) : Asked intake own conns' r :=
  h.imp_right fun ⟨id, l, hl, hrender⟩ => ⟨id, l, hkeep id l hl, hrender⟩

/-- Every task was begun by the server itself or for a request of a connection. -/
theorem Serving.asked (h : Serving Y init intake own tr server) :
    ∀ t ∈ tr, ∀ task r, t.label = .spawn task r → Asked intake own server.conns r := by
  have hnext : ∀ {t : Transition S A σ R} {tr : List (Transition S A σ R)}
      {conns conns' : Nat → Conn σ A L B},
      (∀ t ∈ tr, ∀ task r, t.label = .spawn task r → Asked intake own conns r) →
      (∀ id l, l ∈ (conns id).taken → l ∈ (conns' id).taken) →
      (∀ task r, t.label = .spawn task r → Asked intake own conns' r) →
      ∀ t' ∈ t :: tr, ∀ task r, t'.label = .spawn task r → Asked intake own conns' r := by
    intro t tr conns conns' hold hkeep hnew t' ht' task r hlabel
    rcases List.mem_cons.mp ht' with rfl | hmem
    · exact hnew task r hlabel
    · exact (hold t' hmem task r hlabel).mono hkeep
  induction h with
  | start => exact fun _ ht => nomatch ht
  | move id c _ hmoves ih =>
    intro t ht task r hlabel
    refine (ih t ht task r hlabel).mono fun id' l hl => ?_
    exact taken_update (fun _ hl => hmoves.taken hl) hl
  | @serve tr server pool id task taken sent l r render _ hconn hl _ ih =>
    refine hnext ih (fun _ _ hl => taken_update ?_ hl) fun task' r' hlabel => ?_
    · intro l' hl'
      rw [hconn] at hl'
      exact List.mem_cons_of_mem _ hl'
    · obtain ⟨-, rfl⟩ := Label.spawn.inj hlabel
      refine .inr ⟨id, l, ?_, render, hl⟩
      show l ∈ (Function.update server.conns id _ id).taken
      rw [Function.update_self]
      exact List.mem_cons_self
  | @finish tr server pool id task taken sent render a _ hconn _ ih =>
    refine hnext ih (fun _ _ hl => taken_update ?_ hl) fun _ _ hlabel => by cases hlabel
    intro l' hl'
    rw [hconn] at hl'
    exact hl'
  | drop id task _ _ _ ih =>
    refine hnext ih (fun _ _ hl => taken_update ?_ hl) fun _ _ hlabel => by cases hlabel
    intro l' hl'
    rw [Conn.lost_taken]
    exact hl'
  | apart l _ _ _ hown _ ih => exact hnext ih (fun _ _ hl => hl) fun task r hl => .inl (hown task r hl)
  | restart _ _ ih =>
    refine hnext ih (fun _ _ hl => ?_) fun _ _ hlabel => by cases hlabel
    rw [Conn.lost_taken]
    exact hl

/-! ## The last answer -/

/-- The answer closes the connection. -/
def Intake.isLast : Intake σ A R B → Bool
  | .reply _ last => last
  | _ => false

def Phase.isLast : Phase σ A B → Bool
  | .writing _ _ last => last
  | .closed => true
  | _ => false

/-- A request whose answer closes the connection is the newest taken, and none is taken after. -/
structure Conn.Ends (intake : L → Intake σ A R B) (c : Conn σ A L B) : Prop where
  closing : ∀ l ∈ c.taken, (intake l).isLast = true → c.phase.isLast = true
  newest : ∀ l ∈ c.taken.tail, (intake l).isLast = false

theorem Conn.Ends.take {taken : List L} {sent : List (Exchange L B)} {phase : Phase σ A B} {l : L}
    (h : Conn.Ends intake ⟨taken, sent, .idle⟩) (hl : (intake l).isLast = true → phase.isLast = true) :
    Conn.Ends intake ⟨l :: taken, sent, phase⟩ := by
  have hnone : ∀ l' ∈ taken, (intake l').isLast = false := by
    intro l' hl'
    by_contra hlast
    have hidle := h.closing l' hl' (Bool.eq_true_of_not_eq_false hlast)
    cases hidle
  refine ⟨fun l' hl' hlast => ?_, hnone⟩
  rcases List.mem_cons.mp hl' with rfl | hold
  · exact hl hlast
  · rw [hnone l' hold] at hlast
    cases hlast

theorem Conn.Ends.next {taken : List L} {sent sent' : List (Exchange L B)}
    {phase phase' : Phase σ A B} (h : Conn.Ends intake ⟨taken, sent, phase⟩)
    (hphase : phase.isLast = true → phase'.isLast = true) :
    Conn.Ends intake ⟨taken, sent', phase'⟩ :=
  ⟨fun l hl hlast => hphase (h.closing l hl hlast), h.newest⟩

theorem Conn.Ends.lost {c : Conn σ A L B} (h : c.Ends intake) : c.lost.Ends intake := by
  unfold Conn.lost
  split
  · exact h
  · exact h.next fun _ => rfl

theorem Conn.Ends.moves {store : σ} {c c' : Conn σ A L B} (h : c.Ends intake)
    (hmoves : c.Moves intake store c') : c'.Ends intake := by
  cases hmoves with
  | accept => exact ⟨fun _ hl => (nomatch hl), fun _ hl => (nomatch hl)⟩
  | skip taken sent l hl => exact h.take fun hlast => by rw [hl] at hlast; cases hlast
  | reply taken sent l b last hl => exact h.take fun hlast => by rw [hl] at hlast; exact hlast
  | look taken sent l render refusal hl => exact h.take fun hlast => by rw [hl] at hlast; cases hlast
  | see | refuse => exact h.next fun hlast => by cases hlast
  | write taken sent l b stamp last =>
    refine h.next fun hlast => ?_
    obtain rfl : last = true := hlast
    rfl
  | close _ => exact h.lost

theorem Serving.ends (h : Serving Y init intake own tr server) (id : Nat) :
    (server.conns id).Ends intake := by
  have hupdate : ∀ {conns : Nat → Conn σ A L B} {id' : Nat} {c : Conn σ A L B},
      (∀ id, (conns id).Ends intake) → c.Ends intake → ∀ id, (Function.update conns id' c id).Ends intake := by
    intro conns id' c hold hc id
    by_cases hid : id = id'
    · subst hid
      rw [Function.update_self]
      exact hc
    · rw [Function.update_of_ne hid]
      exact hold id
  suffices hall : ∀ id, (server.conns id).Ends intake from hall id
  clear id
  induction h with
  | start => exact fun _ => ⟨fun _ hl => (nomatch hl), fun _ hl => (nomatch hl)⟩
  | move id c _ hmoves ih => exact hupdate ih ((ih id).moves hmoves)
  | @serve tr server pool id task taken sent l r render _ hconn hl _ ih =>
    have hc := ih id
    rw [hconn] at hc
    exact hupdate ih (hc.take fun hlast => by rw [hl] at hlast; cases hlast)
  | @finish tr server pool id task taken sent render a _ hconn _ ih =>
    have hc := ih id
    rw [hconn] at hc
    exact hupdate ih (hc.next fun hlast => by cases hlast)
  | drop id task _ _ _ ih => exact hupdate ih (ih id).lost
  | apart l _ _ _ _ _ ih => exact ih
  | restart _ _ ih => exact fun id => (ih id).lost

/-- What is answered with the connection's last answer is answered last. -/
theorem Serving.last (h : Serving Y init intake own tr server) {id : Nat} {e : Exchange L B}
    {newer older : List (Exchange L B)} (he : (server.conns id).sent = newer ++ e :: older)
    (hl : (intake e.arrival).isLast = true) :
    newer = [] ∧ requests intake (server.conns id).taken =
      (server.conns id).sent.map Exchange.arrival := by
  obtain ⟨pending, hall, -⟩ := (h.orderly id).at_phase.answered
  rw [he] at hall
  -- with an answer or a request in front of it, this request would not be the newest taken
  have hfront : pending ++ newer.map Exchange.arrival = [] := by
    by_contra hne
    obtain ⟨l, rest, hcons⟩ := List.exists_cons_of_ne_nil hne
    have htail : e.arrival ∈ (requests intake (server.conns id).taken).tail := by
      rw [hall, List.map_append, ← List.append_assoc, hcons]
      simp
    have hmem : e.arrival ∈ (server.conns id).taken.tail := by
      unfold requests at htail
      cases htaken : (server.conns id).taken with
      | nil =>
        rw [htaken] at htail
        cases htail
      | cons l' rest' =>
        rw [htaken] at htail
        by_cases hskip : (intake l').isSkip = true
        · rw [List.filter_cons_of_neg (by simp [hskip])] at htail
          exact (List.mem_filter.mp (List.mem_of_mem_tail htail)).1
        · rw [List.filter_cons_of_pos (by simp [hskip])] at htail
          exact (List.mem_filter.mp htail).1
    rw [(h.ends id).newest e.arrival hmem] at hl
    cases hl
  obtain ⟨rfl, hnewer⟩ := List.append_eq_nil_iff.mp hfront
  refine ⟨List.map_eq_nil_iff.mp hnewer, ?_⟩
  rw [hall, he]
  rfl

/-! ## Whose end it was -/

def Phase.stamp : Phase σ A B → Option Nat
  | .writing _ stamp _ => stamp
  | _ => none

/-- When the ends were found that the connection was or is to be answered with. -/
def Conn.stamps (c : Conn σ A L B) : List Nat :=
  c.phase.stamp.toList ++ c.sent.filterMap Exchange.stamp

theorem Conn.lost_stamps (c : Conn σ A L B) : c.lost.stamps.Sublist c.stamps := by
  unfold Conn.lost
  split
  · exact .refl _
  · exact List.sublist_append_right _ _

theorem Conn.Moves.stamps {store : σ} {c c' : Conn σ A L B} (h : c.Moves intake store c') :
    c'.stamps.Sublist c.stamps := by
  cases h with
  | write taken sent l b stamp last => cases stamp <;> cases last <;> exact .refl _
  | close _ => exact Conn.lost_stamps _
  | _ => exact .refl _

/-- Each end of a task was found for one request. -/
structure Stamped (bound : Nat) (conns : Nat → Conn σ A L B) : Prop where
  below : ∀ id, ∀ n ∈ (conns id).stamps, n < bound
  nodup : ∀ id, (conns id).stamps.Nodup
  one : ∀ id id' n, n ∈ (conns id).stamps → n ∈ (conns id').stamps → id = id'

theorem Stamped.less {bound bound' : Nat} {conns conns' : Nat → Conn σ A L B}
    (h : Stamped bound conns) (hbound : bound ≤ bound')
    (hsub : ∀ id, (conns' id).stamps.Sublist (conns id).stamps) : Stamped bound' conns' where
  below id n hn := (h.below id n ((hsub id).subset hn)).trans_le hbound
  nodup id := (h.nodup id).sublist (hsub id)
  one id id' n hn hn' := h.one id id' n ((hsub id).subset hn) ((hsub id').subset hn')

theorem stamps_update {conns : Nat → Conn σ A L B} {id : Nat} {c : Conn σ A L B}
    (hc : c.stamps.Sublist (conns id).stamps) (id' : Nat) :
    (Function.update conns id c id').stamps.Sublist (conns id').stamps := by
  by_cases hid : id' = id
  · subst hid
    rw [Function.update_self]
    exact hc
  · rw [Function.update_of_ne hid]

/-- The end that is found now was not found before. -/
theorem Stamped.found {bound : Nat} {conns : Nat → Conn σ A L B} (h : Stamped bound conns)
    {id : Nat} {c : Conn σ A L B} (hc : c.stamps = bound :: (conns id).stamps) :
    Stamped (bound + 1) (Function.update conns id c) := by
  have hfresh : ∀ id', bound ∉ (conns id').stamps :=
    fun id' hmem => Nat.lt_irrefl _ (h.below id' _ hmem)
  have hstamps : ∀ id', (Function.update conns id c id').stamps =
      if id' = id then bound :: (conns id').stamps else (conns id').stamps := by
    intro id'
    by_cases hid : id' = id
    · subst hid
      rw [Function.update_self, if_pos rfl]
      exact hc
    · rw [Function.update_of_ne hid, if_neg hid]
  -- a stamp found under an id was there before, or is the new one and the id is this one
  have hmem : ∀ {id' n}, n ∈ (Function.update conns id c id').stamps →
      (id' = id ∧ n = bound) ∨ n ∈ (conns id').stamps := by
    intro id' n hn
    rw [hstamps] at hn
    split at hn
    · next hid => exact (List.mem_cons.mp hn).imp (fun heq => ⟨hid, heq⟩) fun hold => hold
    · exact .inr hn
  constructor
  · intro id' n hn
    rcases hmem hn with ⟨-, rfl⟩ | hold
    · exact Nat.lt_succ_self n
    · exact (h.below id' n hold).trans (Nat.lt_succ_self bound)
  · intro id'
    rw [hstamps]
    split
    · exact List.nodup_cons.mpr ⟨hfresh id', h.nodup id'⟩
    · exact h.nodup id'
  · intro id₁ id₂ n hn₁ hn₂
    rcases hmem hn₁ with ⟨hid₁, rfl⟩ | hold₁
    · rcases hmem hn₂ with ⟨hid₂, -⟩ | hold₂
      · rw [hid₁, hid₂]
      · exact absurd hold₂ (hfresh id₂)
    · rcases hmem hn₂ with ⟨-, rfl⟩ | hold₂
      · exact absurd hold₁ (hfresh id₁)
      · exact h.one id₁ id₂ n hold₁ hold₂

theorem Serving.stamped (h : Serving Y init intake own tr server) :
    Stamped tr.length server.conns := by
  induction h with
  | start => exact ⟨fun _ _ hn => (nomatch hn), fun _ => List.nodup_nil, fun _ _ _ hn => (nomatch hn)⟩
  | move id c _ hmoves ih => exact ih.less le_rfl (stamps_update hmoves.stamps)
  | @serve tr server pool id task taken sent l r render _ hconn _ _ ih =>
    refine ih.less (Nat.le_succ _) (stamps_update ?_)
    rw [hconn]
    exact .refl _
  | @finish tr server pool id task taken sent render a _ hconn _ ih =>
    refine ih.found ?_
    rw [hconn]
    rfl
  | drop id task _ _ _ ih => exact ih.less (Nat.le_succ _) (stamps_update (Conn.lost_stamps _))
  | apart l _ _ _ _ _ ih => exact ih.less (Nat.le_succ _) fun _ => .refl _
  | restart _ _ ih => exact ih.less (Nat.le_succ _) fun _ => Conn.lost_stamps _

/-- No two exchanges of a list without repetitions of stamps have one stamp. -/
theorem stamp_position {sent : List (Exchange L B)} (h : (sent.filterMap Exchange.stamp).Nodup)
    {i i' n : Nat} {e e' : Exchange L B} (he : sent[i]? = some e) (he' : sent[i']? = some e')
    (hn : e.stamp = some n) (hn' : e'.stamp = some n) : i = i' := by
  have hmem : ∀ {rest : List (Exchange L B)} {j : Nat} {x : Exchange L B}, rest[j]? = some x →
      x.stamp = some n → n ∈ rest.filterMap Exchange.stamp :=
    fun hx hstamp => List.mem_filterMap.mpr ⟨_, List.mem_of_getElem? hx, hstamp⟩
  induction sent generalizing i i' with
  | nil => cases he
  | cons x rest ih =>
    have hrest : (rest.filterMap Exchange.stamp).Nodup :=
      h.sublist ((List.sublist_cons_self x rest).filterMap _)
    have hhead : x.stamp = some n → n ∉ rest.filterMap Exchange.stamp := by
      intro hx
      rw [List.filterMap_cons_some hx] at h
      exact (List.nodup_cons.mp h).1
    cases i with
    | zero =>
      cases i' with
      | zero => rfl
      | succ i' =>
        obtain rfl : x = e := Option.some.inj he
        have hlater : n ∈ rest.filterMap Exchange.stamp := hmem he' hn'
        exact absurd hlater (hhead hn)
    | succ i =>
      cases i' with
      | zero =>
        obtain rfl : x = e' := Option.some.inj he'
        have hlater : n ∈ rest.filterMap Exchange.stamp := hmem he hn
        exact absurd hlater (hhead hn')
      | succ i' => rw [ih hrest he he']

/-- No end of a task is the answer to two requests. -/
theorem Serving.distinct (h : Serving Y init intake own tr server) {id id' i i' n : Nat}
    {e e' : Exchange L B} (he : (server.conns id).sent[i]? = some e)
    (he' : (server.conns id').sent[i']? = some e') (hn : e.stamp = some n)
    (hn' : e'.stamp = some n) : id = id' ∧ i = i' := by
  have hmem : ∀ {id i : Nat} {e : Exchange L B}, (server.conns id).sent[i]? = some e →
      e.stamp = some n → n ∈ (server.conns id).stamps := by
    intro id i e he hn
    exact List.mem_append_right _ (List.mem_filterMap.mpr ⟨e, List.mem_of_getElem? he, hn⟩)
  obtain rfl : id = id' := h.stamped.one id id' n (hmem he hn) (hmem he' hn')
  refine ⟨rfl, stamp_position ?_ he he' hn hn'⟩
  exact (h.stamped.nodup id).sublist (List.sublist_append_right _ _)

/-! ## One request after the other -/

/-- Executing the one task there is, is a piece of a run under the server. -/
theorem Serving.executes {p : Prog S A} {s s' : σ} {a : A} {task : Nat} {past : List (Performed S)}
    {conns : Nat → Conn σ A L B}
    (h : Serving Y init intake own tr ⟨⟨s, [⟨task, p, past⟩]⟩, conns⟩)
    (hexec : p.Executes Y.handler s a s') :
    ∃ tr' past', Serving Y init intake own (tr' ++ tr) ⟨⟨s', [⟨task, .ret a, past'⟩]⟩, conns⟩ := by
  induction p generalizing s past tr with
  | ret b =>
    obtain ⟨rfl, rfl⟩ := hexec
    exact ⟨[], past, h⟩
  | vis op k ih =>
    rcases hexec with hexec | ⟨x, hx, hexec⟩
    · have hstep := h.apart _ (Step.act s [] [] task op k past) (by simp) (by simp) (by simp)
      obtain ⟨tr', past', hserving⟩ := ih _ hstep hexec
      exact ⟨tr' ++ [_], past', by simpa using hserving⟩
    · have hstep := h.apart _ (Step.fault s [] [] task op k past x hx) (by simp) (by simp) (by simp)
      obtain ⟨tr', past', hserving⟩ := ih _ hstep hexec
      exact ⟨tr' ++ [_], past', by simpa using hserving⟩

theorem Serving.completes {p : Prog S A} {s s' : σ} {a : A} {task : Nat} {past : List (Performed S)}
    {conns : Nat → Conn σ A L B}
    (h : Serving Y init intake own tr ⟨⟨s, [⟨task, p, past⟩]⟩, conns⟩)
    (hc : Completes Y p s a s') :
    ∃ tr' past', Serving Y init intake own (tr' ++ tr) ⟨⟨s', [⟨task, .ret a, past'⟩]⟩, conns⟩ ∧
      Y.again a = none := by
  induction hc generalizing past tr with
  | done hexec hnone =>
    obtain ⟨tr', past', hserving⟩ := h.executes hexec
    exact ⟨tr', past', hserving, hnone⟩
  | again hexec hsome _ ih =>
    obtain ⟨tr', past', hserving⟩ := h.executes hexec
    have hstep := hserving.apart _ (Step.again _ [] [] task _ _ past' hsome) (by simp) (by simp)
      (by simp)
    obtain ⟨tr'', past'', hserving', hnone⟩ := ih hstep
    exact ⟨tr'' ++ _ :: tr', past'', by simpa using hserving', hnone⟩

theorem Serving.moves {pool : Pool S A σ} {conns : Nat → Conn σ A L B}
    (h : Serving Y init intake own tr ⟨pool, conns⟩) {id : Nat} {c c' : Conn σ A L B}
    (hconn : conns id = c) (hmoves : c.Moves intake pool.store c') :
    Serving Y init intake own tr ⟨pool, Function.update conns id c'⟩ := by
  subst hconn
  exact h.move id c' hmoves

/-- A request that is served alone is answered with what it ends with. -/
theorem Serving.served {s s' : σ} {conns : Nat → Conn σ A L B}
    (h : Serving Y init intake own tr ⟨⟨s, []⟩, conns⟩) (id : Nat) {taken : List L}
    {sent : List (Exchange L B)} (hconn : conns id = ⟨taken, sent, .idle⟩) {l : L} {r : R}
    {render : A → B} (hl : intake l = .serve r render) {a : A}
    (hc : Completes Y (Y.program r) s a s') :
    ∃ tr' stamp, Serving Y init intake own tr' ⟨⟨s', []⟩, Function.update conns id
      ⟨l :: taken, ⟨l, render a, stamp⟩ :: sent, .idle⟩⟩ := by
  have hserve := h.serve id 0 taken sent l r render hconn hl (Step.spawn s [] 0 r (by simp))
  obtain ⟨tr', past, hdone, hnone⟩ := hserve.completes hc
  have hfinish := hdone.finish id 0 (l :: taken) sent render a (Function.update_self ..)
    (Step.finish s' [] [] 0 a past hnone)
  have hwrite := hfinish.moves (Function.update_self ..) (.write taken sent l (render a) _ false)
  simp only [Function.update_idem] at hwrite
  exact ⟨_, _, hwrite⟩

/-- A request that needs no store is answered out of hand. -/
theorem Serving.answered {pool : Pool S A σ} {conns : Nat → Conn σ A L B}
    (h : Serving Y init intake own tr ⟨pool, conns⟩) (id : Nat) {taken : List L}
    {sent : List (Exchange L B)} (hconn : conns id = ⟨taken, sent, .idle⟩) {l : L} {b : B}
    {last : Bool} (hl : intake l = .reply b last) :
    Serving Y init intake own tr ⟨pool, Function.update conns id
      ⟨l :: taken, ⟨l, b, none⟩ :: sent, if last then .closed else .idle⟩⟩ := by
  have htake := h.moves hconn (.reply taken sent l b last hl)
  have hwrite := htake.moves (Function.update_self ..) (.write taken sent l b none last)
  simpa only [Function.update_idem] using hwrite

end Resumption
