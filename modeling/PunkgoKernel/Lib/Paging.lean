import Mathlib.Data.List.Sort
import Mathlib.Data.List.Perm.Subperm

/-!
# Paging through a growing log

A log is a list of items in the order of their indexes, and it grows at its end.
A page has the newest items within bounds, newest first, and no more than a
limit. A client makes a loop of such requests, and the log may grow between two
of them.

- Going BACKWARD, it asks for what is below the last item it got, as long as a
  page is full. It gets what was there at the first request, in order
  (`Follow.items_eq`, `exists_follow`).
- Going FORWARD, it asks for what is above the largest index it got, until a page
  is empty. Since a page is of the newest items, it gets everything exactly if the
  log never grows by more than the limit from one request to the next
  (`Poll.perm_iff`).
-/

namespace Paging

variable {α : Type} (index : α → Int)

/-- The index lies between the bounds there are. -/
def within (lo hi : Option Int) (i : Int) : Bool := hi.all (fun h => decide (i < h)) && lo.all (fun l => decide (l < i))

/-- The newest items within the bounds, newest first. -/
def newest (limit : Nat) (lo hi : Option Int) (log : List α) : List α :=
  ((log.filter fun x => within lo hi (index x)).reverse).take limit

/-- A page, with whether to ask for another and from where. -/
structure Page (α : Type) where
  items : List α
  hasMore : Bool
  nextCursor : Option Int

/-- The page of these items: full ones have a successor, below their last
item. -/
def pageOf (limit : Nat) (items : List α) : Page α :=
  ⟨items, items.length = limit, items.getLast?.map index⟩

/-- In the order of the indexes. -/
def Ascending (log : List α) : Prop := log.Pairwise fun x y => index x < index y

/-- The states of a log at one request after the other. -/
structure Growing (logs : Nat → List α) : Prop where
  ascending : ∀ n, Ascending index (logs n)
  grows : ∀ n, logs n <+: logs (n + 1)

/-- The client that follows the cursors, from its request number `n` on: what it
gets in all. -/
inductive Follow (read : Nat → Option Int → Page α) : Nat → Option Int → List α → Prop
  | last {n : Nat} {cursor : Option Int} :
      (read n cursor).hasMore = false → Follow read n cursor (read n cursor).items
  | next {n : Nat} {cursor : Option Int} {rest : List α} :
      (read n cursor).hasMore = true → Follow read (n + 1) (read n cursor).nextCursor rest →
      Follow read n cursor ((read n cursor).items ++ rest)

/-- The largest index received so far. -/
def largest (c : Int) (items : List α) : Int := items.foldl (fun m x => max m (index x)) c

/-- The client that asks for what is above the largest index it has, from its
request number `n` on: the number of its last request, and what it gets in
all. -/
inductive Poll (read : Nat → Int → List α) : Nat → Int → Nat → List α → Prop
  | done {n : Nat} {c : Int} : read n c = [] → Poll read n c n []
  | more {n : Nat} {c : Int} {last : Nat} {rest : List α} :
      read n c ≠ [] → Poll read (n + 1) (largest index c (read n c)) last rest →
      Poll read n c last (read n c ++ rest)

variable {index}

/-! ## Items of a sorted log -/

theorem Ascending.filter {log : List α} (h : Ascending index log) (p : α → Bool) :
    Ascending index (log.filter p) := List.Pairwise.filter p h

theorem Ascending.nodup {log : List α} (h : Ascending index log) : log.Nodup :=
  List.Pairwise.imp (fun hlt heq => absurd (heq ▸ hlt) (lt_irrefl _)) h

theorem Ascending.index_inj {log : List α} (h : Ascending index log) {x y : α} (hx : x ∈ log)
    (hy : y ∈ log) (heq : index x = index y) : x = y := by
  have hnodup : (log.map index).Nodup := List.pairwise_map.mpr (h.imp fun hlt => hlt.ne)
  exact List.inj_on_of_nodup_map hnodup hx hy heq

/-- The items below an index, and that item and those above it. -/
theorem Ascending.filter_lt_append {before after : List α} {x : α}
    (h : Ascending index (before ++ x :: after)) :
    (before ++ x :: after).filter (fun y => index y < index x) = before := by
  obtain ⟨-, hafter, hacross⟩ := List.pairwise_append.mp h
  rw [List.filter_append, List.filter_eq_self.mpr, List.filter_eq_nil_iff.mpr, List.append_nil]
  · intro y hy hlt
    rcases List.mem_cons.mp hy with rfl | hy
    · exact absurd (of_decide_eq_true hlt) (lt_irrefl _)
    · exact absurd (of_decide_eq_true hlt) (not_lt.mpr ((List.pairwise_cons.mp hafter).1 y hy).le)
  · intro y hy
    exact decide_eq_true (hacross y hy x List.mem_cons_self)

theorem Ascending.filter_gt_append {before after : List α} {x : α}
    (h : Ascending index (before ++ x :: after)) :
    (before ++ x :: after).filter (fun y => index x < index y) = after := by
  obtain ⟨-, hafter, hacross⟩ := List.pairwise_append.mp h
  rw [List.filter_append, List.filter_eq_nil_iff.mpr, List.nil_append, List.filter_cons_of_neg,
    List.filter_eq_self.mpr]
  · intro y hy
    exact decide_eq_true ((List.pairwise_cons.mp hafter).1 y hy)
  · intro hlt
    exact absurd (of_decide_eq_true hlt) (lt_irrefl _)
  · intro y hy hlt
    exact absurd (of_decide_eq_true hlt)
      (not_lt.mpr (hacross y hy x List.mem_cons_self).le)

/-! ## Growth -/

namespace Growing

variable {logs : Nat → List α}

theorem prefix_of_le (h : Growing index logs) {n m : Nat} (hle : n ≤ m) : logs n <+: logs m := by
  induction m, hle using Nat.le_induction with
  | base => exact List.prefix_rfl
  | succ m _ ih => exact ih.trans (h.grows m)

/-- What came later, and above all that was there. -/
theorem later (h : Growing index logs) {n m : Nat} (hle : n ≤ m) :
    ∃ new, logs m = logs n ++ new ∧ ∀ x ∈ logs n, ∀ y ∈ new, index x < index y := by
  obtain ⟨new, heq⟩ := h.prefix_of_le hle
  refine ⟨new, heq.symm, ?_⟩
  have hascending := h.ascending m
  rw [← heq] at hascending
  exact (List.pairwise_append.mp hascending).2.2

end Growing

/-! ## Going backward -/

/-- The items of a page, at the end of what lies within the bounds. -/
theorem newest_split {limit : Nat} {lo hi : Option Int} {log : List α} (hpos : 0 < limit)
    (hfull : limit ≤ (log.filter fun x => within lo hi (index x)).length) :
    ∃ before x after, (log.filter fun x => within lo hi (index x)) = before ++ x :: after ∧
      newest index limit lo hi log = (x :: after).reverse ∧ (x :: after).length = limit := by
  unfold newest
  generalize (log.filter fun x => within lo hi (index x)) = found at hfull ⊢
  have hlength : (found.drop (found.length - limit)).length = limit := by
    rw [List.length_drop]
    omega
  cases hdrop : found.drop (found.length - limit) with
  | nil =>
    rw [hdrop] at hlength
    exact absurd hlength hpos.ne
  | cons x after =>
    have hfound := List.take_append_drop (found.length - limit) found
    rw [hdrop] at hfound hlength
    refine ⟨_, x, after, hfound.symm, ?_, hlength⟩
    rw [← hfound, List.reverse_append]
    exact List.take_left' (by rw [List.length_reverse, hlength])

/-- What lies below an item that was there and within the bounds is the same in
every later state of the log. -/
theorem Growing.below {logs : Nat → List α} (h : Growing index logs) {n m : Nat} (hle : n ≤ m)
    {lo hi : Option Int} {before after : List α} {x : α}
    (hfound : ((logs n).filter fun x => within lo hi (index x)) = before ++ x :: after) :
    ((logs m).filter fun y => within lo (some (index x)) (index y)) = before := by
  have hx : x ∈ (logs n).filter fun x => within lo hi (index x) := by
    rw [hfound]
    simp
  obtain ⟨hmem, hwithin⟩ := List.mem_filter.mp hx
  obtain ⟨hbelow, -⟩ := Bool.and_eq_true_iff.mp hwithin
  obtain ⟨new, hnew, habove⟩ := h.later hle
  have hnone : (new.filter fun y => within lo (some (index x)) (index y)) = [] := by
    refine List.filter_eq_nil_iff.mpr ?_
    intro y hy hin
    obtain ⟨hlt, -⟩ := Bool.and_eq_true_iff.mp hin
    have hy' : index y < index x := of_decide_eq_true hlt
    exact absurd hy' (not_lt.mpr (habove x hmem y hy).le)
  have hsame : ((logs n).filter fun y => within lo (some (index x)) (index y)) =
      ((logs n).filter fun y => within lo hi (index y)).filter fun y => index y < index x := by
    rw [List.filter_filter]
    refine List.filter_congr ?_
    intro y _
    unfold within
    cases hi with
    | none => simp
    | some b =>
      have hb : index x < b := of_decide_eq_true hbelow
      by_cases hlt : index y < index x
      · have hyb : index y < b := hlt.trans hb
        simp [hlt, hyb]
      · simp [hlt]
  rw [hnew, List.filter_append, hnone, List.append_nil, hsame, hfound]
  exact Ascending.filter_lt_append (hfound ▸ (h.ascending n).filter _)

/-- The read of one page. -/
def backward (index : α → Int) (limit : Nat) (lo : Option Int) (logs : Nat → List α) (n : Nat)
    (cursor : Option Int) : Page α := pageOf index limit (newest index limit lo cursor (logs n))

section Backward

variable {logs : Nat → List α} {limit : Nat} {lo : Option Int}

/-- A page that is not full is all there is. -/
theorem newest_of_lt {hi : Option Int} {log : List α}
    (hlt : (newest index limit lo hi log).length < limit) :
    newest index limit lo hi log = (log.filter fun x => within lo hi (index x)).reverse := by
  unfold newest at hlt ⊢
  rw [List.length_take] at hlt
  exact List.take_of_length_le (by omega)

theorem hasMore_backward {n : Nat} {cursor : Option Int} :
    (backward index limit lo logs n cursor).hasMore = true ↔
      (newest index limit lo cursor (logs n)).length = limit := decide_eq_true_iff

theorem length_newest_le (hi : Option Int) (log : List α) :
    (newest index limit lo hi log).length ≤ limit := by
  unfold newest
  rw [List.length_take]
  omega

/-- A full page, where the next one starts, and what is left for it. -/
theorem Growing.next (h : Growing index logs) (hpos : 0 < limit) {n : Nat} {cursor : Option Int}
    (hmore : (backward index limit lo logs n cursor).hasMore = true) :
    ∃ before x after, ((logs n).filter fun y => within lo cursor (index y)) = before ++ x :: after ∧
      (backward index limit lo logs n cursor).items = (x :: after).reverse ∧
      (backward index limit lo logs n cursor).nextCursor = some (index x) ∧
      ((logs (n + 1)).filter fun y => within lo (some (index x)) (index y)) = before := by
  rw [hasMore_backward] at hmore
  have hfull : limit ≤ ((logs n).filter fun y => within lo cursor (index y)).length := by
    rw [← hmore]
    unfold newest
    rw [List.length_take, List.length_reverse]
    omega
  obtain ⟨before, x, after, hfound, hnewest, -⟩ := newest_split hpos hfull
  refine ⟨before, x, after, hfound, hnewest, ?_, h.below (Nat.le_succ n) hfound⟩
  unfold backward pageOf
  rw [hnewest]
  simp

/-- Whatever is appended in between, the client gets what was there at its first
request, newest first. -/
theorem Follow.items_eq (h : Growing index logs) (hpos : 0 < limit) {n : Nat} {cursor : Option Int}
    {received : List α} (hfollow : Follow (backward index limit lo logs) n cursor received) :
    received = ((logs n).filter fun x => within lo cursor (index x)).reverse := by
  induction hfollow with
  | last hlast =>
    rw [Bool.eq_false_iff, ne_eq, hasMore_backward] at hlast
    exact newest_of_lt (lt_of_le_of_ne (length_newest_le _ _) hlast)
  | next hmore _ ih =>
    obtain ⟨before, x, after, hfound, hitems, hcursor, hbefore⟩ := h.next hpos hmore
    rw [hcursor, hbefore] at ih
    rw [hitems, ih, hfound, List.reverse_append]

/-- The client comes to an end. -/
theorem exists_follow (h : Growing index logs) (hpos : 0 < limit) (n : Nat)
    (cursor : Option Int) : ∃ received, Follow (backward index limit lo logs) n cursor received := by
  generalize hsize : ((logs n).filter fun x => within lo cursor (index x)).length = size
  induction size using Nat.strong_induction_on generalizing n cursor with
  | _ size ih =>
    cases hmore : (backward index limit lo logs n cursor).hasMore with
    | false => exact ⟨_, .last hmore⟩
    | true =>
      obtain ⟨before, x, after, hfound, -, hcursor, hbefore⟩ := h.next hpos hmore
      have hless : before.length < size := by
        rw [← hsize, hfound, List.length_append, List.length_cons]
        omega
      obtain ⟨rest, hrest⟩ := ih before.length hless (n + 1) (some (index x)) (by rw [hbefore])
      rw [← hcursor] at hrest
      exact ⟨_, .next hmore hrest⟩

end Backward

/-! ## Going forward -/

/-- The read of what is above an index. -/
def forward (index : α → Int) (limit : Nat) (logs : Nat → List α) (n : Nat) (c : Int) : List α :=
  newest index limit (some c) none (logs n)

/-- How much the log has grown at a request since the one before, or since it was
empty. -/
def grown (logs : Nat → List α) : Nat → Nat
  | 0 => (logs 0).length
  | n + 1 => (logs (n + 1)).length - (logs n).length

section Forward

variable {logs : Nat → List α} {limit : Nat}

/-- What is above an index. -/
def above (index : α → Int) (c : Int) (log : List α) : List α := log.filter fun x => c < index x

theorem forward_eq (n : Nat) (c : Int) :
    forward index limit logs n c = ((above index c (logs n)).reverse).take limit := by
  unfold forward newest above within
  simp

/-- The largest index of a page is that of its first item. -/
theorem largest_descending {c : Int} {x : α} {rest : List α} (hc : c < index x)
    (h : ∀ y ∈ rest, index y < index x) : largest index c (x :: rest) = index x := by
  have hkeep : ∀ ys : List α, (∀ y ∈ ys, index y < index x) → largest index (index x) ys = index x := by
    intro ys hys
    induction ys with
    | nil => rfl
    | cons y ys ih =>
      unfold largest
      rw [List.foldl_cons, max_eq_left (hys y List.mem_cons_self).le]
      exact ih fun z hz => hys z (List.mem_cons_of_mem _ hz)
  unfold largest
  rw [List.foldl_cons, max_eq_right hc.le]
  exact hkeep rest h

/-- A page that is not empty: its largest index is that of the last item there
is, and above it is only what comes later. -/
theorem Growing.beyond (h : Growing index logs) (hpos : 0 < limit) {n : Nat} {c : Int}
    (hsome : forward index limit logs n c ≠ []) :
    ∃ x, x ∈ logs n ∧ largest index c (forward index limit logs n c) = index x ∧
      ∀ m, n ≤ m → above index c (logs m) = above index c (logs n) ++ above index (index x) (logs m) ∧
        (above index (index x) (logs m)).length = (logs m).length - (logs n).length := by
  rw [forward_eq] at hsome ⊢
  have hascending : Ascending index (above index c (logs n)) := (h.ascending n).filter _
  rcases List.eq_nil_or_concat (above index c (logs n)) with hnil | ⟨before, x, hfound⟩
  · rw [hnil] at hsome
    exact absurd (List.take_nil (i := limit)) hsome
  rw [List.concat_eq_append] at hfound
  have hx : x ∈ above index c (logs n) := by
    rw [hfound]
    simp
  obtain ⟨hmem, habove⟩ := List.mem_filter.mp hx
  have hc : c < index x := of_decide_eq_true habove
  refine ⟨x, hmem, ?_, ?_⟩
  · rw [hfound] at hascending ⊢
    obtain ⟨k, rfl⟩ := Nat.exists_eq_succ_of_ne_zero hpos.ne'
    rw [List.reverse_append, List.reverse_singleton, List.singleton_append, List.take_succ_cons]
    refine largest_descending hc ?_
    intro y hy
    have hbefore : y ∈ before := List.mem_reverse.mp (List.mem_of_mem_take hy)
    exact (List.pairwise_append.mp hascending).2.2 y hbefore x (List.mem_singleton_self x)
  · intro m hle
    obtain ⟨new, hnew, hlater⟩ := h.later hle
    have hkeep : ∀ b, b ≤ index x → above index b new = new := by
      intro b hb
      refine List.filter_eq_self.mpr ?_
      intro y hy
      exact decide_eq_true (hb.trans_lt (hlater x hmem y hy))
    have hnone : above index (index x) (logs n) = [] := by
      have hsub : above index (index x) (logs n) =
          (above index c (logs n)).filter fun y => index x < index y := by
        unfold above
        rw [List.filter_filter]
        refine List.filter_congr ?_
        intro y _
        by_cases hlt : index x < index y
        · simp [hlt, hc.trans hlt]
        · simp [hlt]
      rw [hsub, hfound]
      exact Ascending.filter_gt_append (hfound ▸ hascending)
    have hbeyond : above index (index x) (logs m) = new := by
      show (logs m).filter _ = new
      rw [hnew, List.filter_append]
      show above index (index x) (logs n) ++ above index (index x) new = new
      rw [hnone, hkeep _ le_rfl, List.nil_append]
    refine ⟨?_, ?_⟩
    · rw [hbeyond]
      show (logs m).filter _ = _
      rw [hnew, List.filter_append]
      show above index c (logs n) ++ above index c new = _
      rw [hkeep _ hc.le]
    · rw [hbeyond, hnew, List.length_append]
      omega

theorem Poll.le {read : Nat → Int → List α} {n last : Nat} {c : Int} {received : List α}
    (h : Poll index read n c last received) : n ≤ last := by
  induction h with
  | done _ => exact le_rfl
  | more _ _ ih => omega

theorem length_forward (n : Nat) (c : Int) :
    (forward index limit logs n c).length = min limit (above index c (logs n)).length := by
  rw [forward_eq, List.length_take, List.length_reverse]

/-- The client gets no more than there is. -/
theorem Poll.length_le (h : Growing index logs) (hpos : 0 < limit) {n last : Nat} {c : Int}
    {received : List α} (hpoll : Poll index (forward index limit logs) n c last received) :
    received.length ≤ (above index c (logs last)).length := by
  induction hpoll with
  | done _ => exact Nat.zero_le _
  | more hsome hrest ih =>
    obtain ⟨x, -, hlargest, hbeyond⟩ := h.beyond hpos hsome
    obtain ⟨hsplit, -⟩ := hbeyond _ ((Nat.le_succ _).trans hrest.le)
    rw [hlargest] at ih
    rw [List.length_append, hsplit, List.length_append, length_forward]
    omega

/-- The client gets everything above where it starts, each item once, exactly if
there is room on its first page for what is there and on each later one for what
has come since. -/
theorem Poll.perm_above_iff (h : Growing index logs) (hpos : 0 < limit) {n last : Nat} {c : Int}
    {received : List α} (hpoll : Poll index (forward index limit logs) n c last received) :
    received.Perm (above index c (logs last)) ↔
      (above index c (logs n)).length ≤ limit ∧
        ∀ m, n ≤ m → m < last → grown logs (m + 1) ≤ limit := by
  induction hpoll with
  | @done n c hnone =>
    have hempty : above index c (logs n) = [] := by
      rw [forward_eq] at hnone
      rcases List.take_eq_nil_iff.mp hnone with hzero | hnil
      · omega
      · exact List.reverse_eq_nil_iff.mp hnil
    rw [hempty]
    exact ⟨fun _ => ⟨Nat.zero_le _, fun m hle hlt => by omega⟩, fun _ => List.Perm.refl _⟩
  | @more n c last rest hsome hrest ih =>
    obtain ⟨x, -, hlargest, hbeyond⟩ := h.beyond hpos hsome
    have hlast : n + 1 ≤ last := hrest.le
    obtain ⟨hsplit, -⟩ := hbeyond last (by omega)
    obtain ⟨-, hgrown⟩ := hbeyond (n + 1) (Nat.le_succ n)
    have hle := hrest.length_le h hpos
    rw [hlargest] at ih hle
    have hlater : (above index (index x) (logs (n + 1))).length ≤ limit ∧
        (∀ m, n + 1 ≤ m → m < last → grown logs (m + 1) ≤ limit) ↔
        ∀ m, n ≤ m → m < last → grown logs (m + 1) ≤ limit := by
      rw [hgrown]
      constructor
      · rintro ⟨hfirst, hothers⟩ m hnm hm
        rcases Nat.eq_or_lt_of_le hnm with rfl | hlt
        · exact hfirst
        · exact hothers m hlt hm
      · intro hall
        exact ⟨hall n le_rfl hlast, fun m hnm hm => hall m (by omega) hm⟩
    rw [hsplit, ← hlater, ← ih]
    by_cases hroom : (above index c (logs n)).length ≤ limit
    · -- the page has all there is
      have hpage : (forward index limit logs n c).Perm (above index c (logs n)) := by
        rw [forward_eq, List.take_of_length_le (by rw [List.length_reverse]; exact hroom)]
        exact List.reverse_perm _
      rw [(hpage.append_right rest).congr_left]
      exact ⟨fun hperm => ⟨hroom, (List.perm_append_left_iff _).mp hperm⟩,
        fun ⟨_, hperm⟩ => hperm.append_left _⟩
    · -- what does not fit on the page is never asked for again
      constructor
      · intro hperm
        have hlength := hperm.length_eq
        rw [List.length_append, List.length_append, length_forward] at hlength
        omega
      · rintro ⟨hle', -⟩
        exact absurd hle' hroom

/-- From below all indexes on: the client gets the whole log, each item once,
exactly if the log never grows by more than a page. -/
theorem Poll.perm_iff (h : Growing index logs) (hpos : 0 < limit) {c : Int}
    (hbelow : ∀ n, ∀ x ∈ logs n, c < index x) {last : Nat} {received : List α}
    (hpoll : Poll index (forward index limit logs) 0 c last received) :
    received.Perm (logs last) ↔ ∀ m, m ≤ last → grown logs m ≤ limit := by
  have hall : ∀ n, above index c (logs n) = logs n := by
    intro n
    exact List.filter_eq_self.mpr fun x hx => decide_eq_true (hbelow n x hx)
  rw [← hall last, hpoll.perm_above_iff h hpos, hall]
  constructor
  · rintro ⟨hfirst, hothers⟩ m hm
    cases m with
    | zero => exact hfirst
    | succ m => exact hothers m (Nat.zero_le m) hm
  · intro hfits
    exact ⟨hfits 0 (Nat.zero_le _), fun m _ hm => hfits (m + 1) hm⟩

end Forward

end Paging
