import PunkgoKernel.Laws.Effects
import PunkgoKernel.Laws.Like

/-!
# Lineages, and the query over them

A freeze reaches the actors whose lineage column shows the target's id between two
quotation marks (`Shown`). The column is the lineage's JSON text, so this can be said
in ids and lineages alone: `mem_descendants` is the step from the query to it. In the
lineage of one plain id only that id stands between quotation marks, and it is shown
exactly if it is the target's but for the case of letters (`shown_plain`).

A target's id of more than 49996 bytes makes a pattern the database refuses
(`ShortId`), and then nobody is frozen.
-/

namespace PunkgoKernel

open Json (Value)
open Relational (Table key)

/-! ## The lineage column as text -/

/-- The id, as a pattern, matches what stands between two quotation marks of the
lineage column. An id with a NUL in it is a pattern only up to there, and without the
closing quotation mark, so it must match all the rest of the column. -/
def Shown (targetId : String) (lineage : List String) : Prop :=
  ∃ before stretch after,
    (ActorStore.lineageJson lineage).map readChar = before ++ '"' :: (stretch ++ after) ∧
      likeChars (readText targetId.toList) stretch = true ∧
      if nul ∈ targetId.toList then after = [] else ∃ rest, after = '"' :: rest

/-- The pattern of the query, character by character. -/
theorem lineagePattern_toList (targetId : String) :
    (ActorStore.lineagePattern targetId).toList = '%' :: '"' :: (targetId.toList ++ ['"', '%']) := by
  have hopen : (toString "%\"").toList = ['%', '"'] := rfl
  have hclose : (toString "\"%").toList = ['"', '%'] := rfl
  unfold ActorStore.lineagePattern
  simp only [String.toList_append, hopen, hclose]
  rfl

/-- JSON spells every control character by an escape, NUL among them. -/
theorem nul_not_mem_escape (c : Char) : nul ∉ Json.escape c := by
  have hdigits : ∀ n < 32, nul ∉ ['\\', 'u', '0', '0', Json.hexDigit (n / 16), Json.hexDigit (n % 16)] := by
    decide
  unfold Json.escape
  split_ifs with hquote hslash hn hr ht hb hf hcontrol
  · decide
  · decide
  · decide
  · decide
  · decide
  · decide
  · decide
  · exact hdigits _ hcontrol
  · rw [List.mem_singleton]
    rintro rfl
    exact hcontrol (by decide)

/-- No JSON text of a string has a NUL in it. -/
theorem nul_not_mem_stringRest (cs : List Char) : nul ∉ Json.stringRest cs := by
  unfold Json.stringRest
  rw [List.mem_append, not_or, List.mem_flatMap]
  refine ⟨?_, by decide⟩
  rintro ⟨c, -, hc⟩
  exact nul_not_mem_escape c hc

/-- Nor has the rest of a list of strings. -/
theorem nul_not_mem_moreItems (items : List String) : nul ∉ Json.moreItems (items.map .str) := by
  induction items with
  | nil => decide
  | cons id rest ih =>
    show nul ∉ ',' :: (('"' :: Json.stringRest id.toList) ++ Json.moreItems (rest.map .str))
    simp only [List.mem_cons, List.mem_append, not_or]
    exact ⟨by decide, ⟨by decide, nul_not_mem_stringRest _⟩, ih⟩

/-- The column has no NUL, which JSON text spells with an escape. -/
theorem nul_not_mem_lineageJson (lineage : List String) : nul ∉ ActorStore.lineageJson lineage := by
  cases lineage with
  | nil => decide
  | cons id rest =>
    show nul ∉ '[' :: (('"' :: Json.stringRest id.toList) ++ Json.moreItems (rest.map .str))
    simp only [List.mem_cons, List.mem_append, not_or]
    exact ⟨by decide, ⟨by decide, nul_not_mem_stringRest _⟩, nul_not_mem_moreItems rest⟩

/-- What the query's pattern matches in a lineage column: the percent signs at both ends
match whatever there is, so the id has to match between two quotation marks, or up to
the end of the column where the pattern is cut at a NUL. -/
theorem shown_iff (targetId : String) (lineage : List String) :
    Shown targetId lineage ↔
      sqlLike (ActorStore.lineagePattern targetId).toList (ActorStore.lineageJson lineage) = true := by
  have hquote : ∀ ps text, likeChars ('"' :: ps) text = true ↔
      ∃ cs, text = '"' :: cs ∧ likeChars ps cs = true :=
    likeChars_literal (by decide) (by decide) (by decide)
  unfold sqlLike
  rw [readText_of_nul_not_mem (nul_not_mem_lineageJson lineage), lineagePattern_toList,
    show '%' :: '"' :: (targetId.toList ++ ['"', '%']) =
      ['%', '"'] ++ (targetId.toList ++ ['"', '%']) from rfl,
    readText_append (by decide), show readText ['%', '"'] = ['%', '"'] by decide]
  show _ ↔ likeChars ('%' :: '"' :: readText (targetId.toList ++ ['"', '%'])) _ = true
  rw [likeChars_percent]
  unfold Shown
  by_cases hnul : nul ∈ targetId.toList
  · simp only [if_pos hnul, readText_of_nul_mem hnul]
    constructor
    · rintro ⟨before, stretch, after, htext, hmatch, rfl⟩
      exact ⟨before, _, htext, (hquote _ _).mpr ⟨_, rfl, by rwa [List.append_nil]⟩⟩
    · rintro ⟨before, rest, htext, hrest⟩
      obtain ⟨stretch, rfl, hmatch⟩ := (hquote _ _).mp hrest
      exact ⟨before, stretch, [], by rwa [List.append_nil], hmatch, rfl⟩
  · simp only [if_neg hnul, readText_append hnul, show readText ['"', '%'] = ['"', '%'] by decide]
    constructor
    · rintro ⟨before, stretch, after, htext, hmatch, rest, rfl⟩
      refine ⟨before, _, htext, (hquote _ _).mpr ⟨_, rfl, ?_⟩⟩
      refine (likeChars_append _ _ _).mpr ⟨stretch, _, rfl, hmatch, (hquote _ _).mpr ⟨rest, rfl, ?_⟩⟩
      exact likeChars_any rest
    · rintro ⟨before, rest, htext, hrest⟩
      obtain ⟨inner, rfl, hinner⟩ := (hquote _ _).mp hrest
      obtain ⟨stretch, tail, rfl, hmatch, htail⟩ := (likeChars_append _ _ _).mp hinner
      obtain ⟨after, rfl, -⟩ := (hquote _ _).mp htail
      exact ⟨before, stretch, _, htext, hmatch, after, rfl⟩

/-- Whom the query finds: the active actors whose lineage column shows the id. -/
theorem mem_descendants {targetId : String} {row : ActorRecord} {db : Db} :
    row ∈ ActorStore.descendants targetId db ↔
      row ∈ db.actors.rows ∧ row.status = .active ∧ Shown targetId row.lineage := by
  rw [shown_iff]
  unfold ActorStore.descendants
  simp only [List.mem_filter, decide_eq_true_eq]
  exact ⟨fun ⟨hrow, hlike, hactive⟩ => ⟨hrow, hactive, hlike⟩,
    fun ⟨hrow, hactive, hlike⟩ => ⟨hrow, hlike, hactive⟩⟩

/-! ## Plain ids -/

/-- An id that its JSON spelling shows as it is, and the database reads as it is. -/
def PlainId (id : String) : Prop :=
  ∀ c ∈ id.toList, c ≠ '"' ∧ c ≠ '\\' ∧ 32 ≤ c.toNat ∧ readChar c = c

/-- An id that is read as it is, and as a pattern stands for itself alone. -/
structure PlainPattern (id : String) : Prop where
  wildcard : NoWildcard id.toList
  nul : PunkgoKernel.nul ∉ id.toList
  read : ∀ c ∈ id.toList, readChar c = c

/-- A plain pattern is read as it is. -/
theorem PlainPattern.readText_eq {id : String} (h : PlainPattern id) :
    readText id.toList = id.toList := by
  rw [readText_of_nul_not_mem h.nul]
  exact (List.map_congr_left h.read).trans (List.map_id _)

/-- A character that JSON shows as it is. -/
theorem escape_plain {c : Char} (h : c ≠ '"' ∧ c ≠ '\\' ∧ 32 ≤ c.toNat ∧ readChar c = c) :
    Json.escape c = [c] := by
  obtain ⟨hquote, hslash, hprints, -⟩ := h
  have hcontrol : ∀ d : Char, d.toNat < 32 → c ≠ d := by
    rintro d hd rfl
    omega
  unfold Json.escape
  rw [if_neg hquote, if_neg hslash, if_neg (hcontrol _ (by decide)), if_neg (hcontrol _ (by decide)),
    if_neg (hcontrol _ (by decide)), if_neg (hcontrol _ (by decide)), if_neg (hcontrol _ (by decide)),
    if_neg (by omega)]

/-- A plain id is shown as it is. -/
theorem PlainId.flatMap_escape {id : String} (h : PlainId id) :
    id.toList.flatMap Json.escape = id.toList := by
  have hchars : ∀ c ∈ id.toList, Json.escape c = [c] := fun c hc => escape_plain (h c hc)
  rw [List.flatMap_congr hchars]
  exact List.flatMap_singleton' _

/-- In the lineage of one plain id only the id stands between quotation marks. -/
theorem shown_plain {targetId creatorId : String} (hcreator : PlainId creatorId)
    (htarget : PlainPattern targetId) :
    Shown targetId [creatorId] ↔ folded creatorId.toList = folded targetId.toList := by
  have htext : (ActorStore.lineageJson [creatorId]).map readChar =
      '[' :: '"' :: (creatorId.toList ++ ['"', ']']) := by
    have hjson : ActorStore.lineageJson [creatorId] =
        '[' :: '"' :: (creatorId.toList ++ ['"', ']']) := by
      show '[' :: ('"' :: (creatorId.toList.flatMap Json.escape ++ ['"']) ++ [']']) = _
      rw [hcreator.flatMap_escape]
      simp
    have hread : creatorId.toList.map readChar = creatorId.toList :=
      (List.map_congr_left fun c hc => (hcreator c hc).2.2.2).trans (List.map_id _)
    have hends : ['"', ']'].map readChar = ['"', ']'] := by decide
    rw [hjson, List.map_cons, List.map_cons, List.map_append, hread, hends]
    rfl
  have hnone : '"' ∉ creatorId.toList := fun hmem => (hcreator _ hmem).1 rfl
  unfold Shown
  rw [htext, htarget.readText_eq]
  simp only [if_neg htarget.nul]
  constructor
  · rintro ⟨before, stretch, _, hsplit, hmatch, after, rfl⟩
    suffices hstretch : stretch = creatorId.toList by
      rw [hstretch] at hmatch
      exact (likeChars_plain htarget.wildcard _).mp hmatch
    -- there are two quotation marks, so these are they
    have hcount := congrArg (List.count '"') hsplit
    have hbracket : List.count '"' [']'] = 0 := by decide
    simp only [List.count_cons_self, List.count_append, List.count_cons_of_ne (by decide : '[' ≠ '"'),
      List.count_eq_zero_of_not_mem hnone, hbracket] at hcount
    cases before with
    | nil => exact absurd (List.cons.inj hsplit).1 (by decide)
    | cons b rest =>
      obtain ⟨-, hsplit⟩ := List.cons.inj hsplit
      cases rest with
      | nil =>
        obtain ⟨-, hsplit⟩ := List.cons.inj hsplit
        have hstretch : '"' ∉ stretch := List.count_eq_zero.mp (by omega)
        have hafter : '"' ∉ after := List.count_eq_zero.mp (by omega)
        exact ((List.append_cons_inj_of_notMem hstretch hafter).mp hsplit.symm).1
      | cons c more =>
        obtain ⟨rfl, -⟩ := List.cons.inj hsplit
        have hmany : 0 < List.count '"' (b :: '"' :: more) := List.count_pos_iff.mpr (by simp)
        omega
  · intro hfolded
    exact ⟨['['], creatorId.toList, ['"', ']'], rfl, (likeChars_plain htarget.wildcard _).mpr hfolded,
      [']'], rfl⟩

/-- An empty lineage shows nobody. -/
theorem not_shown_nil {targetId : String} : ¬ Shown targetId [] := by
  rintro ⟨before, stretch, after, htext, -⟩
  have hempty : (ActorStore.lineageJson []).map readChar = ['[', ']'] := by decide
  have hmem : '"' ∈ ['[', ']'] := by
    rw [← hempty, htext]
    simp
  exact absurd hmem (by decide)

/-! ## What a freeze writes -/

/-- A freeze of actors there are goes through, and freezes just these. -/
theorem freezeAll_eq {actorIds : List String} {db : Db}
    (h : ∀ actorId ∈ actorIds, (db.actors.find? actorId).isSome) :
    ∃ db', freezeAll actorIds db = .ok db' ∧ ∀ x, db'.actors.find? x =
      if x ∈ actorIds then (db.actors.find? x).map fun r => { r with status := .frozen }
      else db.actors.find? x := by
  induction actorIds generalizing db with
  | nil => exact ⟨db, rfl, fun x => (if_neg (List.not_mem_nil)).symm⟩
  | cons actorId rest ih =>
    obtain ⟨row, hrow⟩ := Option.isSome_iff_exists.mp (h actorId List.mem_cons_self)
    have hset : ActorStore.setStatusInTx actorId .frozen db = .ok { db with
        actors := db.actors.modify actorId fun r => { r with status := .frozen } } := by
      unfold ActorStore.setStatusInTx ActorStore.updateInTx
      rw [hrow]
    have hfind := fun x => Table.find?_modify db.actors actorId x
      (fun r => { r with status := .frozen }) (fun _ => rfl)
    have hrest : ∀ x ∈ rest, ((db.actors.modify actorId
        fun r => { r with status := .frozen }).find? x).isSome :=
      fun x hx => (Table.isSome_find?_modify db.actors actorId x
        (fun r => { r with status := .frozen }) (fun _ => rfl)).mpr (h x (List.mem_cons_of_mem _ hx))
    obtain ⟨db', hfreeze, hdb'⟩ := @ih { db with
      actors := db.actors.modify actorId fun r => { r with status := .frozen } } hrest
    refine ⟨db', ?_, ?_⟩
    · unfold freezeAll
      rw [hset]
      exact hfreeze
    · intro x
      have hx : db'.actors.find? x = if x ∈ rest then
          ((db.actors.modify actorId fun r => { r with status := .frozen }).find? x).map
            fun r => { r with status := .frozen }
          else (db.actors.modify actorId fun r => { r with status := .frozen }).find? x := hdb' x
      rw [hx, hfind x]
      by_cases hhead : x = actorId
      · subst hhead
        rw [if_pos rfl, if_pos List.mem_cons_self, hrow]
        split <;> rfl
      · rw [if_neg hhead]
        by_cases hmem : x ∈ rest
        · rw [if_pos hmem, if_pos (List.mem_cons_of_mem _ hmem)]
        · rw [if_neg hmem, if_neg]
          intro hcons
          rcases List.mem_cons.mp hcons with heq | hmem'
          · exact hhead heq
          · exact hmem hmem'

/-- The id makes a pattern that the database takes: with the four characters around it,
it is no longer than a pattern may be. -/
def ShortId (id : String) : Prop := id.utf8ByteSize + 4 ≤ likePatternLimit

instance (id : String) : Decidable (ShortId id) := inferInstanceAs (Decidable (_ ≤ _))

/-- The query finds the descendants where the id is short enough, and fails
otherwise. -/
theorem listDescendants_eq (targetId : String) (db : Db) :
    ActorStore.listDescendants targetId db =
      if ShortId targetId then .ok (ActorStore.descendants targetId db)
      else .error (.db "LIKE or GLOB pattern too complex") := by
  have hsize : (ActorStore.lineagePattern targetId).utf8ByteSize = targetId.utf8ByteSize + 4 := by
    have hopen : (toString "%\"").utf8ByteSize = 2 := by decide
    have hclose : (toString "\"%").utf8ByteSize = 2 := by decide
    unfold ActorStore.lineagePattern
    simp only [String.utf8ByteSize_append, hopen, hclose]
    show 2 + targetId.utf8ByteSize + 2 = _
    omega
  unfold ActorStore.listDescendants checkPattern
  rw [hsize]
  by_cases hshort : ShortId targetId
  · rw [if_pos hshort, if_neg (not_lt.mpr hshort)]
    rfl
  · rw [if_neg hshort, if_pos (not_le.mp hshort)]
    rfl

/-- What a freeze that is carried out does: the target and its descendants are frozen,
and no other row changes. -/
theorem executeFreeze_eq {targetId : String} {db : Db} (hshort : ShortId targetId)
    (h : (db.actors.find? targetId).isSome) :
    ∃ db', executeFreeze targetId db = .ok (frozenBy targetId db, db') ∧
      ∀ x, db'.actors.find? x = if x ∈ frozenBy targetId db
        then (db.actors.find? x).map fun r => { r with status := .frozen }
        else db.actors.find? x := by
  have hall : ∀ x ∈ frozenBy targetId db, (db.actors.find? x).isSome := by
    intro x hx
    rcases List.mem_cons.mp hx with rfl | hx
    · exact h
    · obtain ⟨row, hrow, rfl⟩ := List.mem_map.mp hx
      have hmem : row ∈ db.actors.rows := (List.mem_filter.mp hrow).1
      have hfind : db.actors.find? row.actorId = some row := Table.find?_of_mem hmem
      rw [hfind]
      rfl
  obtain ⟨db', hfreeze, hdb'⟩ := freezeAll_eq hall
  refine ⟨db', ?_, hdb'⟩
  obtain ⟨frozen, htarget, hrest⟩ := bind_eq_ok.mp hfreeze
  have hlist := listDescendants_eq targetId db
  rw [if_pos hshort] at hlist
  exact bind_eq_ok.mpr ⟨frozen, htarget, bind_eq_ok.mpr ⟨_, hlist, bind_eq_ok.mpr ⟨db', hrest, rfl⟩⟩⟩

/-- Only a target with a short id is frozen. -/
theorem shortId_of_executeFreeze {targetId : String} {frozenIds : List String} {db db' : Db}
    (h : executeFreeze targetId db = .ok (frozenIds, db')) : ShortId targetId := by
  obtain ⟨frozen, -, h⟩ := bind_eq_ok.mp h
  obtain ⟨descendants, hlist, -⟩ := bind_eq_ok.mp h
  rw [listDescendants_eq] at hlist
  by_contra hlong
  rw [if_neg hlong] at hlist
  cases hlist

variable [Externals]

/-- A freeze of an actor there is freezes the target and the descendants the query
finds, or its id is too long and it freezes nobody. -/
theorem exec_executeFreeze {targetId : String} {db : Db} (h : (db.actors.find? targetId).isSome) :
    (ShortId targetId ∧ ∃ db', exec (.executeFreeze targetId) db = (.ok (frozenBy targetId db), db') ∧
      ∀ x, db'.actors.find? x = if x ∈ frozenBy targetId db
        then (db.actors.find? x).map fun r => { r with status := .frozen }
        else db.actors.find? x) ∨
    (¬ ShortId targetId ∧ ∃ e, exec (.executeFreeze targetId) db = (.error e, db)) := by
  by_cases hshort : ShortId targetId
  · obtain ⟨db', hfreeze, hrows⟩ := executeFreeze_eq hshort h
    refine .inl ⟨hshort, db', ?_, hrows⟩
    unfold exec
    rw [show transaction (.executeFreeze targetId) db = _ from hfreeze]
  · rcases exec_cases (.executeFreeze targetId) db with ⟨v, db', htx, -⟩ | ⟨e, -, hexec⟩
    · exact absurd (shortId_of_executeFreeze htx) hshort
    · exact .inr ⟨hshort, e, hexec⟩

end PunkgoKernel
