import PunkgoKernel.Laws.History

/-!
# The newest active envelope

An agent's envelope is looked up as its newest active row, and what is newest changes
in two ways only: a row is granted that is created later, or the newest row is active
no longer. The rows of the table keep their places and a new one comes last
(`PlacesKept`), so an envelope that was once found is found again for as long as
neither has happened (`KernelRun.newest_kept`).
-/

namespace PunkgoKernel

open Relational (Table key)
open Resumption

/-! ## The newest of a list -/

/-- The newest row is later than the rows before it, and no row after it is later
than it is. -/
theorem latest_eq_some_iff {rows : List EnvelopeRecord} {e : EnvelopeRecord} :
    EnvelopeStore.latest rows = some e ↔ ∃ before after, rows = before ++ e :: after ∧
      (∀ r ∈ before, ¬ textLe e.createdAt r.createdAt) ∧
      ∀ r ∈ after, textLe r.createdAt e.createdAt := by
  constructor
  · intro h
    induction rows generalizing e with
    | nil => cases h
    | cons first rest ih =>
      unfold EnvelopeStore.latest at h
      split at h
      · next hnone =>
        cases h
        refine ⟨[], rest, rfl, by simp, ?_⟩
        cases rest with
        | nil => simp
        | cons second rest =>
          unfold EnvelopeStore.latest at hnone
          split at hnone
          · cases hnone
          · split at hnone <;> cases hnone
      · next newest hnewest =>
        obtain ⟨before, after, rfl, hbefore, hafter⟩ := ih hnewest
        split at h
        · next hle =>
          cases h
          refine ⟨[], _, rfl, by simp, ?_⟩
          intro r hr
          rcases List.mem_append.mp hr with hr | hr
          · exact ((le_total _ _).resolve_left (hbefore r hr)).trans hle
          rcases List.mem_cons.mp hr with rfl | hr
          · exact hle
          · exact le_trans (hafter r hr) hle
        · next hnot =>
          cases h
          exact ⟨first :: before, after, rfl, List.forall_mem_cons.mpr ⟨hnot, hbefore⟩, hafter⟩
  · rintro ⟨before, after, rfl, hbefore, hafter⟩
    induction before with
    | nil =>
      rw [List.nil_append]
      unfold EnvelopeStore.latest
      split
      · rfl
      · next newest hnewest => exact if_pos (hafter newest (EnvelopeStore.latest_mem hnewest))
    | cons first before ih =>
      obtain ⟨hfirst, hbefore⟩ := List.forall_mem_cons.mp hbefore
      rw [List.cons_append]
      unfold EnvelopeStore.latest
      rw [ih hbefore]
      exact if_neg hfirst

/-! ## The places of the rows -/

/-- A later state of an envelope's row, as far as the lookup can tell. -/
structure KeepsPlace (e e' : EnvelopeRecord) : Prop where
  envelopeId : e'.envelopeId = e.envelopeId
  actorId : e'.actorId = e.actorId
  createdAt : e'.createdAt = e.createdAt
  active : e'.status = .active → e.status = .active

/-- A row is a later state of itself. -/
theorem KeepsPlace.refl (e : EnvelopeRecord) : KeepsPlace e e := ⟨rfl, rfl, rfl, id⟩

/-- A later state of a later state is one. -/
theorem KeepsPlace.trans {a b c : EnvelopeRecord} (h : KeepsPlace a b) (h' : KeepsPlace b c) :
    KeepsPlace a c where
  envelopeId := h'.envelopeId.trans h.envelopeId
  actorId := h'.actorId.trans h.actorId
  createdAt := h'.createdAt.trans h.createdAt
  active hactive := h.active (h'.active hactive)

/-- The rows go on in their places, and what is granted comes after them. -/
def PlacesKept (op : Op) (db db' : Db) : Prop :=
  ∃ (goesOn : EnvelopeRecord → EnvelopeRecord) (granted : List EnvelopeRecord),
    db'.envelopes.rows = db.envelopes.rows.map goesOn ++ granted ∧
    (∀ e, KeepsPlace e (goesOn e)) ∧ ∀ row ∈ granted, op.grant = some row

/-- An operation that leaves the envelopes alone leaves every row in its place. -/
theorem PlacesKept.same {op : Op} {db db' : Db} (h : db'.envelopes = db.envelopes) :
    PlacesKept op db db' :=
  ⟨id, [], by rw [h, List.map_id, List.append_nil], KeepsPlace.refl, by simp⟩

/-- An operation that changes one envelope leaves every row in its place, if the change
keeps what the lookup goes by. -/
theorem PlacesKept.modify {op : Op} {db db' : Db} {envelopeId : String}
    {f : EnvelopeRecord → EnvelopeRecord} {hf : ∀ e, key (f e) = key e}
    (h : db'.envelopes = db.envelopes.modify envelopeId f hf) (hplace : ∀ e, KeepsPlace e (f e)) :
    PlacesKept op db db' := by
  refine ⟨_, [], by rw [h, List.append_nil]; rfl, ?_, by simp⟩
  intro e
  split
  · exact hplace e
  · exact .refl e

/-- A change after which nothing is granted. -/
theorem PlacesKept.then {op : Op} {a b c : Db} (h : PlacesKept op a b)
    {f : EnvelopeRecord → EnvelopeRecord} (hrows : c.envelopes.rows = b.envelopes.rows.map f)
    (hplace : ∀ e, KeepsPlace e (f e)) (hnone : op.grant = none) : PlacesKept op a c := by
  obtain ⟨goesOn, granted, hkept, hgoesOn, hgranted⟩ := h
  have hnil : granted = [] := by
    refine List.eq_nil_iff_forall_not_mem.mpr fun row hrow => ?_
    have hgrant := hgranted row hrow
    rw [hnone] at hgrant
    cases hgrant
  refine ⟨f ∘ goesOn, [], ?_, fun e => (hgoesOn e).trans (hplace _), by simp⟩
  rw [hrows, hkept, hnil, List.append_nil, List.append_nil, List.map_map]

/-- Ending an envelope leaves every row in its place. -/
theorem setStatusInTx_places {envelopeId : String} {db db' : Db}
    (h : EnvelopeStore.setStatusInTx envelopeId .expired db = .ok db') :
    ∃ f : EnvelopeRecord → EnvelopeRecord, db'.envelopes.rows = db.envelopes.rows.map f ∧
      ∀ e, KeepsPlace e (f e) := by
  obtain ⟨-, rfl⟩ := EnvelopeStore.setStatusInTx_eq_ok h
  refine ⟨_, rfl, ?_⟩
  intro e
  dsimp only
  split
  · exact ⟨rfl, rfl, rfl, fun hactive => nomatch hactive⟩
  · exact .refl e

variable [Externals]

/-- A transaction leaves the rows in their places, unless it sets an envelope to another
status than expired. -/
theorem transaction_places {op : Op} {db db' : Db} {v : Val op}
    (h : transaction op db = .ok (v, db'))
    (hended : ∀ envelopeId status, op = .setEnvelopeStatus envelopeId status → status = .expired) :
    PlacesKept op db db' := by
  cases op with
  | finalize tx =>
    rcases finalize_insertsEnvelope h with ⟨-, hsame⟩ | ⟨envelopeId, spec, parentId, hcreate, hins⟩
    · exact .same hsame
    · refine ⟨id, [spec.row envelopeId parentId tx.envelopeNow], ?_, KeepsPlace.refl, ?_⟩
      · rw [List.map_id, (Table.insert?_eq_some hins).2]
      · intro row hrow
        obtain rfl := List.mem_singleton.mp hrow
        show tx.createEnvelope.map _ = some _
        rw [hcreate]
        rfl
  | setEnvelopeStatus envelopeId status =>
    obtain rfl := hended envelopeId status rfl
    obtain ⟨f, hrows, hplace⟩ := setStatusInTx_places (unitTx_eq_ok h)
    exact ⟨f, [], by rw [hrows, List.append_nil], hplace, by simp⟩
  | consumeBudget tx =>
    rcases consumeBudget_eq_ok h with ⟨-, rfl⟩ | ⟨total, db₁, -, hconsume, hrest⟩
    · exact .same rfl
    obtain ⟨row, hrow, rfl, -, hdb₁⟩ := EnvelopeStore.consumeBudgetInTx_eq_ok hconsume
    have henvelopes : db₁.envelopes = db.envelopes.modify tx.envelopeId
        (fun r => { r with budgetConsumed := row.budgetConsumed + tx.amount }) (fun _ => rfl) := by
      rw [hdb₁]
    have hcharged : PlacesKept (.consumeBudget tx) db db₁ :=
      .modify henvelopes fun e => ⟨rfl, rfl, rfl, id⟩
    rcases hrest with rfl | hstatus
    · exact hcharged
    · obtain ⟨f, hrows, hplace⟩ := setStatusInTx_places hstatus
      exact hcharged.then hrows hplace rfl
  | executeFreeze targetId => exact .same (freezeAll_envelopes (executeFreeze_eq_ok h).2)
  | executeUnfreeze targetId =>
    obtain ⟨-, rfl⟩ := ActorStore.updateInTx_eq_ok (unitTx_eq_ok h)
    exact .same rfl
  | executeUpdateEnergyShare targetId energyShare =>
    have hshare := unitTx_eq_ok h
    unfold ActorStore.updateEnergyShareInTx at hshare
    split at hshare
    · cases hshare
    · obtain ⟨-, rfl⟩ := ActorStore.updateInTx_eq_ok hshare
      exact .same rfl
  | _ => exact .same (keepsGrants_frame rfl h).2

/-- Whether an operation succeeds or fails, it leaves the rows in their places. -/
theorem exec_places {op : Op} (db : Db)
    (hended : ∀ envelopeId status, op = .setEnvelopeStatus envelopeId status → status = .expired) :
    PlacesKept op db (exec op db).2 := by
  rcases exec_cases op db with ⟨v, db', htx, hexec⟩ | ⟨e, -, hexec⟩
  · rw [hexec]
    exact transaction_places htx hended
  · rw [hexec]
    exact .same rfl

/-! ## What displaces an envelope -/

omit [Externals] in
/-- The envelope is its agent's newest active one, or it is active no longer. -/
def NewestOrEnded (e : EnvelopeRecord) (db : Db) : Prop :=
  (∃ e', EnvelopeStore.getActiveForActor e.actorId db = some e' ∧
      e'.envelopeId = e.envelopeId ∧ e'.createdAt = e.createdAt) ∨
    ∃ e', db.envelopes.find? e.envelopeId = some e' ∧ e'.status ≠ .active

omit [Externals] in
/-- An operation that grants the agent nothing later leaves its newest envelope the
newest, or ends it: of the rows found before, those are found again that are active
still. -/
theorem NewestOrEnded.step {e : EnvelopeRecord} {op : Op} {db db' : Db}
    (h : NewestOrEnded e db) (hplaces : PlacesKept op db db')
    (hgrant : ∀ row, op.grant = some row → row.actorId = e.actorId →
      textLe row.createdAt e.createdAt) : NewestOrEnded e db' := by
  obtain ⟨goesOn, granted, hrows, hplace, hgranted⟩ := hplaces
  have hstays : ∀ r, db.envelopes.find? e.envelopeId = some r →
      db'.envelopes.find? e.envelopeId = some (goesOn r) := by
    intro r hr
    have hkey : (goesOn r).envelopeId = e.envelopeId :=
      (hplace r).envelopeId.trans (Table.key_of_find? hr)
    rw [← hkey]
    refine Table.find?_of_mem ?_
    rw [hrows]
    exact List.mem_append_left _ (List.mem_map_of_mem (Table.mem_of_find? hr))
  rcases h with ⟨newest, hnewest, hid, hcreated⟩ | ⟨ended, hended, hstatus⟩
  swap
  · exact .inr ⟨_, hstays ended hended, fun hactive => hstatus ((hplace ended).active hactive)⟩
  obtain ⟨hfind, hactor, hactive⟩ := EnvelopeStore.getActiveForActor_some hnewest
  rw [hid] at hfind
  by_cases hstill : (goesOn newest).status = .active
  swap
  · exact .inr ⟨_, hstays newest hfind, hstill⟩
  refine .inl ⟨goesOn newest, ?_, (hplace newest).envelopeId.trans hid,
    (hplace newest).createdAt.trans hcreated⟩
  obtain ⟨before, after, hsplit, hbefore, hafter⟩ := latest_eq_some_iff.mp hnewest
  -- of the rows found before those are found again that are active still
  have hfilter : db.envelopes.rows.filter
        (fun r => (goesOn r).actorId = e.actorId ∧ (goesOn r).status = .active) =
      (before ++ newest :: after).filter fun r => (goesOn r).status = .active := by
    rw [← hsplit, List.filter_filter]
    refine List.filter_congr fun r _ => ?_
    rw [(hplace r).actorId]
    have hwas := (hplace r).active
    by_cases hr : (goesOn r).status = .active
    · simp [hr, hwas hr]
    · simp [hr]
  refine latest_eq_some_iff.mpr
    ⟨(before.filter fun r => (goesOn r).status = .active).map goesOn,
      (after.filter fun r => (goesOn r).status = .active).map goesOn ++
        granted.filter fun r => r.actorId = e.actorId ∧ r.status = .active, ?_, ?_, ?_⟩
  · rw [hrows, List.filter_append, List.filter_map]
    show (db.envelopes.rows.filter fun r => (goesOn r).actorId = e.actorId ∧
      (goesOn r).status = .active).map goesOn ++ _ = _
    rw [hfilter, List.filter_append, List.filter_cons_of_pos (by simpa using hstill),
      List.map_append, List.map_cons, List.append_assoc, List.cons_append]
  · intro r hr
    obtain ⟨r₀, hr₀, rfl⟩ := List.mem_map.mp hr
    rw [(hplace newest).createdAt, (hplace r₀).createdAt]
    exact hbefore r₀ (List.mem_of_mem_filter hr₀)
  · intro r hr
    rw [(hplace newest).createdAt]
    rcases List.mem_append.mp hr with hr | hr
    · obtain ⟨r₀, hr₀, rfl⟩ := List.mem_map.mp hr
      rw [(hplace r₀).createdAt]
      exact hafter r₀ (List.mem_of_mem_filter hr₀)
    · obtain ⟨hmem, hprops⟩ := List.mem_filter.mp hr
      rw [hcreated]
      exact hgrant r (hgranted r hmem) (of_decide_eq_true hprops).1

omit [Externals] in
/-- The step grants the agent of an envelope another that is created later. -/
def GrantsLater (e : EnvelopeRecord) (t : KernelTransition) : Prop :=
  ∃ id tx ev row, t.label = .act id ⟨.finalize tx, .ok ev⟩ ∧ (Op.finalize tx).grant = some row ∧
    row.actorId = e.actorId ∧ ¬ textLe row.createdAt e.createdAt

omit [Externals] in
/-- Something takes the place of an envelope: in these steps the agent was granted one
that is created later, or the envelope has ended and the agent has another. -/
def Displaced (e : EnvelopeRecord) (between : List KernelTransition) (db : Db) : Prop :=
  (∃ t ∈ between, GrantsLater e t) ∨
    (∀ row, db.envelopes.find? e.envelopeId = some row → row.status ≠ .active) ∧
      ∃ row ∈ db.envelopes.rows, row.actorId = e.actorId ∧ row.status = .active

/-- A step of a run that grants the agent nothing later leaves its newest envelope the
newest, or ends it. -/
theorem KernelRun.newestOrEnded_step {tr : List KernelTransition} {pool pool' : KernelPool}
    {l : Label KernelSig (KernelResult Outcome) Request} (h : KernelRun tr pool)
    (hs : Step kernelSystem pool l pool') {e : EnvelopeRecord} (hl : ¬ GrantsLater e ⟨pool, l⟩)
    (hnewest : NewestOrEnded e pool.store) : NewestOrEnded e pool'.store := by
  cases hs with
  | act store before after id op k past =>
    have hmem : (⟨id, .vis op k, past⟩ : Task KernelSig (KernelResult Outcome)) ∈
        before ++ ⟨id, .vis op k, past⟩ :: after := by simp
    have hpasses : Passes past op :=
      ((mediationContract.run h (fun _ _ _ _ _ => trivial)).2 _ hmem).honors.1
    rcases exec_cases op store with ⟨v, db', htx, hexec⟩ | ⟨err, -, hexec⟩
    swap
    · show NewestOrEnded e (exec op store).2
      rwa [hexec]
    refine hnewest.step (exec_places store hpasses.ended) ?_
    intro row hgrant hactor
    by_contra hlater
    cases op with
    | finalize tx =>
      have hlabel : (Label.act id ⟨.finalize tx, (exec (.finalize tx) store).1⟩ :
          Label KernelSig (KernelResult Outcome) Request) = .act id ⟨.finalize tx, .ok v⟩ := by
        rw [hexec]
      exact hl ⟨id, tx, v, row, hlabel, hgrant, hactor, hlater⟩
    | _ => cases hgrant
  | restart store store' tasks hboot =>
    rwa [bootstrap_eq (KernelRun.seeded h) hboot]
  | _ => exact hnewest

/-- An envelope that a lookup found is found again, unless something takes its
place. -/
theorem KernelRun.newest_kept {between rest : List KernelTransition} {t : KernelTransition}
    {pool : KernelPool} (h : KernelRun (between ++ t :: rest) pool) {id : Nat}
    {e envelope : EnvelopeRecord}
    (hlabel : t.label = .act id ⟨.getActiveForActor e.actorId, .ok (some e)⟩)
    (hfound : EnvelopeStore.getActiveForActor e.actorId t.before.store = some e)
    (hnow : EnvelopeStore.getActiveForActor e.actorId pool.store = some envelope)
    (hkept : ¬ Displaced e between pool.store) : envelope.envelopeId = e.envelopeId := by
  have hnone : ∀ v ∈ between ++ [t], ¬ GrantsLater e v := by
    intro v hv hgrants
    rcases List.mem_append.mp hv with hv | hv
    · exact hkept (.inl ⟨v, hv, hgrants⟩)
    · obtain rfl := List.mem_singleton.mp hv
      obtain ⟨id', tx, ev, row, hlabel', -⟩ := hgrants
      cases hlabel.symm.trans hlabel'
  have hnewest : NewestOrEnded e pool.store := by
    clear hkept hnow
    induction between generalizing pool with
    | nil =>
      cases h with
      | step hr hs =>
        exact KernelRun.newestOrEnded_step hr hs (hnone _ (by simp)) (.inl ⟨e, hfound, rfl, rfl⟩)
    | cons v between ih =>
      cases h with
      | step hr hs =>
        obtain ⟨hv, hnone⟩ := List.forall_mem_cons.mp hnone
        exact KernelRun.newestOrEnded_step hr hs hv (ih hr hnone)
  rcases hnewest with ⟨e', he', hid, -⟩ | ⟨e', he', hended⟩
  · rw [hnow] at he'
    cases he'
    exact hid
  · -- what is found now is another, so the envelope was displaced
    obtain ⟨hfind, hactor, hactive⟩ := EnvelopeStore.getActiveForActor_some hnow
    refine absurd (.inr ⟨?_, envelope, Table.mem_of_find? hfind, hactor, hactive⟩) hkept
    intro row hrow
    rw [he'] at hrow
    cases hrow
    exact hended

end PunkgoKernel
