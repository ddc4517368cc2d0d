import AgenticPkm.Heimdal.RawLiveness

/-!
# The copies of a record

A record has its copies listed under its id, and one of them is active.  That is so when a record
comes in with its first copy, when a copy is registered, when another one is made active, and for
the other records when a record is deleted.
-/

namespace AgenticPkm.RawLiveness

open RawStore List Dict

/-- The copies of a record are the ones listed for it, and one of them is active. -/
structure Copied (raw : Store) : Prop where
  ofId : ∀ {id copy}, raw.representations.get? id = some copy →
    copy.id = id ∧ id ∈ raw.representationIds copy.recordId
  ofRecord : ∀ {r id}, id ∈ raw.representationIds r →
    ∃ copy, raw.representations.get? id = some copy ∧ copy.recordId = r
  ofRow : ∀ {r id}, id ∈ raw.representationIds r → ∃ row ∈ raw.rows, row.id = r
  distinct : ∀ r, (raw.representationIds r).Nodup
  bound : ∀ {id copy}, raw.representations.get? id = some copy → Store.supported copy = true ∨
    (copy.storageKind = .encryptedLocalCold ∧
      (falsy copy.archiveToken || falsy copy.archiveGeneration) = true)
  active : ∀ row ∈ raw.rows, ∃ copy, raw.activeRepresentation row.id = .ok copy

theorem Copied.start : Copied {} where
  ofId := by simp
  ofRecord := by simp [Store.representationIds]
  ofRow := by simp [Store.representationIds]
  distinct := by simp [Store.representationIds]
  bound := by simp
  active := by simp

/-! ### The active copy -/

variable {raw raw' : Store} {r : String} {copy : RawRepresentation} {ids : List String}
  {row : RawIdentity}

theorem representationIds_set
    (h : raw'.representationIdsByRecord = raw.representationIdsByRecord.set r ids) (r' : String) :
    raw'.representationIds r' = if r' = r then ids else raw.representationIds r' := by
  unfold Store.representationIds
  rw [h, get?_set]
  split <;> rfl

theorem activeRepresentation_congr (h : raw'.representationsOf r = raw.representationsOf r) :
    raw'.activeRepresentation r = raw.activeRepresentation r := by
  unfold Store.activeRepresentation
  rw [h]

theorem representationsOf_congr (hids : raw'.representationIds r = raw.representationIds r)
    (hcop : ∀ id ∈ raw.representationIds r,
      raw'.representations.get? id = raw.representations.get? id) :
    raw'.representationsOf r = raw.representationsOf r := by
  unfold Store.representationsOf
  rw [hids]
  exact filterMap_congr hcop

theorem activeRepresentation_eq_ok_iff :
    raw.activeRepresentation r = .ok copy ↔
      (raw.representationsOf r).filter (·.active) = [copy] ∧ Store.supported copy := by
  unfold Store.activeRepresentation
  split
  · next copy' heq =>
    rw [heq]
    by_cases hs : Store.supported copy'
    · rw [if_pos hs, Except.ok.injEq, List.cons.injEq]
      constructor
      · rintro rfl
        exact ⟨⟨rfl, rfl⟩, hs⟩
      · exact fun h => h.1.1
    · rw [if_neg hs, List.cons.injEq]
      constructor
      · exact fun h => nomatch h
      · rintro ⟨⟨rfl, -⟩, h⟩
        exact absurd h hs
  · next hne =>
    constructor
    · exact fun h => nomatch h
    · exact fun h => absurd h.1 (hne copy)

/-! ### Registration and activation -/

section Adding

variable (h : Copied raw) (hnew : raw.representations.get? copy.id = none)
  (hget : ∀ id, raw'.representations.get? id =
    if id = copy.id then some copy else raw.representations.get? id)
  (hids : ∀ r, raw'.representationIds r =
    if r = copy.recordId then raw.representationIds r ++ [copy.id] else raw.representationIds r)

include h hnew

theorem Copied.ne_of_listed {id : String} (hm : id ∈ raw.representationIds r) : id ≠ copy.id := by
  rintro rfl
  obtain ⟨copy', hcp', -⟩ := h.ofRecord hm
  rw [hnew] at hcp'
  cases hcp'

include hget hids

theorem Copied.representationsOf_add (r : String) : raw'.representationsOf r =
    if r = copy.recordId then raw.representationsOf r ++ [copy] else raw.representationsOf r := by
  have ho : (raw.representationIds r).filterMap raw'.representations.get? =
      raw.representationsOf r := by
    refine filterMap_congr fun id hid => ?_
    rw [hget, if_neg (h.ne_of_listed hnew hid)]
  unfold Store.representationsOf at ho ⊢
  rw [hids]
  split
  · rw [filterMap_append, ho, filterMap_cons, hget, if_pos rfl]
    rfl
  · exact ho

theorem Copied.add (hbd : Store.supported copy ∨ (copy.storageKind = .encryptedLocalCold ∧
      (falsy copy.archiveToken || falsy copy.archiveGeneration) = true))
    (hrw : ∀ row ∈ raw.rows, row ∈ raw'.rows) (hrow : ∃ row ∈ raw'.rows, row.id = copy.recordId)
    (hact : ∀ row ∈ raw'.rows, ∃ copy, raw'.activeRepresentation row.id = .ok copy) :
    Copied raw' := by
  have hmem : ∀ {r id}, id ∈ raw'.representationIds r ↔
      id ∈ raw.representationIds r ∨ (id = copy.id ∧ r = copy.recordId) := by
    intro r id
    rw [hids]
    split
    · next heq => simp [heq]
    · next hne => simp [hne]
  refine
    { ofId := fun {id copy'} hcp' => ?_
      ofRecord := fun {r id} hid => ?_
      ofRow := fun {r id} hid => ?_
      distinct := fun r => ?_
      bound := fun {id copy'} hcp' => ?_
      active := hact }
  · rw [hget] at hcp'
    rw [hmem]
    split at hcp'
    · next heq =>
      cases hcp'
      exact ⟨heq.symm, .inr ⟨heq, rfl⟩⟩
    · exact (h.ofId hcp').imp_right .inl
  · rw [hget]
    rcases hmem.mp hid with hid | ⟨rfl, rfl⟩
    · rw [if_neg (h.ne_of_listed hnew hid)]
      exact h.ofRecord hid
    · rw [if_pos rfl]
      exact ⟨copy, rfl, rfl⟩
  · rcases hmem.mp hid with hid | ⟨-, rfl⟩
    · obtain ⟨row, hold, hr⟩ := h.ofRow hid
      exact ⟨row, hrw row hold, hr⟩
    · exact hrow
  · rw [hids]
    split
    · rw [← concat_eq_append]
      exact (h.distinct r).concat fun hid => h.ne_of_listed hnew hid rfl
    · exact h.distinct r
  · rw [hget] at hcp'
    split at hcp'
    · cases hcp'
      exact hbd
    · exact h.bound hcp'

end Adding

theorem Copied.withRow (h : Copied raw) {i : RawIdentity} (hrec : copy.recordId = i.id)
    (hact : copy.active) (hsp : Store.supported copy)
    (hnew : raw.representations.get? copy.id = none) (hrow : ∀ row ∈ raw.rows, row.id ≠ i.id) :
    Copied (RawLiveness.withRow raw i copy) := by
  -- without a row there are no copies
  have hemp : raw.representationIds copy.recordId = [] := by
    refine eq_nil_iff_forall_not_mem.mpr fun id hid => ?_
    obtain ⟨row, hmem, hr⟩ := h.ofRow hid
    exact hrow row hmem (hr.trans hrec)
  have hids : ∀ r, (RawLiveness.withRow raw i copy).representationIds r =
      if r = copy.recordId then raw.representationIds r ++ [copy.id]
      else raw.representationIds r := by
    intro r
    rw [representationIds_set rfl, hrec]
    split
    · next heq => rw [heq, ← hrec, hemp, nil_append]
    · rfl
  have hadd := h.representationsOf_add hnew (get?_set _ _ · _) hids
  refine h.add hnew (get?_set _ _ · _) hids (.inl hsp)
    (fun row hmem => mem_append_left _ hmem)
    ⟨i, mem_append_right _ (mem_singleton_self _), hrec.symm⟩ fun row hmem => ?_
  rcases mem_append.mp hmem with hmem | hmem
  · obtain ⟨copy', hcp'⟩ := h.active row hmem
    have hsame := hadd row.id
    rw [if_neg (hrec ▸ hrow row hmem)] at hsame
    exact ⟨copy', (activeRepresentation_congr hsame).trans hcp'⟩
  · refine ⟨copy, activeRepresentation_eq_ok_iff.mpr ⟨?_, hsp⟩⟩
    rw [mem_singleton.mp hmem, ← hrec, hadd, if_pos rfl, Store.representationsOf, hemp]
    simp [hact]

theorem Copied.withRepresentation (h : Copied raw)
    (hnew : raw.representations.get? copy.id = none) (hi : copy.active = false)
    (hb : Store.supported copy ∨ (copy.storageKind = .encryptedLocalCold ∧
      (falsy copy.archiveToken || falsy copy.archiveGeneration) = true))
    (hr : ∃ row ∈ raw.rows, row.id = copy.recordId) :
    Copied (RawLiveness.withRepresentation raw copy) := by
  have hids : ∀ r, (RawLiveness.withRepresentation raw copy).representationIds r =
      if r = copy.recordId then raw.representationIds r ++ [copy.id]
      else raw.representationIds r := by
    intro r
    rw [representationIds_set rfl]
    split
    · next heq => rw [heq]
    · rfl
  refine h.add hnew (get?_set _ _ · _) hids hb (fun row hm => hm) hr fun row hm => ?_
  obtain ⟨copy', hcp'⟩ := h.active row hm
  rw [activeRepresentation_eq_ok_iff] at hcp'
  refine ⟨copy', activeRepresentation_eq_ok_iff.mpr ?_⟩
  -- a copy that is not active does not show among the active ones
  rw [h.representationsOf_add hnew (get?_set _ _ · _) hids]
  split
  · rw [filter_append]
    simpa [hi] using hcp'
  · exact hcp'

theorem get?_activate (hd : (raw.representationIds r).Nodup) (t id : String) :
    (raw.activate r t).representations.get? id =
      if id ∈ raw.representationIds r then
        (raw.representations.get? id).map fun copy => { copy with active := id == t }
      else raw.representations.get? id := by
  unfold Store.activate
  simp only
  generalize raw.representationIds r = ids at hd
  generalize raw.representations = copies
  induction ids generalizing copies with
  | nil => simp
  | cons f ids ih =>
    obtain ⟨hf, hids⟩ := nodup_cons.mp hd
    rw [foldl_cons, ih hids]
    cases hcp : copies.get? f with
    | none =>
      by_cases hid : id = f
      · subst hid
        simp [hf, hcp]
      · simp [hid]
    | some copy =>
      by_cases hid : id = f
      · subst hid
        simp [hf, hcp]
      · simp [hid, get?_set_of_ne _ _ hid]

theorem filterMap_eq_singleton (hd : ids.Nodup) {id : String} (hid : id ∈ ids)
    {f : String → Option RawRepresentation} (hcp : f id = some copy)
    (ho : ∀ id' ∈ ids, id' ≠ id → f id' = none) : ids.filterMap f = [copy] := by
  induction ids with
  | nil => simp at hid
  | cons fr ids ih =>
    obtain ⟨hf, hids⟩ := nodup_cons.mp hd
    have ht := fun id' hid' => ho id' (mem_cons_of_mem fr hid')
    rcases mem_cons.mp hid with rfl | hm
    · have hn : ids.filterMap f = [] := by
        rw [filterMap_eq_nil_iff]
        exact fun id' hid' => ht id' hid' fun heq => hf (heq ▸ hid')
      rw [filterMap_cons, hcp, hn]
    · have hne : fr ≠ id := fun heq => hf (heq ▸ hm)
      rw [filterMap_cons, ho fr mem_cons_self hne]
      exact ih hids hm ht

theorem Copied.eq_of_mem (h : Copied raw) {r' id : String} (hid : id ∈ raw.representationIds r)
    (hid' : id ∈ raw.representationIds r') : r = r' := by
  obtain ⟨copy, hcp, hr⟩ := h.ofRecord hid
  obtain ⟨copy', hcp', hr'⟩ := h.ofRecord hid'
  rw [hcp] at hcp'
  cases hcp'
  exact hr.symm.trans hr'

theorem Copied.activate (h : Copied raw) {id : String}
    (hcp : raw.representations.get? id = some copy) (hsp : Store.supported copy) :
    Copied (raw.activate copy.recordId id) := by
  have hget := get?_activate (h.distinct copy.recordId) id
  have hmem := (h.ofId hcp).2
  -- every copy is still there, with all but its activity
  have hs : ∀ {id' copy'}, (raw.activate copy.recordId id).representations.get? id' =
      some copy' → ∃ old, raw.representations.get? id' = some old ∧
        copy' = { old with active := copy'.active } := by
    intro id' copy' hcp'
    rw [hget] at hcp'
    split at hcp'
    · obtain ⟨old, hold, rfl⟩ := Option.map_eq_some_iff.mp hcp'
      exact ⟨old, hold, rfl⟩
    · exact ⟨copy', hcp', rfl⟩
  refine
    { ofId := fun {id' copy'} hcp' => ?_
      ofRecord := fun {r id'} hmem' => ?_
      ofRow := h.ofRow
      distinct := h.distinct
      bound := fun {id' copy'} hcp' => ?_
      active := fun row hrow => ?_ }
  · obtain ⟨old, hold, heq⟩ := hs hcp'
    have hold' := h.ofId hold
    rw [heq]
    exact hold'
  · obtain ⟨old, hold, hr⟩ := h.ofRecord hmem'
    rw [hget, hold]
    split
    · exact ⟨_, rfl, hr⟩
    · exact ⟨old, rfl, hr⟩
  · obtain ⟨old, hold, heq⟩ := hs hcp'
    have hold' := h.bound hold
    rw [heq]
    exact hold'
  · by_cases hr : row.id = copy.recordId
    · -- of the copies of this record the target alone is active
      refine ⟨{ copy with active := true }, activeRepresentation_eq_ok_iff.mpr ⟨?_, hsp⟩⟩
      unfold Store.representationsOf
      rw [filter_filterMap, hr]
      refine filterMap_eq_singleton (h.distinct copy.recordId) hmem ?_ fun id' hid' hne => ?_
      · rw [hget, if_pos hmem, hcp]
        simp
      · obtain ⟨old, hold, -⟩ := h.ofRecord hid'
        rw [hget, if_pos hid', hold]
        simp [hne]
    · obtain ⟨copy', hcp'⟩ := h.active row hrow
      have hsame : (raw.activate copy.recordId id).representationsOf row.id =
          raw.representationsOf row.id := by
        refine representationsOf_congr rfl fun id' hid' => ?_
        rw [hget, if_neg]
        exact fun hid => hr (h.eq_of_mem hid' hid)
      exact ⟨copy', (activeRepresentation_congr hsame).trans hcp'⟩

/-! ### Deletion -/

/-- The store without a record, its copies and its consents. -/
def without (raw : Store) (r contentIdentity : String) : Store where
  rows := raw.rows.eraseP fun row => row.id = r
  byIdentity := raw.byIdentity.erase contentIdentity
  representations := (raw.representationIds r).foldl (fun d k => d.erase k) raw.representations
  representationIdsByRecord := raw.representationIdsByRecord.erase r
  consentAssociations := raw.consentAssociations.erase r

theorem hardDelete_eq_ok (h : raw.hardDelete r = .ok (raw', true)) :
    ∃ row, raw.row? r = some row ∧ raw' = without raw r row.contentIdentity ∧
      ∀ id copy, raw'.representations.get? id = some copy → copy.recordId ≠ r := by
  unfold Store.hardDelete at h
  cases hr : raw.row? r with
  | none =>
    rw [hr] at h
    simp at h
  | some row =>
    rw [hr] at h
    simp only at h
    split at h
    · cases h
    · split at h
      · cases h
      · next hrem =>
        simp only [Except.ok.injEq, Prod.mk.injEq, and_true] at h
        refine ⟨row, rfl, h.symm, fun id copy hcp heq => hrem ?_⟩
        rw [← h] at hcp
        rw [any_eq_true]
        exact ⟨copy, mem_values.mpr ⟨id, mem_items.mpr hcp⟩, by simpa using heq⟩

theorem mem_rows_without (hd : DistinctKeys (·.id) raw.rows) {c : String} :
    row ∈ (without raw r c).rows ↔ row ∈ raw.rows ∧ row.id ≠ r := by
  unfold without
  rw [hd.eraseP_eq_filter r]
  simp

theorem Copied.hardDelete (h : Copied raw) (hd : DistinctKeys (·.id) raw.rows)
    (hraw : raw.hardDelete r = .ok (raw', true)) : Copied raw' := by
  obtain ⟨row, hrow, rfl, hg⟩ := hardDelete_eq_ok hraw
  have hids : ∀ r', (without raw r row.contentIdentity).representationIds r' =
      if r' = r then [] else raw.representationIds r' := by
    intro r'
    unfold Store.representationIds without
    simp only
    rw [get?_erase]
    split <;> rfl
  have hmem : ∀ {row'}, row' ∈ (without raw r row.contentIdentity).rows ↔
      row' ∈ raw.rows ∧ row'.id ≠ r := mem_rows_without hd
  -- a copy of another record is not among those of this one
  have hoth : ∀ {r' id}, r' ≠ r → id ∈ raw.representationIds r' → id ∉ raw.representationIds r :=
    fun hne hid hid' => hne (h.eq_of_mem hid hid')
  have hget : ∀ id, (without raw r row.contentIdentity).representations.get? id =
      if id ∈ raw.representationIds r then none else raw.representations.get? id :=
    fun id => get?_foldl_erase _ _ _
  have hold : ∀ {id copy}, (without raw r row.contentIdentity).representations.get? id =
      some copy → raw.representations.get? id = some copy := by
    intro id copy hcp
    rw [hget] at hcp
    split at hcp
    · cases hcp
    · exact hcp
  refine
    { ofId := fun {id copy} hcp => ?_
      ofRecord := fun {r' id} hid => ?_
      ofRow := fun {r' id} hid => ?_
      distinct := fun r' => ?_
      bound := fun {id copy} hcp => h.bound (hold hcp)
      active := fun row' hrow' => ?_ }
  · rw [hids, if_neg (hg id copy hcp)]
    exact h.ofId (hold hcp)
  · rw [hids] at hid
    split at hid
    · cases hid
    · next hne =>
      rw [hget, if_neg (hoth hne hid)]
      exact h.ofRecord hid
  · rw [hids] at hid
    split at hid
    · cases hid
    · next hne =>
      obtain ⟨row', hrow', hr'⟩ := h.ofRow hid
      exact ⟨row', hmem.mpr ⟨hrow', hr'.symm ▸ hne⟩, hr'⟩
  · rw [hids]
    split
    · exact nodup_nil
    · exact h.distinct r'
  · obtain ⟨hrow', hne⟩ := hmem.mp hrow'
    obtain ⟨copy, hcp⟩ := h.active row' hrow'
    refine ⟨copy, (activeRepresentation_congr (representationsOf_congr ?_ fun id hid => ?_)).trans
      hcp⟩
    · rw [hids, if_neg hne]
    · rw [hget, if_neg (hoth hne hid)]

theorem row?_eq_some (h : raw.row? r = some row) : row ∈ raw.rows ∧ row.id = r := by
  unfold Store.row? at h
  exact ⟨mem_of_find?_eq_some h, by simpa using find?_some h⟩

end AgenticPkm.RawLiveness
