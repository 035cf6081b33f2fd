import IndexTandem.Indexer.Tracking

/-!
# The rows of `tandem_objects` across a block

Connecting a block upserts the objects it touched, in the order in which it touched
them; rolling it back goes through the undo journal from its end, deleting the objects
that the block created and resetting the others. `restore_touched` says that the second
undoes the first row by row, in place.
-/

namespace IndexTandem.Indexer

open Library Protocol Database

variable {packages : Packages} {binding : Binding}

/-- The rows have distinct keys, which their creating transactions determine. -/
structure RowsOk (packages : Packages) (binding : Binding) (rows : List ObjectRow) : Prop where
  /-- Distinct keys. -/
  nodup : (rows.map ObjectRow.objectKey).Nodup
  /-- Keys by creating transaction. -/
  keyed : ∀ row ∈ rows, objectKeyFromWire packages.sha256 binding.ns row.createTxid = row.objectKey

/-- The record belongs to the rows: the row with its key, if there is one, was created by the same
transaction at the same height. -/
structure Belongs (packages : Packages) (binding : Binding) (rows : List ObjectRow) (record : ObjectRecord) : Prop where
  /-- The key by creating transaction. -/
  keyed : objectKeyFromWire packages.sha256 binding.ns record.createTxid = record.objectKey
  /-- The row there has the same origin. -/
  origin : ∀ row ∈ rows, row.objectKey = record.objectKey →
    row.createTxid = record.createTxid ∧ row.createHeight = record.createHeight

theorem RowsOk.eq_of_key {rows : List ObjectRow} (h : RowsOk packages binding rows) {row row' : ObjectRow}
    (hr : row ∈ rows) (hr' : row' ∈ rows) (hk : row.objectKey = row'.objectKey) : row = row' :=
  List.inj_on_of_nodup_map h.nodup hr hr' hk

/-- Updating a row of the same origin makes it the record's row. -/
theorem setObject_eq {record : ObjectRecord} {row : ObjectRow} (hk : row.objectKey = record.objectKey)
    (ht : row.createTxid = record.createTxid) (hh : row.createHeight = record.createHeight) :
    setObject record row = objectRow record := by
  cases row
  simp only at hk ht hh
  subst hk ht hh
  rfl

@[simp] theorem setObject_objectKey (record : ObjectRecord) (row : ObjectRow) :
    (setObject record row).objectKey = row.objectKey := rfl

/-! ### One upsert -/

section

variable {rows : List ObjectRow} {record : ObjectRecord} (ok : RowsOk packages binding rows)
  (belongs : Belongs packages binding rows record)

include ok belongs

theorem upsertRows_new (hnew : ∀ row ∈ rows, row.objectKey ≠ record.objectKey) :
    upsertRows record rows = rows ++ [objectRow record] := by
  have h₁ : rows.find? (fun row => row.objectKey = record.objectKey) = none := by
    rw [List.find?_eq_none]
    exact fun row hr => by simpa using hnew row hr
  have h₂ : rows.find? (fun row => row.createTxid = record.createTxid) = none := by
    rw [List.find?_eq_none]
    intro row hr he
    refine hnew row hr ?_
    rw [← ok.keyed row hr, ← belongs.keyed, of_decide_eq_true he]
  rw [upsertRows, h₁, h₂]
  rfl

omit ok in
theorem upsertRows_old {old : ObjectRow} (hold : old ∈ rows) (hk : old.objectKey = record.objectKey) :
    upsertRows record rows = rows.map fun row => if row.objectKey = record.objectKey then objectRow record else row := by
  cases hf : rows.find? fun row => row.objectKey = record.objectKey with
  | none =>
    rw [List.find?_eq_none] at hf
    exact absurd hk (by simpa using hf old hold)
  | some found =>
    have hfk : found.objectKey = record.objectKey := by simpa using List.find?_some hf
    rw [upsertRows, hf]
    refine List.map_congr_left fun row hr => ?_
    rw [hfk]
    split_ifs with hrk
    · obtain ⟨ht, hh⟩ := belongs.origin row hr hrk
      exact setObject_eq hrk ht hh
    · rfl

/-- The rows after an upsert: the record's, and those of the other objects. -/
theorem mem_upsertRows {row : ObjectRow} :
    row ∈ upsertRows record rows ↔ row ∈ rows ∧ row.objectKey ≠ record.objectKey ∨ row = objectRow record := by
  by_cases hnew : ∀ row ∈ rows, row.objectKey ≠ record.objectKey
  · rw [upsertRows_new ok belongs hnew, List.mem_append, List.mem_singleton]
    exact or_congr_left ⟨fun h => ⟨h, hnew row h⟩, fun h => h.1⟩
  · simp only [not_forall, not_not] at hnew
    obtain ⟨old, hold, hk⟩ := hnew
    rw [upsertRows_old belongs hold hk, List.mem_map]
    constructor
    · rintro ⟨r, hr, rfl⟩
      split_ifs with hrk
      · exact .inr rfl
      · exact .inl ⟨hr, hrk⟩
    · rintro (⟨hr, hrk⟩ | rfl)
      · exact ⟨row, hr, if_neg hrk⟩
      · exact ⟨old, hold, if_pos hk⟩

theorem map_key_upsertRows :
    (upsertRows record rows).map ObjectRow.objectKey =
      if record.objectKey ∈ rows.map ObjectRow.objectKey then rows.map ObjectRow.objectKey
      else rows.map ObjectRow.objectKey ++ [record.objectKey] := by
  split_ifs with hm
  · obtain ⟨old, hold, hk⟩ := List.mem_map.mp hm
    rw [upsertRows_old belongs hold hk, List.map_map]
    refine List.map_congr_left fun row _ => ?_
    simp only [Function.comp_apply]
    split_ifs with hrk
    · exact hrk.symm
    · rfl
  · rw [upsertRows_new ok belongs fun row hr he => hm (List.mem_map.mpr ⟨row, hr, he⟩)]
    simp [objectRow]

theorem rowsOk_upsertRows : RowsOk packages binding (upsertRows record rows) where
  nodup := by
    rw [map_key_upsertRows ok belongs]
    split_ifs with hm
    · exact ok.nodup
    · exact ok.nodup.append (List.nodup_singleton _) (by simpa using hm)
  keyed row hr := by
    rcases (mem_upsertRows ok belongs).mp hr with ⟨hr, -⟩ | rfl
    · exact ok.keyed row hr
    · exact belongs.keyed

end

/-! ### All objects of a block -/

/-- What a touched object is after the block, and what it was before. -/
structure Touched (packages : Packages) (binding : Binding) (rows : List ObjectRow) (after : JsMap Hash ObjectRecord)
    (entry : Hash × Option ObjectRecord) : Prop where
  /-- The object is there after the block. -/
  after : ∃ record, after.get? entry.1 = some record ∧ record.objectKey = entry.1 ∧
    objectKeyFromWire packages.sha256 binding.ns record.createTxid = entry.1 ∧
    ∀ prior, entry.2 = some prior → prior.createTxid = record.createTxid ∧ prior.createHeight = record.createHeight
  /-- An object without an earlier record had no row. -/
  new : entry.2 = none → ∀ row ∈ rows, row.objectKey ≠ entry.1
  /-- An earlier record had its row. -/
  old : ∀ prior, entry.2 = some prior → prior.objectKey = entry.1 ∧ objectRow prior ∈ rows ∧
    objects.fits (objectRow prior) = true

variable {rows : List ObjectRow} {block : ReducedBlock} {entry : Hash × Option ObjectRecord}

theorem Touched.belongs (ok : RowsOk packages binding rows) (h : Touched packages binding rows block.objects entry) :
    ∃ record, block.objects.get? entry.1 = some record ∧ record.objectKey = entry.1 ∧
      Belongs packages binding rows record ∧ touchRows block rows entry = upsertRows record rows := by
  obtain ⟨record, hr, hk, hkey, horigin⟩ := h.after
  refine ⟨record, hr, hk, ⟨hkey.trans hk.symm, fun row hrow hrk => ?_⟩, by simp [touchRows, hr]⟩
  cases hp : entry.2 with
  | none => exact absurd (hrk.trans hk) (h.new hp row hrow)
  | some prior =>
    obtain ⟨hpk, hpr, -⟩ := h.old prior hp
    obtain rfl := ok.eq_of_key hpr hrow ((hpk.trans hk.symm).trans hrk.symm)
    exact horigin prior hp

theorem Touched.of_cons (ok : RowsOk packages binding rows) (h : Touched packages binding rows block.objects entry)
    {entry' : Hash × Option ObjectRecord} (h' : Touched packages binding rows block.objects entry')
    (hne : entry'.1 ≠ entry.1) : Touched packages binding (touchRows block rows entry) block.objects entry' := by
  obtain ⟨record, -, hk, belongs, ht⟩ := h.belongs ok
  rw [ht]
  refine ⟨h'.after, fun hp row hrow => ?_, fun prior hp => ?_⟩
  · rcases (mem_upsertRows ok belongs).mp hrow with ⟨hrow, -⟩ | rfl
    · exact h'.new hp row hrow
    · exact fun he => hne (he.symm.trans hk)
  · obtain ⟨hpk, hpr, hfits⟩ := h'.old prior hp
    refine ⟨hpk, (mem_upsertRows ok belongs).mpr (.inl ⟨hpr, ?_⟩), hfits⟩
    exact fun he => hne (hpk.symm.trans (he.trans hk))

/-- The rows after a block: those of the objects touched, and those of the others as they were. -/
theorem mem_foldl_touchRows {l : List (Hash × Option ObjectRecord)} (hl : (l.map Prod.fst).Nodup)
    (ok : RowsOk packages binding rows) (h : ∀ entry ∈ l, Touched packages binding rows block.objects entry) :
    RowsOk packages binding (l.foldl (touchRows block) rows) ∧ ∀ row, row ∈ l.foldl (touchRows block) rows ↔
      row ∈ rows ∧ row.objectKey ∉ l.map Prod.fst ∨
        ∃ entry ∈ l, ∃ record, block.objects.get? entry.1 = some record ∧ row = objectRow record := by
  induction l generalizing rows with
  | nil => exact ⟨ok, by simp⟩
  | cons entry l ih =>
    rw [List.map_cons, List.nodup_cons] at hl
    have hentry := h entry List.mem_cons_self
    obtain ⟨record, hrec, hk, belongs, ht⟩ := hentry.belongs ok
    have hne : ∀ entry' ∈ l, entry'.1 ≠ entry.1 := fun entry' he heq =>
      hl.1 (heq ▸ List.mem_map_of_mem he)
    obtain ⟨ok', hmem⟩ := ih hl.2 (ht ▸ rowsOk_upsertRows ok belongs) fun entry' he =>
      hentry.of_cons ok (h entry' (List.mem_cons_of_mem _ he)) (hne entry' he)
    refine ⟨ok', fun row => ?_⟩
    rw [List.foldl_cons, hmem, ht, mem_upsertRows ok belongs, List.map_cons, hk]
    simp only [List.mem_cons, not_or, exists_eq_or_imp, hrec, Option.some.injEq, exists_eq_left']
    constructor
    · rintro (⟨⟨hr, hrk⟩ | rfl, hnm⟩ | h)
      · exact .inl ⟨hr, hrk, hnm⟩
      · exact .inr (.inl rfl)
      · exact .inr (.inr h)
    · rintro (⟨hr, hrk, hnm⟩ | rfl | h)
      · exact .inl ⟨.inl ⟨hr, hrk⟩, hnm⟩
      · exact .inl ⟨.inr rfl, fun hm => hl.1 (hk ▸ hm)⟩
      · exact .inr h

/-! ### Restoring -/

/-- Restoring an object after it was touched gives its row back, in place. -/
theorem restoreObject_touched {db : Db} (ok : RowsOk packages binding rows)
    (h : Touched packages binding rows block.objects entry)
    (hdb : entry.2 = none → (∀ row ∈ db.states, row.objectKey ≠ entry.1) ∧
      (∀ row ∈ db.carriers, row.objectKey ≠ entry.1) ∧ ∀ row ∈ db.chapters, row.objectKey ≠ entry.1) :
    restoreObject { db with objects := touchRows block rows entry } (undoRow block.height entry) =
      .ok { db with objects := rows } := by
  obtain ⟨record, -, hk, belongs, ht⟩ := h.belongs ok
  rw [ht]
  unfold restoreObject undoRow
  cases hp : entry.2 with
  | none =>
    have hnew : ∀ row ∈ rows, row.objectKey ≠ record.objectKey := fun row hr => hk ▸ h.new hp row hr
    obtain ⟨hs, hc, hch⟩ := hdb hp
    have hkeep : ∀ {R : Type} (key : R → Hash) (l : List R), (∀ row ∈ l, key row ≠ entry.1) →
        l.filter (fun row => decide (key row ≠ entry.1)) = l := fun key l hl =>
      List.filter_eq_self.mpr fun row hr => by simpa using hl row hr
    rw [upsertRows_new ok belongs hnew]
    simp only [deleteObject, List.filter_append, hkeep StateRow.objectKey _ hs, hkeep CarrierRow.objectKey _ hc,
      hkeep ChapterRow.objectKey _ hch, hkeep ObjectRow.objectKey _ (h.new hp)]
    simp [objectRow, hk, pure, Except.pure]
  | some prior =>
    obtain ⟨hpk, hpr, hfits⟩ := h.old prior hp
    have hpo : ∀ row ∈ rows, row.objectKey = prior.objectKey → row = objectRow prior := fun row hr hrk =>
      ok.eq_of_key hr hpr hrk
    rw [upsertRows_old belongs hpr (hpk.trans hk.symm)]
    have hpre : prior.objectKey = record.objectKey := hpk.trans hk.symm
    have hset : setObject prior (objectRow record) = objectRow prior := by
      obtain ⟨ht', hh'⟩ := belongs.origin _ hpr hpre
      exact setObject_eq hpre.symm ht'.symm hh'.symm
    refine objects.update_eq_ok.mpr ⟨fun row hrow hrk => ?_, ?_⟩
    · obtain ⟨r, hr, rfl⟩ := List.mem_map.mp hrow
      split_ifs at hrk ⊢ with hrec
      · rw [hset]
        exact hfits
      · exact absurd (of_decide_eq_true hrk) (hpre ▸ hrec)
    · simp only [objects, List.map_map]
      congr 1
      refine (List.map_congr_left fun row hr => ?_).trans (List.map_id rows)
      simp only [Function.comp_apply, id_eq, decide_eq_true_eq]
      split_ifs with hrec hrk hrk
      · rw [hset]
        exact (hpo row hr (hrec.trans hpre.symm)).symm
      · exact absurd hpre.symm hrk
      · exact absurd hrk (hpre ▸ hrec)
      · rfl

/-- **Restoring all objects of a block**, the last one touched first, gives the rows back. -/
theorem restore_touched (db : Db) {l : List (Hash × Option ObjectRecord)} (hl : (l.map Prod.fst).Nodup)
    (ok : RowsOk packages binding rows) (h : ∀ entry ∈ l, Touched packages binding rows block.objects entry)
    (hdb : ∀ entry ∈ l, entry.2 = none → (∀ row ∈ db.states, row.objectKey ≠ entry.1) ∧
      (∀ row ∈ db.carriers, row.objectKey ≠ entry.1) ∧ ∀ row ∈ db.chapters, row.objectKey ≠ entry.1) :
    (l.map (undoRow block.height)).reverse.foldlM restoreObject { db with objects := l.foldl (touchRows block) rows } =
      .ok { db with objects := rows } := by
  induction l generalizing rows with
  | nil => rfl
  | cons entry l ih =>
    rw [List.map_cons, List.nodup_cons] at hl
    have hentry := h entry List.mem_cons_self
    obtain ⟨record, -, hk, belongs, ht⟩ := hentry.belongs ok
    rw [List.map_cons, List.reverse_cons, List.foldl_cons]
    refine foldlM_append_ok.mpr ⟨{ db with objects := touchRows block rows entry }, ?_, ?_⟩
    · refine ih hl.2 (ht ▸ rowsOk_upsertRows ok belongs) (fun entry' he => ?_) fun entry' he =>
        hdb entry' (List.mem_cons_of_mem _ he)
      exact hentry.of_cons ok (h entry' (List.mem_cons_of_mem _ he)) fun heq =>
        hl.1 (heq ▸ List.mem_map_of_mem he)
    · rw [List.foldlM_cons, restoreObject_touched ok hentry (hdb entry List.mem_cons_self)]
      rfl

end IndexTandem.Indexer
