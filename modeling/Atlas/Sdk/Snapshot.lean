import Atlas.Lib.OrderedMap

/-!
# Snapshots built when they are read

A record keeps its entries and the object built of them last, which is built anew only when the
record is read after a change. The snapshot is built of the records in the same way, one level up.
-/

namespace Atlas.Sdk

variable {ι T : Type} [DecidableEq ι]

/-- The object that a record is read as has the record's entries. -/
structure SnapshotRecord (T : Type) where
  entries : OrderedMap String T
  value : OrderedMap String T
  dirty : Bool
  fresh : dirty = false → value = entries

namespace SnapshotRecord

def new : SnapshotRecord T := ⟨.empty, .empty, false, fun _ => rfl⟩

def set (id : String) (value : T) (r : SnapshotRecord T) : SnapshotRecord T :=
  ⟨r.entries.set id value, r.value, true, nofun⟩

/-- The record without an entry, and whether it had one. -/
def remove (id : String) (r : SnapshotRecord T) : SnapshotRecord T × Bool :=
  if r.entries.has id then (⟨r.entries.delete id, r.value, true, nofun⟩, true) else (r, false)

def clear (r : SnapshotRecord T) : SnapshotRecord T := ⟨.empty, r.value, true, nofun⟩

/-- The record after a reading, which answers with its `value`. -/
def snapshot (r : SnapshotRecord T) : SnapshotRecord T :=
  if r.dirty then ⟨r.entries, r.entries, false, fun _ => rfl⟩ else r

theorem snapshot_entries (r : SnapshotRecord T) : r.snapshot.entries = r.entries := by
  unfold snapshot
  split_ifs <;> rfl

theorem snapshot_dirty (r : SnapshotRecord T) : r.snapshot.dirty = false := by
  unfold snapshot
  split_ifs with h
  · rfl
  · exact Bool.not_eq_true _ ▸ h

theorem snapshot_value (r : SnapshotRecord T) : r.snapshot.value = r.entries :=
  (r.snapshot.fresh r.snapshot_dirty).trans r.snapshot_entries

theorem remove_entries {id : String} (r : SnapshotRecord T) :
    (r.remove id).1.entries = r.entries.delete id := by
  unfold remove
  split_ifs with h
  · rfl
  · refine (OrderedMap.delete_of_get_none (OrderedMap.has_eq_false_iff.1 ?_)).symm
    exact Bool.not_eq_true _ ▸ h

end SnapshotRecord

/-- The records of all types and the snapshot built of them last. While it is not dirty, no record
is. -/
structure SnapshotRecords (ι T : Type) where
  record : ι → SnapshotRecord T
  snapshotValue : ι → OrderedMap String T
  snapshotDirty : Bool
  fresh : snapshotDirty = false →
    ∀ type, (record type).dirty = false ∧ snapshotValue type = (record type).value

namespace SnapshotRecords

def new : SnapshotRecords ι T where
  record _ := .new
  snapshotValue _ := .empty
  snapshotDirty := false
  fresh _ _ := ⟨rfl, rfl⟩

def get (key : ι × String) (s : SnapshotRecords ι T) : Option T :=
  (s.record key.1).entries.get key.2

def updateSnapshot (key : ι × String) (value : T) (s : SnapshotRecords ι T) :
    SnapshotRecords ι T where
  record := Function.update s.record key.1 ((s.record key.1).set key.2 value)
  snapshotValue := s.snapshotValue
  snapshotDirty := true
  fresh := nofun

/-- The snapshot stays as it is if there was nothing to remove. -/
def removeFromSnapshot (key : ι × String) (s : SnapshotRecords ι T) : SnapshotRecords ι T :=
  let removed := (s.record key.1).remove key.2
  if removed.2 then ⟨Function.update s.record key.1 removed.1, s.snapshotValue, true, nofun⟩ else s

def clear (s : SnapshotRecords ι T) : SnapshotRecords ι T where
  record type := (s.record type).clear
  snapshotValue := s.snapshotValue
  snapshotDirty := true
  fresh := nofun

/-- `snapshotFromRecords`: every record is read. -/
def fromRecords (s : SnapshotRecords ι T) : SnapshotRecords ι T where
  record type := (s.record type).snapshot
  snapshotValue type := (s.record type).snapshot.value
  snapshotDirty := false
  fresh _ _ := ⟨SnapshotRecord.snapshot_dirty _, rfl⟩

/-- The records after a reading, which answers with their `snapshotValue`. -/
def snapshot (s : SnapshotRecords ι T) : SnapshotRecords ι T :=
  if s.snapshotDirty then s.fromRecords else s

variable {s : SnapshotRecords ι T} {key key' : ι × String} {value : T}

theorem get_updateSnapshot :
    (s.updateSnapshot key value).get key' = if key' = key then some value else s.get key' := by
  obtain ⟨type, id⟩ := key
  obtain ⟨type', id'⟩ := key'
  unfold get updateSnapshot
  by_cases htype : type' = type
  · subst htype
    simp [SnapshotRecord.set, OrderedMap.get_set]
  · simp [htype]

/-- Where nothing is removed, the record is put back as it was. -/
theorem record_removeFromSnapshot : (s.removeFromSnapshot key).record =
    Function.update s.record key.1 ((s.record key.1).remove key.2).1 := by
  unfold removeFromSnapshot SnapshotRecord.remove
  by_cases hhas : (s.record key.1).entries.has key.2
  · simp [hhas]
  · simp [hhas]

theorem get_removeFromSnapshot :
    (s.removeFromSnapshot key).get key' = if key' = key then none else s.get key' := by
  obtain ⟨type, id⟩ := key
  obtain ⟨type', id'⟩ := key'
  unfold get
  rw [record_removeFromSnapshot]
  by_cases htype : type' = type
  · subst htype
    simp [SnapshotRecord.remove_entries, OrderedMap.get_delete]
  · simp [htype]

omit [DecidableEq ι] in
theorem get_snapshot : s.snapshot.get key = s.get key := by
  unfold snapshot
  split_ifs
  · exact congrArg (fun entries => OrderedMap.get entries key.2) (SnapshotRecord.snapshot_entries _)
  · rfl

omit [DecidableEq ι] in
/-- What is read is what the records hold, whenever they were built. -/
theorem snapshotValue_snapshot : (s.snapshot.snapshotValue key.1).get key.2 = s.get key := by
  unfold snapshot get
  split_ifs with hdirty
  · exact congrArg (fun entries => OrderedMap.get entries key.2) (SnapshotRecord.snapshot_value _)
  · obtain ⟨hclean, hvalue⟩ := s.fresh (Bool.not_eq_true _ ▸ hdirty) key.1
    rw [hvalue, (s.record key.1).fresh hclean]

end SnapshotRecords

end Atlas.Sdk
