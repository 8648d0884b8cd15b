import CordeliaCore.ReceiveEffect

set_option autoImplicit false

namespace CordeliaCore.GroupIsolation
open CryptoPrimitives ProtocolMessages StorageRows StorageSqlite KeyedTable Replication
open ReplicationEngine SqliteStorage

section Isolation
variable [Sha256] (db : SqliteStorage) (now : String) (item : FetchedItem)
  (ourGroups : List String) (relayAccepts : Option (String → Bool))

def Isolates : Prop :=
  ∀ row ∈ db.l2Items.rows, row.groupId ≠ some item.groupId →
    (onReceive db now item ourGroups relayAccepts).2.l2Items.lookup row.id = some row

/-- A row of another group under the item's id is not one the message applies to. -/
def SparesForeignRow : Prop :=
  ∀ row, db.l2Items.lookup item.itemId = some row → row.groupId ≠ some item.groupId →
    ¬ Erases ourGroups relayAccepts item ∧ ¬ Writes ourGroups relayAccepts item (some row)

theorem sparesForeignRow_of_isolates (h : Isolates db now item ourGroups relayAccepts) :
    SparesForeignRow db item ourGroups relayAccepts := by
  intro row hrow hgroup
  have hid : row.id = item.itemId := Table.key_of_lookup hrow
  have hkept := h row (Table.mem_of_lookup hrow) hgroup
  rw [onReceive_lookup, if_pos hid, hid, hrow] at hkept
  constructor
  · intro herase
    simp [herase] at hkept
  · intro hwrite
    have herase : ¬ Erases ourGroups relayAccepts item := fun he =>
      not_writes_of_erases item ourGroups relayAccepts he _ hwrite
    rw [if_neg herase, if_pos hwrite] at hkept
    -- the written row carries the group of the message
    have hwritten := congrArg L2ItemRow.groupId (Option.some.inj hkept)
    exact hgroup hwritten.symm

theorem isolates_of_sparesForeignRow (h : SparesForeignRow db item ourGroups relayAccepts) :
    Isolates db now item ourGroups relayAccepts := by
  intro row hmem hgroup
  have hrow := db.l2Items.lookup_key hmem
  by_cases hid : row.id = item.itemId
  · rw [hid] at hrow
    obtain ⟨herase, hwrite⟩ := h row hrow hgroup
    rw [onReceive_lookup, if_pos hid, hid, hrow, if_neg herase, if_neg hwrite]
  · rw [onReceive_lookup_of_ne db now item ourGroups relayAccepts hid, hrow]

/-- Receiving a message isolates the other groups exactly when it spares the
    foreign row under its id. -/
theorem isolates_iff : Isolates db now item ourGroups relayAccepts ↔
    SparesForeignRow db item ourGroups relayAccepts :=
  ⟨sparesForeignRow_of_isolates db now item ourGroups relayAccepts,
    isolates_of_sparesForeignRow db now item ourGroups relayAccepts⟩

end Isolation

section Example
variable [Sha256]

def privateNote : L2ItemRow where
  id := "note-1"
  itemType := "learning"
  ownerId := some "russell"
  visibility := "private"
  data := []
  checksum := some (StorageSqlite.checksum [])
  groupId := none
  authorId := some "russell"
  keyVersion := 1
  parentId := none
  isCopy := false
  accessCount := 0
  lastAccessedAt := none
  createdAt := "2026-02-01 00:00:00"
  updatedAt := "2026-02-01 00:00:00"

theorem privateNote_checks : L2Checks privateNote :=
  ⟨(by decide : "learning" ∈ l2ItemTypes), (by decide : "private" ∈ l2Visibilities)⟩

def privateNoteStore : SqliteStorage :=
  { createNew with l2Items := Table.empty.put privateNote privateNote_checks }

theorem privateNoteStore_lookup : privateNoteStore.l2Items.lookup "note-1" = some privateNote :=
  Table.empty.lookup_put_self privateNote privateNote_checks

end Example

def foreignTombstone : FetchedItem where
  itemId := "note-1"
  itemType := "__tombstone__"
  encryptedBlob := []
  checksum := ""
  authorId := "attacker"
  groupId := "seed-drill"
  keyVersion := 1
  parentId := none
  isCopy := false
  updatedAt := "2026-02-09T00:00:00Z"

/-- A member of one group deletes a private note by naming its id. -/
theorem privateNote_deleted : ¬ ∃ _ : Sha256,
    Isolates privateNoteStore "2026-02-09 00:00:00" foreignTombstone ["seed-drill"] none := by
  rintro ⟨_, h⟩
  have hspares := sparesForeignRow_of_isolates _ _ _ _ _ h privateNote privateNoteStore_lookup
    (by decide : none ≠ some "seed-drill")
  exact hspares.1 ⟨⟨by decide, by decide⟩, by decide⟩

end CordeliaCore.GroupIsolation
