import CordeliaCore.ReplicationEngine
import CordeliaCore.StorageSqlite

set_option autoImplicit false

namespace CordeliaCore.Replication
open CryptoPrimitives ProtocolMessages StorageRows StorageSqlite KeyedTable
open ReplicationEngine SqliteStorage

variable [Sha256]

def Admitted (ourGroups : List String) (relayAccepts : Option (String → Bool))
    (item : FetchedItem) : Prop :=
  item.encryptedBlob.length ≤ maxItemBytes ∧ groupAccepted ourGroups relayAccepts item.groupId = true

def WellFormed (item : FetchedItem) : Prop :=
  validateChecksum item = true ∧ item.itemType ∈ l2ItemTypes

/-- Last writer wins, after the comparison of checksums. -/
def Supersedes (item : FetchedItem) (existing : L2ItemRow) : Prop :=
  existing.checksum ≠ some item.checksum ∧ existing.updatedAt < item.updatedAt

def Erases (ourGroups : List String) (relayAccepts : Option (String → Bool))
    (item : FetchedItem) : Prop :=
  Admitted ourGroups relayAccepts item ∧ item.itemType = tombstoneType

def Writes (ourGroups : List String) (relayAccepts : Option (String → Bool))
    (item : FetchedItem) (existing : Option L2ItemRow) : Prop :=
  Admitted ourGroups relayAccepts item ∧ WellFormed item ∧ ∀ e ∈ existing, Supersedes item e

instance (ourGroups : List String) (relayAccepts : Option (String → Bool)) (item : FetchedItem) :
    Decidable (Erases ourGroups relayAccepts item) :=
  inferInstanceAs (Decidable ((_ ∧ _) ∧ _))

instance (item : FetchedItem) (existing : L2ItemRow) : Decidable (Supersedes item existing) :=
  inferInstanceAs (Decidable (_ ∧ _))

instance (ourGroups : List String) (relayAccepts : Option (String → Bool)) (item : FetchedItem)
    (existing : Option L2ItemRow) : Decidable (Writes ourGroups relayAccepts item existing) :=
  inferInstanceAs (Decidable ((_ ∧ _) ∧ (_ ∧ _) ∧ _))

def receivedRow (existing : Option L2ItemRow) (now : String) (item : FetchedItem) : L2ItemRow :=
  l2Upserted existing now (receivedWrite item)

omit [Sha256] in
theorem tombstoneType_not_stored : tombstoneType ∉ l2ItemTypes := by decide

theorem WellFormed.not_tombstone {item : FetchedItem} (h : WellFormed item) :
    item.itemType ≠ tombstoneType :=
  fun he => tombstoneType_not_stored (he ▸ h.2)

theorem receivedRow_checks (existing : Option L2ItemRow) (now : String) (item : FetchedItem) :
    L2Checks (receivedRow existing now item) ↔ item.itemType ∈ l2ItemTypes := by
  have hv : (receivedRow existing now item).visibility ∈ l2Visibilities :=
    (by decide : "group" ∈ l2Visibilities)
  exact ⟨fun h => h.1, fun h => ⟨h, hv⟩⟩

/-- What `on_receive` asks of an item besides its group. -/
def Applicable (db : SqliteStorage) (item : FetchedItem) : Prop :=
  item.encryptedBlob.length ≤ maxItemBytes ∧
    (item.itemType = tombstoneType ∧ (db.l2Items.lookup item.itemId).isSome ∨
      WellFormed item ∧ ∀ e ∈ db.l2Items.lookup item.itemId, Supersedes item e)

def withReceived (db : SqliteStorage) (now : String) (item : FetchedItem)
    (h : item.itemType ∈ l2ItemTypes) : SqliteStorage :=
  { db with
    l2Items := db.l2Items.put (receivedRow (db.l2Items.lookup item.itemId) now item)
      ((receivedRow_checks _ now item).mpr h)
    accessLog := db.accessLog ++ [(now, receiveLog item)] }

theorem withReceived_lookup (db : SqliteStorage) (now : String) (item : FetchedItem)
    (h : item.itemType ∈ l2ItemTypes) (id : String) :
    (withReceived db now item h).l2Items.lookup id =
      if item.itemId = id then some (receivedRow (db.l2Items.lookup item.itemId) now item)
      else db.l2Items.lookup id :=
  db.l2Items.lookup_put _ ((receivedRow_checks _ now item).mpr h) id

theorem storeItem_of_type (db : SqliteStorage) (now : String) (item : FetchedItem)
    (h : item.itemType ∈ l2ItemTypes) :
    storeItem db now item = (.stored, withReceived db now item h) := by
  have hc := (receivedRow_checks (db.l2Items.lookup item.itemId) now item).mpr h
  unfold storeItem
  rw [writeL2Item_ok db now (receivedWrite item) hc]
  rfl

def refusedType : String :=
  "storage error: sqlite error: CHECK constraint failed: type IN ('entity', 'session', 'learning')"

theorem storeItem_of_other_type (db : SqliteStorage) (now : String) (item : FetchedItem)
    (h : item.itemType ∉ l2ItemTypes) :
    storeItem db now item = (.rejected refusedType, db) := by
  have hc : ¬ L2Checks (receivedRow (db.l2Items.lookup item.itemId) now item) :=
    fun hc => h ((receivedRow_checks _ now item).mp hc)
  have hfailed : l2CheckFailed (receivedRow (db.l2Items.lookup item.itemId) now item) =
      checkFailed "type IN ('entity', 'session', 'learning')" :=
    congrArg checkFailed (if_neg h)
  unfold storeItem
  rw [writeL2Item_error db now (receivedWrite item) hc]
  exact congrArg (fun e : StorageError => (ReceiveOutcome.rejected ("storage error: " ++ e.text), db))
    hfailed

section Cases
variable (db : SqliteStorage) (now : String) (item : FetchedItem) (ourGroups : List String)
  (relayAccepts : Option (String → Bool))

theorem onReceive_of_erases (h : Erases ourGroups relayAccepts item) :
    onReceive db now item ourGroups relayAccepts =
      (if (db.l2Items.lookup item.itemId).isSome then .stored else .duplicate,
        { db with l2Items := db.l2Items.erase item.itemId }) := by
  obtain ⟨⟨hsize, hgroup⟩, htype⟩ := h
  unfold onReceive
  rw [if_neg (not_lt.mpr hsize), hgroup, if_neg (by decide), if_pos htype]
  unfold applyTombstone
  rw [deleteL2Item_ok]
  unfold SqliteStorage.deleteL2Item
  cases (db.l2Items.lookup item.itemId).isSome <;> rfl

/-- Past the tombstone and checksum tests only the stored row matters. -/
theorem onReceive_of_valid (hadm : Admitted ourGroups relayAccepts item)
    (htype : item.itemType ≠ tombstoneType) (hsum : validateChecksum item = true) :
    onReceive db now item ourGroups relayAccepts =
      match db.l2Items.lookup item.itemId with
      | some existing =>
        if existing.checksum = some item.checksum then (.duplicate, db)
        else if existing.updatedAt ≥ item.updatedAt then (.duplicate, db)
        else storeItem db now item
      | none => storeItem db now item := by
  unfold onReceive
  rw [if_neg (not_lt.mpr hadm.1), hadm.2, if_neg (by decide), if_neg htype, hsum,
    if_neg (by decide), readL2Item_ok]
  cases db.l2Items.lookup item.itemId <;> rfl

theorem onReceive_of_writes
    (h : Writes ourGroups relayAccepts item (db.l2Items.lookup item.itemId)) :
    onReceive db now item ourGroups relayAccepts =
      (.stored, withReceived db now item h.2.1.2) := by
  obtain ⟨hadm, hwell, hnew⟩ := h
  rw [onReceive_of_valid db now item ourGroups relayAccepts hadm hwell.not_tombstone hwell.1,
    ← storeItem_of_type db now item hwell.2]
  cases he : db.l2Items.lookup item.itemId with
  | none => rfl
  | some existing =>
    obtain ⟨hsum, hold⟩ := hnew existing (by simp [he])
    simp only [if_neg hsum, if_neg (not_le.mpr hold)]

theorem onReceive_otherwise (herase : ¬ Erases ourGroups relayAccepts item)
    (hwrite : ¬ Writes ourGroups relayAccepts item (db.l2Items.lookup item.itemId)) :
    (onReceive db now item ourGroups relayAccepts).1 ≠ .stored ∧
      (onReceive db now item ourGroups relayAccepts).2 = db := by
  by_cases hsize : item.encryptedBlob.length > maxItemBytes
  · unfold onReceive
    rw [if_pos hsize]
    exact ⟨by simp, rfl⟩
  by_cases hgroup : groupAccepted ourGroups relayAccepts item.groupId = true
  swap
  · unfold onReceive
    rw [if_neg hsize, if_pos (by simp [hgroup])]
    exact ⟨by simp, rfl⟩
  have hadm : Admitted ourGroups relayAccepts item := ⟨not_lt.mp hsize, hgroup⟩
  have htype : item.itemType ≠ tombstoneType := fun h => herase ⟨hadm, h⟩
  by_cases hsum : validateChecksum item = true
  swap
  · unfold onReceive
    rw [if_neg hsize, hgroup, if_neg (by decide), if_neg htype, if_pos (by simp [hsum])]
    exact ⟨by simp, rfl⟩
  rw [onReceive_of_valid db now item ourGroups relayAccepts hadm htype hsum]
  cases he : db.l2Items.lookup item.itemId with
  | none =>
    have hbad : item.itemType ∉ l2ItemTypes := fun h =>
      hwrite ⟨hadm, ⟨hsum, h⟩, by simp [he]⟩
    dsimp only
    rw [storeItem_of_other_type db now item hbad]
    exact ⟨by simp, rfl⟩
  | some existing =>
    dsimp only
    split_ifs with hsame hold
    · exact ⟨by simp, rfl⟩
    · exact ⟨by simp, rfl⟩
    · have hbad : item.itemType ∉ l2ItemTypes := fun h =>
        hwrite ⟨hadm, ⟨hsum, h⟩, by rw [he]; rintro e ⟨⟩; exact ⟨hsame, not_le.mp hold⟩⟩
      rw [storeItem_of_other_type db now item hbad]
      exact ⟨by simp, rfl⟩

theorem not_writes_of_erases (h : Erases ourGroups relayAccepts item)
    (existing : Option L2ItemRow) : ¬ Writes ourGroups relayAccepts item existing :=
  fun hw => hw.2.1.not_tombstone h.2

theorem onReceive_lookup (id : String) :
    (onReceive db now item ourGroups relayAccepts).2.l2Items.lookup id =
      if id = item.itemId then
        if Erases ourGroups relayAccepts item then none
        else if Writes ourGroups relayAccepts item (db.l2Items.lookup id) then
          some (receivedRow (db.l2Items.lookup id) now item)
        else db.l2Items.lookup id
      else db.l2Items.lookup id := by
  by_cases hid : id = item.itemId
  · subst hid
    rw [if_pos rfl]
    split_ifs with herase hwrite
    · rw [onReceive_of_erases db now item ourGroups relayAccepts herase]
      exact db.l2Items.lookup_erase_self _
    · rw [onReceive_of_writes db now item ourGroups relayAccepts hwrite, withReceived_lookup,
        if_pos rfl]
    · rw [(onReceive_otherwise db now item ourGroups relayAccepts herase hwrite).2]
  · rw [if_neg hid]
    by_cases herase : Erases ourGroups relayAccepts item
    · rw [onReceive_of_erases db now item ourGroups relayAccepts herase]
      exact db.l2Items.lookup_erase_of_ne hid
    by_cases hwrite : Writes ourGroups relayAccepts item (db.l2Items.lookup item.itemId)
    · rw [onReceive_of_writes db now item ourGroups relayAccepts hwrite, withReceived_lookup,
        if_neg (fun h => hid h.symm)]
    · rw [(onReceive_otherwise db now item ourGroups relayAccepts herase hwrite).2]

theorem onReceive_lookup_of_writes
    (h : Writes ourGroups relayAccepts item (db.l2Items.lookup item.itemId)) :
    (onReceive db now item ourGroups relayAccepts).2.l2Items.lookup item.itemId =
      some (receivedRow (db.l2Items.lookup item.itemId) now item) := by
  rw [onReceive_of_writes db now item ourGroups relayAccepts h, withReceived_lookup, if_pos rfl]

theorem onReceive_lookup_of_ne {id : String} (h : id ≠ item.itemId) :
    (onReceive db now item ourGroups relayAccepts).2.l2Items.lookup id = db.l2Items.lookup id := by
  rw [onReceive_lookup, if_neg h]

theorem onReceive_stored_iff :
    (onReceive db now item ourGroups relayAccepts).1 = .stored ↔
      Erases ourGroups relayAccepts item ∧ (db.l2Items.lookup item.itemId).isSome ∨
        Writes ourGroups relayAccepts item (db.l2Items.lookup item.itemId) := by
  by_cases herase : Erases ourGroups relayAccepts item
  · rw [onReceive_of_erases db now item ourGroups relayAccepts herase]
    have hw := not_writes_of_erases item ourGroups relayAccepts herase (db.l2Items.lookup item.itemId)
    by_cases hsome : (db.l2Items.lookup item.itemId).isSome <;> simp [hsome, herase, hw]
  by_cases hwrite : Writes ourGroups relayAccepts item (db.l2Items.lookup item.itemId)
  · rw [onReceive_of_writes db now item ourGroups relayAccepts hwrite]
    simp [hwrite]
  · have h := (onReceive_otherwise db now item ourGroups relayAccepts herase hwrite).1
    simp [h, herase, hwrite]

theorem onReceive_stored_iff_applicable :
    (onReceive db now item ourGroups relayAccepts).1 = .stored ↔
      groupAccepted ourGroups relayAccepts item.groupId = true ∧ Applicable db item := by
  rw [onReceive_stored_iff]
  unfold Erases Writes Admitted Applicable
  tauto

theorem onReceive_of_not_accepted (h : groupAccepted ourGroups relayAccepts item.groupId = false) :
    (onReceive db now item ourGroups relayAccepts).2 = db := by
  have hno : groupAccepted ourGroups relayAccepts item.groupId ≠ true := by simp [h]
  exact (onReceive_otherwise db now item ourGroups relayAccepts (fun he => hno he.1.2)
    (fun hw => hno hw.1.2)).2

theorem onReceive_of_not_stored (h : (onReceive db now item ourGroups relayAccepts).1 ≠ .stored) :
    (onReceive db now item ourGroups relayAccepts).2 = db := by
  by_cases herase : Erases ourGroups relayAccepts item
  · have habsent : db.l2Items.lookup item.itemId = none := by
      rw [ne_eq, onReceive_stored_iff, not_or] at h
      simpa using fun hsome => h.1 ⟨herase, hsome⟩
    rw [onReceive_of_erases db now item ourGroups relayAccepts herase]
    change { db with l2Items := db.l2Items.erase item.itemId } = db
    rw [Table.erase_of_lookup_none habsent]
  · refine (onReceive_otherwise db now item ourGroups relayAccepts herase (fun hwrite => h ?_)).2
    exact (onReceive_stored_iff db now item ourGroups relayAccepts).mpr (.inr hwrite)

end Cases

def noteVersion (content updatedAt : String) : FetchedItem where
  itemId := "note-1"
  itemType := "learning"
  encryptedBlob := asBytes content
  checksum := Replication.checksum (asBytes content)
  authorId := "alice"
  groupId := "seed-drill"
  keyVersion := 1
  parentId := none
  isCopy := false
  updatedAt := updatedAt

theorem noteVersion_wellFormed (content updatedAt : String) :
    WellFormed (noteVersion content updatedAt) :=
  ⟨beq_self_eq_true _, (by decide : "learning" ∈ l2ItemTypes)⟩

omit [Sha256] in
theorem note_checksums_differ : @Replication.checksum knownDigests (asBytes "a") ≠
    @Replication.checksum knownDigests (asBytes "") := by
  decide +kernel

end CordeliaCore.Replication
