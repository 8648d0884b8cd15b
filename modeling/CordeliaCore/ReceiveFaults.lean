import CordeliaCore.ReceiveProgress

set_option autoImplicit false

namespace CordeliaCore.ReceiveFaults
open CryptoPrimitives ProtocolMessages StorageRows StorageSqlite KeyedTable Replication
open ReplicationEngine SqliteStorage ReceiveProgress

/-- How each call of `on_receive` fails, where it does. -/
structure Faults where
  readL2Item : Option StorageError
  writeL2Item : Option StorageError
  deleteL2Item : Option StorageError
  logAccess : Option StorageError
deriving DecidableEq, Repr

structure Faulty (σ : Type) where
  db : σ
  faults : Faults

/-- A failing call returns its error and nothing else. -/
def failing {α : Type} (fault : Option StorageError) (result : Except StorageError α) :
    Except StorageError α :=
  match fault with
  | some e => .error e
  | none => result

section Instance
variable {σ : Type} [Storage σ]

def Faulty.withDb (s : Faulty σ) (db : σ) : Faulty σ := { s with db := db }

/-- The methods that `on_receive` does not call never fail here. -/
instance : Storage (Faulty σ) where
  readL2Item s id := failing s.faults.readL2Item (Storage.readL2Item s.db id)
  writeL2Item s now item :=
    failing s.faults.writeL2Item ((Storage.writeL2Item s.db now item).map s.withDb)
  deleteL2Item s id :=
    failing s.faults.deleteL2Item
      ((Storage.deleteL2Item s.db id).map (fun r => (r.1, s.withDb r.2)))
  readL2ItemMeta s id := Storage.readL2ItemMeta s.db id
  listGroupItems s groupId since limit := Storage.listGroupItems s.db groupId since limit
  writeGroup s now id name culture securityPolicy :=
    (Storage.writeGroup s.db now id name culture securityPolicy).map s.withDb
  writeGroupSignature s id ownerId ownerPubkey signature :=
    (Storage.writeGroupSignature s.db id ownerId ownerPubkey signature).map s.withDb
  readGroup s id := Storage.readGroup s.db id
  listGroups s := Storage.listGroups s.db
  listMembers s groupId := Storage.listMembers s.db groupId
  getMembership s groupId entityId := Storage.getMembership s.db groupId entityId
  addMember s now groupId entityId role :=
    let (outcome, db) := Storage.addMember s.db now groupId entityId role
    (outcome, s.withDb db)
  updateMemberPosture s groupId entityId posture :=
    (Storage.updateMemberPosture s.db groupId entityId posture).map (fun r => (r.1, s.withDb r.2))
  removeMember s groupId entityId :=
    (Storage.removeMember s.db groupId entityId).map (fun r => (r.1, s.withDb r.2))
  purgeDeletedGroups s membersCutoff groupsCutoff tombstoneCulture :=
    let (outcome, db) := Storage.purgeDeletedGroups s.db membersCutoff groupsCutoff tombstoneCulture
    (outcome, s.withDb db)
  logAccess s now entry :=
    failing s.faults.logAccess ((Storage.logAccess s.db now entry).map s.withDb)
  listStoredGroupIds s := Storage.listStoredGroupIds s.db

end Instance

variable [Sha256]

def receiveFaulty (faults : Faults) (db : SqliteStorage) (d : Delivery) :
    ReceiveOutcome × Faulty SqliteStorage :=
  onReceive (⟨db, faults⟩ : Faulty SqliteStorage) d.now d.item d.ourGroups d.relayAccepts

structure Survives (faults : Faults) (db : SqliteStorage) (d : Delivery) : Prop where
  newest_stays : (receiveFaulty faults db d).1 = .stored → d.item.itemType ≠ tombstoneType →
    ∀ row, db.l2Items.lookup d.item.itemId = some row → row.updatedAt < d.item.updatedAt
  unchanged : (receiveFaulty faults db d).1 ≠ .stored →
    (receiveFaulty faults db d).2.db.l2Items = db.l2Items

/-- The read fails and the write does not, for an item that the row's stamp would stop. -/
def BlindWrite (faults : Faults) (db : SqliteStorage) (d : Delivery) : Prop :=
  faults.readL2Item.isSome ∧ faults.writeL2Item = none ∧
    Admitted d.ourGroups d.relayAccepts d.item ∧ WellFormed d.item ∧
    ∃ row, db.l2Items.lookup d.item.itemId = some row ∧ d.item.updatedAt ≤ row.updatedAt

def seen (faults : Faults) (db : SqliteStorage) (id : String) : Option L2ItemRow :=
  if faults.readL2Item.isSome then none else db.l2Items.lookup id

section Store
variable {faults : Faults} (db : SqliteStorage) (now : String) {item : FetchedItem}

theorem storeItem_of_write_fault {e : StorageError} (h : faults.writeL2Item = some e) :
    storeItem (⟨db, faults⟩ : Faulty SqliteStorage) now item =
      (.rejected ("storage error: " ++ e.text), ⟨db, faults⟩) := by
  have hfails : Storage.writeL2Item (⟨db, faults⟩ : Faulty SqliteStorage) now (receivedWrite item) =
      .error e := by
    change failing faults.writeL2Item _ = _
    rw [h]
    rfl
  unfold storeItem
  rw [hfails]

theorem writeL2Item_faulty (h : faults.writeL2Item = none) (write : L2ItemWrite) :
    Storage.writeL2Item (⟨db, faults⟩ : Faulty SqliteStorage) now write =
      (Storage.writeL2Item db now write).map (fun db => ⟨db, faults⟩) := by
  change failing faults.writeL2Item _ = _
  rw [h]
  rfl

/-- A failed log entry does not change what was stored. -/
theorem storeItem_of_written (h : faults.writeL2Item = none) (htype : item.itemType ∈ l2ItemTypes) :
    (storeItem (⟨db, faults⟩ : Faulty SqliteStorage) now item).1 = .stored ∧
      (storeItem (⟨db, faults⟩ : Faulty SqliteStorage) now item).2.db.l2Items.lookup item.itemId =
        some (receivedRow (db.l2Items.lookup item.itemId) now item) := by
  have hc := (receivedRow_checks (db.l2Items.lookup item.itemId) now item).mpr htype
  have hput : (db.l2Items.put _ hc).lookup item.itemId = some _ := db.l2Items.lookup_put_self _ hc
  have hlog : ∀ (written : SqliteStorage) (entry : AccessLogEntry),
      Storage.logAccess (⟨written, faults⟩ : Faulty SqliteStorage) now entry =
        failing faults.logAccess
          (.ok ⟨{ written with accessLog := written.accessLog ++ [(now, entry)] }, faults⟩) :=
    fun _ _ => rfl
  unfold storeItem
  rw [writeL2Item_faulty db now h, writeL2Item_ok db now (receivedWrite item) hc]
  dsimp only [Except.map]
  rw [hlog]
  cases faults.logAccess <;> exact ⟨rfl, hput⟩

theorem storeItem_of_refused_type (h : faults.writeL2Item = none)
    (htype : item.itemType ∉ l2ItemTypes) :
    storeItem (⟨db, faults⟩ : Faulty SqliteStorage) now item =
      (.rejected refusedType, ⟨db, faults⟩) := by
  have hc : ¬ L2Checks (receivedRow (db.l2Items.lookup item.itemId) now item) :=
    fun hc => htype ((receivedRow_checks _ now item).mp hc)
  have hfailed : l2CheckFailed (receivedRow (db.l2Items.lookup item.itemId) now item) =
      checkFailed "type IN ('entity', 'session', 'learning')" :=
    congrArg checkFailed (if_neg htype)
  unfold storeItem
  rw [writeL2Item_faulty db now h, writeL2Item_error db now (receivedWrite item) hc]
  exact congrArg (fun e : StorageError =>
    (ReceiveOutcome.rejected ("storage error: " ++ e.text), (⟨db, faults⟩ : Faulty SqliteStorage)))
    hfailed

theorem storeItem_stored_iff :
    (storeItem (⟨db, faults⟩ : Faulty SqliteStorage) now item).1 = .stored ↔
      faults.writeL2Item = none ∧ item.itemType ∈ l2ItemTypes := by
  cases h : faults.writeL2Item with
  | some e =>
    rw [storeItem_of_write_fault db now h]
    simp
  | none =>
    by_cases htype : item.itemType ∈ l2ItemTypes
    · simp [(storeItem_of_written db now h htype).1, htype]
    · rw [storeItem_of_refused_type db now h htype]
      simp [htype]

theorem storeItem_unchanged
    (h : (storeItem (⟨db, faults⟩ : Faulty SqliteStorage) now item).1 ≠ .stored) :
    (storeItem (⟨db, faults⟩ : Faulty SqliteStorage) now item).2 = ⟨db, faults⟩ := by
  cases hfault : faults.writeL2Item with
  | some e => rw [storeItem_of_write_fault db now hfault]
  | none =>
    have htype : item.itemType ∉ l2ItemTypes :=
      fun htype => h (storeItem_of_written db now hfault htype).1
    rw [storeItem_of_refused_type db now hfault htype]

end Store

section Cases
variable (faults : Faults) (db : SqliteStorage) (d : Delivery)

theorem receiveFaulty_refused (h : ¬ Admitted d.ourGroups d.relayAccepts d.item ∨
      d.item.itemType ≠ tombstoneType ∧ validateChecksum d.item = false) :
    ∃ reason, receiveFaulty faults db d = (.rejected reason, ⟨db, faults⟩) := by
  unfold receiveFaulty onReceive
  split_ifs with hsize hgroup htype hsum
  · exact ⟨_, rfl⟩
  · exact ⟨_, rfl⟩
  · rcases h with hadm | hother
    · exact absurd ⟨not_lt.mp hsize, by simpa using hgroup⟩ hadm
    · exact absurd htype hother.1
  · exact ⟨_, rfl⟩
  · rcases h with hadm | hother
    · exact absurd ⟨not_lt.mp hsize, by simpa using hgroup⟩ hadm
    · exact absurd hother.2 (by simpa using hsum)

theorem receiveFaulty_of_tombstone (hadm : Admitted d.ourGroups d.relayAccepts d.item)
    (htype : d.item.itemType = tombstoneType) :
    receiveFaulty faults db d = applyTombstone (⟨db, faults⟩ : Faulty SqliteStorage) d.item := by
  unfold receiveFaulty onReceive
  rw [if_neg (not_lt.mpr hadm.1), hadm.2, if_neg (by decide), if_pos htype]

theorem receiveFaulty_of_valid (hadm : Admitted d.ourGroups d.relayAccepts d.item)
    (htype : d.item.itemType ≠ tombstoneType) (hsum : validateChecksum d.item = true) :
    receiveFaulty faults db d =
      (seen faults db d.item.itemId).elim (storeItem ⟨db, faults⟩ d.now d.item) (fun existing =>
        if existing.checksum = some d.item.checksum then (.duplicate, ⟨db, faults⟩)
        else if existing.updatedAt ≥ d.item.updatedAt then (.duplicate, ⟨db, faults⟩)
        else storeItem ⟨db, faults⟩ d.now d.item) := by
  have hcall : Storage.readL2Item (⟨db, faults⟩ : Faulty SqliteStorage) d.item.itemId =
      failing faults.readL2Item (.ok (db.l2Items.lookup d.item.itemId)) := rfl
  unfold receiveFaulty onReceive seen
  rw [if_neg (not_lt.mpr hadm.1), hadm.2, if_neg (by decide), if_neg htype, hsum,
    if_neg (by decide), hcall]
  cases faults.readL2Item with
  | some e => rfl
  | none =>
    dsimp only [failing, Option.isSome_none]
    cases db.l2Items.lookup d.item.itemId <;> rfl

variable {faults db d}

theorem stored_iff_written (htype : d.item.itemType ≠ tombstoneType) :
    (receiveFaulty faults db d).1 = .stored ↔ faults.writeL2Item = none ∧
      Writes d.ourGroups d.relayAccepts d.item (seen faults db d.item.itemId) := by
  by_cases hearly : ¬ Admitted d.ourGroups d.relayAccepts d.item ∨ validateChecksum d.item = false
  · obtain ⟨reason, hrefused⟩ :=
      receiveFaulty_refused faults db d (hearly.imp_right (fun hsum => ⟨htype, hsum⟩))
    rw [hrefused]
    refine iff_of_false (by simp) (fun hw => ?_)
    rcases hearly with hadm | hsum
    · exact hadm hw.2.1
    · simp [hw.2.2.1.1] at hsum
  obtain ⟨hadm, hsum⟩ := not_or.mp hearly
  rw [not_not] at hadm
  rw [Bool.not_eq_false] at hsum
  rw [receiveFaulty_of_valid faults db d hadm htype hsum]
  cases hseen : seen faults db d.item.itemId with
  | none =>
    rw [Option.elim_none, storeItem_stored_iff]
    simp [Writes, WellFormed, hadm, hsum]
  | some existing =>
    rw [Option.elim_some]
    split_ifs with hsame hold
    · exact iff_of_false (by simp) (fun hw => (hw.2.2.2 existing rfl).1 hsame)
    · exact iff_of_false (by simp) (fun hw => not_lt.mpr hold (hw.2.2.2 existing rfl).2)
    · rw [storeItem_stored_iff]
      constructor
      · rintro ⟨hwrite, hallowed⟩
        refine ⟨hwrite, hadm, ⟨hsum, hallowed⟩, ?_⟩
        rintro e ⟨⟩
        exact ⟨hsame, not_le.mp hold⟩
      · rintro ⟨hwrite, -, hwell, -⟩
        exact ⟨hwrite, hwell.2⟩

theorem replaced_of_stored (htype : d.item.itemType ≠ tombstoneType)
    (h : (receiveFaulty faults db d).1 = .stored) :
    (receiveFaulty faults db d).2.db.l2Items.lookup d.item.itemId =
      some (receivedRow (db.l2Items.lookup d.item.itemId) d.now d.item) := by
  obtain ⟨hwrite, hadm, hwell, hnew⟩ := (stored_iff_written htype).mp h
  have hwritten := (storeItem_of_written db d.now hwrite hwell.2).2
  rw [receiveFaulty_of_valid faults db d hadm htype hwell.1]
  cases hseen : seen faults db d.item.itemId with
  | none => exact hwritten
  | some existing =>
    obtain ⟨hsum, hold⟩ := hnew existing hseen
    rw [Option.elim_some, if_neg hsum, if_neg (not_le.mpr hold)]
    exact hwritten

theorem tombstone_unchanged
    (h : (applyTombstone (⟨db, faults⟩ : Faulty SqliteStorage) d.item).1 ≠ .stored) :
    (applyTombstone (⟨db, faults⟩ : Faulty SqliteStorage) d.item).2.db.l2Items = db.l2Items := by
  have hcall : Storage.deleteL2Item (⟨db, faults⟩ : Faulty SqliteStorage) d.item.itemId =
      failing faults.deleteL2Item (.ok ((db.l2Items.lookup d.item.itemId).isSome,
        ⟨{ db with l2Items := db.l2Items.erase d.item.itemId }, faults⟩)) := rfl
  unfold applyTombstone at h ⊢
  rw [hcall] at h ⊢
  cases hfault : faults.deleteL2Item with
  | some e => rfl
  | none =>
    cases hrow : db.l2Items.lookup d.item.itemId with
    | none => exact Table.erase_of_lookup_none hrow
    | some row =>
      rw [hfault, hrow] at h
      exact absurd rfl h

theorem unchanged_of_not_stored (h : (receiveFaulty faults db d).1 ≠ .stored) :
    (receiveFaulty faults db d).2.db.l2Items = db.l2Items := by
  by_cases hearly : ¬ Admitted d.ourGroups d.relayAccepts d.item ∨
      d.item.itemType ≠ tombstoneType ∧ validateChecksum d.item = false
  · obtain ⟨reason, hrefused⟩ := receiveFaulty_refused faults db d hearly
    rw [hrefused]
  obtain ⟨hadm, hsum⟩ := not_or.mp hearly
  rw [not_not] at hadm
  by_cases htype : d.item.itemType = tombstoneType
  · rw [receiveFaulty_of_tombstone faults db d hadm htype] at h ⊢
    exact tombstone_unchanged h
  have hvalid : validateChecksum d.item = true := by simpa [htype] using hsum
  rw [receiveFaulty_of_valid faults db d hadm htype hvalid] at h ⊢
  cases hseen : seen faults db d.item.itemId with
  | none =>
    rw [hseen, Option.elim_none] at h
    rw [Option.elim_none, storeItem_unchanged db d.now h]
  | some existing =>
    rw [hseen, Option.elim_some] at h
    rw [Option.elim_some]
    split_ifs at h ⊢
    · rfl
    · rfl
    · rw [storeItem_unchanged db d.now h]

theorem not_survives_of_blindWrite (h : BlindWrite faults db d) : ¬ Survives faults db d := by
  obtain ⟨hread, hwrite, hadm, hwell, row, hrow, hold⟩ := h
  intro hsurvives
  have hseen : seen faults db d.item.itemId = none := if_pos hread
  have hstored : (receiveFaulty faults db d).1 = .stored := by
    refine (stored_iff_written hwell.not_tombstone).mpr ⟨hwrite, hadm, hwell, ?_⟩
    simp [hseen]
  exact not_lt.mpr hold (hsurvives.newest_stays hstored hwell.not_tombstone row hrow)

theorem survives_of_not_blindWrite (h : ¬ BlindWrite faults db d) : Survives faults db d where
  newest_stays hstored htype row hrow := by
    obtain ⟨hwrite, hadm, hwell, hnew⟩ := (stored_iff_written htype).mp hstored
    by_contra hold
    cases hread : faults.readL2Item with
    | some e => exact h ⟨by simp [hread], hwrite, hadm, hwell, row, hrow, not_lt.mp hold⟩
    | none =>
      have hseen : seen faults db d.item.itemId = some row := by simp [seen, hread, hrow]
      exact hold (hnew row hseen).2
  unchanged := unchanged_of_not_stored

end Cases

/-- Last writer wins under every pattern of failures, save a failed read before a write
    that goes through. -/
theorem survives_faults_iff (faults : Faults) (db : SqliteStorage) (d : Delivery) :
    Survives faults db d ↔ ¬ BlindWrite faults db d :=
  ⟨fun h hblind => not_survives_of_blindWrite hblind h, survives_of_not_blindWrite⟩

section Example

def readFails : Faults := ⟨some (.sqlite "database is locked"), none, none, none⟩

omit [Sha256] in
/-- A note whose read fails is replaced by an older version. -/
theorem locked_read_loses_newer :
    let := knownDigests
    let db := (receive createNew (noteDelivery "a" "2026-02-01T00:00:02Z")).2
    let older := noteDelivery "" "2026-02-01T00:00:01Z"
    (db.l2Items.lookup "note-1").map (·.updatedAt) = some "2026-02-01T00:00:02Z" ∧
      (receiveFaulty readFails db older).1 = .stored ∧
      ((receiveFaulty readFails db older).2.db.l2Items.lookup "note-1").map (·.updatedAt) =
        some "2026-02-01T00:00:01Z" ∧
      ¬ Survives readFails db older := by
  intro _ db older
  have hadm : Admitted ["seed-drill"] none (noteVersion "a" "2026-02-01T00:00:02Z") :=
    ⟨by decide, by decide⟩
  have holder : Admitted older.ourGroups older.relayAccepts older.item := ⟨by decide, by decide⟩
  have hrow : db.l2Items.lookup "note-1" = some (receivedRow none "2026-02-01 00:00:00"
      (noteVersion "a" "2026-02-01T00:00:02Z")) :=
    onReceive_lookup_of_writes createNew _ _ _ _
      ⟨hadm, noteVersion_wellFormed "a" _, by rintro e ⟨⟩⟩
  have hblind : BlindWrite readFails db older :=
    ⟨rfl, rfl, holder, noteVersion_wellFormed "" _, _, hrow, by decide⟩
  have hstored : (receiveFaulty readFails db older).1 = .stored :=
    (stored_iff_written (by decide)).mpr
      ⟨rfl, holder, noteVersion_wellFormed "" _, by rintro e ⟨⟩⟩
  refine ⟨by rw [hrow]; rfl, hstored, ?_, not_survives_of_blindWrite hblind⟩
  have hafter := replaced_of_stored (by decide) hstored
  rw [show older.item.itemId = "note-1" from rfl] at hafter
  rw [hafter]
  rfl

end Example
end CordeliaCore.ReceiveFaults
