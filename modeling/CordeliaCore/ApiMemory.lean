import CordeliaCore.ApiGuarantees
import CordeliaCore.DescriptorEffect
import CordeliaCore.ReceiveProgress

set_option autoImplicit false

namespace CordeliaCore.ApiMemory
open CryptoPrimitives ProtocolMessages StorageRows StorageSqlite SqliteStorage StorageDevices Api
open FullTextSearch KeyedTable RequestServers StepRuns ApiRouter ReceiveProgress Replication
open ReplicationEngine Swarm

structure Entry where
  data : Bytes
  itemType : String
  itemMeta : L2MetaResponse

structure Memory where
  documents : String → Option Bytes
  items : String → Option Entry

namespace Memory

def setDocument (m : Memory) (userId : String) (data : Option Bytes) : Memory :=
  { m with documents := Function.update m.documents userId data }

def setItem (m : Memory) (itemId : String) (entry : Option Entry) : Memory :=
  { m with items := Function.update m.items itemId entry }

end Memory

section Changes
variable [Sha256]

/-- A written item, private and by this node's entity unless the request says otherwise. -/
def written (entityId : String) (req : L2WriteRequest) : Entry where
  data := req.data
  itemType := req.itemType
  itemMeta :=
    { ownerId := req.writeMeta.bind L2WriteMeta.ownerId
      visibility := (req.writeMeta.bind L2WriteMeta.visibility).getD "private"
      groupId := req.writeMeta.bind L2WriteMeta.groupId
      authorId := some ((req.writeMeta.bind L2WriteMeta.authorId).getD entityId)
      keyVersion := (req.writeMeta.bind L2WriteMeta.keyVersion).getD 1
      checksum := some (StorageSqlite.checksum req.data)
      parentId := req.writeMeta.bind L2WriteMeta.parentId
      isCopy := (req.writeMeta.bind L2WriteMeta.isCopy).getD false }

def delivered (item : FetchedItem) : Entry where
  data := item.encryptedBlob
  itemType := item.itemType
  itemMeta :=
    { ownerId := none
      visibility := "group"
      groupId := some item.groupId
      authorId := some item.authorId
      keyVersion := item.keyVersion.toInt32
      checksum := some (StorageSqlite.checksum item.encryptedBlob)
      parentId := item.parentId
      isCopy := item.isCopy }

variable {J : Type}

/-- A request to add a member that its role does not rule out; it may still fail. -/
def tried : Response J → Bool
  | .plain .ok => true
  | .plain (.error status _) => status = 500
  | _ => false

def noteAnswer (entityId : String) (m : Memory) (request : Request) (answer : Response J) : Memory :=
  match request with
  | .l1Write userId data => if answer.succeeded then m.setDocument userId (some data) else m
  | .l1Delete userId => if answer.succeeded then m.setDocument userId none else m
  | .groupsAddMember req =>
    if tried answer then
      m.setDocument req.entityId (some ((m.documents req.entityId).getD (asBytes "{}")))
    else m
  | .l2Write req =>
    if answer.succeeded then m.setItem req.itemId (some (written entityId req)) else m
  | .l2Delete itemId => if answer.succeeded then m.setItem itemId none else m
  | _ => m

def noteOutcome (m : Memory) (item : FetchedItem) (outcome : ReceiveOutcome) : Memory :=
  if outcome = .stored then
    m.setItem item.itemId (if item.itemType = tombstoneType then none else some (delivered item))
  else m

end Changes

/-- All that changes the store while the node runs: requests to the API, items and
    descriptors from peers, and the collection of deleted groups. -/
inductive Stimulus where
  | call (call : Call)
  | delivery (delivery : Delivery)
  | descriptor (now : String) (desc : GroupDescriptor)
  | collection (membersCutoff groupsCutoff : String)

inductive Reaction (J : Type) where
  | answer (response : Response J)
  | outcome (outcome : ReceiveOutcome)
  | silent

section Reactions
variable [Sha256] [Ed25519] {J : Type} [SerdeJson J] (index : SqliteStorage → FtsIndex)

def react (s : Server) : Stimulus → Reaction J × Server
  | .call call => (.answer (router index s call).1, (router (J := J) index s call).2)
  | .delivery d =>
    (.outcome (receive s.app.storage d).1, withStorage s (receive s.app.storage d).2)
  | .descriptor now desc => (.silent, withStorage s (mergeDescriptor s.app.storage now desc).2)
  | .collection membersCutoff groupsCutoff =>
    (.silent, withStorage s (Storage.purgeDeletedGroups s.app.storage membersCutoff groupsCutoff
      groupTombstoneCulture).2)

omit [Ed25519] [SerdeJson J] in
def note (entityId : String) (m : Memory) : Stimulus → Reaction J → Memory
  | .call call, .answer response => noteAnswer entityId m call.request response
  | .delivery d, .outcome outcome => noteOutcome m d.item outcome
  | _, _ => m

end Reactions

section Stored

def entry (row : L2ItemRow) : Entry := ⟨row.data, row.itemType, l2MetaResponse row⟩

def memoryOf (db : SqliteStorage) : Memory where
  documents := db.readL1
  items id := (db.l2Items.lookup id).map entry

/-- A change of the store that no read of a document or an item can tell. -/
structure SameMemory (db db' : SqliteStorage) : Prop where
  documents : db'.l1Hot = db.l1Hot
  items : db'.l2Items = db.l2Items

variable {db db' db'' : SqliteStorage}

theorem SameMemory.refl (db : SqliteStorage) : SameMemory db db := ⟨rfl, rfl⟩

theorem SameMemory.trans (h : SameMemory db db') (h' : SameMemory db' db'') :
    SameMemory db db'' :=
  ⟨h'.documents.trans h.documents, h'.items.trans h.items⟩

theorem SameMemory.memoryOf_eq (h : SameMemory db db') : memoryOf db' = memoryOf db := by
  unfold memoryOf readL1
  rw [h.documents, h.items]

theorem sameMemory_of_onlyMembers (h : OnlyMembers db db') : SameMemory db db' := by
  obtain ⟨_, rfl⟩ := h
  exact ⟨rfl, rfl⟩

theorem persistSignature_same [Sha256] (db : SqliteStorage) (desc : GroupDescriptor) :
    SameMemory db (persistSignature db desc) := by
  unfold persistSignature
  split
  · rw [writeGroupSignature_ok]
    dsimp only [Except.toOption, Option.getD_some]
    unfold SqliteStorage.writeGroupSignature
    split <;> exact ⟨rfl, rfl⟩
  · exact .refl db

theorem writeDescriptor_same [Sha256] (db : SqliteStorage) (now localName : String)
    (desc : GroupDescriptor) : SameMemory db (writeDescriptor db now localName desc).2 := by
  have hwritten : SameMemory db (db.writeGroup now desc.id localName desc.culture "{}") := ⟨rfl, rfl⟩
  have hsigned := hwritten.trans (persistSignature_same _ desc)
  unfold writeDescriptor
  rw [writeGroup_ok]
  dsimp only
  split_ifs
  · exact hsigned.trans (sameMemory_of_onlyMembers (removeMembers_onlyMembers _ desc.id))
  · exact hsigned

theorem mergeDescriptor_same [Sha256] [Ed25519] (db : SqliteStorage) (now : String)
    (desc : GroupDescriptor) : SameMemory db (mergeDescriptor db now desc).2 := by
  unfold mergeDescriptor
  split_ifs
  · exact .refl db
  · exact .refl db
  · exact .refl db
  · split
    · split_ifs
      · exact .refl db
      · exact .refl db
      · exact writeDescriptor_same db now _ desc
    · exact writeDescriptor_same db now _ desc

theorem purgeDeletedGroups_same (db : SqliteStorage)
    (membersCutoff groupsCutoff culture : String) :
    SameMemory db (db.purgeDeletedGroups membersCutoff groupsCutoff culture).2 := by
  unfold SqliteStorage.purgeDeletedGroups
  dsimp only
  split_ifs <;> exact ⟨rfl, rfl⟩

theorem mem_listL1Users (db : SqliteStorage) (userId : String) :
    userId ∈ db.listL1Users ↔ ((memoryOf db).documents userId).isSome := by
  change userId ∈ (db.l1Hot.rows.map L1HotRow.userId).insertionSort (· ≤ ·) ↔
    ((db.l1Hot.lookup userId).map _).isSome
  rw [List.mem_insertionSort, Option.isSome_map, List.mem_map, Option.isSome_iff_exists]
  exact exists_congr (fun row => (db.l1Hot.lookup_eq_some_iff).symm)

theorem listL1Users_sorted (db : SqliteStorage) : db.listL1Users.Pairwise (· < ·) := by
  have hnodup : db.listL1Users.Nodup :=
    (List.perm_insertionSort _ _).nodup_iff.mpr db.l1Hot.nodup_keys
  exact ((List.pairwise_insertionSort (· ≤ ·) _).and hnodup).imp (fun h => lt_of_le_of_ne h.1 h.2)

end Stored

section Effects
variable {db db' : SqliteStorage}

theorem memoryOf_writeL1 (db : SqliteStorage) (now userId : String) (data : Bytes) :
    memoryOf (db.writeL1 now userId data) = (memoryOf db).setDocument userId (some data) := by
  have hdocuments : (db.writeL1 now userId data).readL1 =
      Function.update db.readL1 userId (some data) :=
    db.l1Hot.map_lookup_put L1HotRow.data _ trivial
  unfold memoryOf Memory.setDocument
  rw [hdocuments]
  rfl

theorem memoryOf_eraseL1 (db : SqliteStorage) (userId : String) :
    memoryOf { db with l1Hot := db.l1Hot.erase userId } = (memoryOf db).setDocument userId none := by
  have hdocuments : readL1 { db with l1Hot := db.l1Hot.erase userId } =
      Function.update db.readL1 userId none :=
    db.l1Hot.map_lookup_erase L1HotRow.data userId
  unfold memoryOf Memory.setDocument
  rw [hdocuments]

theorem memoryOf_ensureL1Stub (db : SqliteStorage) (now entityId : String) :
    memoryOf (db.ensureL1Stub now entityId) = (memoryOf db).setDocument entityId
      (some (((memoryOf db).documents entityId).getD (asBytes "{}"))) := by
  unfold ensureL1Stub
  cases hrow : db.l1Hot.lookup entityId with
  | some row =>
    have hdata : (memoryOf db).documents entityId = some row.data := by
      change (db.l1Hot.lookup entityId).map L1HotRow.data = _
      rw [hrow]
      rfl
    rw [hdata]
    unfold Memory.setDocument
    rw [Option.getD_some, ← hdata, Function.update_eq_self]
  | none =>
    have hnone : (memoryOf db).documents entityId = none := by
      change (db.l1Hot.lookup entityId).map L1HotRow.data = _
      rw [hrow]
      rfl
    rw [hnone]
    have hwrite := memoryOf_writeL1 db now entityId (asBytes "{}")
    unfold writeL1 l1Upserted at hwrite
    rw [hrow] at hwrite
    exact hwrite

theorem addMember_same (db : SqliteStorage) (now groupId entityId role : String) :
    SameMemory (db.ensureL1Stub now entityId) (db.addMember now groupId entityId role).2 := by
  unfold SqliteStorage.addMember
  dsimp only
  split_ifs <;> exact ⟨rfl, rfl⟩

theorem memoryOf_putItem (db : SqliteStorage) (row : L2ItemRow) (h : L2Checks row) :
    memoryOf { db with l2Items := db.l2Items.put row h } =
      (memoryOf db).setItem row.id (some (entry row)) := by
  unfold memoryOf Memory.setItem
  rw [← db.l2Items.map_lookup_put entry row h]
  rfl

theorem memoryOf_eraseItem (db : SqliteStorage) (itemId : String) :
    memoryOf { db with l2Items := db.l2Items.erase itemId } = (memoryOf db).setItem itemId none := by
  unfold memoryOf Memory.setItem
  rw [← db.l2Items.map_lookup_erase entry itemId]
  rfl

theorem memoryOf_eraseItem_of_none {itemId : String} (h : db.l2Items.lookup itemId = none) :
    memoryOf { db with l2Items := db.l2Items.erase itemId } = memoryOf db := by
  rw [Table.erase_of_lookup_none h]

variable [Sha256]

theorem memoryOf_receive (db : SqliteStorage) (d : Delivery) :
    memoryOf (receive db d).2 = noteOutcome (memoryOf db) d.item (receive db d).1 := by
  unfold receive
  by_cases herase : Erases d.ourGroups d.relayAccepts d.item
  · rw [onReceive_of_erases db d.now d.item d.ourGroups d.relayAccepts herase]
    dsimp only
    unfold noteOutcome
    cases hrow : db.l2Items.lookup d.item.itemId with
    | none => exact memoryOf_eraseItem_of_none hrow
    | some row =>
      rw [if_pos (by rfl), if_pos herase.2]
      exact memoryOf_eraseItem db d.item.itemId
  by_cases hwrite : Writes d.ourGroups d.relayAccepts d.item (db.l2Items.lookup d.item.itemId)
  · rw [onReceive_of_writes db d.now d.item d.ourGroups d.relayAccepts hwrite]
    unfold noteOutcome
    rw [if_pos rfl, if_neg hwrite.2.1.not_tombstone]
    exact memoryOf_putItem db _ ((receivedRow_checks _ d.now d.item).mpr hwrite.2.1.2)
  · obtain ⟨houtcome, hsame⟩ :=
      onReceive_otherwise db d.now d.item d.ourGroups d.relayAccepts herase hwrite
    unfold noteOutcome
    rw [hsame, if_neg houtcome]

end Effects

section Calls
variable {J : Type}

/-- The answer says which of two memories a request leaves. -/
def Tells (before after : Memory) (result : Response J × Server) : Prop :=
  memoryOf result.2.app.storage = if result.1.succeeded then after else before

theorem tells_of_refused {s : Server} {authorization : Option String} {refused : ApiResponse}
    (h : checkAuth s.app authorization = some refused) (after : Memory) :
    Tells (J := J) (memoryOf s.app.storage) after (.plain refused, s) := by
  have hne := ne_ok_of_refused h
  cases refused with
  | ok => exact absurd rfl hne
  | groupCreated groupId => rfl
  | error status message => rfl

variable (s : Server) (authorization : Option String) (now : String)

theorem l1Write_tells (userId : String) (data : Bytes) :
    Tells (memoryOf s.app.storage) ((memoryOf s.app.storage).setDocument userId (some data))
      (l1Write (J := J) s authorization now userId data) := by
  unfold l1Write
  split
  · next refused hrefused => exact tells_of_refused hrefused _
  · exact memoryOf_writeL1 s.app.storage now userId data

theorem l1Delete_tells (userId : String) :
    Tells (memoryOf s.app.storage) ((memoryOf s.app.storage).setDocument userId none)
      (l1Delete (J := J) s authorization userId) := by
  unfold l1Delete
  split
  · next refused hrefused => exact tells_of_refused hrefused _
  · unfold deleteL1
    split_ifs
    · rfl
    · cases hrow : s.app.storage.l1Hot.lookup userId with
      | none =>
        dsimp only [Option.isSome_none]
        rw [Table.erase_of_lookup_none hrow]
        rfl
      | some row => exact memoryOf_eraseL1 s.app.storage userId

variable [Sha256]

theorem entry_written (state : AppState SqliteStorage) (existing : Option L2ItemRow)
    (req : L2WriteRequest) :
    entry (l2Upserted existing now (l2WriteOf state req)) = written state.entityId req := by
  obtain ⟨itemId, itemType, data, given⟩ := req
  cases given with
  | none => rfl
  | some given =>
    obtain ⟨ownerId, visibility, groupId, authorId, keyVersion, parentId, isCopy⟩ := given
    cases authorId <;> rfl

theorem l2Write_tells (req : L2WriteRequest) :
    Tells (J := J) (memoryOf s.app.storage)
      ((memoryOf s.app.storage).setItem req.itemId (some (written s.app.entityId req)))
      (onApp s (l2Write s.app authorization now req)) := by
  unfold l2Write
  split
  · next refused hrefused => exact tells_of_refused hrefused _
  · split
    · rfl
    · dsimp only
      by_cases hchecks : L2Checks (l2Upserted (s.app.storage.l2Items.lookup req.itemId) now
          (l2WriteOf s.app req))
      · rw [writeL2Item_ok s.app.storage now (l2WriteOf s.app req) hchecks, ← entry_written now s.app]
        exact memoryOf_putItem s.app.storage _ hchecks
      · rw [writeL2Item_error s.app.storage now (l2WriteOf s.app req) hchecks]
        rfl

theorem l2Delete_tells (itemId : String) :
    Tells (J := J) (memoryOf s.app.storage) ((memoryOf s.app.storage).setItem itemId none)
      (onApp s (l2Delete s.app authorization itemId)) := by
  unfold l2Delete
  split
  · next refused hrefused => exact tells_of_refused hrefused _
  · rw [deleteL2Item_ok]
    unfold SqliteStorage.deleteL2Item
    cases hrow : s.app.storage.l2Items.lookup itemId with
    | none => exact memoryOf_eraseItem_of_none hrow
    | some row =>
      dsimp only [Option.isSome_some]
      split <;> exact memoryOf_eraseItem s.app.storage itemId

variable (state : AppState SqliteStorage)

theorem groupsAddMember_memoryOf (req : GroupAddMemberRequest) :
    memoryOf (groupsAddMember state authorization now req).2.storage =
      if tried (.plain (groupsAddMember state authorization now req).1 : Response J) then
        (memoryOf state.storage).setDocument req.entityId
          (some (((memoryOf state.storage).documents req.entityId).getD (asBytes "{}")))
      else memoryOf state.storage := by
  have hadded : memoryOf (state.storage.addMember now req.groupId req.entityId req.role).2 = _ :=
    (addMember_same state.storage now req.groupId req.entityId req.role).memoryOf_eq.trans
      (memoryOf_ensureL1Stub state.storage now req.entityId)
  unfold groupsAddMember
  split
  · next refused hrefused =>
    unfold checkAuth at hrefused
    split_ifs at hrefused
    cases hrefused
    rfl
  · split
    · rfl
    · rw [show Storage.addMember state.storage now req.groupId req.entityId req.role =
        state.storage.addMember now req.groupId req.entityId req.role from rfl]
      split
      · next added h =>
        rw [h] at hadded
        exact hadded
      · next e left h =>
        rw [h] at hadded
        exact hadded

theorem groupsCreate_same (req : GroupCreateRequest) :
    SameMemory state.storage (groupsCreate state authorization now req).2.storage := by
  unfold groupsCreate
  split <;> exact ⟨rfl, rfl⟩

theorem groupsDelete_same (groupId : String) :
    SameMemory state.storage (groupsDelete state authorization now groupId).2.storage := by
  unfold groupsDelete
  split
  · exact .refl _
  · rw [readGroup_ok]
    split
    · exact .refl _
    · exact .refl _
    · rw [writeGroup_ok]
      have hwritten : SameMemory state.storage
          (state.storage.writeGroup now groupId groupId groupTombstoneCulture "{}") := ⟨rfl, rfl⟩
      have hremoved := hwritten.trans
        (sameMemory_of_onlyMembers (removeMembers_onlyMembers _ groupId))
      exact ⟨hremoved.documents, hremoved.items⟩

theorem memberChanged_same (logEntry : AccessLogEntry)
    {result : Except StorageError (Bool × SqliteStorage)}
    (h : ∀ changed db, result = .ok (changed, db) → OnlyMembers state.storage db) :
    SameMemory state.storage (memberChanged state now logEntry result).2.storage := by
  match result, h with
  | .ok (true, db), h =>
    have hdb := sameMemory_of_onlyMembers (h true db rfl)
    exact ⟨hdb.documents, hdb.items⟩
  | .ok (false, db), h => exact sameMemory_of_onlyMembers (h false db rfl)
  | .error e, _ => exact .refl _

theorem groupsRemoveMember_same (req : GroupRemoveMemberRequest) :
    SameMemory state.storage (groupsRemoveMember state authorization now req).2.storage := by
  unfold groupsRemoveMember
  split
  · exact .refl _
  · exact memberChanged_same now state _ (fun changed db h => removeMember_onlyMembers h)

theorem groupsUpdatePosture_same (req : GroupUpdatePostureRequest) :
    SameMemory state.storage (groupsUpdatePosture state authorization now req).2.storage := by
  unfold groupsUpdatePosture
  split
  · exact .refl _
  · split
    · exact .refl _
    · exact memberChanged_same now state _ (fun changed db h => updateMemberPosture_onlyMembers h)

end Calls

section Reads
variable {J : Type} [SerdeJson J]

/-- A document that is no JSON text is sent in base64. -/
def documentAnswer (known : Memory) (userId : String) : Response J :=
  match known.documents userId with
  | some data => (SerdeJson.fromSlice data).elim (.encoded data) .value
  | none => .plain (.error 404 "not found")

def itemAnswer (known : Memory) (itemId : String) : Response J :=
  match known.items itemId with
  | some entry => .item (SerdeJson.fromSlice entry.data) entry.itemType entry.itemMeta
  | none => .plain (.error 404 "not found")

variable {s : Server} {authorization : Option String}
  (h : checkAuth s.app authorization = none)
include h

theorem l1Read_memoryOf (userId : String) :
    (l1Read (J := J) s authorization userId).1 = documentAnswer (memoryOf s.app.storage) userId := by
  have hdocument : (memoryOf s.app.storage).documents userId = s.app.storage.readL1 userId := rfl
  unfold l1Read documentAnswer
  rw [h, hdocument]
  cases s.app.storage.readL1 userId with
  | none => rfl
  | some data =>
    dsimp only
    cases (SerdeJson.fromSlice data : Option J) <;> rfl

theorem l2Read_memoryOf [Sha256] (itemId : String) :
    (l2Read (J := J) s authorization itemId).1 = itemAnswer (memoryOf s.app.storage) itemId := by
  have hitem : (memoryOf s.app.storage).items itemId =
      (s.app.storage.l2Items.lookup itemId).map entry := rfl
  unfold l2Read itemAnswer
  rw [h, readL2Item_ok, hitem]
  cases s.app.storage.l2Items.lookup itemId <;> rfl

end Reads

section Sessions
variable [Sha256] {J : Type} [SerdeJson J] (index : SqliteStorage → FtsIndex)

/-- Every answer tells what its request did to the memory. -/
theorem memoryOf_router (s : Server) (call : Call) :
    memoryOf (router (J := J) index s call).2.app.storage =
      noteAnswer s.app.entityId (memoryOf s.app.storage) call.request
        (router (J := J) index s call).1 := by
  obtain ⟨readings, authorization, request⟩ := call
  cases request with
  | l1Write userId data => exact l1Write_tells s authorization readings.now userId data
  | l1Delete userId => exact l1Delete_tells s authorization userId
  | l2Write req => exact l2Write_tells s authorization readings.now req
  | l2Delete itemId => exact l2Delete_tells s authorization itemId
  | groupsAddMember req => exact groupsAddMember_memoryOf authorization readings.now s.app req
  | groupsCreate req =>
    exact (groupsCreate_same authorization readings.now s.app req).memoryOf_eq
  | groupsDelete groupId =>
    exact (groupsDelete_same authorization readings.now s.app groupId).memoryOf_eq
  | groupsRemoveMember req =>
    exact (groupsRemoveMember_same authorization readings.now s.app req).memoryOf_eq
  | groupsUpdatePosture req =>
    exact (groupsUpdatePosture_same authorization readings.now s.app req).memoryOf_eq
  | _ =>
    simp only [router, l1Read, l1List, l2Read, l2SearchWith, groupsList, groupsRead, groupsItems,
      devicesRegister, devicesList, devicesRevoke, status, peers, diagnostics, noteAnswer]
    repeat' split
    all_goals rfl

variable [Ed25519]

theorem memoryOf_react (s : Server) (x : Stimulus) :
    memoryOf (react (J := J) index s x).2.app.storage =
      note s.app.entityId (memoryOf s.app.storage) x (react (J := J) index s x).1 := by
  cases x with
  | call call => exact memoryOf_router index s call
  | delivery d => exact memoryOf_receive s.app.storage d
  | descriptor now desc => exact (mergeDescriptor_same s.app.storage now desc).memoryOf_eq
  | collection membersCutoff groupsCutoff =>
    exact (purgeDeletedGroups_same s.app.storage membersCutoff groupsCutoff _).memoryOf_eq

theorem react_identity (s : Server) (x : Stimulus) :
    identity (react (J := J) index s x).2 = identity s := by
  cases x with
  | call call => exact router_identity index s call
  | delivery d => rfl
  | descriptor now desc => rfl
  | collection membersCutoff groupsCutoff => rfl

/-- At any time an authorised read is answered from the last document or item that was
    accepted under its key, which is known from the answers and outcomes up to then. -/
theorem reads_tell_accepted_changes (s : Server) (past : List Stimulus) (readings : Readings) :
    let known := noted (note s.app.entityId) (memoryOf s.app.storage)
      (transcript (react (J := J) index) s past)
    let ask := fun request => (router (J := J) index (run (next (react (J := J) index)) s past)
      ⟨readings, some ("Bearer " ++ s.app.bearerToken), request⟩).1
    (∀ userId, ask (.l1Read userId) = documentAnswer known userId) ∧
    (∀ itemId, ask (.l2Read itemId) = itemAnswer known itemId) ∧
    ∃ users, ask .l1List = .users users ∧ users.Pairwise (· < ·) ∧
      ∀ userId, userId ∈ users ↔ (known.documents userId).isSome := by
  intro known ask
  let now := run (next (react (J := J) index)) s past
  have hkept : ∀ t x, identity t = identity s →
      identity (next (react (J := J) index) t x) = identity s := by
    intro t x ht
    exact (react_identity index t x).trans ht
  have hidentity : identity now = identity s :=
    run_reaches (I := fun t => identity t = identity s) (fun t x _ => hkept t x) (.inl rfl)
  have hauth : checkAuth now.app (some ("Bearer " ++ s.app.bearerToken)) = none :=
    if_neg (fun hne => hne (congrArg (fun i => "Bearer " ++ i.2.2) hidentity).symm)
  have hknown : memoryOf now.app.storage = known := by
    refine view_run hkept (fun t => memoryOf t.app.storage) (note s.app.entityId) ?_ rfl past
    intro t x ht
    have hentity : t.app.entityId = s.app.entityId := congrArg (fun i => i.2.1) ht
    rw [← hentity]
    exact memoryOf_react index t x
  refine ⟨fun userId => ?_, fun itemId => ?_, now.app.storage.listL1Users, ?_, ?_, fun userId => ?_⟩
  · rw [← hknown]
    exact l1Read_memoryOf hauth userId
  · rw [← hknown]
    exact l2Read_memoryOf hauth itemId
  · change (l1List now _).1 = _
    unfold l1List
    rw [hauth]
  · exact listL1Users_sorted now.app.storage
  · rw [← hknown]
    exact mem_listL1Users now.app.storage userId

end Sessions
end CordeliaCore.ApiMemory
