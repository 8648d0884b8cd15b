import CordeliaCore.FullTextSearch
import CordeliaCore.StorageDevices
import Mathlib.Data.Rat.Defs

set_option autoImplicit false

/-!
# The router of the local API

All routes of the node's API over the SQLite store. A request has been parsed
by the time its handler runs; what a handler reads from the other tasks comes
with the request. The methods over `l1_hot` and the counts of
`storage_stats` are those of the store.
-/
namespace CordeliaCore.StorageSqlite.SqliteStorage
open CryptoPrimitives StorageRows KeyedTable

def readL1 (s : SqliteStorage) (userId : String) : Option Bytes :=
  (s.l1Hot.lookup userId).map L1HotRow.data

def l1Upserted (existing : Option L1HotRow) (now userId : String) (data : Bytes) : L1HotRow :=
  ⟨userId, data, now, existing.elim now (·.createdAt)⟩

def writeL1 (s : SqliteStorage) (now userId : String) (data : Bytes) : SqliteStorage :=
  { s with l1Hot := s.l1Hot.put (l1Upserted (s.l1Hot.lookup userId) now userId data) trivial }

/-- A row that a member row refers to stays. -/
def deleteL1 (s : SqliteStorage) (userId : String) : Except StorageError (Bool × SqliteStorage) :=
  if (s.l1Hot.lookup userId).isSome ∧ s.groupMembers.rows.any (fun m => m.entityId = userId) then
    .error (.sqlite "FOREIGN KEY constraint failed")
  else .ok ((s.l1Hot.lookup userId).isSome, { s with l1Hot := s.l1Hot.erase userId })

def listL1Users (s : SqliteStorage) : List String :=
  (s.l1Hot.rows.map L1HotRow.userId).insertionSort (· ≤ ·)

structure GroupStats where
  groupId : String
  itemCount : ℕ
  dataBytes : ℕ
  memberCount : ℕ
deriving DecidableEq, Repr

structure StorageStats where
  l2ItemCount : ℕ
  l2DataBytes : ℕ
  groupCount : ℕ
  groups : List GroupStats
deriving DecidableEq, Repr

def dataBytes (rows : List L2ItemRow) : ℕ := rows.foldl (fun n r => n + r.data.length) 0

/-- The two left joins, with nothing for a group that has no rows there. -/
def groupStats (s : SqliteStorage) (groupId : String) : GroupStats where
  groupId := groupId
  itemCount := (s.groupItems groupId).length
  dataBytes := dataBytes (s.groupItems groupId)
  memberCount := s.groupMembers.rows.countP (fun m => m.groupId = groupId)

def storageStats (s : SqliteStorage) : StorageStats where
  l2ItemCount := s.l2Items.rows.length
  l2DataBytes := dataBytes s.l2Items.rows
  groupCount := s.groups.rows.length
  groups := ((s.groups.rows.map GroupRow.id).insertionSort (· ≤ ·)).map s.groupStats

end CordeliaCore.StorageSqlite.SqliteStorage

namespace CordeliaCore.ApiRouter
open CryptoPrimitives ProtocolMessages StorageRows StorageSqlite SqliteStorage StorageDevices Api
open FullTextSearch

/-- `serde_json::from_slice::<serde_json::Value>`. -/
class SerdeJson (J : Type) where
  fromSlice : Bytes → Option J

structure Server where
  app : AppState SqliteStorage
  nodeId : String
  devices : Devices

structure PeerDetail where
  nodeId : String
  addrs : List String
  state : String
  rttMs : Option ℚ
  itemsDelivered : ℕ
  groups : List String
  groupIntersection : List String
  isRelay : Bool
  protocolVersion : ℕ
deriving DecidableEq

structure ReplicationStats where
  itemsPushed : ℕ
  itemsSynced : ℕ
  itemsRejected : ℕ
  itemsDuplicate : ℕ
  pushRetriesExhausted : ℕ
  syncRounds : ℕ
  syncRoundsWithDiff : ℕ
  syncErrors : ℕ
  writeBufferDepth : ℕ
  pendingPushCount : ℕ
deriving DecidableEq, Repr

/-- The clocks, and what the callbacks into the node return where they are set. -/
structure Readings where
  now : String
  uptimeSecs : ℕ
  peerCounts : Option (ℕ × ℕ)
  peerList : Option (List PeerDetail)
  replicationStats : Option ReplicationStats

structure DeviceRegisterRequest where
  deviceId : String
  entityId : String
  deviceName : Option String
  deviceType : String
  authTokenHash : String
deriving DecidableEq, Repr

inductive Request where
  | l1Read (userId : String)
  | l1Write (userId : String) (data : Bytes)
  | l1Delete (userId : String)
  | l1List
  | l2Read (itemId : String)
  | l2Write (req : L2WriteRequest)
  | l2Delete (itemId : String)
  | l2Search (req : L2SearchRequest)
  | groupsCreate (req : GroupCreateRequest)
  | groupsList
  | groupsRead (groupId : String)
  | groupsItems (groupId : String) (since : Option String) (limit : UInt32)
  | groupsDelete (groupId : String)
  | groupsAddMember (req : GroupAddMemberRequest)
  | groupsRemoveMember (req : GroupRemoveMemberRequest)
  | groupsUpdatePosture (req : GroupUpdatePostureRequest)
  | devicesRegister (req : DeviceRegisterRequest)
  | devicesList (entityId : String)
  | devicesRevoke (entityId deviceId : String)
  | status
  | peers
  | diagnostics
deriving DecidableEq

structure L2MetaResponse where
  ownerId : Option String
  visibility : String
  groupId : Option String
  authorId : Option String
  keyVersion : Int32
  checksum : Option String
  parentId : Option String
  isCopy : Bool
deriving DecidableEq

structure DeviceView where
  deviceId : String
  entityId : String
  deviceName : Option String
  deviceType : String
  createdAt : String
  lastSeenAt : Option String
  revokedAt : Option String
deriving DecidableEq, Repr

inductive Response (J : Type) where
  | plain (answer : ApiResponse)
  | value (data : J)
  /-- The bytes in base64. -/
  | encoded (data : Bytes)
  | users (ids : List String)
  | item (data : Option J) (itemType : String) (itemMeta : L2MetaResponse)
  | results (ids : List String)
  | groups (rows : List GroupRow)
  | group (row : GroupRow) (members : List GroupMemberRow)
  | items (headers : List ItemHeader)
  | devices (rows : List DeviceView)
  | status (nodeId entityId : String) (uptimeSecs warm hot : ℕ) (groups : List String)
  | peers (warm hot total : ℕ) (peers : List PeerDetail)
  | diagnostics (nodeId entityId : String) (uptimeSecs warm hot : ℕ) (groups : List String)
      (replication : Option ReplicationStats) (mempool : StorageStats)

section Handlers
variable [Sha256] {J : Type} [SerdeJson J] (s : Server) (authorization : Option String)

def l1Read (userId : String) : Response J × Server :=
  match checkAuth s.app authorization with
  | some refused => (.plain refused, s)
  | none =>
    match s.app.storage.readL1 userId with
    | some data =>
      match SerdeJson.fromSlice data with
      | some val => (.value val, s)
      | none => (.encoded data, s)
    | none => (.plain (.error 404 "not found"), s)

def withStorage (s : Server) (storage : SqliteStorage) : Server :=
  { s with app := { s.app with storage := storage } }

def l1Write (now userId : String) (data : Bytes) : Response J × Server :=
  match checkAuth s.app authorization with
  | some refused => (.plain refused, s)
  | none => (.plain .ok, withStorage s (s.app.storage.writeL1 now userId data))

def l1Delete (userId : String) : Response J × Server :=
  match checkAuth s.app authorization with
  | some refused => (.plain refused, s)
  | none =>
    match s.app.storage.deleteL1 userId with
    | .ok (true, deleted) => (.plain .ok, withStorage s deleted)
    | .ok (false, same) => (.plain (.error 404 "not found"), withStorage s same)
    | .error e => (.plain (.error 500 e.text), s)

def l1List : Response J × Server :=
  match checkAuth s.app authorization with
  | some refused => (.plain refused, s)
  | none => (.users s.app.storage.listL1Users, s)

def l2MetaResponse (row : L2ItemRow) : L2MetaResponse :=
  ⟨row.ownerId, row.visibility, row.groupId, row.authorId, row.keyVersion, row.checksum,
    row.parentId, row.isCopy⟩

def l2Read (itemId : String) : Response J × Server :=
  match checkAuth s.app authorization with
  | some refused => (.plain refused, s)
  | none =>
    match Storage.readL2Item s.app.storage itemId with
    | .ok (some row) =>
      (.item (SerdeJson.fromSlice row.data) row.itemType (l2MetaResponse row), s)
    | .ok none => (.plain (.error 404 "not found"), s)
    | .error e => (.plain (.error 500 e.text), s)

def onApp (result : ApiResponse × AppState SqliteStorage) : Response J × Server :=
  (.plain result.1, { s with app := result.2 })

/-- What the index holds is a matter of what is stored. -/
def l2SearchWith (index : SqliteStorage → FtsIndex) (req : L2SearchRequest) :
    Response J × Server :=
  match l2Search s.app (index s.app.storage) authorization req with
  | .ok ids => (.results ids, s)
  | .error refused => (.plain refused, s)

def groupsList : Response J × Server :=
  match checkAuth s.app authorization with
  | some refused => (.plain refused, s)
  | none =>
    match Storage.listGroups s.app.storage with
    | .ok groups => (.groups (groups.filter (fun g => g.culture ≠ groupTombstoneCulture)), s)
    | .error e => (.plain (.error 500 e.text), s)

def groupsRead (groupId : String) : Response J × Server :=
  match checkAuth s.app authorization with
  | some refused => (.plain refused, s)
  | none =>
    match Storage.readGroup s.app.storage groupId with
    | .ok (some group) =>
      if group.culture = groupTombstoneCulture then (.plain (.error 404 "group not found"), s)
      else
        let members := (Storage.listMembers s.app.storage groupId).toOption.getD []
        (.group group members, s)
    | .ok none => (.plain (.error 404 "group not found"), s)
    | .error e => (.plain (.error 500 e.text), s)

def groupsItems (groupId : String) (since : Option String) (limit : UInt32) :
    Response J × Server :=
  match checkAuth s.app authorization with
  | some refused => (.plain refused, s)
  | none =>
    match Storage.listGroupItems s.app.storage groupId since limit.toNat with
    | .ok items => (.items items, s)
    | .error e => (.plain (.error 500 e.text), s)

def deviceOf (req : DeviceRegisterRequest) : DeviceRow :=
  ⟨req.deviceId, req.entityId, req.deviceName, req.deviceType, req.authTokenHash, "", none, none⟩

def registerLog (req : DeviceRegisterRequest) : AccessLogEntry :=
  ⟨req.entityId, "register_device", "device", some req.deviceId, none, req.deviceName⟩

def revokeLog (entityId deviceId : String) : AccessLogEntry :=
  ⟨entityId, "revoke_device", "device", some deviceId, none, none⟩

def logged (now : String) (entry : AccessLogEntry) (s : Server) : Server :=
  withStorage s ((Storage.logAccess s.app.storage now entry).toOption.getD s.app.storage)

def devicesRegister (now : String) (req : DeviceRegisterRequest) : Response J × Server :=
  match checkAuth s.app authorization with
  | some refused => (.plain refused, s)
  | none =>
    if req.deviceType ∉ ["node", "browser", "mobile"] then
      (.plain (.error 400 "invalid device_type: must be node, browser, or mobile"), s)
    else
      match registerDevice s.devices now (deviceOf req) with
      | .ok devices => (.plain .ok, logged now (registerLog req) { s with devices := devices })
      | .error e => (.plain (.error 500 e.text), s)

def deviceView (d : DeviceRow) : DeviceView :=
  ⟨d.deviceId, d.entityId, d.deviceName, d.deviceType, d.createdAt, d.lastSeenAt, d.revokedAt⟩

def devicesList (entityId : String) : Response J × Server :=
  match checkAuth s.app authorization with
  | some refused => (.plain refused, s)
  | none => (.devices ((listDevices s.devices entityId).map deviceView), s)

def devicesRevoke (now entityId deviceId : String) : Response J × Server :=
  match checkAuth s.app authorization with
  | some refused => (.plain refused, s)
  | none =>
    match revokeDevice s.devices now entityId deviceId with
    | (true, devices) =>
      (.plain .ok, logged now (revokeLog entityId deviceId) { s with devices := devices })
    | (false, devices) =>
      (.plain (.error 404 "device not found or already revoked"), { s with devices := devices })

def status (r : Readings) : Response J × Server :=
  match checkAuth s.app authorization with
  | some refused => (.plain refused, s)
  | none =>
    let counts := r.peerCounts.getD (0, 0)
    (.status s.nodeId s.app.entityId r.uptimeSecs counts.1 counts.2 (s.app.sharedGroups.getD []), s)

def peers (r : Readings) : Response J × Server :=
  match checkAuth s.app authorization with
  | some refused => (.plain refused, s)
  | none =>
    let counts := r.peerCounts.getD (0, 0)
    (.peers counts.1 counts.2 (counts.1 + counts.2) (r.peerList.getD []), s)

def diagnostics (r : Readings) : Response J × Server :=
  match checkAuth s.app authorization with
  | some refused => (.plain refused, s)
  | none =>
    let counts := r.peerCounts.getD (0, 0)
    (.diagnostics s.nodeId s.app.entityId r.uptimeSecs counts.1 counts.2
      (s.app.sharedGroups.getD []) r.replicationStats s.app.storage.storageStats, s)

end Handlers

structure Call where
  readings : Readings
  authorization : Option String
  request : Request

section Router
variable [Sha256] {J : Type} [SerdeJson J] (index : SqliteStorage → FtsIndex)

def router (s : Server) (call : Call) : Response J × Server :=
  let auth := call.authorization
  let now := call.readings.now
  match call.request with
  | .l1Read userId => l1Read s auth userId
  | .l1Write userId data => l1Write s auth now userId data
  | .l1Delete userId => l1Delete s auth userId
  | .l1List => l1List s auth
  | .l2Read itemId => l2Read s auth itemId
  | .l2Write req => onApp s (l2Write s.app auth now req)
  | .l2Delete itemId => onApp s (l2Delete s.app auth itemId)
  | .l2Search req => l2SearchWith s auth index req
  | .groupsCreate req => onApp s (groupsCreate s.app auth now req)
  | .groupsList => groupsList s auth
  | .groupsRead groupId => groupsRead s auth groupId
  | .groupsItems groupId since limit => groupsItems s auth groupId since limit
  | .groupsDelete groupId => onApp s (groupsDelete s.app auth now groupId)
  | .groupsAddMember req => onApp s (groupsAddMember s.app auth now req)
  | .groupsRemoveMember req => onApp s (groupsRemoveMember s.app auth now req)
  | .groupsUpdatePosture req => onApp s (groupsUpdatePosture s.app auth now req)
  | .devicesRegister req => devicesRegister s auth now req
  | .devicesList entityId => devicesList s auth entityId
  | .devicesRevoke entityId deviceId => devicesRevoke s auth now entityId deviceId
  | .status => status s auth call.readings
  | .peers => peers s auth call.readings
  | .diagnostics => diagnostics s auth call.readings

end Router
end CordeliaCore.ApiRouter
