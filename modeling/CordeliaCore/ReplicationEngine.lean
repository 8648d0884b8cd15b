import CordeliaCore.StorageRows

set_option autoImplicit false

namespace CordeliaCore.Replication
open CryptoPrimitives ProtocolMessages StorageRows

inductive ReplicationStrategy where
  | eagerPush
  | passive
deriving DecidableEq, Repr

def ReplicationStrategy.syncIntervalSecs (taciturnSecs : ℕ) : ReplicationStrategy → Option ℕ
  | .eagerPush => some era0.eagerPushIntervalSecs
  | .passive => some taciturnSecs

structure ReplicationConfig where
  syncIntervalTaciturnSecs : ℕ
  tombstoneRetentionDays : ℕ
  maxBatchSize : ℕ
deriving DecidableEq, Repr

def ReplicationConfig.default : ReplicationConfig :=
  ⟨era0.syncIntervalTaciturnSecs, era0.tombstoneRetentionDays, era0.maxBatchSize⟩

structure GroupCulture where
  broadcastEagerness : String
deriving DecidableEq, Repr

def GroupCulture.default : GroupCulture := ⟨"chatty"⟩

def GroupCulture.strategy (culture : GroupCulture) : ReplicationStrategy :=
  if culture.broadcastEagerness = "chatty" ∨ culture.broadcastEagerness = "moderate" then .eagerPush
  else if culture.broadcastEagerness = "taciturn" then .passive
  else .eagerPush

inductive ReceiveOutcome where
  | stored
  | duplicate
  | rejected (reason : String)
deriving DecidableEq, Repr

def checksum [Sha256] (data : Bytes) : String := hexEncode (Sha256.digest data)

def validateChecksum [Sha256] (item : FetchedItem) : Bool :=
  checksum item.encryptedBlob == item.checksum

/-- The map `diff_headers` collects: of several headers with one id the last stays. -/
def localMap (headers : List ItemHeader) (id : String) : Option String :=
  (headers.reverse.find? (fun h => h.itemId = id)).map ItemHeader.checksum

def diffHeaders (localHeaders remote : List ItemHeader) : List String :=
  (remote.filter (fun r =>
    match localMap localHeaders r.itemId with
    | none => true
    | some localChecksum => localChecksum ≠ r.checksum)).map ItemHeader.itemId

structure ReplicationEngine where
  config : ReplicationConfig
  entityId : String
deriving DecidableEq, Repr

inductive OutboundAction where
  | broadcastItem (groupId : String) (item : FetchedItem)
  | none
deriving DecidableEq, Repr

/-- The write of a received item: the sender's stamp is kept. -/
def receivedWrite (item : FetchedItem) : L2ItemWrite where
  id := item.itemId
  itemType := item.itemType
  data := item.encryptedBlob
  ownerId := none
  visibility := "group"
  groupId := some item.groupId
  authorId := some item.authorId
  keyVersion := item.keyVersion.toInt32
  parentId := item.parentId
  isCopy := item.isCopy
  updatedAt := some item.updatedAt

def receiveLog (item : FetchedItem) : AccessLogEntry where
  entityId := item.authorId
  action := "replicate_receive"
  resourceType := "l2_item"
  resourceId := some item.itemId
  groupId := some item.groupId
  detail := none

/-- A relay decides by its predicate, any other node by membership. -/
def groupAccepted (ourGroups : List String) (relayAccepts : Option (String → Bool))
    (groupId : String) : Bool :=
  match relayAccepts with
  | some relayCheck => relayCheck groupId
  | none => ourGroups.contains groupId

namespace ReplicationEngine

/-- `now` is `chrono::Utc::now().to_rfc3339()`. -/
def onLocalWrite [Sha256] (engine : ReplicationEngine) (now : String) (groupId : String)
    (culture : GroupCulture) (itemId itemType : String) (data : Bytes) (keyVersion : UInt32)
    (parentId : Option String) (isCopy : Bool) : OutboundAction :=
  if data.length > maxItemBytes then .none
  else
    match culture.strategy with
    | .eagerPush => .broadcastItem groupId
        { itemId := itemId, itemType := itemType, encryptedBlob := data, checksum := checksum data,
          authorId := engine.entityId, groupId := groupId, keyVersion := keyVersion,
          parentId := parentId, isCopy := isCopy, updatedAt := now }
    | .passive => .none

def syncInterval (engine : ReplicationEngine) (culture : GroupCulture) : ℕ :=
  (culture.strategy.syncIntervalSecs engine.config.syncIntervalTaciturnSecs).getD
    era0.eagerPushIntervalSecs

variable {σ : Type} [Storage σ]

/-- Steps 6 and 7 of `on_receive`. A failed log entry is ignored. -/
def storeItem (storage : σ) (now : String) (item : FetchedItem) : ReceiveOutcome × σ :=
  match Storage.writeL2Item storage now (receivedWrite item) with
  | .error e => (.rejected ("storage error: " ++ e.text), storage)
  | .ok written =>
    match Storage.logAccess written now (receiveLog item) with
    | .error _ => (.stored, written)
    | .ok logged => (.stored, logged)

def applyTombstone (storage : σ) (item : FetchedItem) : ReceiveOutcome × σ :=
  match Storage.deleteL2Item storage item.itemId with
  | .ok (true, deleted) => (.stored, deleted)
  | .ok (false, deleted) => (.duplicate, deleted)
  | .error e => (.rejected ("tombstone delete failed: " ++ e.text), storage)

def onReceive [Sha256] (storage : σ) (now : String) (item : FetchedItem) (ourGroups : List String)
    (relayAccepts : Option (String → Bool)) : ReceiveOutcome × σ :=
  if item.encryptedBlob.length > maxItemBytes then
    (.rejected ("Not My Problem, Entirely Yours: item " ++ toString item.encryptedBlob.length ++
      " bytes exceeds " ++ toString maxItemBytes ++ " byte limit -- condense your thoughts"), storage)
  else if !groupAccepted ourGroups relayAccepts item.groupId then
    (.rejected ("Outside Context Problem: not a member of group '" ++ item.groupId ++ "'"), storage)
  else if item.itemType = tombstoneType then applyTombstone storage item
  else if !validateChecksum item then
    (.rejected "integrity violation: checksum mismatch -- item corrupted or tampered", storage)
  else
    match Storage.readL2Item storage item.itemId with
    | .ok (some existing) =>
      if existing.checksum = some item.checksum then (.duplicate, storage)
      -- the local version is newer or equal
      else if existing.updatedAt ≥ item.updatedAt then (.duplicate, storage)
      else storeItem storage now item
    | _ => storeItem storage now item

end ReplicationEngine
end CordeliaCore.Replication
