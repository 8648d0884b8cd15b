import CordeliaCore.CryptoPrimitives

set_option autoImplicit false

/-!
# Wire messages and era parameters

The messages of `cordelia-protocol`. Counters and limits that no modelled
function adds to are natural numbers; `key_version` keeps its 32 bits, because
storage casts it to a signed column and back.
-/
namespace CordeliaCore.ProtocolMessages
open CryptoPrimitives

structure ProtocolEra where
  maxMessageBytes : ℕ
  maxItemBytes : ℕ
  maxBatchSize : ℕ
  eagerPushIntervalSecs : ℕ
  syncIntervalTaciturnSecs : ℕ
  tombstoneRetentionDays : ℕ
  pushRetryBackoffs : List ℕ
  pushRetryCount : ℕ

def era0 : ProtocolEra where
  maxMessageBytes := 512 * 1024
  maxItemBytes := 16 * 1024
  maxBatchSize := 100
  eagerPushIntervalSecs := 60
  syncIntervalTaciturnSecs := 900
  tombstoneRetentionDays := 7
  pushRetryBackoffs := [5, 15, 60, 300]
  pushRetryCount := 4

def maxItemBytes : ℕ := era0.maxItemBytes

structure EraTiming where
  deadTimeoutSecs : ℕ
  staleTimeoutSecs : ℕ
  banBaseDurationSecs : ℕ
  reconnectBackoffBaseSecs : ℕ
  reconnectBackoffMaxSecs : ℕ
  backoffSaturationCount : UInt32

def era0Timing : EraTiming where
  deadTimeoutSecs := 90
  staleTimeoutSecs := 6 * 3600
  banBaseDurationSecs := 3600
  reconnectBackoffBaseSecs := 30
  reconnectBackoffMaxSecs := 15 * 60
  backoffSaturationCount := 5

def groupExchangeTicks : ℕ := 6

/-- A peer as a relay shares it; `peer_id` and `addrs` are text to be parsed. -/
structure PeerAddress where
  peerId : String
  addrs : List String
  lastSeen : ℕ
  groups : List String
  role : String
deriving DecidableEq, Repr

/-- Durations and instants are in nanoseconds. -/
def fromSecs (secs : ℕ) : ℕ := 1000000000 * secs

structure ItemHeader where
  itemId : String
  itemType : String
  checksum : String
  updatedAt : String
  authorId : String
  isDeletion : Bool
deriving DecidableEq, Repr

structure SyncRequest where
  groupId : String
  since : Option String
  limit : ℕ
deriving DecidableEq, Repr

structure SyncResponse where
  items : List ItemHeader
  hasMore : Bool
deriving DecidableEq, Repr

structure FetchRequest where
  itemIds : List String
deriving DecidableEq, Repr

structure FetchedItem where
  itemId : String
  itemType : String
  encryptedBlob : Bytes
  checksum : String
  authorId : String
  groupId : String
  keyVersion : UInt32
  parentId : Option String
  isCopy : Bool
  updatedAt : String
deriving DecidableEq, Repr

structure FetchResponse where
  items : List FetchedItem
deriving DecidableEq, Repr

structure MemoryPushRequest where
  items : List FetchedItem
deriving DecidableEq, Repr

structure PushAck where
  stored : ℕ
  rejected : ℕ
deriving DecidableEq, Repr

/-- The item type by which a deletion travels. -/
def tombstoneType : String := "__tombstone__"

structure GroupDescriptor where
  id : String
  culture : String
  updatedAt : String
  checksum : String
  ownerId : Option String
  ownerPubkey : Option String
  signature : Option String
deriving DecidableEq, Repr

def groupTombstoneCulture : String := "__deleted__"

namespace GroupDescriptor

def isTombstone (desc : GroupDescriptor) : Bool := desc.culture == groupTombstoneCulture

def computeChecksum [Sha256] (id culture : String) : String :=
  hexEncode (Sha256.digest (asBytes (id ++ "\n" ++ culture)))

def verifyChecksum [Sha256] (desc : GroupDescriptor) : Bool :=
  desc.checksum == computeChecksum desc.id desc.culture

def signingPayload (desc : GroupDescriptor) : Bytes :=
  asBytes (desc.id ++ "\n" ++ desc.culture ++ "\n" ++ desc.updatedAt)

end GroupDescriptor
end CordeliaCore.ProtocolMessages
