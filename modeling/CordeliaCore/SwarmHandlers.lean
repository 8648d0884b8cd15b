import CordeliaCore.ReplicationEngine

set_option autoImplicit false

namespace CordeliaCore.Swarm
open CryptoPrimitives ProtocolMessages StorageRows Replication ReplicationEngine

variable {σ : Type} [Storage σ]

/-- A failed listing counts as an empty one. -/
def handleSyncRequest (storage : σ) (req : SyncRequest) : SyncResponse :=
  let items := (Storage.listGroupItems storage req.groupId req.since req.limit).toOption.getD []
  { items := items, hasMore := items.length == req.limit }

def fetchedItem (row : L2ItemRow) : FetchedItem where
  itemId := row.id
  itemType := row.itemType
  encryptedBlob := row.data
  checksum := row.checksum.getD ""
  authorId := row.authorId.getD ""
  groupId := row.groupId.getD ""
  keyVersion := row.keyVersion.toUInt32
  parentId := row.parentId
  isCopy := row.isCopy
  updatedAt := row.updatedAt

def handleFetchRequest (storage : σ) (req : FetchRequest) : FetchResponse where
  items := req.itemIds.filterMap (fun id =>
    (Storage.readL2Item storage id).toOption.join.map fetchedItem)

def pushItem [Sha256] (now : String) (ourGroups : List String)
    (relayAccepts : Option (String → Bool)) (acc : PushAck × σ) (item : FetchedItem) :
    PushAck × σ :=
  match onReceive acc.2 now item ourGroups relayAccepts with
  | (.stored, storage) => (⟨acc.1.stored + 1, acc.1.rejected⟩, storage)
  | (.duplicate, storage) => (acc.1, storage)
  | (.rejected _, storage) => (⟨acc.1.stored, acc.1.rejected + 1⟩, storage)

/-- The items of one push share a clock reading. -/
def handlePushRequest [Sha256] (storage : σ) (now : String) (req : MemoryPushRequest)
    (ourGroups : List String) (relayAccepts : Option (String → Bool)) : PushAck × σ :=
  req.items.foldl (pushItem now ourGroups relayAccepts) (⟨0, 0⟩, storage)

inductive RelayPosture where
  | transparent
  | dynamic
  | explicit
deriving DecidableEq, Repr

def relayCheck (posture : RelayPosture) (accepted : Option (List String)) (blocked : List String)
    (gid : String) : Bool :=
  if blocked.contains gid then false
  else if posture = .transparent then true
  else accepted.any (·.contains gid)

/-- What the push branch of the swarm loop reads. A node without a posture is
    no relay. -/
structure PushContext where
  sharedGroups : List String
  relayPosture : Option RelayPosture
  relayAcceptedGroups : Option (List String)
  lockHeld : Bool
  relayBlockedGroups : List String
  activePeers : List String

/-- A set whose lock is held reads as empty, and a transparent relay has none. -/
def PushContext.acceptedSnap (ctx : PushContext) : Option (List String) :=
  match ctx.relayPosture with
  | some .dynamic | some .explicit =>
    ctx.relayAcceptedGroups.map (fun groups => if ctx.lockHeld then [] else groups)
  | _ => none

def PushContext.relayAccepts (ctx : PushContext) : Option (String → Bool) :=
  ctx.relayPosture.map (fun posture => relayCheck posture ctx.acceptedSnap ctx.relayBlockedGroups)

structure PushReply (σ : Type) where
  ack : PushAck
  forwarded : List (String × MemoryPushRequest)
  storage : σ

/-- A relay that stored something sends the request on to its other peers. -/
def receivePush [Sha256] (ctx : PushContext) (storage : σ) (now peer : String)
    (request : MemoryPushRequest) : PushReply σ :=
  let (ack, stored) := handlePushRequest storage now request ctx.sharedGroups ctx.relayAccepts
  let forwardPeers := ctx.activePeers.filter (fun p => p ≠ peer)
  { ack := ack
    forwarded :=
      if ctx.relayPosture.isSome ∧ ack.stored > 0 then
        forwardPeers.map (fun relayPeer => (relayPeer, ⟨request.items⟩))
      else []
    storage := stored }

end CordeliaCore.Swarm
