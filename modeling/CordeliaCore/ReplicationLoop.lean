import CordeliaCore.ApiHandlers
import CordeliaCore.ReplicationAntiEntropy
import Mathlib.Logic.Function.Basic

set_option autoImplicit false

/-!
# The replication task

`run_replication_loop` as a state machine: one event is one branch of its
`select!`, and what a branch reads from outside comes with the event. Instants
are nanoseconds. A drained map is read in the order its groups were first
buffered in, which the source leaves open.
-/
namespace CordeliaCore.ReplicationLoop
open CryptoPrimitives ProtocolMessages StorageRows Replication ReplicationEngine Api

/-- `serde_json::from_str::<GroupCulture>`. -/
class CultureJson where
  fromStr : String → Option GroupCulture

@[reducible] def bareCultures : CultureJson := ⟨fun _ => none⟩

structure PendingPush where
  items : List FetchedItem
  groupId : String
  attempt : ℕ
  nextAt : ℕ
deriving DecidableEq

structure LoopConfig where
  engine : ReplicationEngine
  isRelay : Bool
  relayBlockedGroups : List String

structure LoopState (σ : Type) where
  storage : σ
  pendingPushes : List PendingPush
  nextSyncAt : String → Option ℕ
  lastSyncAt : String → Option String
  syncCycleCount : String → Option ℕ
  writeBuffer : List (String × List FetchedItem)

structure Surroundings where
  instant : ℕ
  utcNow : String
  dbNow : String
  daysAgo : ℕ → String × String
  activePeersForGroupOrRelays : String → List String
  randomHotPeer : String → Option Peer
  sharedGroups : List String
  relayLearnedGroups : Option (List String)

inductive LoopEvent where
  | write (notif : WriteNotification)
  | lagged (missed : ℕ)
  | flushTick
  | retryTick
  | syncBaseTick
  | bootstrap (groupId : String)
  | gcTick

structure SendMemoryPush where
  peer : String
  request : MemoryPushRequest
deriving DecidableEq

def fullSyncEvery : ℕ := 10

/-- The delay before the next attempt; the source indexes the table. -/
def retryBackoff (attempt : ℕ) : ℕ := fromSecs (era0.pushRetryBackoffs.getD attempt 0)

def LoopState.start {σ : Type} (storage : σ) : LoopState σ :=
  ⟨storage, [], fun _ => none, fun _ => none, fun _ => none, []⟩

section Batches

def itemSize (item : FetchedItem) : ℕ := item.encryptedBlob.length + item.itemId.utf8ByteSize + 256

/-- The closed batches, the current one and its estimated size. -/
structure Batching where
  batches : List (List FetchedItem)
  currentBatch : List FetchedItem
  currentSize : ℕ

def Batching.add (acc : Batching) (item : FetchedItem) : Batching :=
  if acc.currentBatch ≠ [] ∧ acc.currentSize + itemSize item > era0.maxMessageBytes then
    ⟨acc.batches ++ [acc.currentBatch], [item], itemSize item⟩
  else ⟨acc.batches, acc.currentBatch ++ [item], acc.currentSize + itemSize item⟩

def splitIntoBatches (items : List FetchedItem) : List (List FetchedItem) :=
  let acc := items.foldl Batching.add ⟨[], [], 0⟩
  if acc.currentBatch = [] then acc.batches else acc.batches ++ [acc.currentBatch]

def sendBatches (peers : List String) (items : List FetchedItem) : List SendMemoryPush :=
  (splitIntoBatches items).flatMap (fun batch => peers.map (fun peer => ⟨peer, ⟨batch⟩⟩))

end Batches

section Pushes

def pushBuffered (buffer : List (String × List FetchedItem)) (groupId : String) (item : FetchedItem) :
    List (String × List FetchedItem) :=
  if buffer.any (fun entry => entry.1 = groupId) then
    buffer.map (fun entry => if entry.1 = groupId then (entry.1, entry.2 ++ [item]) else entry)
  else buffer ++ [(groupId, [item])]

def flushEntry (env : Surroundings) (entry : String × List FetchedItem) :
    List SendMemoryPush × Option PendingPush :=
  if entry.2.isEmpty then ([], none)
  else
    (sendBatches (env.activePeersForGroupOrRelays entry.1) entry.2,
      some ⟨entry.2, entry.1, 0, env.instant + retryBackoff 0⟩)

def retryPush (env : Surroundings) (pending : PendingPush) :
    List SendMemoryPush × Option PendingPush :=
  if env.instant < pending.nextAt then ([], some pending)
  else
    (sendBatches (env.activePeersForGroupOrRelays pending.groupId) pending.items,
      if pending.attempt + 1 ≥ era0.pushRetryCount then none
      else some { pending with
        attempt := pending.attempt + 1
        nextAt := env.instant + retryBackoff (pending.attempt + 1) })

end Pushes

variable {σ : Type} [Storage σ] [Sha256] [CultureJson] (config : LoopConfig) (env : Surroundings)

/-- A culture that is no JSON object counts as a bare eagerness. -/
def loadGroupCulture (storage : σ) (groupId : String) : Option GroupCulture :=
  match Storage.readGroup storage groupId with
  | .ok (some group) => some ((CultureJson.fromStr group.culture).getD ⟨group.culture⟩)
  | .ok none => none
  | .error _ => none

def receiveWrite (s : LoopState σ) (notif : WriteNotification) : LoopState σ :=
  match notif.groupId with
  | none => s
  | some groupId =>
    let culture := (loadGroupCulture s.storage groupId).getD .default
    match onLocalWrite config.engine env.utcNow groupId culture notif.itemId notif.itemType
        notif.data notif.keyVersion notif.parentId notif.isCopy with
    | .broadcastItem groupId item =>
      { s with writeBuffer := pushBuffered s.writeBuffer groupId item }
    | .none => s

def flush (s : LoopState σ) : List SendMemoryPush × LoopState σ :=
  let flushed := s.writeBuffer.map (flushEntry env)
  (flushed.flatMap Prod.fst,
    { s with
      writeBuffer := []
      pendingPushes := s.pendingPushes ++ flushed.filterMap Prod.snd })

def retry (s : LoopState σ) : List SendMemoryPush × LoopState σ :=
  let retried := s.pendingPushes.map (retryPush env)
  (retried.flatMap Prod.fst, { s with pendingPushes := retried.filterMap Prod.snd })

def addMissing (groups more : List String) : List String :=
  more.foldl (fun known g => if known.contains g then known else known ++ [g]) groups

/-- A relay also syncs what it learned from peers and what it stores. -/
def currentGroups (storage : σ) : List String :=
  let groups :=
    if config.isRelay then
      addMissing (addMissing env.sharedGroups (env.relayLearnedGroups.getD []))
        ((Storage.listStoredGroupIds storage).toOption.getD [])
    else env.sharedGroups
  groups.filter (fun g => !config.relayBlockedGroups.contains g)

def relayAcceptSet (groups : List String) : Option (List String) :=
  if config.isRelay then some groups else none

/-- A round whose newest stamp becomes the group's cursor; a failed round keeps it. -/
def syncFrom (s : LoopState σ) (groups : List String) (groupId : String) (since : Option String) :
    LoopState σ :=
  match runAntiEntropy config.engine (env.randomHotPeer groupId) s.storage env.dbNow groupId groups
      since (relayAcceptSet config groups) with
  | (.ok latestTs, storage) =>
    { s with
      storage := storage
      lastSyncAt := Function.update s.lastSyncAt groupId (latestTs.or (s.lastSyncAt groupId)) }
  | (.error _, storage) => { s with storage := storage }

/-- The body of the sync branch for a group that is due. The counter is a `u32`. -/
def cycleGroup (groups : List String) (groupId : String) (s : LoopState σ) : LoopState σ :=
  let culture := (loadGroupCulture s.storage groupId).getD .default
  let cycle := ((s.syncCycleCount groupId).getD 0 + 1) % 2 ^ 32
  let since := if cycle % fullSyncEvery = 0 then none else s.lastSyncAt groupId
  let s := { s with
    nextSyncAt := Function.update s.nextSyncAt groupId
      (some (env.instant + fromSecs (config.engine.syncInterval culture)))
    syncCycleCount := Function.update s.syncCycleCount groupId (some cycle) }
  syncFrom config env s groups groupId since

def syncGroup (groups : List String) (s : LoopState σ) (groupId : String) : LoopState σ :=
  if (s.nextSyncAt groupId).any (fun deadline => env.instant < deadline) then s
  else cycleGroup config env groups groupId s

def syncAll (s : LoopState σ) : LoopState σ :=
  let groups := currentGroups config env s.storage
  groups.foldl (syncGroup config env groups) s

/-- A new group starts over, with the shared groups as they are. -/
def bootstrapGroup (s : LoopState σ) (groupId : String) : LoopState σ :=
  let s := { s with
    nextSyncAt := Function.update s.nextSyncAt groupId none
    lastSyncAt := Function.update s.lastSyncAt groupId none
    syncCycleCount := Function.update s.syncCycleCount groupId none }
  syncFrom config env s env.sharedGroups groupId none

def collectGarbage (s : LoopState σ) : LoopState σ :=
  let cutoffs := env.daysAgo config.engine.config.tombstoneRetentionDays
  { s with
    storage := (Storage.purgeDeletedGroups s.storage cutoffs.1 cutoffs.2 groupTombstoneCulture).2 }

def step (s : LoopState σ) : LoopEvent → List SendMemoryPush × LoopState σ
  | .write notif => ([], receiveWrite config env s notif)
  | .lagged _ => ([], s)
  | .flushTick => flush env s
  | .retryTick => retry env s
  | .syncBaseTick => ([], syncAll config env s)
  | .bootstrap groupId => ([], bootstrapGroup config env s groupId)
  | .gcTick => ([], collectGarbage config env s)

end CordeliaCore.ReplicationLoop
