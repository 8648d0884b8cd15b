import CordeliaCore.GroupExchange
import CordeliaCore.LoopEffect

set_option autoImplicit false

/-!
# The governor and the replication task of one node

Both tasks work on one peer pool. The replication task asks it for the peers of
a group before it pushes or syncs, and counts what it delivers; the governor
task and its exchanges keep the pool up to date in between. The API and the
swarm task change the store that the replication task reads cultures from.
-/
namespace CordeliaCore.PeerPool
open KeyedTable PeerGovernor

section Queries
variable (pool : Pool)

def hotPeersForGroup (groupId : GroupId) : List PeerHandle :=
  pool.rows.filter (fun h => h.state = .hot && h.groupIntersection.contains groupId)

def activePeersForGroup (groupId : GroupId) : List PeerHandle :=
  pool.rows.filter (fun h => h.state.isActive && h.groupIntersection.contains groupId)

def activePeersForGroupOrRelays (groupId : GroupId) : List PeerHandle :=
  pool.rows.filter (fun h => h.state.isActive && (h.isRelay || h.groupIntersection.contains groupId))

def drawn (draw : ℕ) (peers : List PeerHandle) : Option PeerHandle := peers[draw % peers.length]?

def randomHotPeerForGroup (draw : ℕ) (groupId : GroupId) : Option PeerHandle :=
  let hot := hotPeersForGroup pool groupId
  drawn draw (if hot.isEmpty then activePeersForGroup pool groupId else hot)

/-- Peers that share the group come before relays, and hot ones before warm ones. -/
def randomHotPeerForGroupOrRelays (draw : ℕ) (groupId : GroupId) : Option PeerHandle :=
  let hot := pool.rows.filter (fun h => h.state = .hot && h.groupIntersection.contains groupId)
  let active := pool.rows.filter (fun h => h.state.isActive && h.groupIntersection.contains groupId)
  let hotRelays := pool.rows.filter (fun h => h.state = .hot && h.isRelay)
  let activeRelays := pool.rows.filter (fun h => h.state.isActive && h.isRelay)
  drawn draw
    (if !hot.isEmpty then hot
    else if !active.isEmpty then active
    else if !hotRelays.isEmpty then hotRelays
    else activeRelays)

def recordItemsDelivered (nodeId : NodeId) (count : ℕ) : Pool :=
  pool.modify
    (changing (fun h => { h with itemsDelivered := h.itemsDelivered + UInt64.ofNat count })
      (fun _ => rfl))
    nodeId

end Queries
end CordeliaCore.PeerPool

namespace CordeliaCore.NodeTasks
open CryptoPrimitives ProtocolMessages StorageRows Replication ReplicationEngine Api
open KeyedTable PeerGovernor PeerPool GovernorLoop ReplicationLoop

structure Tasks (σ : Type) where
  node : Node
  replication : LoopState σ

/-- What an iteration of the replication task reads besides the shared state:
    the clocks, the die and whatever a peer answers to it. -/
structure Readings where
  instant : ℕ
  utcNow : String
  dbNow : String
  daysAgo : ℕ → String × String
  draw : GroupId → ℕ
  answers : GroupId → NodeId → Peer

inductive TaskEvent (σ : Type) where
  | governor (event : NodeEvent)
  | replication (readings : Readings) (event : ReplicationLoop.LoopEvent)
  /-- Another task leaves the store like this. -/
  | elsewhere (storage : σ)

section Steps
variable {σ : Type} [Storage σ] [Sha256] [CultureJson] {α : Type} [LinearOrder α] [Libp2p]
variable (floats : Floats α) (config : LoopConfig)

def syncPartner (pool : Pool) (draw : ℕ) (groupId : GroupId) : Option PeerHandle :=
  if config.isRelay then randomHotPeerForGroupOrRelays pool draw groupId
  else randomHotPeerForGroup pool draw groupId

def surroundings (node : Node) (readings : Readings) : Surroundings where
  instant := readings.instant
  utcNow := readings.utcNow
  dbNow := readings.dbNow
  daysAgo := readings.daysAgo
  activePeersForGroupOrRelays groupId :=
    (activePeersForGroupOrRelays node.task.pool groupId).map PeerHandle.nodeId
  randomHotPeer groupId :=
    (syncPartner config node.task.pool (readings.draw groupId) groupId).map
      (fun h => readings.answers groupId h.nodeId)
  sharedGroups := node.sets.ourGroups
  relayLearnedGroups := node.sets.relayLearnedGroups

def countDelivered (pool : Pool) (push : SendMemoryPush) : Pool :=
  recordItemsDelivered pool push.peer push.request.items.length

def sent (t : Tasks σ) : TaskEvent σ → List SendMemoryPush
  | .replication readings event =>
    (ReplicationLoop.step config (surroundings config t.node readings) t.replication event).1
  | _ => []

def step (t : Tasks σ) : TaskEvent σ → Tasks σ
  | .governor event => { t with node := nodeStep floats t.node event }
  | .replication readings event =>
    let stepped :=
      ReplicationLoop.step config (surroundings config t.node readings) t.replication event
    { node := { t.node with
        task := { t.node.task with pool := stepped.1.foldl countDelivered t.node.task.pool } }
      replication := stepped.2 }
  | .elsewhere storage => { t with replication := { t.replication with storage := storage } }

end Steps
end CordeliaCore.NodeTasks
