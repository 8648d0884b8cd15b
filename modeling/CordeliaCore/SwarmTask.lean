import CordeliaCore.NodeConfig
import CordeliaCore.PendingCalls
import CordeliaCore.SwarmDescriptors

set_option autoImplicit false

/-!
# The swarm task

`run_swarm_loop` as a state machine: one input is a command of the other tasks or an event of
`libp2p`, with what its branch reads from outside. The four behaviours that are asked for
answers number their requests each on its own, and the task keeps, for each number, the
channel on which the answer is due. Pushes are sent without one.
-/
namespace CordeliaCore.SwarmTask
open CryptoPrimitives ProtocolMessages StorageRows Swarm PeerGovernor PeerPool PendingCalls Config

abbrev Sender := ℕ

structure PeerShareRequest where
  maxPeers : ℕ
deriving DecidableEq, Repr

structure PeerShareResponse where
  peers : List PeerAddress
deriving DecidableEq, Repr

structure GroupExchange where
  groups : List GroupId
  descriptors : Option (List GroupDescriptor)
deriving DecidableEq, Repr

structure GroupExchangeResponse where
  groups : List GroupId
  descriptors : Option (List GroupDescriptor)
deriving DecidableEq, Repr

inductive SwarmCommand where
  | dial (addr : Multiaddr)
  | disconnect (peer : NodeId)
  | sendPeerShareRequest (peer : NodeId) (request : PeerShareRequest) (responseTx : Sender)
  | sendSyncRequest (peer : NodeId) (request : SyncRequest) (responseTx : Sender)
  | sendFetchRequest (peer : NodeId) (request : FetchRequest) (responseTx : Sender)
  | sendMemoryPush (peer : NodeId) (request : MemoryPushRequest)
  | sendGroupExchange (peer : NodeId) (request : GroupExchange) (responseTx : Sender)

inductive SwarmEvent2 where
  | peerConnected (peerId : NodeId) (addrs : List Multiaddr)
  | peerDisconnected (peerId : NodeId)
  | pingRtt (peerId : NodeId) (rttMs : ℚ)
  | identifyReceived (peerId : NodeId) (listenAddrs : List Multiaddr)
  | externalAddrConfirmed (addr : Multiaddr)
  | dialFailure (peerId : Option NodeId)
deriving DecidableEq

inductive Exchange (Request Response : Type) where
  | request (peer : NodeId) (request : Request)
  | response (requestId : ℕ) (response : Response)
  | outboundFailure (requestId : ℕ) (error : String)
  | inboundFailure (error : String)
  | responseSent

inductive BehaviourEvent where
  /-- A ping; one that failed has no time. -/
  | ping (peer : NodeId) (rttMs : Option ℚ)
  | identifyReceived (peer : NodeId) (listenAddrs : List Multiaddr)
  | peerShare (event : Exchange PeerShareRequest PeerShareResponse)
  | memorySync (event : Exchange SyncRequest SyncResponse)
  | memoryFetch (event : Exchange FetchRequest FetchResponse)
  | memoryPush (event : Exchange MemoryPushRequest PushAck)
  | groupExchange (event : Exchange GroupExchange GroupExchangeResponse)
  | other

inductive NetworkEvent where
  | newListenAddr (addr : Multiaddr)
  /-- `numEstablished` counts the connections to the peer, this one with them. -/
  | connectionEstablished (peer : NodeId) (addr : Multiaddr) (numEstablished : ℕ)
  /-- `numEstablished` counts the connections that are left. -/
  | connectionClosed (peer : NodeId) (numEstablished : ℕ)
  | outgoingConnectionError (peer : Option NodeId)
  | externalAddrConfirmed (addr : Multiaddr)
  | behaviour (event : BehaviourEvent)
  | other

inductive Input where
  | command (cmd : SwarmCommand)
  | event (event : NetworkEvent)

inductive Output where
  | dial (addr : Multiaddr)
  | disconnect (peer : NodeId)
  | peerShareRequest (peer : NodeId) (request : PeerShareRequest)
  | syncRequest (peer : NodeId) (request : SyncRequest)
  | fetchRequest (peer : NodeId) (request : FetchRequest)
  | memoryPush (peer : NodeId) (request : MemoryPushRequest)
  | groupExchange (peer : NodeId) (request : GroupExchange)
  | peerShareResponse (response : PeerShareResponse)
  | syncResponse (response : SyncResponse)
  | fetchResponse (response : FetchResponse)
  | pushAck (ack : PushAck)
  | groupExchangeResponse (response : GroupExchangeResponse)
  | event (event : SwarmEvent2)

/-- The channels that wait and what was sent on them, behaviour by behaviour. -/
structure SwarmState (σ : Type) where
  storage : σ
  sharedGroups : List GroupId
  peerShare : Calls Sender (Except String PeerShareResponse)
  memorySync : Calls Sender (Except String SyncResponse)
  memoryFetch : Calls Sender (Except String FetchResponse)
  groupExchange : Calls Sender (Except String GroupExchangeResponse)

def SwarmState.start {σ : Type} (storage : σ) (sharedGroups : List GroupId) : SwarmState σ :=
  ⟨storage, sharedGroups, .start, .start, .start, .start⟩

structure Settings [Ed25519] where
  ourRole : NodeRole
  relayPosture : Option RelayPosture
  relayBlockedGroups : List GroupId
  identity : NodeIdentity
  ourEntityId : String

/-- What one branch reads: the number that `send_request` returns, the database clock, one
    reading for each descriptor it merges, the pool in the order of its map, and the accepted
    groups of a relay behind their lock. -/
structure SwarmEnv where
  requestId : ℕ
  dbNow : String
  readings : ℕ → String
  pool : List PeerHandle
  relayAcceptedGroups : Option (List GroupId)
  lockHeld : Bool

def relayPeers (pool : List PeerHandle) : List PeerHandle :=
  pool.filter (fun h => h.state.isActive && h.isRelay)

def sharedAddress (ourRole : NodeRole) (h : PeerHandle) : PeerAddress where
  peerId := h.nodeId
  addrs := h.addrs
  lastSeen := 0
  groups := h.groups
  role := if h.isRelay then "relay" else ourRole.asStr

/-- Only relays are shared. -/
def handlePeerShare (ourRole : NodeRole) (pool : List PeerHandle) (req : PeerShareRequest) :
    PeerShareResponse :=
  ⟨((relayPeers pool).take req.maxPeers).map (sharedAddress ourRole)⟩

/-- The groups of an exchange: ours, and those a relay accepts unless the set is locked. -/
def groupsSnap (env : SwarmEnv) (sharedGroups : List GroupId) : List GroupId :=
  match env.relayAcceptedGroups with
  | some accepted =>
    if env.lockHeld then sharedGroups
    else accepted.foldl (fun groups g => if groups.contains g then groups else groups ++ [g])
      sharedGroups
  | none => sharedGroups

section Steps
variable {σ : Type} [Storage σ] [Sha256] [Ed25519] (settings : Settings) (env : SwarmEnv)

/-- The descriptors of a message, each with the clock at which it is merged. -/
def mergeExchanged (storage : σ) : Option (List GroupDescriptor) → MergeResult × σ
  | some descs => mergeDescriptors storage (descs.zipIdx.map (fun d => (env.readings d.2, d.1)))
  | none => (⟨[], []⟩, storage)

def handleCommand (s : SwarmState σ) : SwarmCommand → List Output × SwarmState σ
  | .dial addr => ([.dial addr], s)
  | .disconnect peer => ([.disconnect peer], s)
  | .sendPeerShareRequest peer request responseTx =>
    ([.peerShareRequest peer request],
      { s with peerShare := s.peerShare.place env.requestId responseTx })
  | .sendSyncRequest peer request responseTx =>
    ([.syncRequest peer request],
      { s with memorySync := s.memorySync.place env.requestId responseTx })
  | .sendFetchRequest peer request responseTx =>
    ([.fetchRequest peer request],
      { s with memoryFetch := s.memoryFetch.place env.requestId responseTx })
  | .sendMemoryPush peer request => ([.memoryPush peer request], s)
  | .sendGroupExchange peer request responseTx =>
    -- a request without descriptors gets ours, signed on the way where we own the group
    match request.descriptors with
    | some _ =>
      ([.groupExchange peer request],
        { s with groupExchange := s.groupExchange.place env.requestId responseTx })
    | none =>
      let built := buildDescriptors s.storage settings.identity settings.ourEntityId
      ([.groupExchange peer { request with descriptors := built.1 }],
        { s with
          storage := built.2
          groupExchange := s.groupExchange.place env.requestId responseTx })

/-- Requests for peers and pushes are handled before; here they fall through. -/
def handleBehaviourEvent (ourGroups : List GroupId) (s : SwarmState σ) :
    BehaviourEvent → List Output × MergeResult × SwarmState σ
  | .ping peer (some rttMs) => ([.event (.pingRtt peer rttMs)], ⟨[], []⟩, s)
  | .identifyReceived peer listenAddrs =>
    ([.event (.identifyReceived peer listenAddrs)], ⟨[], []⟩, s)
  | .peerShare (.response requestId response) =>
    ([], ⟨[], []⟩, { s with peerShare := s.peerShare.conclude requestId (.ok response) })
  | .peerShare (.outboundFailure requestId error) =>
    ([], ⟨[], []⟩, { s with peerShare := s.peerShare.conclude requestId (.error error) })
  | .memorySync (.request _ request) =>
    ([.syncResponse (handleSyncRequest s.storage request)], ⟨[], []⟩, s)
  | .memorySync (.response requestId response) =>
    ([], ⟨[], []⟩, { s with memorySync := s.memorySync.conclude requestId (.ok response) })
  | .memorySync (.outboundFailure requestId error) =>
    ([], ⟨[], []⟩, { s with memorySync := s.memorySync.conclude requestId (.error error) })
  | .memoryFetch (.request _ request) =>
    ([.fetchResponse (handleFetchRequest s.storage request)], ⟨[], []⟩, s)
  | .memoryFetch (.response requestId response) =>
    ([], ⟨[], []⟩, { s with memoryFetch := s.memoryFetch.conclude requestId (.ok response) })
  | .memoryFetch (.outboundFailure requestId error) =>
    ([], ⟨[], []⟩, { s with memoryFetch := s.memoryFetch.conclude requestId (.error error) })
  | .groupExchange (.request _ request) =>
    let merged := mergeExchanged env s.storage request.descriptors
    -- the answer is built from what the request left
    let built := buildDescriptors merged.2 settings.identity settings.ourEntityId
    ([.groupExchangeResponse ⟨ourGroups, built.1⟩], merged.1, { s with storage := built.2 })
  | .groupExchange (.response requestId response) =>
    let merged := mergeExchanged env s.storage response.descriptors
    ([], merged.1,
      { s with
        storage := merged.2
        groupExchange := s.groupExchange.conclude requestId (.ok response) })
  | .groupExchange (.outboundFailure requestId error) =>
    ([], ⟨[], []⟩, { s with groupExchange := s.groupExchange.conclude requestId (.error error) })
  | _ => ([], ⟨[], []⟩, s)

def pushContext (s : SwarmState σ) : PushContext where
  sharedGroups := s.sharedGroups
  relayPosture := settings.relayPosture
  relayAcceptedGroups := env.relayAcceptedGroups
  lockHeld := env.lockHeld
  relayBlockedGroups := settings.relayBlockedGroups
  activePeers := (env.pool.filter (fun h => h.state.isActive)).map PeerHandle.nodeId

def handleEvent (s : SwarmState σ) : NetworkEvent → List Output × SwarmState σ
  | .newListenAddr _ => ([], s)
  | .connectionEstablished peer addr numEstablished =>
    (if numEstablished = 1 then [.event (.peerConnected peer [addr])] else [], s)
  | .connectionClosed peer numEstablished =>
    (if numEstablished = 0 then [.event (.peerDisconnected peer)] else [], s)
  | .outgoingConnectionError peer => ([.event (.dialFailure peer)], s)
  | .externalAddrConfirmed addr => ([.event (.externalAddrConfirmed addr)], s)
  | .behaviour (.peerShare (.request _ request)) =>
    ([.peerShareResponse (handlePeerShare settings.ourRole env.pool request)], s)
  | .behaviour (.memoryPush (.request peer request)) =>
    let reply := receivePush (pushContext settings env s) s.storage env.dbNow peer request
    (.pushAck reply.ack :: reply.forwarded.map (fun f => .memoryPush f.1 f.2),
      { s with storage := reply.storage })
  | .behaviour event =>
    let (outputs, merged, after) :=
      handleBehaviourEvent settings env (groupsSnap env s.sharedGroups) s event
    -- tombstoned groups are no longer replicated
    (outputs,
      { after with
        sharedGroups := merged.tombstoned.foldl (fun groups gid => groups.filter (· ≠ gid))
          after.sharedGroups })
  | .other => ([], s)

def react (s : SwarmState σ) : Input → List Output × SwarmState σ
  | .command cmd => handleCommand settings env s cmd
  | .event event => handleEvent settings env s event

end Steps

section Runs
variable {σ : Type} [Storage σ] [Sha256] [Ed25519] (settings : Settings)

def step (s : SwarmState σ) (input : SwarmEnv × Input) : SwarmState σ :=
  (react settings input.1 s input.2).2

end Runs
end CordeliaCore.SwarmTask
