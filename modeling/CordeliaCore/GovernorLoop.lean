import CordeliaCore.PeerPool

set_option autoImplicit false

/-!
# The governor task

`run_governor_loop` as a state machine: one event is one branch of its
`select!`, or one access of a task it spawned to the governor or the pool. What
a branch reads from outside comes with the event.
-/
namespace CordeliaCore.GovernorLoop
open ProtocolMessages KeyedTable PeerGovernor PeerPool

class Libp2p where
  parsePeerId : String → Option NodeId
  parseMultiaddr : String → Option Multiaddr
  /-- The octets of the IPv4 components of an address. -/
  ip4 : Multiaddr → List (ℕ × ℕ × ℕ × ℕ)
  /-- The id of the key pair seeded with the hash of a bootnode's address. -/
  placeholderId : String → NodeId

@[reducible] def plainLibp2p : Libp2p := ⟨some, some, fun _ => [], fun addr => addr⟩

section Addresses
variable [Libp2p]

def isLoopbackAddr (addr : Multiaddr) : Bool := (Libp2p.ip4 addr).any (fun ip => ip.1 = 127)

def isPrivate (ip : ℕ × ℕ × ℕ × ℕ) : Bool :=
  ip.1 = 10 ∨ ip.1 = 172 ∧ 16 ≤ ip.2.1 ∧ ip.2.1 ≤ 31 ∨ ip.1 = 192 ∧ ip.2.1 = 168

def isPublicAddr (addr : Multiaddr) : Bool := !(Libp2p.ip4 addr).any isPrivate

/-- Public addresses where there are any, and never a loopback one. -/
def filterIdentifyAddrs (addrs : List Multiaddr) : List Multiaddr :=
  let nonLoopback := addrs.filter (fun a => !isLoopbackAddr a)
  if nonLoopback.any isPublicAddr then nonLoopback.filter isPublicAddr else nonLoopback

end Addresses

inductive SwarmCommand where
  | dial (addr : Multiaddr)
  | disconnect (peer : NodeId)
  | sendGroupExchange (peer : NodeId) (groups : List GroupId)
deriving DecidableEq

structure GovernorTask where
  governor : Governor
  pool : Pool
  /-- The id dialled under each address. -/
  pendingDials : Multiaddr → Option NodeId
  /-- A `u64`. -/
  tickCount : ℕ
  unresolvedBootnodes : List String
  resolvedBootnodeAddrs : List (String × Multiaddr)

/-- What a tick reads: the clock, the order of the peer table, the group lists and
    the resolver. -/
structure TickEnv where
  now : ℕ
  iteration : Iteration
  sets : GroupSets
  resolve : String → Option Multiaddr

section Bootnodes
variable [Libp2p]

def seedBootnode (gov : Governor) (now : ℕ) (bootnodeAddr : String) (addr : Multiaddr) : Governor :=
  let id := Libp2p.placeholderId bootnodeAddr
  setPeerRelay (addPeer gov now id [addr] []) id true

/-- Seed a bootnode that resolves; any other is left for a later tick. -/
def resolveBootnode (now : ℕ) (resolve : String → Option Multiaddr) (t : GovernorTask)
    (boot : String) : GovernorTask :=
  match resolve boot with
  | some addr =>
    { t with
      governor := seedBootnode t.governor now boot addr
      resolvedBootnodeAddrs := t.resolvedBootnodeAddrs ++ [(boot, addr)] }
  | none => { t with unresolvedBootnodes := t.unresolvedBootnodes ++ [boot] }

def resolveBootnodes (now : ℕ) (resolve : String → Option Multiaddr) (boots : List String)
    (t : GovernorTask) : GovernorTask :=
  boots.foldl (resolveBootnode now resolve) { t with unresolvedBootnodes := [] }

def start (governor : Governor) (now : ℕ) (resolve : String → Option Multiaddr)
    (bootnodes : List String) : GovernorTask :=
  resolveBootnodes now resolve bootnodes ⟨governor, .empty, fun _ => none, 0, [], []⟩

def retryBootnodes (env : TickEnv) (t : GovernorTask) : GovernorTask :=
  if t.unresolvedBootnodes ≠ [] ∧ t.tickCount ≤ 6 then
    resolveBootnodes env.now env.resolve t.unresolvedBootnodes t
  else t

/-- Every sixth tick dials the bootnodes at no active peer's address. -/
def redialBootnodes (env : TickEnv) (t : GovernorTask) : List SwarmCommand :=
  if 0 < t.tickCount ∧ t.tickCount % 6 = 0 then
    let activeAddrs := (activePeers t.pool).flatMap PeerHandle.addrs
    (t.resolvedBootnodeAddrs.filter (fun boot => !activeAddrs.contains boot.2)).map
      (fun boot => .dial ((env.resolve boot.1).getD boot.2))
  else []

end Bootnodes

section Handlers
variable {α : Type} [LinearOrder α] [Libp2p] (floats : Floats α)

/-- The groups a node announces; a relay adds those it learned. -/
def announcedGroups (sets : GroupSets) : List GroupId :=
  (sets.relayLearnedGroups.getD []).foldl
    (fun groups g => if groups.contains g then groups else groups ++ [g]) sets.ourGroups

def exchangeGroups (env : TickEnv) (t : GovernorTask) : List SwarmCommand :=
  if t.tickCount % groupExchangeTicks = 0 then
    (activePeers t.pool).map (fun h => .sendGroupExchange h.nodeId (announcedGroups env.sets))
  else []

def dialsOf (g : Governor) (ids : List NodeId) : List (Multiaddr × NodeId) :=
  ids.filterMap (fun id => ((g.peers.lookup id).bind (·.addrs.head?)).map (fun addr => (addr, id)))

def recordDials (pending : Multiaddr → Option NodeId) (dials : List (Multiaddr × NodeId)) :
    Multiaddr → Option NodeId :=
  dials.foldl (fun m d => Function.update m d.1 (some d.2)) pending

def executeTick (t : GovernorTask) (ticked : Governor × GovernorActions) : GovernorTask :=
  { t with
    governor := ticked.1
    pool := (applyGovernorActions t.pool ticked.2).1
    pendingDials := recordDials t.pendingDials (dialsOf ticked.1 ticked.2.connect)
    tickCount := (t.tickCount + 1) % 2 ^ 64 }

def onTick (env : TickEnv) (t : GovernorTask) : List SwarmCommand × GovernorTask :=
  let ticked := tick floats env.iteration env.now (setGroups t.governor env.sets.ourGroups)
  let after := retryBootnodes env (executeTick t ticked)
  ((applyGovernorActions t.pool ticked.2).2.map .disconnect ++
    (dialsOf ticked.1 ticked.2.connect).map (fun d => .dial d.1) ++
    redialBootnodes env after ++ exchangeGroups env after, after)

theorem onTick_snd (env : TickEnv) (t : GovernorTask) :
    (onTick floats env t).2 = retryBootnodes env (executeTick t
      (tick floats env.iteration env.now (setGroups t.governor env.sets.ourGroups))) := rfl

def takeDial (pending : Multiaddr → Option NodeId) :
    List Multiaddr → Option NodeId × (Multiaddr → Option NodeId)
  | [] => (none, pending)
  | addr :: addrs =>
    match pending addr with
    | some id => (some id, Function.update pending addr none)
    | none => takeDial pending addrs

/-- The entry under which a new connection is recorded: the one that was dialled,
    the peer's own, or a new one. -/
def registerConnected (g : Governor) (now : ℕ) (peerId : NodeId) (addrs : List Multiaddr) :
    Option NodeId → Governor
  | some oldId =>
    markConnected (if oldId ≠ peerId then (replaceNodeId g oldId peerId []).1 else g) now peerId
  | none =>
    match g.peers.lookup peerId with
    | some _ => markConnected g now peerId
    | none => markConnected (addPeer g now peerId addrs []) now peerId

def onPeerConnected (now : ℕ) (sets : GroupSets) (peerId : NodeId) (addrs : List Multiaddr)
    (t : GovernorTask) : List SwarmCommand × GovernorTask :=
  let taken := takeDial t.pendingDials addrs
  let governor := registerConnected t.governor now peerId addrs taken.1
  let isRelay := (governor.peers.lookup peerId).any (·.isRelay)
  ([.sendGroupExchange peerId (announcedGroups sets)],
    { t with
      governor := governor
      pool := PeerPool.insert t.pool sets peerId addrs [] .warm 1 isRelay
      pendingDials := taken.2 })

def onPeerDisconnected (now : ℕ) (peerId : NodeId) (t : GovernorTask) : GovernorTask :=
  { t with
    pool := remove t.pool peerId
    governor := markDisconnected t.governor now peerId }

def onPingRtt (now : ℕ) (peerId : NodeId) (rttMs : ℚ) (t : GovernorTask) : GovernorTask :=
  { t with
    governor := recordActivity t.governor now peerId (some rttMs)
    pool := updateRtt t.pool peerId rttMs }

def placeholderFor (iteration : Iteration) (g : Governor) (peerId : NodeId)
    (listenAddrs : List Multiaddr) : Option NodeId :=
  ((iteration.values g.peers.rows).find? (fun p =>
    p.nodeId ≠ peerId && p.state = .cold && p.addrs.any listenAddrs.contains)).map PeerInfo.nodeId

/-- The addresses a connected peer listens on replace those it connected from. -/
def learnAddrs (now : ℕ) (peerId : NodeId) (addrs : List Multiaddr) (t : GovernorTask) :
    GovernorTask :=
  match t.pool.lookup peerId with
  | some handle =>
    if addrs ≠ [] ∧ handle.addrs ≠ addrs then
      { t with
        governor := addPeer t.governor now peerId addrs handle.groups
        pool := updateAddrs t.pool peerId addrs }
    else t
  | none => t

def onIdentifyReceived (now : ℕ) (iteration : Iteration) (peerId : NodeId)
    (listenAddrs : List Multiaddr) (t : GovernorTask) : GovernorTask :=
  let governor :=
    match placeholderFor iteration t.governor peerId listenAddrs with
    | some oldId => (replaceNodeId t.governor oldId peerId []).1
    | none => t.governor
  learnAddrs now peerId (filterIdentifyAddrs listenAddrs) { t with governor := governor }

def onDialFailure (now : ℕ) (peerId : Option NodeId) (t : GovernorTask) : GovernorTask :=
  match peerId with
  | some id => { t with governor := markDialFailed t.governor now id }
  | none => t

/-- One peer of a peer-share response; our own id and connected peers are skipped. -/
def discoverPeer (now : ℕ) (ourPeerId : NodeId) (g : Governor) (pa : PeerAddress) : Governor :=
  match Libp2p.parsePeerId pa.peerId with
  | none => g
  | some id =>
    let addrs := pa.addrs.filterMap Libp2p.parseMultiaddr
    if id = ourPeerId ∨ (g.peers.lookup id).any (·.state.isActive) ∨ addrs = [] then g
    else
      let added := addPeer g now id addrs pa.groups
      if pa.role = "relay" then setPeerRelay added id true else added

def onPeersDiscovered (now : ℕ) (ourPeerId : NodeId) (peers : List PeerAddress)
    (t : GovernorTask) : GovernorTask :=
  { t with governor := peers.foldl (discoverPeer now ourPeerId) t.governor }

end Handlers

inductive LoopEvent where
  | tick (env : TickEnv)
  | peerConnected (now : ℕ) (sets : GroupSets) (peerId : NodeId) (addrs : List Multiaddr)
  | peerDisconnected (now : ℕ) (peerId : NodeId)
  | pingRtt (now : ℕ) (peerId : NodeId) (rttMs : ℚ)
  | identifyReceived (now : ℕ) (iteration : Iteration) (peerId : NodeId)
      (listenAddrs : List Multiaddr)
  | dialFailure (now : ℕ) (peerId : Option NodeId)
  | peersDiscovered (now : ℕ) (ourPeerId : NodeId) (peers : List PeerAddress)
  /-- A group exchange came back: the pool takes the groups. -/
  | groupsReceived (sets : GroupSets) (peerId : NodeId) (groups : List GroupId)
  /-- The exchange after a connection hands the groups to the governor as well,
      with the addresses it read from the pool in between. -/
  | groupsRecorded (now : ℕ) (peerId : NodeId) (addrs : List Multiaddr) (groups : List GroupId)

def handle {α : Type} [LinearOrder α] [Libp2p] (floats : Floats α) (t : GovernorTask) :
    LoopEvent → GovernorTask
  | .tick env => (onTick floats env t).2
  | .peerConnected now sets peerId addrs => (onPeerConnected now sets peerId addrs t).2
  | .peerDisconnected now peerId => onPeerDisconnected now peerId t
  | .pingRtt now peerId rttMs => onPingRtt now peerId rttMs t
  | .identifyReceived now iteration peerId listenAddrs =>
    onIdentifyReceived now iteration peerId listenAddrs t
  | .dialFailure now peerId => onDialFailure now peerId t
  | .peersDiscovered now ourPeerId peers => onPeersDiscovered now ourPeerId peers t
  | .groupsReceived sets peerId groups =>
    { t with pool := updatePeerGroups t.pool sets peerId groups }
  | .groupsRecorded now peerId addrs groups =>
    { t with governor := addPeer t.governor now peerId addrs groups }

end CordeliaCore.GovernorLoop
