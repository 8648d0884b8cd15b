import CordeliaCore.PeerGovernor

set_option autoImplicit false

namespace CordeliaCore.PeerPool
open KeyedTable PeerGovernor

structure PeerHandle where
  nodeId : NodeId
  addrs : List Multiaddr
  state : PeerState
  groups : List GroupId
  groupIntersection : List GroupId
  rttMs : Option ℚ
  protocolVersion : UInt16
  isRelay : Bool
  itemsDelivered : UInt64
deriving DecidableEq

abbrev Pool := Table PeerHandle.nodeId (fun _ => True)

/-- Our groups, and on a relay those learned from peers. -/
structure GroupSets where
  ourGroups : List GroupId
  relayLearnedGroups : Option (List GroupId)

def computeIntersection (sets : GroupSets) (peerGroups : List GroupId) : List GroupId :=
  peerGroups.filter (fun g => sets.ourGroups.contains g || sets.relayLearnedGroups.any (·.contains g))

section Operations
variable (pool : Pool)

def insert (sets : GroupSets) (nodeId : NodeId) (addrs : List Multiaddr)
    (peerGroups : List GroupId) (state : PeerState) (protocolVersion : UInt16) (isRelay : Bool) :
    Pool :=
  pool.put
    { nodeId := nodeId
      addrs := addrs
      state := state
      groups := peerGroups
      groupIntersection := computeIntersection sets peerGroups
      rttMs := none
      protocolVersion := protocolVersion
      isRelay := isRelay
      itemsDelivered := 0 } trivial

def remove (nodeId : NodeId) : Pool := pool.erase nodeId

def changing (f : PeerHandle → PeerHandle) (h : ∀ handle, (f handle).nodeId = handle.nodeId) :
    Edit PeerHandle.nodeId (fun _ => True) :=
  ⟨f, h, fun _ _ => trivial⟩

def updatePeerGroups (sets : GroupSets) (nodeId : NodeId) (groups : List GroupId) : Pool :=
  pool.modify
    (changing
      (fun h => { h with groupIntersection := computeIntersection sets groups, groups := groups })
      (fun _ => rfl))
    nodeId

def updateAddrs (nodeId : NodeId) (addrs : List Multiaddr) : Pool :=
  pool.modify (changing (fun h => { h with addrs := addrs }) (fun _ => rfl)) nodeId

def updateRtt (nodeId : NodeId) (rttMs : ℚ) : Pool :=
  pool.modify (changing (fun h => { h with rttMs := some rttMs }) (fun _ => rfl)) nodeId

def setState (nodeId : NodeId) (state : PeerState) : Pool :=
  pool.modify (changing (fun h => { h with state := state }) (fun _ => rfl)) nodeId

def activePeers : List PeerHandle := pool.rows.filter (fun h => h.state.isActive)

def applyTransition (transition : NodeId × String × String) : Pool :=
  if transition.2.2 = "hot" then setState pool transition.1 .hot
  else if transition.2.2 = "warm" then setState pool transition.1 .warm
  else pool

def applyTransitions (transitions : List (NodeId × String × String)) : Pool :=
  transitions.foldl applyTransition pool

/-- A peer that is found is removed, and returned after those before it. -/
def applyDisconnect (s : Pool × List NodeId) (id : NodeId) : Pool × List NodeId :=
  match s.1.lookup id with
  | some _ => (remove s.1 id, s.2 ++ [id])
  | none => s

def applyDisconnects (ids : List NodeId) : Pool × List NodeId := ids.foldl applyDisconnect (pool, [])

def applyGovernorActions (actions : GovernorActions) : Pool × List NodeId :=
  applyDisconnects (applyTransitions pool actions.transitions) actions.disconnect

end Operations
end CordeliaCore.PeerPool
