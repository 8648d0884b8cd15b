import CordeliaCore.ProtocolMessages
import CordeliaCore.TableEdits
import Mathlib.Data.Rat.Defs

set_option autoImplicit false

/-!
# The peer governor

`Governor` with every operation that changes its table of peers, and `tick` as
the chain of its seven phases. The clock is an argument and stands still during
a tick. What the source computes in `f64` and the order in which it reads a
`HashMap` are left open.
-/
namespace CordeliaCore.PeerGovernor
open ProtocolMessages KeyedTable

abbrev NodeId := String
abbrev GroupId := String
abbrev Multiaddr := String

def deadTimeout : ℕ := fromSecs era0Timing.deadTimeoutSecs

def staleTimeout : ℕ := fromSecs era0Timing.staleTimeoutSecs

def defaultBanDuration : ℕ := fromSecs era0Timing.banBaseDurationSecs

inductive DialPolicy where
  | all
  | relaysOnly
  | trustedOnly (trusted : List NodeId)
deriving DecidableEq

structure GovernorTargets where
  hotMin : ℕ
  hotMax : ℕ
  warmMin : ℕ
  warmMax : ℕ
  coldMax : ℕ
  churnIntervalSecs : ℕ
  churnFraction : ℚ
deriving DecidableEq

inductive PeerState where
  | cold
  | warm
  | hot
  | banned (expiry : ℕ) (reason : String) (escalation : UInt32)
deriving DecidableEq

def PeerState.isActive : PeerState → Bool
  | .warm => true
  | .hot => true
  | _ => false

def PeerState.name : PeerState → String
  | .cold => "cold"
  | .warm => "warm"
  | .hot => "hot"
  | .banned _ _ _ => "banned"

structure PeerInfo where
  nodeId : NodeId
  addrs : List Multiaddr
  state : PeerState
  groups : List GroupId
  rttMs : Option ℚ
  lastActivity : ℕ
  itemsDelivered : UInt64
  connectedSince : Option ℕ
  demotedAt : Option ℕ
  disconnectCount : UInt32
  lastDisconnected : Option ℕ
  isRelay : Bool
deriving DecidableEq

def PeerInfo.new (now : ℕ) (nodeId : NodeId) (addrs : List Multiaddr) (groups : List GroupId) :
    PeerInfo where
  nodeId := nodeId
  addrs := addrs
  state := .cold
  groups := groups
  rttMs := none
  lastActivity := now
  itemsDelivered := 0
  connectedSince := none
  demotedAt := none
  disconnectCount := 0
  lastDisconnected := none
  isRelay := false

def PeerInfo.hasGroupOverlap (peer : PeerInfo) (groups : List GroupId) : Bool :=
  peer.groups.any groups.contains

/-- `PeerInfo::score` at an instant, `f64::MAX`, and the ceiling of the number of
    warm peers times the churn fraction. -/
structure Floats (α : Type) where
  score : ℕ → PeerInfo → α
  maxScore : α
  churnCount : ℚ → ℕ → ℕ

structure Iteration where
  values : List PeerInfo → List PeerInfo
  perm : ∀ peers, (values peers).Perm peers

abbrev Peers := Table PeerInfo.nodeId (fun _ => True)

structure Governor where
  peers : Peers
  targets : GovernorTargets
  ourGroups : List GroupId
  lastChurn : ℕ
  dialPolicy : DialPolicy

structure GovernorActions where
  connect : List NodeId
  disconnect : List NodeId
  transitions : List (NodeId × String × String)
deriving DecidableEq

def GovernorActions.default : GovernorActions := ⟨[], [], []⟩

def GovernorActions.transition (actions : GovernorActions) (id : NodeId) (before after : String) :
    GovernorActions :=
  { actions with transitions := actions.transitions ++ [(id, before, after)] }

def withDialPolicy (now : ℕ) (targets : GovernorTargets) (ourGroups : List GroupId)
    (dialPolicy : DialPolicy) : Governor :=
  ⟨.empty, targets, ourGroups, now, dialPolicy⟩

section Operations
variable (g : Governor) (now : ℕ)

def editing (f : PeerInfo → PeerInfo) (h : ∀ peer, (f peer).nodeId = peer.nodeId) :
    Edit PeerInfo.nodeId (fun _ => True) :=
  ⟨f, h, fun _ _ => trivial⟩

def modifyPeer (e : Edit PeerInfo.nodeId (fun _ => True)) (nodeId : NodeId) : Governor :=
  { g with peers := g.peers.modify e nodeId }

def setGroups (groups : List GroupId) : Governor := { g with ourGroups := groups }

def addPeer (nodeId : NodeId) (addrs : List Multiaddr) (groups : List GroupId) : Governor :=
  match g.peers.lookup nodeId with
  | some _ =>
    modifyPeer g (editing (fun p => { p with addrs := addrs, groups := groups }) (fun _ => rfl)) nodeId
  | none => { g with peers := g.peers.put (.new now nodeId addrs groups) trivial }

def recordActivity (nodeId : NodeId) (rttMs : Option ℚ) : Governor :=
  modifyPeer g
    (editing (fun p => { p with lastActivity := now, rttMs := rttMs.or p.rttMs }) (fun _ => rfl))
    nodeId

def recordItemsDelivered (nodeId : NodeId) (count : UInt64) : Governor :=
  modifyPeer g
    (editing (fun p => { p with itemsDelivered := p.itemsDelivered + count, lastActivity := now })
      (fun _ => rfl))
    nodeId

def connected : Edit PeerInfo.nodeId (fun _ => True) :=
  editing (fun p => { p with state := .warm, connectedSince := some now, lastActivity := now })
    (fun _ => rfl)

def markConnected (nodeId : NodeId) : Governor :=
  modifyPeer g ((connected now).only (fun p => p.state = .cold)) nodeId

def disconnected : Edit PeerInfo.nodeId (fun _ => True) :=
  editing
    (fun p =>
      { p with
        state := .cold
        connectedSince := none
        disconnectCount := p.disconnectCount + 1
        lastDisconnected := some now })
    (fun _ => rfl)

def markDisconnected (nodeId : NodeId) : Governor :=
  modifyPeer g ((disconnected now).only (fun p => p.state.isActive)) nodeId

def markDialFailed (nodeId : NodeId) : Governor :=
  modifyPeer g
    (editing
      (fun p =>
        { p with disconnectCount := p.disconnectCount + 1, lastDisconnected := some now })
      (fun _ => rfl))
    nodeId

/-- The shift saturates long before the multiplication could. -/
def reconnectBackoff (disconnectCount : UInt32) : ℕ :=
  if disconnectCount = 0 then 0
  else
    let secs := era0Timing.reconnectBackoffBaseSecs *
      2 ^ (min disconnectCount era0Timing.backoffSaturationCount).toNat
    fromSecs (min secs era0Timing.reconnectBackoffMaxSecs)

def setPeerRelay (nodeId : NodeId) (isRelay : Bool) : Governor :=
  modifyPeer g (editing (fun p => { p with isRelay := isRelay }) (fun _ => rfl)) nodeId

def moveEntry (old new : NodeId) (groups : List GroupId) : Governor × Bool :=
  match g.peers.lookup old with
  | some peer =>
    ({ g with
      peers := (g.peers.erase old).put { peer with nodeId := new, groups := groups } trivial }, true)
  | none => (g, false)

/-- Drop the entry of the old id for the live one, which inherits its relay flag. -/
def dropPlaceholder (old new : NodeId) : Governor :=
  match g.peers.lookup old with
  | some oldPeer =>
    let removed := { g with peers := g.peers.erase old }
    if oldPeer.isRelay then setPeerRelay removed new true else removed
  | none => g

def replaceNodeId (old new : NodeId) (groups : List GroupId) : Governor × Bool :=
  match g.peers.lookup new with
  | some existing =>
    if existing.state.isActive then (dropPlaceholder g old new, true)
    else moveEntry g old new groups
  | none => moveEntry g old new groups

def nextEscalation : PeerState → UInt32
  | .banned _ _ escalation => escalation + 1
  | _ => 1

def banPeer (nodeId : NodeId) (reason : String) : Governor :=
  modifyPeer g
    (editing
      (fun p =>
        let escalation := nextEscalation p.state
        { p with
          state := .banned (now + defaultBanDuration * escalation.toNat) reason escalation
          connectedSince := none })
      (fun _ => rfl))
    nodeId

def isDialable (peer : PeerInfo) : Bool :=
  match g.dialPolicy with
  | .all => true
  | .relaysOnly => peer.isRelay
  | .trustedOnly trusted => trusted.contains peer.nodeId

/-- The first three of `counts`; nothing reads the number of banned peers. -/
def hotCount : ℕ := g.peers.rows.countP (fun p => p.state = .hot)

def warmCount : ℕ := g.peers.rows.countP (fun p => p.state = .warm)

def coldCount : ℕ := g.peers.rows.countP (fun p => p.state = .cold)

end Operations

section Phases
variable {α : Type} [LinearOrder α] (floats : Floats α) (iteration : Iteration) (now : ℕ)
  (s : Governor × GovernorActions)

def forEach (ids : List NodeId) (e : Edit PeerInfo.nodeId (fun _ => True))
    (report : PeerInfo → GovernorActions → GovernorActions) : Governor × GovernorActions :=
  ids.foldl (fun s id =>
    match s.1.peers.lookup id with
    | some peer => (modifyPeer s.1 e id, report peer s.2)
    | none => s) s

def peersInOrder : List PeerInfo := iteration.values s.1.peers.rows

def expired (peer : PeerInfo) : Bool :=
  match peer.state with
  | .banned expiry _ _ => expiry ≤ now
  | _ => false

def unbanned : Edit PeerInfo.nodeId (fun _ => True) :=
  editing (fun p => { p with state := .cold }) (fun _ => rfl)

def unbanExpired : Governor × GovernorActions :=
  ({ s.1 with peers := s.1.peers.edit (unbanned.only (expired now)) },
    { s.2 with
      transitions := s.2.transitions ++
        ((peersInOrder iteration s).filter (expired now)).map
          (fun p => (p.nodeId, p.state.name, "cold")) })

def dead (peer : PeerInfo) : Bool :=
  peer.state.isActive && deadTimeout < now - peer.lastActivity

def reapedPeer (peer : PeerInfo) : PeerInfo :=
  match peer.state with
  | .hot => { peer with state := .warm, connectedSince := none, demotedAt := some now }
  | .warm => { peer with state := .cold, connectedSince := none }
  | _ => peer

theorem reapedPeer_nodeId (peer : PeerInfo) : (reapedPeer now peer).nodeId = peer.nodeId := by
  unfold reapedPeer
  split <;> rfl

def reaped : Edit PeerInfo.nodeId (fun _ => True) :=
  editing (reapedPeer now) (reapedPeer_nodeId now)

def reportReaped (peer : PeerInfo) (actions : GovernorActions) : GovernorActions :=
  match peer.state with
  | .hot => actions.transition peer.nodeId peer.state.name "warm"
  | .warm =>
    { actions with disconnect := actions.disconnect ++ [peer.nodeId] }.transition
      peer.nodeId peer.state.name "cold"
  | _ => actions

def reapDead : Governor × GovernorActions :=
  let deadIds := ((peersInOrder iteration s).filter (dead now)).map PeerInfo.nodeId
  forEach s deadIds (reaped now) reportReaped

def promotable (g : Governor) (peer : PeerInfo) : Bool :=
  peer.state = .cold && isDialable g peer &&
    peer.lastDisconnected.all (fun t => reconnectBackoff peer.disconnectCount ≤ now - t)

/-- The states change only when the dials succeed. -/
def promoteColdToWarm : Governor × GovernorActions :=
  let active := warmCount s.1 + hotCount s.1
  if active ≥ s.1.targets.warmMax then s
  else
    let needed := s.1.targets.warmMax - active
    let ready := (peersInOrder iteration s).filter (promotable now s.1)
    let overlapping := fun p : PeerInfo => p.hasGroupOverlap s.1.ourGroups
    let chosen := ((ready.mergeSort (fun a b => !overlapping b || overlapping a)).map
      PeerInfo.nodeId).take needed
    let candidates := if chosen.isEmpty then (ready.take needed).map PeerInfo.nodeId else chosen
    (s.1, { s.2 with connect := s.2.connect ++ candidates })

def eligible (peer : PeerInfo) : Bool :=
  peer.state = .warm && peer.demotedAt.all (fun d => deadTimeout < now - d)

/-- `Iterator::max_by`: the last of the greatest. -/
def maxBy {β : Type} (f : β → α) : List β → Option β
  | [] => none
  | x :: xs => some (xs.foldl (fun best y => if f y < f best then best else y) x)

def promoted : Edit PeerInfo.nodeId (fun _ => True) :=
  editing (fun p => { p with state := .hot, disconnectCount := 0 }) (fun _ => rfl)

def reportPromoted (peer : PeerInfo) (actions : GovernorActions) : GovernorActions :=
  actions.transition peer.nodeId "warm" "hot"

def promoteWarmToHot : Governor × GovernorActions :=
  let candidates := (peersInOrder iteration s).filter (eligible now)
  if s.1.targets.hotMin ≤ hotCount s.1 then
    let worstHotScore := (((peersInOrder iteration s).filter (fun p => p.state = .hot)).map
      (floats.score now)).min?.getD floats.maxScore
    match maxBy (floats.score now) candidates with
    | some best =>
      if hotCount s.1 < s.1.targets.hotMax ∧ worstHotScore < floats.score now best then
        forEach s [best.nodeId] promoted reportPromoted
      else s
    | none => s
  else
    let needed := s.1.targets.hotMin - hotCount s.1
    let warmPeers := candidates.mergeSort (fun a b => floats.score now b ≤ floats.score now a)
    forEach s ((warmPeers.take needed).map PeerInfo.nodeId) promoted reportPromoted

def stale (peer : PeerInfo) : Bool := staleTimeout < now - peer.lastActivity

/-- Stale peers first, then the worst performers. -/
def demotedFirst (a b : PeerInfo) : Bool :=
  if stale now a = stale now b then floats.score now a ≤ floats.score now b else stale now a

def demoted : Edit PeerInfo.nodeId (fun _ => True) :=
  editing (fun p => { p with state := .warm }) (fun _ => rfl)

def demoteExcessHot : Governor × GovernorActions :=
  if hotCount s.1 ≤ s.1.targets.hotMax then s
  else
    let excess := hotCount s.1 - s.1.targets.hotMax
    let hotPeers := ((peersInOrder iteration s).filter (fun p => p.state = .hot)).mergeSort
      (demotedFirst floats now)
    forEach s ((hotPeers.take excess).map PeerInfo.nodeId) demoted
      (fun peer actions => actions.transition peer.nodeId "hot" "warm")

def churned : Edit PeerInfo.nodeId (fun _ => True) :=
  editing (fun p => { p with state := .cold, connectedSince := none }) (fun _ => rfl)

/-- The replacements are read after the demotions. -/
def churn : Governor × GovernorActions :=
  if now - s.1.lastChurn < fromSecs s.1.targets.churnIntervalSecs then s
  else
    let s := ({ s.1 with lastChurn := now }, s.2)
    let churnCount := floats.churnCount s.1.targets.churnFraction (warmCount s.1)
    if churnCount = 0 ∨ coldCount s.1 = 0 then s
    else
      let warmIds := (((peersInOrder iteration s).filter (fun p => p.state = .warm)).take
        churnCount).map PeerInfo.nodeId
      let s := forEach s warmIds churned (fun peer actions =>
        { actions with disconnect := actions.disconnect ++ [peer.nodeId] }.transition
          peer.nodeId "warm" "cold")
      let coldIds := (((peersInOrder iteration s).filter
        (fun p => p.state = .cold && isDialable s.1 p)).take churnCount).map PeerInfo.nodeId
      (s.1, { s.2 with connect := s.2.connect ++ coldIds })

def evictExcessCold : Governor × GovernorActions :=
  if coldCount s.1 ≤ s.1.targets.coldMax then s
  else
    let excess := coldCount s.1 - s.1.targets.coldMax
    let coldPeers := ((peersInOrder iteration s).filter (fun p => p.state = .cold)).mergeSort
      (fun a b => a.lastActivity ≤ b.lastActivity)
    ({ s.1 with peers := s.1.peers.eraseAll ((coldPeers.take excess).map PeerInfo.nodeId) }, s.2)

/-- The phases that move peers; the last one, eviction, removes them. -/
def phases (g : Governor) : Governor × GovernorActions :=
  let s := unbanExpired iteration now (g, .default)
  let s := reapDead iteration now s
  let s := promoteColdToWarm iteration now s
  let s := promoteWarmToHot floats iteration now s
  let s := demoteExcessHot floats iteration now s
  churn floats iteration now s

def tick (g : Governor) : Governor × GovernorActions :=
  evictExcessCold iteration (phases floats iteration now g)

def afterPhases (g : Governor) : Governor := (phases floats iteration now g).1

def afterTick (g : Governor) : Governor := (tick floats iteration now g).1

end Phases

inductive Operation where
  | setGroups (groups : List GroupId)
  | addPeer (now : ℕ) (nodeId : NodeId) (addrs : List Multiaddr) (groups : List GroupId)
  | recordActivity (now : ℕ) (nodeId : NodeId) (rttMs : Option ℚ)
  | recordItemsDelivered (now : ℕ) (nodeId : NodeId) (count : UInt64)
  | markConnected (now : ℕ) (nodeId : NodeId)
  | markDisconnected (now : ℕ) (nodeId : NodeId)
  | markDialFailed (now : ℕ) (nodeId : NodeId)
  | replaceNodeId (old new : NodeId) (groups : List GroupId)
  | banPeer (now : ℕ) (nodeId : NodeId) (reason : String)
  | setPeerRelay (nodeId : NodeId) (isRelay : Bool)
  | tick (iteration : Iteration) (now : ℕ)

def operate {α : Type} [LinearOrder α] (floats : Floats α) (g : Governor) : Operation → Governor
  | .setGroups groups => setGroups g groups
  | .addPeer now nodeId addrs groups => addPeer g now nodeId addrs groups
  | .recordActivity now nodeId rttMs => recordActivity g now nodeId rttMs
  | .recordItemsDelivered now nodeId count => recordItemsDelivered g now nodeId count
  | .markConnected now nodeId => markConnected g now nodeId
  | .markDisconnected now nodeId => markDisconnected g now nodeId
  | .markDialFailed now nodeId => markDialFailed g now nodeId
  | .replaceNodeId old new groups => (replaceNodeId g old new groups).1
  | .banPeer now nodeId reason => banPeer g now nodeId reason
  | .setPeerRelay nodeId isRelay => setPeerRelay g nodeId isRelay
  | .tick iteration now => afterTick floats iteration now g

end CordeliaCore.PeerGovernor
