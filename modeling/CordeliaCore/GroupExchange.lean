import CordeliaCore.GovernorLoop
import CordeliaCore.PeerStates

set_option autoImplicit false

/-!
# Group exchanges beside the governor loop

A connection spawns a task that exchanges groups with the peer, and every few ticks spawn one
for each active peer. Such a task takes the groups of the answer into the pool; after a
connection it then reads the peer's addresses from the pool and hands them to the governor;
on a relay that learns, both kinds of task last add the groups to the learned ones. The loop
and the other tasks can run between any two of these accesses.
-/
namespace CordeliaCore.PeerGovernor
open KeyedTable

section Addresses
variable {g : Governor}

def AllAddressed (g : Governor) : Prop := ∀ peer ∈ g.peers.rows, peer.addrs ≠ []

theorem EntryStep.addressed {old new : PeerInfo} {op : Operation} (h : EntryStep old op new)
    (hold : old.addrs ≠ [])
    (hop : ∀ now id addrs groups, op = .addPeer now id addrs groups → addrs ≠ []) :
    new.addrs ≠ [] := by
  cases h with
  | added now addrs groups => exact hop now old.nodeId addrs groups rfl
  | ticked iteration hpasses =>
    have hsame : new.addrs = old.addrs := hpasses.kept (fun _ _ _ _ _ => rfl)
    rw [hsame]
    exact hold
  | _ => exact hold

theorem AllAddressed.operate {α : Type} [LinearOrder α] (floats : Floats α) (h : AllAddressed g)
    (op : Operation) (hop : ∀ now id addrs groups, op = .addPeer now id addrs groups → addrs ≠ []) :
    AllAddressed (operate floats g op) := by
  intro peer hpeer
  rcases operate_derives floats hpeer with ⟨now, addrs, groups, hadd, -, hnew⟩ | ⟨old, hold, -, hstep⟩
  · rw [hnew]
    exact hop now peer.nodeId addrs groups hadd
  · exact hstep.addressed (h old hold) hop

theorem AllAddressed.addPeer (h : AllAddressed g) (now : ℕ) (id : NodeId) {addrs : List Multiaddr}
    (haddrs : addrs ≠ []) (groups : List GroupId) : AllAddressed (addPeer g now id addrs groups) := by
  refine h.operate evenFloats (.addPeer now id addrs groups) ?_
  rintro _ _ _ _ ⟨⟩
  exact haddrs

theorem AllAddressed.setPeerRelay (h : AllAddressed g) (id : NodeId) (isRelay : Bool) :
    AllAddressed (setPeerRelay g id isRelay) :=
  h.operate evenFloats (.setPeerRelay id isRelay) (by simp)

theorem AllAddressed.markConnected (h : AllAddressed g) (now : ℕ) (id : NodeId) :
    AllAddressed (markConnected g now id) :=
  h.operate evenFloats (.markConnected now id) (by simp)

theorem AllAddressed.replaceNodeId (h : AllAddressed g) (old new : NodeId) (groups : List GroupId) :
    AllAddressed (replaceNodeId g old new groups).1 :=
  h.operate evenFloats (.replaceNodeId old new groups) (by simp)

end Addresses
end CordeliaCore.PeerGovernor

namespace CordeliaCore.GovernorLoop
open ProtocolMessages KeyedTable PeerGovernor PeerPool StepRuns

inductive ExchangeKind where
  | initial
  | periodic
deriving DecidableEq

inductive Stage where
  | awaiting
  | updated (groups : List GroupId)
  | addressed (groups : List GroupId) (addrs : List Multiaddr)
  | recorded (groups : List GroupId)
  | finished
deriving DecidableEq

structure Exchange where
  peerId : NodeId
  isRelay : Bool
  kind : ExchangeKind
  stage : Stage
deriving DecidableEq

structure Node where
  task : GovernorTask
  sets : GroupSets
  exchanges : List Exchange

/-- The branches of the loop; a connection comes with the one address of its endpoint. -/
inductive Branch where
  | tick (now : ℕ) (iteration : Iteration) (resolve : String → Option Multiaddr)
  | peerConnected (now : ℕ) (peerId : NodeId) (addr : Multiaddr)
  | peerDisconnected (now : ℕ) (peerId : NodeId)
  | pingRtt (now : ℕ) (peerId : NodeId) (rttMs : ℚ)
  | identifyReceived (now : ℕ) (iteration : Iteration) (peerId : NodeId)
      (listenAddrs : List Multiaddr)
  | dialFailure (now : ℕ) (peerId : Option NodeId)
  | peersDiscovered (now : ℕ) (ourPeerId : NodeId) (peers : List PeerAddress)

def Branch.event (sets : GroupSets) : Branch → LoopEvent
  | .tick now iteration resolve => .tick ⟨now, iteration, sets, resolve⟩
  | .peerConnected now peerId addr => .peerConnected now sets peerId [addr]
  | .peerDisconnected now peerId => .peerDisconnected now peerId
  | .pingRtt now peerId rttMs => .pingRtt now peerId rttMs
  | .identifyReceived now iteration peerId listenAddrs =>
    .identifyReceived now iteration peerId listenAddrs
  | .dialFailure now peerId => .dialFailure now peerId
  | .peersDiscovered now ourPeerId peers => .peersDiscovered now ourPeerId peers

/-- The exchanges that a branch spawns, in the state it leaves. -/
def Branch.spawned (after : GovernorTask) : Branch → List Exchange
  | .tick _ _ _ =>
    if after.tickCount % groupExchangeTicks = 0 then
      (activePeers after.pool).map (fun h => ⟨h.nodeId, h.isRelay, .periodic, .awaiting⟩)
    else []
  | .peerConnected _ peerId _ =>
    [⟨peerId, (after.governor.peers.lookup peerId).any (·.isRelay), .initial, .awaiting⟩]
  | _ => []

inductive NodeEvent where
  | branch (branch : Branch)
  /-- The shared groups change, through the API. -/
  | shared (groups : List GroupId)
  /-- A task has its answer, which goes into the pool. -/
  | answered (i : ℕ) (groups : List GroupId)
  /-- A task takes its next access. -/
  | proceeds (i : ℕ) (now : ℕ)

/-- A relay learns groups from peers that are no relays. -/
def learnGroups (sets : GroupSets) (isRelay : Bool) (groups : List GroupId) : GroupSets :=
  if isRelay then sets
  else
    { sets with
      relayLearnedGroups := sets.relayLearnedGroups.map (fun learned =>
        groups.foldl (fun set g => if set.contains g then set else set ++ [g]) learned) }

/-- The next access of a task to what it shares with the others. -/
def access (node : Node) (now : ℕ) (x : Exchange) : Node × Stage :=
  match x.kind, x.stage with
  | .initial, .updated groups =>
    (node, .addressed groups (((node.task.pool.lookup x.peerId).map PeerHandle.addrs).getD []))
  | .initial, .addressed groups addrs =>
    ({ node with
        task := { node.task with
          governor := addPeer node.task.governor now x.peerId addrs groups } }, .recorded groups)
  | .initial, .recorded groups =>
    ({ node with sets := learnGroups node.sets x.isRelay groups }, .finished)
  | .periodic, .updated groups =>
    ({ node with sets := learnGroups node.sets x.isRelay groups }, .finished)
  | _, stage => (node, stage)

def setStage (node : Node) (i : ℕ) (x : Exchange) (stage : Stage) : Node :=
  { node with exchanges := node.exchanges.set i { x with stage := stage } }

section Steps
variable {α : Type} [LinearOrder α] [Libp2p] (floats : Floats α)

def nodeStep (node : Node) : NodeEvent → Node
  | .branch b =>
    let after := handle floats node.task (b.event node.sets)
    { node with task := after, exchanges := node.exchanges ++ b.spawned after }
  | .shared groups => { node with sets := { node.sets with ourGroups := groups } }
  | .answered i groups =>
    match node.exchanges[i]? with
    | some x =>
      if x.stage = .awaiting then
        setStage { node with
          task := { node.task with
            pool := updatePeerGroups node.task.pool node.sets x.peerId groups } } i x (.updated groups)
      else node
    | none => node
  | .proceeds i now =>
    match node.exchanges[i]? with
    | some x => setStage (access node now x).1 i x (access node now x).2
    | none => node

def launch (created : ℕ) (targets : GovernorTargets) (sets : GroupSets) (dialPolicy : DialPolicy)
    (now : ℕ) (resolve : String → Option Multiaddr) (bootnodes : List String) : Node where
  task := start (withDialPolicy created targets sets.ourGroups dialPolicy) now resolve bootnodes
  sets := sets
  exchanges := []

end Steps

section Pools
variable {pool : Pool}

def AllReachable (pool : Pool) : Prop := ∀ handle ∈ pool.rows, handle.addrs ≠ []

theorem AllReachable.modify (h : AllReachable pool) {e : Edit PeerHandle.nodeId (fun _ => True)}
    (he : ∀ handle : PeerHandle, handle.addrs ≠ [] → (e.apply handle).addrs ≠ []) (id : NodeId) :
    AllReachable (pool.modify e id) := by
  intro handle hhandle
  rcases Table.mem_edit_only hhandle with ⟨hold, -⟩ | ⟨old, hold, -, rfl⟩
  · exact h handle hold
  · exact he old (h old hold)

theorem AllReachable.remove (h : AllReachable pool) (id : NodeId) : AllReachable (remove pool id) :=
  fun handle hhandle => h handle (List.mem_filter.mp hhandle).1

theorem AllReachable.setState (h : AllReachable pool) (id : NodeId) (state : PeerState) :
    AllReachable (setState pool id state) :=
  h.modify (fun _ haddrs => haddrs) id

theorem AllReachable.insert (h : AllReachable pool) (sets : GroupSets) (id : NodeId)
    {addrs : List Multiaddr} (haddrs : addrs ≠ []) (groups : List GroupId) (state : PeerState)
    (protocolVersion : UInt16) (isRelay : Bool) :
    AllReachable (insert pool sets id addrs groups state protocolVersion isRelay) := by
  intro handle hhandle
  rcases (Table.mem_put_iff pool trivial).mp hhandle with rfl | ⟨hold, -⟩
  · exact haddrs
  · exact h handle hold

theorem AllReachable.applyGovernorActions (h : AllReachable pool) (actions : GovernorActions) :
    AllReachable (applyGovernorActions pool actions).1 := by
  have htransitions : ∀ (transitions : List (NodeId × String × String)) {pool : Pool},
      AllReachable pool → AllReachable (applyTransitions pool transitions) := by
    intro transitions
    induction transitions with
    | nil => exact fun h => h
    | cons transition transitions ih =>
      intro pool h
      refine ih ?_
      unfold applyTransition
      split_ifs
      · exact h.setState _ _
      · exact h.setState _ _
      · exact h
  have hdisconnects : ∀ (ids : List NodeId) {s : Pool × List NodeId}, AllReachable s.1 →
      AllReachable (ids.foldl applyDisconnect s).1 := by
    intro ids
    induction ids with
    | nil => exact fun h => h
    | cons id ids ih =>
      intro s h
      refine ih ?_
      unfold applyDisconnect
      split
      · exact h.remove id
      · exact h
  exact hdisconnects actions.disconnect (htransitions actions.transitions h)

end Pools

structure TaskAddressed (t : GovernorTask) : Prop where
  entries : AllAddressed t.governor
  handles : AllReachable t.pool

section Connections
variable {t : GovernorTask}

theorem executeTick_addressed (h : AllReachable t.pool) {ticked : Governor × GovernorActions}
    (hticked : AllAddressed ticked.1) : TaskAddressed (executeTick t ticked) :=
  ⟨hticked, h.applyGovernorActions ticked.2⟩

theorem registerConnected_addressed {g : Governor} (h : AllAddressed g) (now : ℕ) (peerId : NodeId)
    (addr : Multiaddr) (dialled : Option NodeId) :
    AllAddressed (registerConnected g now peerId [addr] dialled) := by
  cases dialled with
  | some oldId =>
    change AllAddressed (markConnected (if oldId ≠ peerId then _ else _) now peerId)
    split_ifs
    · exact (h.replaceNodeId oldId peerId []).markConnected now peerId
    · exact h.markConnected now peerId
  | none =>
    unfold registerConnected
    dsimp only
    split
    · exact h.markConnected now peerId
    · exact (h.addPeer now peerId (List.cons_ne_nil addr []) []).markConnected now peerId

theorem onPeerConnected_addressed (h : TaskAddressed t) (now : ℕ) (sets : GroupSets)
    (peerId : NodeId) (addr : Multiaddr) :
    TaskAddressed (onPeerConnected now sets peerId [addr] t).2 :=
  ⟨registerConnected_addressed h.entries now peerId addr _,
    h.handles.insert sets peerId (List.cons_ne_nil addr []) [] .warm 1 _⟩

theorem learnAddrs_addressed (h : TaskAddressed t) (now : ℕ) (peerId : NodeId)
    (addrs : List Multiaddr) : TaskAddressed (learnAddrs now peerId addrs t) := by
  unfold learnAddrs
  split
  · split_ifs with hlearned
    · exact ⟨h.entries.addPeer now peerId hlearned.1 _, h.handles.modify (fun _ _ => hlearned.1) peerId⟩
    · exact h
  · exact h

end Connections

section Handlers
variable {α : Type} [LinearOrder α] [Libp2p] (floats : Floats α) {t : GovernorTask}

theorem resolveBootnodes_addressed (h : TaskAddressed t) (now : ℕ)
    (resolve : String → Option Multiaddr) (boots : List String) :
    TaskAddressed (resolveBootnodes now resolve boots t) := by
  have hfold : ∀ (boots : List String) {t : GovernorTask}, TaskAddressed t →
      TaskAddressed (boots.foldl (resolveBootnode now resolve) t) := by
    intro boots
    induction boots with
    | nil => exact fun h => h
    | cons boot boots ih =>
      intro t h
      refine ih ?_
      unfold resolveBootnode
      split
      · exact ⟨(h.entries.addPeer now _ (List.cons_ne_nil _ _) []).setPeerRelay _ true, h.handles⟩
      · exact ⟨h.entries, h.handles⟩
  exact hfold boots ⟨h.entries, h.handles⟩

theorem retryBootnodes_addressed (h : TaskAddressed t) (env : TickEnv) :
    TaskAddressed (retryBootnodes env t) := by
  unfold retryBootnodes
  split_ifs
  · exact resolveBootnodes_addressed h env.now env.resolve _
  · exact h

theorem onTick_addressed (h : TaskAddressed t) (env : TickEnv) :
    TaskAddressed (onTick floats env t).2 := by
  have hset : AllAddressed (setGroups t.governor env.sets.ourGroups) := h.entries
  have hticked := hset.operate floats (.tick env.iteration env.now) (by simp)
  rw [operate_tick] at hticked
  rw [onTick_snd]
  exact retryBootnodes_addressed (executeTick_addressed h.handles hticked) env

theorem onIdentifyReceived_addressed (h : TaskAddressed t) (now : ℕ) (iteration : Iteration)
    (peerId : NodeId) (listenAddrs : List Multiaddr) :
    TaskAddressed (onIdentifyReceived now iteration peerId listenAddrs t) := by
  unfold onIdentifyReceived
  cases placeholderFor iteration t.governor peerId listenAddrs with
  | none => exact learnAddrs_addressed ⟨h.entries, h.handles⟩ now peerId _
  | some oldId =>
    refine learnAddrs_addressed ?_ now peerId _
    exact ⟨h.entries.replaceNodeId oldId peerId [], h.handles⟩

theorem onPeersDiscovered_addressed (h : TaskAddressed t) (now : ℕ) (ourPeerId : NodeId)
    (peers : List PeerAddress) : TaskAddressed (onPeersDiscovered now ourPeerId peers t) := by
  have hfold : ∀ (peers : List PeerAddress) {g : Governor}, AllAddressed g →
      AllAddressed (peers.foldl (discoverPeer now ourPeerId) g) := by
    intro peers
    induction peers with
    | nil => exact fun h => h
    | cons pa peers ih =>
      intro g h
      refine ih ?_
      unfold discoverPeer
      split
      · exact h
      · dsimp only
        split_ifs with hskip
        · exact h
        · exact (h.addPeer now _ (fun hnone => hskip (.inr (.inr hnone))) pa.groups).setPeerRelay _ true
        · exact h.addPeer now _ (fun hnone => hskip (.inr (.inr hnone))) pa.groups
  exact ⟨hfold peers h.entries, h.handles⟩

theorem branch_addressed (h : TaskAddressed t) (sets : GroupSets) (b : Branch) :
    TaskAddressed (handle floats t (b.event sets)) := by
  cases b with
  | tick now iteration resolve => exact onTick_addressed floats h _
  | peerConnected now peerId addr => exact onPeerConnected_addressed h now sets peerId addr
  | peerDisconnected now peerId =>
    exact ⟨h.entries.operate floats (.markDisconnected now peerId) (by simp), h.handles.remove peerId⟩
  | pingRtt now peerId rttMs =>
    exact ⟨h.entries.operate floats (.recordActivity now peerId (some rttMs)) (by simp),
      h.handles.modify (fun _ haddrs => haddrs) peerId⟩
  | identifyReceived now iteration peerId listenAddrs =>
    exact onIdentifyReceived_addressed h now iteration peerId listenAddrs
  | dialFailure now peerId =>
    cases peerId with
    | none => exact h
    | some peerId =>
      exact ⟨h.entries.operate floats (.markDialFailed now peerId) (by simp), h.handles⟩
  | peersDiscovered now ourPeerId peers => exact onPeersDiscovered_addressed h now ourPeerId peers

end Handlers

section Accesses
variable {node : Node}

def Exchange.reads (x : Exchange) : Bool :=
  match x.kind, x.stage with
  | .initial, .updated _ => true
  | _, _ => false

/-- A task that is about to read the addresses of its peer finds the peer in the pool. -/
def ReadsPooled (node : Node) : NodeEvent → Prop
  | .proceeds i _ =>
    (node.exchanges[i]?).all (fun x => !x.reads || (node.task.pool.lookup x.peerId).isSome) = true
  | _ => True

/-- Every entry, every handle and every list of addresses on its way has an address. -/
structure NodeAddressed (node : Node) : Prop where
  task : TaskAddressed node.task
  read : ∀ x ∈ node.exchanges, ∀ groups addrs, x.stage = .addressed groups addrs → addrs ≠ []

theorem spawned_awaiting {after : GovernorTask} {b : Branch} {x : Exchange}
    (h : x ∈ b.spawned after) : x.stage = .awaiting := by
  cases b with
  | tick now iteration resolve =>
    unfold Branch.spawned at h
    split_ifs at h
    · obtain ⟨handle, -, rfl⟩ := List.mem_map.mp h
      rfl
    · cases h
  | peerConnected now peerId addr =>
    rw [List.mem_singleton.mp h]
  | _ => cases h

theorem setStage_addressed (h : NodeAddressed node) (i : ℕ) (x : Exchange) {stage : Stage}
    (hstage : ∀ groups addrs, stage = .addressed groups addrs → addrs ≠ []) :
    NodeAddressed (setStage node i x stage) := by
  refine ⟨h.task, fun y hy => ?_⟩
  rcases List.mem_or_eq_of_mem_set hy with hy | rfl
  · exact h.read y hy
  · exact hstage

/-- What a task does next keeps the addresses, and so does what it holds after it. -/
theorem access_addressed (h : NodeAddressed node) (now : ℕ) {x : Exchange}
    (hx : x ∈ node.exchanges) (hpooled : x.reads = true → (node.task.pool.lookup x.peerId).isSome) :
    NodeAddressed (access node now x).1 ∧
      ∀ groups addrs, (access node now x).2 = .addressed groups addrs → addrs ≠ [] := by
  obtain ⟨peerId, isRelay, kind, stage⟩ := x
  cases kind with
  | initial =>
    cases stage with
    | updated groups =>
      refine ⟨h, ?_⟩
      obtain ⟨handle, hhandle⟩ := Option.isSome_iff_exists.mp (hpooled rfl)
      rintro _ addrs hread
      simp only [access, hhandle, Option.map_some, Option.getD_some] at hread
      cases hread
      exact h.task.handles handle (Table.mem_of_lookup hhandle)
    | addressed groups addrs =>
      have haddrs := h.read _ hx groups addrs rfl
      refine ⟨⟨⟨h.task.entries.addPeer now peerId haddrs groups, h.task.handles⟩, h.read⟩, ?_⟩
      rintro _ _ ⟨⟩
    | recorded groups => exact ⟨⟨h.task, h.read⟩, by rintro _ _ ⟨⟩⟩
    | _ => exact ⟨h, by rintro _ _ ⟨⟩⟩
  | periodic =>
    cases stage with
    | updated groups => exact ⟨⟨h.task, h.read⟩, by rintro _ _ ⟨⟩⟩
    | addressed groups addrs =>
      refine ⟨h, ?_⟩
      rintro _ _ ⟨⟩
      exact h.read _ hx groups addrs rfl
    | _ => exact ⟨h, by rintro _ _ ⟨⟩⟩

end Accesses

section Runs
variable {α : Type} [LinearOrder α] [Libp2p] (floats : Floats α) {node : Node}

theorem nodeStep_addressed (h : NodeAddressed node) {event : NodeEvent}
    (hpooled : ReadsPooled node event) : NodeAddressed (nodeStep floats node event) := by
  cases event with
  | branch b =>
    refine ⟨branch_addressed floats h.task node.sets b, fun x hx groups addrs hstage => ?_⟩
    rcases List.mem_append.mp hx with hx | hx
    · exact h.read x hx groups addrs hstage
    · rw [spawned_awaiting hx] at hstage
      cases hstage
  | shared groups => exact ⟨h.task, h.read⟩
  | answered i groups =>
    unfold nodeStep
    dsimp only
    split
    · split_ifs
      · have hpool : ∀ id, AllReachable (updatePeerGroups node.task.pool node.sets id groups) :=
          fun id => h.task.handles.modify (fun _ haddrs => haddrs) id
        have hstage : ∀ gs addrs, Stage.updated groups = .addressed gs addrs → addrs ≠ [] := by simp
        refine setStage_addressed ?_ i _ hstage
        exact ⟨⟨h.task.entries, hpool _⟩, h.read⟩
      · exact h
    · exact h
  | proceeds i now =>
    unfold nodeStep
    dsimp only
    split
    · next x hx =>
      have hread : x.reads = true → (node.task.pool.lookup x.peerId).isSome = true := by
        intro hreads
        simpa [ReadsPooled, hx, hreads] using hpooled
      obtain ⟨hnode, hstage⟩ := access_addressed h now (List.mem_of_getElem? hx) hread
      exact setStage_addressed hnode i x hstage
    · exact h

theorem launch_addressed (created : ℕ) (targets : GovernorTargets) (sets : GroupSets)
    (dialPolicy : DialPolicy) (now : ℕ) (resolve : String → Option Multiaddr)
    (bootnodes : List String) :
    NodeAddressed (launch created targets sets dialPolicy now resolve bootnodes) := by
  refine ⟨resolveBootnodes_addressed ⟨?_, ?_⟩ now resolve bootnodes, fun x hx => by cases hx⟩
  · intro peer hpeer
    cases hpeer
  · intro handle hhandle
    cases hhandle

/-- Where every task finds its peer in the pool when it reads the addresses, no step takes
    the last address from an entry. -/
theorem exchange_keeps_addresses (created : ℕ) (targets : GovernorTargets) (sets : GroupSets)
    (dialPolicy : DialPolicy) (now : ℕ) (resolve : String → Option Multiaddr)
    (bootnodes : List String) (events : List NodeEvent)
    (h : Along (nodeStep floats) ReadsPooled
      (launch created targets sets dialPolicy now resolve bootnodes) events) :
    Along (nodeStep floats)
      (fun node event => ∀ id old new, node.task.governor.peers.lookup id = some old →
        old.addrs ≠ [] →
          (nodeStep floats node event).task.governor.peers.lookup id = some new → new.addrs ≠ [])
      (launch created targets sets dialPolicy now resolve bootnodes) events := by
  refine along_of_guard (I := NodeAddressed) (fun _ _ => fun hs => nodeStep_addressed floats hs) ?_
    (launch_addressed created targets sets dialPolicy now resolve bootnodes) h
  intro node event hnode hpooled id old new _ _ hnew
  exact (nodeStep_addressed floats hnode hpooled).task.entries new (Table.mem_of_lookup hnew)

end Runs

section Example

def idleNode : Node :=
  let := plainLibp2p
  launch 0 churning ⟨[], none⟩ .all 0 some []

def peerAnswers : List NodeEvent :=
  [.branch (.peerConnected 0 "peer-1" "/ip4/192.0.2.1"), .answered 0 ["team"]]

def peerLost : NodeEvent := .branch (.peerDisconnected 1 "peer-1")

def addrsOf (node : Node) (id : NodeId) : Option (List Multiaddr) :=
  (node.task.governor.peers.lookup id).map PeerInfo.addrs

theorem connected_peer_keeps_address :
    let := plainLibp2p
    let events := peerAnswers ++ [.proceeds 0 1, peerLost, .proceeds 0 2]
    Along (nodeStep evenFloats) ReadsPooled idleNode events ∧
      Along (nodeStep evenFloats)
        (fun node event => ∀ id old new, node.task.governor.peers.lookup id = some old →
          old.addrs ≠ [] →
            (nodeStep evenFloats node event).task.governor.peers.lookup id = some new →
              new.addrs ≠ [])
        idleNode events := by
  intro _ events
  have hreads : Along (nodeStep evenFloats) ReadsPooled idleNode events :=
    ⟨trivial, trivial, rfl, trivial, rfl, trivial⟩
  exact ⟨hreads, exchange_keeps_addresses evenFloats 0 churning ⟨[], none⟩ .all 0 some [] events
    hreads⟩

/-- The peer is lost before its addresses are read: the exchange records none. -/
theorem lost_peer_loses_address :
    let := plainLibp2p
    let read := run (nodeStep evenFloats) idleNode (peerAnswers ++ [peerLost, .proceeds 0 2])
    addrsOf read "peer-1" = some ["/ip4/192.0.2.1"] ∧
      addrsOf (nodeStep evenFloats read (.proceeds 0 2)) "peer-1" = some [] := by
  decide +kernel

end Example

section Groups

theorem mem_insertAll (groups set : List GroupId) (g : GroupId) :
    g ∈ groups.foldl (fun set g => if set.contains g then set else set ++ [g]) set ↔
      g ∈ set ∨ g ∈ groups := by
  induction groups generalizing set with
  | nil => simp
  | cons first groups ih =>
    rw [List.foldl_cons, ih]
    by_cases hfirst : set.contains first = true
    · have hmem : first ∈ set := by simpa using hfirst
      rw [if_pos hfirst, List.mem_cons]
      constructor
      · rintro (hset | hrest)
        · exact .inl hset
        · exact .inr (.inr hrest)
      · rintro (hset | rfl | hrest)
        · exact .inl hset
        · exact .inl hmem
        · exact .inr hrest
    · rw [if_neg hfirst, List.mem_append, List.mem_singleton, List.mem_cons, or_assoc]

theorem learned_of_answer {sets : GroupSets} {learned : List GroupId}
    (h : sets.relayLearnedGroups = some learned) (groups : List GroupId) :
    ∃ set, (learnGroups sets false groups).relayLearnedGroups = some set ∧ ∀ g ∈ groups, g ∈ set := by
  refine ⟨groups.foldl (fun set g => if set.contains g then set else set ++ [g]) learned, ?_, ?_⟩
  · unfold learnGroups
    rw [if_neg Bool.false_ne_true]
    exact congrArg (Option.map _) h
  · exact fun g hg => (mem_insertAll groups learned g).mpr (.inr hg)

theorem mem_computeIntersection {sets : GroupSets} {learned groups : List GroupId}
    (h : sets.relayLearnedGroups = some learned) {g : GroupId} :
    g ∈ computeIntersection sets groups ↔ g ∈ groups ∧ (g ∈ sets.ourGroups ∨ g ∈ learned) := by
  simp [computeIntersection, h]

end Groups

section Learning
variable {α : Type} [LinearOrder α] [Libp2p] (floats : Floats α) {node : Node} {i : ℕ} {x : Exchange}

def completion (i now : ℕ) (groups : List GroupId) : List NodeEvent :=
  .answered i groups :: List.replicate 3 (.proceeds i now)

/-- What a task leaves: the groups of the answer in the pool and, from a peer that is no
    relay, among the learned ones. -/
theorem run_completion (hx : node.exchanges[i]? = some x) (hawaiting : x.stage = .awaiting)
    (now : ℕ) (groups : List GroupId) :
    let done := run (nodeStep floats) node (completion i now groups)
    done.exchanges[i]? = some { x with stage := .finished } ∧
      done.task.pool = updatePeerGroups node.task.pool node.sets x.peerId groups ∧
      done.sets = learnGroups node.sets x.isRelay groups := by
  obtain ⟨hi, hget⟩ := List.getElem?_eq_some_iff.mp hx
  obtain ⟨peerId, isRelay, kind, stage⟩ := x
  cases hawaiting
  cases kind <;>
    simp [completion, List.replicate, nodeStep, access, setStage, hget, hi]

/-- A relay that learns has learned the groups of an answer, but can sync all of them with
    the peer only if it shared or had learned them before. -/
theorem learned_groups_synced_iff (hx : node.exchanges[i]? = some x)
    (hawaiting : x.stage = .awaiting) (hpeer : x.isRelay = false) {handle : PeerHandle}
    (hpooled : node.task.pool.lookup x.peerId = some handle) {learned : List GroupId}
    (hdynamic : node.sets.relayLearnedGroups = some learned) (now : ℕ) (groups : List GroupId) :
    let done := run (nodeStep floats) node (completion i now groups)
    done.exchanges[i]? = some { x with stage := .finished } ∧
      (∃ set, done.sets.relayLearnedGroups = some set ∧ ∀ g ∈ groups, g ∈ set) ∧
      ((∃ after, done.task.pool.lookup x.peerId = some after ∧
          ∀ g ∈ groups, g ∈ after.groupIntersection) ↔
        ∀ g ∈ groups, g ∈ node.sets.ourGroups ∨ g ∈ learned) := by
  intro done
  obtain ⟨hfinished, hpool, hsets⟩ := run_completion floats hx hawaiting now groups
  refine ⟨hfinished, ?_, ?_⟩
  · rw [hsets, hpeer]
    exact learned_of_answer hdynamic groups
  have hafter : done.task.pool.lookup x.peerId = some { handle with
      groupIntersection := computeIntersection node.sets groups, groups := groups } := by
    rw [hpool]
    unfold updatePeerGroups
    rw [Table.lookup_modify, hpooled, Option.map_some, if_pos rfl]
    rfl
  constructor
  · rintro ⟨after, hfound, hall⟩ g hg
    rw [hafter] at hfound
    cases hfound
    exact ((mem_computeIntersection hdynamic).mp (hall g hg)).2
  · intro hknown
    exact ⟨_, hafter, fun g hg => (mem_computeIntersection hdynamic).mpr ⟨hg, hknown g hg⟩⟩

end Learning

section RelayExample

def relayNode : Node :=
  let := plainLibp2p
  run (nodeStep evenFloats) (launch 0 churning ⟨["team"], some []⟩ .all 0 some [])
    [.branch (.peerConnected 0 "peer-1" "/ip4/192.0.2.1")]

def intersectionOf (node : Node) (id : NodeId) : Option (List GroupId) :=
  (node.task.pool.lookup id).map PeerHandle.groupIntersection

theorem shared_group_synced :
    let := plainLibp2p
    let done := run (nodeStep evenFloats) relayNode (completion 0 1 ["team"])
    ∃ after, done.task.pool.lookup "peer-1" = some after ∧
      ∀ g ∈ ["team"], g ∈ after.groupIntersection := by
  intro _ done
  have hx : relayNode.exchanges[0]? = some ⟨"peer-1", false, .initial, .awaiting⟩ := by
    decide +kernel
  have hdynamic : relayNode.sets.relayLearnedGroups = some [] := by
    decide +kernel
  have hsome : (relayNode.task.pool.lookup "peer-1").isSome = true := by
    decide +kernel
  obtain ⟨handle, hpooled⟩ := Option.isSome_iff_exists.mp hsome
  refine (learned_groups_synced_iff evenFloats hx rfl rfl hpooled hdynamic 1 ["team"]).2.2.mpr ?_
  decide +kernel

/-- Of a group it learns the relay does not know yet that it shares it with the peer. -/
theorem learned_group_not_synced :
    let := plainLibp2p
    let done := run (nodeStep evenFloats) relayNode (completion 0 1 ["team", "family"])
    done.sets.relayLearnedGroups = some ["team", "family"] ∧
      intersectionOf done "peer-1" = some ["team"] := by
  decide +kernel

end RelayExample
end CordeliaCore.GovernorLoop
