import CordeliaCore.GovernorLoop
import CordeliaCore.PoolActions

set_option autoImplicit false

namespace CordeliaCore.GovernorLoop
open ProtocolMessages KeyedTable StepRuns PeerGovernor PeerPool

section Governor
variable (g : Governor) (id k : NodeId)

theorem activeState_congr {g g' : Governor} (h : stateOf g' k = stateOf g k) :
    activeState g' k = activeState g k :=
  congrArg (Option.filter PeerState.isActive) h

theorem activeState_addPeer (now : ℕ) (addrs : List Multiaddr) (groups : List GroupId) :
    activeState (addPeer g now id addrs groups) k = activeState g k := by
  unfold activeState
  rw [stateOf_addPeer]
  split_ifs with hk
  · rw [hk]
    cases stateOf g id <;> rfl
  · rfl

theorem activeState_setPeerRelay (isRelay : Bool) :
    activeState (setPeerRelay g id isRelay) k = activeState g k :=
  activeState_congr k (stateOf_modifyPeer_same g id k (fun _ => rfl))

theorem activeState_markConnected_of_ne (now : ℕ) (h : k ≠ id) :
    activeState (markConnected g now id) k = activeState g k := by
  apply activeState_congr
  rw [stateOf_markConnected]
  simp [h]

theorem activeState_markDisconnected (now : ℕ) :
    activeState (markDisconnected g now id) k = if k = id then none else activeState g k := by
  unfold activeState
  rw [stateOf_markDisconnected]
  by_cases hk : k = id
  · rw [if_pos hk, hk]
    cases hs : stateOf g id with
    | none => rfl
    | some s => cases s <;> simp [PeerState.isActive]
  · simp [hk]

theorem activeState_eq_none_iff : activeState g id = none ↔ idle g id = true := by
  unfold activeState idle
  cases stateOf g id with
  | none => exact iff_of_true rfl rfl
  | some s => simp

theorem activeState_replace_cold {old new : NodeId} (hne : old ≠ new) (hcold : stateOf g old = some .cold)
    (groups : List GroupId) :
    activeState (replaceNodeId g old new groups).1 k = activeState g k := by
  unfold activeState
  rw [stateOf_replaceNodeId g groups k hne hcold]
  split_ifs with hold hnew
  · rw [hold, hcold]
    rfl
  · have hnone := (activeState_eq_none_iff g new).mpr hnew.2
    rw [hnew.1]
    exact hnone.symm
  · rfl

end Governor

section Handlers
variable {α : Type} [LinearOrder α] (floats : Floats α) {t : GovernorTask}

def InAgreement (t : GovernorTask) : Prop := Agrees t.pool t.governor

structure SamePeers (t t' : GovernorTask) : Prop where
  pool : ∀ id, poolState t'.pool id = poolState t.pool id
  governor : ∀ id, activeState t'.governor id = activeState t.governor id

theorem SamePeers.refl (t : GovernorTask) : SamePeers t t := ⟨fun _ => rfl, fun _ => rfl⟩

theorem SamePeers.trans {t t' t'' : GovernorTask} (h : SamePeers t t') (h' : SamePeers t' t'') :
    SamePeers t t'' where
  pool id := (h'.pool id).trans (h.pool id)
  governor id := (h'.governor id).trans (h.governor id)

theorem SamePeers.inAgreement {t t' : GovernorTask} (h : SamePeers t t') :
    InAgreement t' ↔ InAgreement t := by
  unfold InAgreement Agrees
  simp only [h.pool, h.governor]

variable [Libp2p]

theorem activeState_seedBootnode (g : Governor) (now : ℕ) (bootnodeAddr : String) (addr : Multiaddr)
    (k : NodeId) : activeState (seedBootnode g now bootnodeAddr addr) k = activeState g k := by
  unfold seedBootnode
  rw [activeState_setPeerRelay, activeState_addPeer]

theorem resolveBootnode_same (now : ℕ) (resolve : String → Option Multiaddr) (t : GovernorTask)
    (boot : String) : SamePeers t (resolveBootnode now resolve t boot) := by
  unfold resolveBootnode
  cases resolve boot with
  | none => exact ⟨fun _ => rfl, fun _ => rfl⟩
  | some addr => exact ⟨fun _ => rfl, activeState_seedBootnode t.governor now boot addr⟩

theorem resolveBootnodes_same (now : ℕ) (resolve : String → Option Multiaddr) (boots : List String)
    (t : GovernorTask) : SamePeers t (resolveBootnodes now resolve boots t) := by
  have hfold : ∀ t : GovernorTask, SamePeers t (boots.foldl (resolveBootnode now resolve) t) := by
    induction boots with
    | nil => exact .refl
    | cons boot boots ih => exact fun t => (resolveBootnode_same now resolve t boot).trans (ih _)
  have hstart : SamePeers t { t with unresolvedBootnodes := [] } := ⟨fun _ => rfl, fun _ => rfl⟩
  exact hstart.trans (hfold _)

theorem retryBootnodes_same (env : TickEnv) (t : GovernorTask) :
    SamePeers t (retryBootnodes env t) := by
  unfold retryBootnodes
  split_ifs
  · exact resolveBootnodes_same env.now env.resolve t.unresolvedBootnodes t
  · exact .refl t

theorem discoverPeer_active (now : ℕ) (ourPeerId : NodeId) (g : Governor) (pa : PeerAddress)
    (k : NodeId) : activeState (discoverPeer now ourPeerId g pa) k = activeState g k := by
  unfold discoverPeer
  split
  · rfl
  · dsimp only
    split_ifs
    · rfl
    · rw [activeState_setPeerRelay, activeState_addPeer]
    · rw [activeState_addPeer]

theorem onPeersDiscovered_same (now : ℕ) (ourPeerId : NodeId) (peers : List PeerAddress)
    (t : GovernorTask) : SamePeers t (onPeersDiscovered now ourPeerId peers t) := by
  refine ⟨fun _ => rfl, fun k => ?_⟩
  change activeState (peers.foldl (discoverPeer now ourPeerId) t.governor) k = _
  generalize t.governor = g
  induction peers generalizing g with
  | nil => rfl
  | cons pa peers ih => rw [List.foldl_cons, ih, discoverPeer_active]

omit [Libp2p] in
theorem placeholderFor_spec {iteration : Iteration} {g : Governor} {peerId old : NodeId}
    {listenAddrs : List Multiaddr} (h : placeholderFor iteration g peerId listenAddrs = some old) :
    old ≠ peerId ∧ stateOf g old = some .cold := by
  obtain ⟨peer, hfound, rfl⟩ := Option.map_eq_some_iff.mp h
  have hp := List.find?_some hfound
  have hrow : peer ∈ g.peers.rows :=
    (iteration.perm g.peers.rows).mem_iff.mp (List.mem_of_find?_eq_some hfound)
  simp only [Bool.and_eq_true, decide_eq_true_eq] at hp
  exact ⟨hp.1.1, stateOf_eq_some_iff.mpr ⟨peer, g.peers.lookup_key hrow, hp.1.2⟩⟩

omit [Libp2p] in
theorem learnAddrs_same (now : ℕ) (peerId : NodeId) (addrs : List Multiaddr) (t : GovernorTask) :
    SamePeers t (learnAddrs now peerId addrs t) := by
  unfold learnAddrs
  split
  · split_ifs
    · refine ⟨fun k => ?_, fun k => activeState_addPeer t.governor peerId k now addrs _⟩
      exact (poolState_modify t.pool peerId k (f := fun s => s) (fun _ => rfl)).trans (by simp)
    · exact .refl t
  · exact .refl t

theorem onIdentifyReceived_same (now : ℕ) (iteration : Iteration) (peerId : NodeId)
    (listenAddrs : List Multiaddr) (t : GovernorTask) :
    SamePeers t (onIdentifyReceived now iteration peerId listenAddrs t) := by
  unfold onIdentifyReceived
  dsimp only
  refine SamePeers.trans ?_ (learnAddrs_same now peerId (filterIdentifyAddrs listenAddrs) _)
  refine ⟨fun _ => rfl, fun k => ?_⟩
  dsimp only
  split
  · next oldId hold =>
    obtain ⟨hne, hcold⟩ := placeholderFor_spec hold
    exact activeState_replace_cold t.governor k hne hcold []
  · rfl

omit [Libp2p] in
theorem onDialFailure_same (now : ℕ) (peerId : Option NodeId) (t : GovernorTask) :
    SamePeers t (onDialFailure now peerId t) := by
  cases peerId with
  | none => exact .refl t
  | some id =>
    exact ⟨fun _ => rfl,
      fun k => activeState_congr k (stateOf_modifyPeer_same t.governor id k (fun _ => rfl))⟩

omit [Libp2p] in
theorem onPingRtt_same (now : ℕ) (peerId : NodeId) (rttMs : ℚ) (t : GovernorTask) :
    SamePeers t (onPingRtt now peerId rttMs t) := by
  refine ⟨fun k => ?_,
    fun k => activeState_congr k (stateOf_modifyPeer_same t.governor peerId k (fun _ => rfl))⟩
  exact (poolState_modify t.pool peerId k (f := fun s => s) (fun _ => rfl)).trans (by simp)

omit [Libp2p] in
theorem onPeerDisconnected_inAgreement (h : InAgreement t) (now : ℕ) (peerId : NodeId) :
    InAgreement (onPeerDisconnected now peerId t) := by
  intro k
  unfold onPeerDisconnected
  rw [poolState_remove, activeState_markDisconnected, h k]

omit [Libp2p] in
theorem executeTick_inAgreement {ticked : Governor × GovernorActions}
    (h : Tracks t.pool ticked) : InAgreement (executeTick t ticked) :=
  h.agrees

omit [Libp2p] in
theorem executeTick_pool {ticked : Governor × GovernorActions} {k : NodeId}
    (hsome : (poolState (executeTick t ticked).pool k).isSome) : (poolState t.pool k).isSome := by
  unfold executeTick applyGovernorActions at hsome
  dsimp only at hsome
  rw [poolState_applyDisconnects] at hsome
  split_ifs at hsome
  · cases hsome
  · rwa [applyTransitions_isSome] at hsome

theorem onTick_inAgreement (h : InAgreement t) (env : TickEnv) :
    InAgreement (onTick floats env t).2 := by
  rw [onTick_snd, (retryBootnodes_same env _).inAgreement]
  have hgroups : Agrees t.pool (setGroups t.governor env.sets.ourGroups) := h
  exact executeTick_inAgreement (hgroups.tick floats env.iteration env.now)

theorem onTick_pool (env : TickEnv) {k : NodeId}
    (hsome : (poolState (onTick floats env t).2.pool k).isSome) : (poolState t.pool k).isSome := by
  rw [onTick_snd, (retryBootnodes_same env _).pool] at hsome
  exact executeTick_pool hsome

end Handlers

section Connections
variable {pool : Pool} {g : Governor} {peerId : NodeId}

/-- The entry a connection is recorded under is cold, or the peer is new and was
    not dialled. -/
def ColdEntry (g : Governor) (peerId : NodeId) : Option NodeId → Prop
  | some oldId =>
    stateOf g (if (stateOf g oldId).isSome then oldId else peerId) = some .cold
  | none => (stateOf g peerId).all (fun s => s = .cold) = true

instance (g : Governor) (peerId : NodeId) (dialled : Option NodeId) :
    Decidable (ColdEntry g peerId dialled) :=
  match dialled with
  | none => inferInstanceAs (Decidable (_ = true))
  | some _ => inferInstanceAs (Decidable (_ = some PeerState.cold))

theorem marked_agrees_iff (sets : GroupSets) (addrs : List Multiaddr) (isRelay : Bool) (now : ℕ) :
    Agrees (PeerPool.insert pool sets peerId addrs [] .warm 1 isRelay)
        (markConnected g now peerId) ↔
      (stateOf g peerId = some .cold ∨ stateOf g peerId = some .warm) ∧
        ∀ k, k ≠ peerId → poolState pool k = activeState g k := by
  have hself : activeState (markConnected g now peerId) peerId = some .warm ↔
      stateOf g peerId = some .cold ∨ stateOf g peerId = some .warm := by
    unfold activeState
    rw [stateOf_markConnected]
    cases stateOf g peerId with
    | none => simp
    | some s => cases s <;> simp [PeerState.isActive]
  rw [← hself]
  constructor
  · intro h
    refine ⟨?_, fun k hk => ?_⟩
    · rw [← h peerId, poolState_insert, if_pos rfl]
    · rw [← activeState_markConnected_of_ne g peerId k now hk, ← h k, poolState_insert,
        if_neg hk]
  · rintro ⟨hpeer, hothers⟩ k
    rw [poolState_insert]
    split_ifs with hk
    · rw [hk, hpeer]
    · rw [hothers k hk, activeState_markConnected_of_ne g peerId k now hk]

theorem own_entry_iff {g' : Governor} (h : Agrees pool g) (hpeer : poolState pool peerId = none)
    (hsame : ∀ k, stateOf g' k = stateOf g k) (sets : GroupSets) (addrs : List Multiaddr)
    (isRelay : Bool) (now : ℕ) :
    Agrees (PeerPool.insert pool sets peerId addrs [] .warm 1 isRelay)
        (markConnected g' now peerId) ↔ stateOf g peerId = some .cold := by
  have hnot : stateOf g peerId ≠ some .warm := by
    intro hwarm
    have hstate := h peerId
    rw [hpeer, activeState, hwarm] at hstate
    cases hstate
  rw [marked_agrees_iff, hsame]
  simp only [hnot, or_false, and_iff_left_iff_imp]
  intro _ k _
  rw [activeState_congr k (hsame k)]
  exact h k

section Register
variable (h : Agrees pool g) (hpeer : poolState pool peerId = none) (sets : GroupSets)
  (addrs : List Multiaddr) (isRelay : Bool) (now : ℕ)
include h hpeer

theorem register_undialled_iff :
    Agrees (PeerPool.insert pool sets peerId addrs [] .warm 1 isRelay)
        (registerConnected g now peerId addrs none) ↔ ColdEntry g peerId none := by
  cases hentry : g.peers.lookup peerId with
  | none =>
    have hnone : stateOf g peerId = none := stateOf_eq_none_iff.mpr hentry
    have hregister : registerConnected g now peerId addrs none =
        markConnected (addPeer g now peerId addrs []) now peerId := by
      simp only [registerConnected, hentry]
    rw [hregister, marked_agrees_iff]
    refine iff_of_true ⟨.inl ?_, fun k _ => ?_⟩ (by simp [ColdEntry, hnone])
    · rw [stateOf_addPeer, if_pos rfl, hnone, Option.getD_none]
    · rw [activeState_addPeer]
      exact h k
  | some peer =>
    have hregister : registerConnected g now peerId addrs none = markConnected g now peerId := by
      simp only [registerConnected, hentry]
    have hstate : stateOf g peerId = some peer.state :=
      stateOf_eq_some_iff.mpr ⟨peer, hentry, rfl⟩
    rw [hregister, own_entry_iff h hpeer (fun _ => rfl)]
    simp [ColdEntry, hstate]

theorem register_dialled_iff (oldId : NodeId) :
    Agrees (PeerPool.insert pool sets peerId addrs [] .warm 1 isRelay)
        (registerConnected g now peerId addrs (some oldId)) ↔
      ColdEntry g peerId (some oldId) := by
  have hidle : idle g peerId = true :=
    (activeState_eq_none_iff g peerId).mp ((h peerId).symm.trans hpeer)
  change Agrees _ (markConnected (if oldId ≠ peerId then _ else g) now peerId) ↔ _
  by_cases hne : oldId = peerId
  · rw [if_neg (not_not.mpr hne), own_entry_iff h hpeer (fun _ => rfl)]
    simp [ColdEntry, hne]
  rw [if_pos hne]
  cases hold : stateOf g oldId with
  | none =>
    rw [own_entry_iff h hpeer (fun k => stateOf_replaceNodeId_none g [] k hold)]
    simp [ColdEntry, hold]
  | some s =>
    have hcold : ColdEntry g peerId (some oldId) ↔ s = .cold := by simp [ColdEntry, hold]
    have hafter := fun k => stateOf_replaceNodeId g [] k hne hold
    rw [hcold, marked_agrees_iff, hafter, if_neg (Ne.symm hne), if_pos ⟨rfl, hidle⟩]
    constructor
    · rintro ⟨hstate, hothers⟩
      -- the dialled entry has left the governor, so the pool cannot hold it
      have hgone := hothers oldId hne
      rw [h oldId, activeState, activeState, hafter, if_pos rfl, hold] at hgone
      rcases hstate with hstate | hstate
      · exact Option.some.inj hstate
      · rw [Option.some.inj hstate] at hgone
        cases hgone
    · rintro rfl
      refine ⟨.inl rfl, fun k _ => ?_⟩
      rw [activeState_replace_cold g k hne hold]
      exact h k

theorem registerConnected_agrees_iff (dialled : Option NodeId) :
    Agrees (PeerPool.insert pool sets peerId addrs [] .warm 1 isRelay)
        (registerConnected g now peerId addrs dialled) ↔ ColdEntry g peerId dialled := by
  cases dialled with
  | none => exact register_undialled_iff h hpeer sets addrs isRelay now
  | some oldId => exact register_dialled_iff h hpeer sets addrs isRelay now oldId

end Register

end Connections

section Runs
variable {α : Type} [LinearOrder α] [Libp2p] (floats : Floats α)

structure Session where
  task : GovernorTask
  connections : List NodeId

def connectionsAfter (connections : List NodeId) : LoopEvent → List NodeId
  | .peerConnected _ _ peerId _ => peerId :: connections
  | .peerDisconnected _ peerId => connections.filter (fun id => id ≠ peerId)
  | _ => connections

def observe (s : Session) (event : LoopEvent) : Session :=
  ⟨handle floats s.task event, connectionsAfter s.connections event⟩

/-- A peer connects when it has no connection, and disconnects when it has one. -/
def Possible (s : Session) : LoopEvent → Prop
  | .peerConnected _ _ peerId _ => peerId ∉ s.connections
  | .peerDisconnected _ peerId => peerId ∈ s.connections
  | _ => True

instance (s : Session) (event : LoopEvent) : Decidable (Possible s event) :=
  match event with
  | .peerConnected _ _ peerId _ => inferInstanceAs (Decidable (peerId ∉ s.connections))
  | .peerDisconnected _ peerId => inferInstanceAs (Decidable (peerId ∈ s.connections))
  | .tick _ | .pingRtt _ _ _ | .identifyReceived _ _ _ _ | .dialFailure _ _
  | .peersDiscovered _ _ _ | .groupsReceived _ _ _ | .groupsRecorded _ _ _ _ => isTrue trivial

/-- A new connection finds the entry it is recorded under cold. -/
def Recorded (s : Session) : LoopEvent → Prop
  | .peerConnected _ _ peerId addrs =>
    ColdEntry s.task.governor peerId (takeDial s.task.pendingDials addrs).1
  | _ => True

instance (s : Session) (event : LoopEvent) : Decidable (Recorded s event) :=
  match event with
  | .peerConnected _ _ peerId _ =>
    inferInstanceAs (Decidable (ColdEntry s.task.governor peerId _))
  | .tick _ | .peerDisconnected _ _ | .pingRtt _ _ _ | .identifyReceived _ _ _ _
  | .dialFailure _ _ | .peersDiscovered _ _ _ | .groupsReceived _ _ _
  | .groupsRecorded _ _ _ _ => isTrue trivial

structure Sound (s : Session) : Prop where
  agrees : InAgreement s.task
  connected : ∀ id, (poolState s.task.pool id).isSome → id ∈ s.connections

def Aside : LoopEvent → Prop
  | .tick _ => False
  | .peerConnected _ _ _ _ => False
  | .peerDisconnected _ _ => False
  | _ => True

theorem handle_same (t : GovernorTask) {event : LoopEvent} (h : Aside event) :
    SamePeers t (handle floats t event) := by
  cases event with
  | pingRtt now peerId rttMs => exact onPingRtt_same now peerId rttMs t
  | identifyReceived now iteration peerId listenAddrs =>
    exact onIdentifyReceived_same now iteration peerId listenAddrs t
  | dialFailure now peerId => exact onDialFailure_same now peerId t
  | peersDiscovered now ourPeerId peers => exact onPeersDiscovered_same now ourPeerId peers t
  | groupsReceived sets peerId groups =>
    refine ⟨fun k => ?_, fun _ => rfl⟩
    exact (poolState_modify t.pool peerId k (f := fun s => s) (fun _ => rfl)).trans (by simp)
  | groupsRecorded now peerId addrs groups =>
    exact ⟨fun _ => rfl, fun k => activeState_addPeer t.governor peerId k now addrs groups⟩
  | _ => cases h

variable {s : Session}

theorem Sound.inAgreement_iff (h : Sound s) {event : LoopEvent} (hpossible : Possible s event) :
    InAgreement (observe floats s event).task ↔ Recorded s event := by
  have haside : Aside event → InAgreement (observe floats s event).task :=
    fun hevent => (handle_same floats s.task hevent).inAgreement.mpr h.agrees
  cases event with
  | tick env => exact iff_of_true (onTick_inAgreement floats h.agrees env) trivial
  | peerConnected now sets peerId addrs =>
    have hpeer : poolState s.task.pool peerId = none := by
      by_contra hsome
      exact hpossible (h.connected peerId (Option.isSome_iff_ne_none.mpr hsome))
    exact registerConnected_agrees_iff h.agrees hpeer sets addrs _ now _
  | peerDisconnected now peerId =>
    exact iff_of_true (onPeerDisconnected_inAgreement h.agrees now peerId) trivial
  | _ => exact iff_of_true (haside trivial) trivial

theorem Sound.observe (h : Sound s) {event : LoopEvent}
    (hagrees : InAgreement (observe floats s event).task) : Sound (observe floats s event) where
  agrees := hagrees
  connected id hid := by
    have haside : Aside event → id ∈ s.connections := fun hevent =>
      h.connected id ((handle_same floats s.task hevent).pool id ▸ hid)
    cases event with
    | tick env => exact h.connected id (onTick_pool floats env hid)
    | peerConnected now sets peerId addrs =>
      change (poolState (PeerPool.insert _ _ _ _ _ _ _ _) id).isSome at hid
      rw [poolState_insert] at hid
      split_ifs at hid with hpeer
      · exact hpeer ▸ List.mem_cons_self
      · exact List.mem_cons_of_mem peerId (h.connected id hid)
    | peerDisconnected now peerId =>
      change (poolState (remove s.task.pool peerId) id).isSome at hid
      rw [poolState_remove] at hid
      split_ifs at hid with hpeer
      · cases hid
      · exact List.mem_filter.mpr ⟨h.connected id hid, by simpa using hpeer⟩
    | _ => exact haside trivial

theorem start_sound (created : ℕ) (targets : GovernorTargets) (ourGroups : List GroupId)
    (dialPolicy : DialPolicy) (now : ℕ) (resolve : String → Option Multiaddr)
    (bootnodes : List String) :
    Sound ⟨start (withDialPolicy created targets ourGroups dialPolicy) now resolve bootnodes, []⟩ := by
  have hsame := resolveBootnodes_same now resolve bootnodes
    ⟨withDialPolicy created targets ourGroups dialPolicy, .empty, fun _ => none, 0, [], []⟩
  refine ⟨hsame.inAgreement.mpr (fun id => rfl), fun id hid => ?_⟩
  change (poolState (resolveBootnodes now resolve bootnodes _).pool id).isSome at hid
  rw [hsame.pool] at hid
  cases hid

/-- From an empty governor and an empty pool the two agree after every event
    exactly when every new connection finds the entry it is recorded under cold. -/
theorem pool_agrees_iff_recorded (created : ℕ) (targets : GovernorTargets)
    (ourGroups : List GroupId) (dialPolicy : DialPolicy) (now : ℕ)
    (resolve : String → Option Multiaddr) (bootnodes : List String) (events : List LoopEvent)
    (hpossible : Along (observe floats) Possible
      ⟨start (withDialPolicy created targets ourGroups dialPolicy) now resolve bootnodes, []⟩
      events) :
    let s : Session :=
      ⟨start (withDialPolicy created targets ourGroups dialPolicy) now resolve bootnodes, []⟩
    Along (observe floats) (fun s event =>
        let after := (observe floats s event).task
        ∀ id, poolState after.pool id = (stateOf after.governor id).filter PeerState.isActive)
      s events ↔ Along (observe floats) Recorded s events := by
  intro s
  have hboth : Along (observe floats) (fun s event =>
        Possible s event ∧ InAgreement (observe floats s event).task) s events ↔
      Along (observe floats) (fun s event => Possible s event ∧ Recorded s event) s events := by
    refine along_congr (I := Sound) ?_ ?_
      (start_sound created targets ourGroups dialPolicy now resolve bootnodes)
    · exact fun s event hs hevent => hs.observe floats hevent.2
    · exact fun s event hs => and_congr_right (fun hp => hs.inAgreement_iff floats hp)
  rwa [along_and, along_and, and_iff_right hpossible, and_iff_right hpossible] at hboth

end Runs

section Example

def quietNode : Session :=
  let := plainLibp2p
  ⟨start freshGovernor 0 some [], []⟩

def tickAtOnce : TickEnv := ⟨0, plainOrder, ⟨[], none⟩, some⟩

def dialledConnects : List LoopEvent :=
  [.peersDiscovered 0 "us" [⟨"peer-1", ["/ip4/192.0.2.1"], 0, [], "personal"⟩],
    .peerConnected 0 ⟨[], none⟩ "peer-3" ["/ip4/192.0.2.26"],
    .tick tickAtOnce,
    .peerConnected 0 ⟨[], none⟩ "peer-1" ["/ip4/198.51.100.1"]]

def otherConnects : LoopEvent := .peerConnected 0 ⟨[], none⟩ "peer-2" ["/ip4/192.0.2.1"]

theorem dialled_peer_is_recorded :
    let := plainLibp2p
    Along (observe evenFloats) Possible quietNode dialledConnects ∧
      Along (observe evenFloats) (fun s event =>
        let after := (observe evenFloats s event).task
        ∀ id, poolState after.pool id = (stateOf after.governor id).filter PeerState.isActive)
        quietNode dialledConnects := by
  intro _
  have hpossible : Along (observe evenFloats) Possible quietNode dialledConnects := by
    decide +kernel
  refine ⟨hpossible, ?_⟩
  refine (pool_agrees_iff_recorded evenFloats 0 churning [] .all 0 some [] dialledConnects
    hpossible).mpr ?_
  change Along (observe evenFloats) Recorded quietNode dialledConnects
  decide +kernel

/-- The first peer is then in the pool, but the governor has given its entry away. -/
theorem dialled_peer_is_lost :
    let := plainLibp2p
    let s := run (observe evenFloats) quietNode dialledConnects
    let after := (observe evenFloats s otherConnects).task
    Along (observe evenFloats) Possible quietNode (dialledConnects ++ [otherConnects]) ∧
      poolState after.pool "peer-1" = some .warm ∧ stateOf after.governor "peer-1" = none := by
  decide +kernel

end Example
end CordeliaCore.GovernorLoop
