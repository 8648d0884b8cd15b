import CordeliaCore.DialDecisions
import CordeliaCore.EventLogs
import CordeliaCore.NodeConfig
import CordeliaCore.PoolEffect

set_option autoImplicit false

namespace CordeliaCore.PeerGovernor
open ProtocolMessages KeyedTable

section Policy
variable {α : Type} [LinearOrder α] (floats : Floats α) (iteration : Iteration) (now : ℕ)

theorem forEach_dialPolicy (s : Governor × GovernorActions) (ids : List NodeId)
    (e : Edit PeerInfo.nodeId (fun _ => True))
    (report : PeerInfo → GovernorActions → GovernorActions) :
    (forEach s ids e report).1.dialPolicy = s.1.dialPolicy := by
  rw [forEach_fst]

theorem promoteWarmToHot_dialPolicy (s : Governor × GovernorActions) :
    (promoteWarmToHot floats iteration now s).1.dialPolicy = s.1.dialPolicy := by
  unfold promoteWarmToHot
  dsimp only
  split_ifs
  · split
    · split_ifs
      · exact forEach_dialPolicy _ _ _ _
      · rfl
    · rfl
  · exact forEach_dialPolicy _ _ _ _

theorem demoteExcessHot_dialPolicy (s : Governor × GovernorActions) :
    (demoteExcessHot floats iteration now s).1.dialPolicy = s.1.dialPolicy := by
  unfold demoteExcessHot
  split_ifs
  · rfl
  · exact forEach_dialPolicy _ _ _ _

omit [LinearOrder α] in
theorem churn_dialPolicy (s : Governor × GovernorActions) :
    (churn floats iteration now s).1.dialPolicy = s.1.dialPolicy := by
  unfold churn
  dsimp only
  split_ifs
  · rfl
  · rfl
  · exact forEach_dialPolicy _ _ _ _

theorem tick_dialPolicy (g : Governor) :
    (tick floats iteration now g).1.dialPolicy = g.dialPolicy := by
  have hphases : (phases floats iteration now g).1.dialPolicy = g.dialPolicy := by
    unfold phases
    rw [churn_dialPolicy, demoteExcessHot_dialPolicy, promoteWarmToHot_dialPolicy,
      promoteColdToWarm_fst, reapDead_fst]
    rfl
  rw [← hphases]
  unfold tick evictExcessCold
  dsimp only
  split_ifs <;> rfl

theorem addPeer_dialPolicy (g : Governor) (id : NodeId) (addrs : List Multiaddr)
    (groups : List GroupId) : (addPeer g now id addrs groups).dialPolicy = g.dialPolicy := by
  unfold addPeer
  split <;> rfl

theorem moveEntry_dialPolicy (g : Governor) (old new : NodeId) (groups : List GroupId) :
    (moveEntry g old new groups).1.dialPolicy = g.dialPolicy := by
  unfold moveEntry
  split <;> rfl

theorem replaceNodeId_dialPolicy (g : Governor) (old new : NodeId) (groups : List GroupId) :
    (replaceNodeId g old new groups).1.dialPolicy = g.dialPolicy := by
  unfold replaceNodeId
  split
  · split_ifs
    · unfold dropPlaceholder
      split
      · dsimp only
        split_ifs <;> rfl
      · rfl
    · exact moveEntry_dialPolicy g old new groups
  · exact moveEntry_dialPolicy g old new groups

end Policy

section Relays

def RelaysVouched (vouched : NodeId → Prop) (g : Governor) : Prop :=
  ∀ p ∈ g.peers.rows, p.isRelay = true → vouched p.nodeId

variable {vouched : NodeId → Prop} {g : Governor}

theorem RelaysVouched.modifyPeer (h : RelaysVouched vouched g)
    {e : Edit PeerInfo.nodeId (fun _ => True)} {id : NodeId}
    (he : ∀ p, (e.apply p).isRelay = true → p.isRelay = true ∨ vouched id) :
    RelaysVouched vouched (modifyPeer g e id) := by
  intro p hp hrelay
  obtain ⟨old, hold, rfl | ⟨rfl, rfl⟩⟩ := modifyPeer_touched hp
  · exact h p hold hrelay
  · rw [e.key_apply]
    exact (he old hrelay).elim (h old hold) (fun hid => hid)

theorem RelaysVouched.addPeer (h : RelaysVouched vouched g) (now : ℕ) (id : NodeId)
    (addrs : List Multiaddr) (groups : List GroupId) :
    RelaysVouched vouched (addPeer g now id addrs groups) := by
  unfold PeerGovernor.addPeer
  split
  · exact h.modifyPeer (fun p hp => .inl hp)
  · intro p hp hrelay
    rcases (Table.mem_put_iff g.peers trivial).mp hp with rfl | ⟨hold, -⟩
    · cases hrelay
    · exact h p hold hrelay

theorem RelaysVouched.setPeerRelay (h : RelaysVouched vouched g) {id : NodeId} (hid : vouched id) :
    RelaysVouched vouched (setPeerRelay g id true) :=
  h.modifyPeer (fun _ _ => .inr hid)

theorem RelaysVouched.modifyOnly (h : RelaysVouched vouched g)
    {e : Edit PeerInfo.nodeId (fun _ => True)} {q : PeerInfo → Bool} {id : NodeId}
    (he : ∀ p, (e.apply p).isRelay = p.isRelay) :
    RelaysVouched vouched (PeerGovernor.modifyPeer g (e.only q) id) := by
  refine h.modifyPeer (fun p hp => .inl ?_)
  by_cases hq : q p = true
  · rwa [Edit.only_of_pos e hq, he] at hp
  · rwa [Edit.only_of_neg e hq] at hp

theorem RelaysVouched.markConnected (h : RelaysVouched vouched g) (now : ℕ) (id : NodeId) :
    RelaysVouched vouched (markConnected g now id) :=
  h.modifyOnly (fun _ => rfl)

theorem RelaysVouched.markDisconnected (h : RelaysVouched vouched g) (now : ℕ) (id : NodeId) :
    RelaysVouched vouched (markDisconnected g now id) :=
  h.modifyOnly (fun _ => rfl)

theorem RelaysVouched.recordActivity (h : RelaysVouched vouched g) (now : ℕ) (id : NodeId)
    (rttMs : Option ℚ) : RelaysVouched vouched (recordActivity g now id rttMs) :=
  h.modifyPeer (fun _ hp => .inl hp)

theorem RelaysVouched.erase (h : RelaysVouched vouched g) (id : NodeId) :
    RelaysVouched vouched { g with peers := g.peers.erase id } :=
  fun p hp => h p (List.mem_filter.mp hp).1

theorem RelaysVouched.moveEntry (h : RelaysVouched vouched g) {old new : NodeId}
    (hmoved : vouched old → vouched new) (groups : List GroupId) :
    RelaysVouched vouched (moveEntry g old new groups).1 := by
  unfold PeerGovernor.moveEntry
  split
  · next peer hpeer =>
    intro p hp hrelay
    rcases (Table.mem_put_iff (g.peers.erase old) trivial).mp hp with rfl | ⟨hold, -⟩
    · have hid : peer.nodeId = old := Table.key_of_lookup hpeer
      exact hmoved (hid ▸ h peer (Table.mem_of_lookup hpeer) hrelay)
    · exact h.erase old p hold hrelay
  · exact h

theorem RelaysVouched.replaceNodeId (h : RelaysVouched vouched g) {old new : NodeId}
    (hmoved : vouched old → vouched new) (groups : List GroupId) :
    RelaysVouched vouched (replaceNodeId g old new groups).1 := by
  unfold PeerGovernor.replaceNodeId
  split
  · split_ifs
    · unfold dropPlaceholder
      split
      · next peer hpeer =>
        dsimp only
        split_ifs with hrelay
        · have hid : peer.nodeId = old := Table.key_of_lookup hpeer
          exact (h.erase old).setPeerRelay
            (hmoved (hid ▸ h peer (Table.mem_of_lookup hpeer) hrelay))
        · exact h.erase old
      · exact h
    · exact h.moveEntry hmoved groups
  · exact h.moveEntry hmoved groups

theorem RelaysVouched.ticked {α : Type} [LinearOrder α] (h : RelaysVouched vouched g)
    (floats : Floats α) (iteration : Iteration) (now : ℕ) :
    RelaysVouched vouched (tick floats iteration now g).1 := by
  rw [← afterTick]
  intro p hp hrelay
  have hphases := (afterTick_evicts floats iteration now g).origin hp
  obtain ⟨old, hold, hpasses⟩ := afterPhases_passes floats iteration hphases
  have hdescends := hpasses.descends now
  rw [hdescends.nodeId_eq]
  exact h old hold (hdescends.isRelay_eq ▸ hrelay)

end Relays
end CordeliaCore.PeerGovernor

namespace CordeliaCore.GovernorLoop
open ProtocolMessages KeyedTable PeerGovernor PeerPool StepRuns EventLogs Config

/-- What a node goes by when it takes a peer for a relay. -/
inductive Evidence where
  | resolved (boot : String) (addr : Multiaddr)
  | gossiped (id : NodeId)
  /-- A peer took the place of an entry: it was met at an address dialled for the
      entry, or says it listens at one. -/
  | replaced (old new : NodeId)
deriving DecidableEq

def lookups (resolve : String → Option Multiaddr) (boots : List String) : List Evidence :=
  boots.filterMap (fun boot => (resolve boot).map (.resolved boot))

section Evidence
variable [Libp2p]

def gossip (pa : PeerAddress) : Option Evidence :=
  if pa.role = "relay" then (Libp2p.parsePeerId pa.peerId).map .gossiped else none

def heard (boots : List String) (t : GovernorTask) : LoopEvent → List Evidence
  | .tick env => lookups env.resolve boots
  | .peerConnected _ _ peerId addrs =>
    (takeDial t.pendingDials addrs).1.toList.map (.replaced · peerId)
  | .identifyReceived _ iteration peerId listenAddrs =>
    (placeholderFor iteration t.governor peerId listenAddrs).toList.map (.replaced · peerId)
  | .peersDiscovered _ _ peers => peers.filterMap gossip
  | _ => []

inductive Vouched (log : List Evidence) : NodeId → Prop
  | bootnode {boot : String} {addr : Multiaddr} (h : .resolved boot addr ∈ log) :
      Vouched log (Libp2p.placeholderId boot)
  | gossiped {id : NodeId} (h : .gossiped id ∈ log) : Vouched log id
  | replaced {old new : NodeId} (h : .replaced old new ∈ log) (hold : Vouched log old) :
      Vouched log new

theorem Vouched.mono {log more : List Evidence} {id : NodeId} (h : Vouched log id) :
    Vouched (log ++ more) id := by
  induction h with
  | bootnode h => exact .bootnode (List.mem_append_left _ h)
  | gossiped h => exact .gossiped (List.mem_append_left _ h)
  | replaced h _ ih => exact .replaced (List.mem_append_left _ h) ih

def issued {α : Type} [LinearOrder α] (floats : Floats α) (t : GovernorTask) :
    LoopEvent → List SwarmCommand
  | .tick env => (onTick floats env t).1
  | .peerConnected now sets peerId addrs => (onPeerConnected now sets peerId addrs t).1
  | _ => []

end Evidence

section Bootnodes
variable [Libp2p] {boots : List String} {log : List Evidence} {t : GovernorTask}

/-- The state beside the evidence: who counts as a relay is vouched for, and bootnodes are
    those of the configuration at addresses they resolved to. -/
structure Backed (boots : List String) (policy : DialPolicy) (log : List Evidence)
    (t : GovernorTask) : Prop where
  policy : t.governor.dialPolicy = policy
  relays : RelaysVouched (Vouched log) t.governor
  pooled : ∀ h ∈ t.pool.rows, h.isRelay = true → Vouched log h.nodeId
  unresolved : ∀ boot ∈ t.unresolvedBootnodes, boot ∈ boots
  resolved : ∀ b ∈ t.resolvedBootnodeAddrs, b.1 ∈ boots ∧ .resolved b.1 b.2 ∈ log

variable {policy : DialPolicy}

theorem Backed.mono (h : Backed boots policy log t) (more : List Evidence) :
    Backed boots policy (log ++ more) t where
  policy := h.policy
  relays p hp hrelay := (h.relays p hp hrelay).mono
  pooled p hp hrelay := (h.pooled p hp hrelay).mono
  unresolved := h.unresolved
  resolved b hb := ⟨(h.resolved b hb).1, List.mem_append_left _ (h.resolved b hb).2⟩

theorem Backed.governor (h : Backed boots policy log t) {g : Governor}
    (hpolicy : g.dialPolicy = t.governor.dialPolicy) (hrelays : RelaysVouched (Vouched log) g) :
    Backed boots policy log { t with governor := g } :=
  ⟨hpolicy.trans h.policy, hrelays, h.pooled, h.unresolved, h.resolved⟩

theorem Backed.pool (h : Backed boots policy log t) {pool : Pool}
    (hpool : Inherits PeerHandle.isRelay t.pool pool) :
    Backed boots policy log { t with pool := pool } := by
  refine ⟨h.policy, h.relays, fun handle hhandle hrelay => ?_, h.unresolved, h.resolved⟩
  obtain ⟨old, hold, hid, hsame⟩ := hpool handle hhandle
  exact hid ▸ h.pooled old hold (hsame.trans hrelay)

theorem Backed.seeded (h : Backed boots policy log t) {boot : String} (hboot : boot ∈ boots)
    {resolve : String → Option Multiaddr}
    (hlog : ∀ addr, resolve boot = some addr → .resolved boot addr ∈ log) (now : ℕ) :
    Backed boots policy log (resolveBootnode now resolve t boot) := by
  unfold resolveBootnode
  cases hresolve : resolve boot with
  | none =>
    refine ⟨h.policy, h.relays, h.pooled, fun other hother => ?_, h.resolved⟩
    rcases List.mem_append.mp hother with hold | hnew
    · exact h.unresolved other hold
    · exact List.mem_singleton.mp hnew ▸ hboot
  | some addr =>
    refine ⟨(addPeer_dialPolicy _ _ _ _ _).trans h.policy,
      (h.relays.addPeer _ _ _ _).setPeerRelay (.bootnode (hlog addr hresolve)), h.pooled,
      h.unresolved, fun b hb => ?_⟩
    rcases List.mem_append.mp hb with hold | hnew
    · exact h.resolved b hold
    · rw [List.mem_singleton.mp hnew]
      exact ⟨hboot, hlog addr hresolve⟩

theorem Backed.seededAll (h : Backed boots policy log t) {tried : List String}
    (htried : ∀ boot ∈ tried, boot ∈ boots) {resolve : String → Option Multiaddr}
    (hlog : ∀ boot ∈ tried, ∀ addr, resolve boot = some addr → .resolved boot addr ∈ log) (now : ℕ) :
    Backed boots policy log (resolveBootnodes now resolve tried t) := by
  unfold resolveBootnodes
  have hcleared : Backed boots policy log { t with unresolvedBootnodes := [] } :=
    ⟨h.policy, h.relays, h.pooled, nofun, h.resolved⟩
  generalize { t with unresolvedBootnodes := [] } = s at hcleared
  clear h
  induction tried generalizing s with
  | nil => exact hcleared
  | cons boot tried ih =>
    rw [List.foldl_cons]
    refine ih (fun b hb => htried b (List.mem_cons_of_mem boot hb))
      (fun b hb => hlog b (List.mem_cons_of_mem boot hb)) _ ?_
    exact hcleared.seeded (htried boot List.mem_cons_self) (hlog boot List.mem_cons_self) now

omit [Libp2p] in
theorem mem_lookups {resolve : String → Option Multiaddr} {boot : String} {addr : Multiaddr}
    (hboot : boot ∈ boots) (h : resolve boot = some addr) :
    .resolved boot addr ∈ lookups resolve boots :=
  List.mem_filterMap.mpr ⟨boot, hboot, by rw [h]; rfl⟩

theorem backed_start (governor : Governor) (hempty : governor.peers = .empty) (now : ℕ)
    (resolve : String → Option Multiaddr) (boots : List String) :
    Backed boots governor.dialPolicy (lookups resolve boots) (start governor now resolve boots) := by
  have hbare : Backed boots governor.dialPolicy (lookups resolve boots)
      ⟨governor, .empty, fun _ => none, 0, [], []⟩ := by
    refine ⟨rfl, fun p hp => ?_, fun h hh => ?_, fun b hb => ?_, fun b hb => ?_⟩
    · rw [hempty] at hp
      cases hp
    · cases hh
    · cases hb
    · cases hb
  exact hbare.seededAll (fun _ hb => hb) (fun boot hboot addr => mem_lookups hboot) now

end Bootnodes

section Events
variable [Libp2p] {boots : List String} {policy : DialPolicy} {log : List Evidence}
  {t : GovernorTask}

theorem Backed.retried (h : Backed boots policy log t) (env : TickEnv)
    (hlog : ∀ boot ∈ boots, ∀ addr, env.resolve boot = some addr → .resolved boot addr ∈ log) :
    Backed boots policy log (retryBootnodes env t) := by
  unfold retryBootnodes
  split_ifs
  · exact h.seededAll h.unresolved (fun boot hb => hlog boot (h.unresolved boot hb)) _
  · exact h

omit [Libp2p] in
theorem setGroups_vouched {vouched : NodeId → Prop} {g : Governor} (h : RelaysVouched vouched g)
    (groups : List GroupId) : RelaysVouched vouched (setGroups g groups) := h

theorem Backed.executed (h : Backed boots policy log t) {ticked : Governor × GovernorActions}
    (hpolicy : ticked.1.dialPolicy = t.governor.dialPolicy)
    (hrelays : RelaysVouched (Vouched log) ticked.1) :
    Backed boots policy log (executeTick t ticked) :=
  ⟨hpolicy.trans h.policy, hrelays,
    (h.pool (inherits_executeTick (fun _ _ _ _ => rfl) t ticked)).pooled, h.unresolved, h.resolved⟩

theorem Backed.ticked (h : Backed boots policy log t) (env : TickEnv)
    {ticked : Governor × GovernorActions}
    (hpolicy : ticked.1.dialPolicy = t.governor.dialPolicy)
    (hrelays : RelaysVouched (Vouched (log ++ lookups env.resolve boots)) ticked.1) :
    Backed boots policy (log ++ lookups env.resolve boots)
      (retryBootnodes env (executeTick t ticked)) := by
  refine ((h.mono _).executed hpolicy hrelays).retried env ?_
  exact fun boot hboot addr haddr => List.mem_append_right _ (mem_lookups hboot haddr)

theorem Backed.atTick {α : Type} [LinearOrder α] (floats : Floats α) (h : Backed boots policy log t)
    (env : TickEnv) :
    Backed boots policy (log ++ lookups env.resolve boots) (onTick floats env t).2 := by
  rw [onTick_snd]
  refine h.ticked env ?_ ?_
  · rw [tick_dialPolicy]
    rfl
  · exact (setGroups_vouched (h.mono _).relays env.sets.ourGroups).ticked floats env.iteration env.now

omit [Libp2p] in
theorem registerConnected_dialPolicy (g : Governor) (now : ℕ) (id : NodeId) (addrs : List Multiaddr)
    (dialled : Option NodeId) :
    (registerConnected g now id addrs dialled).dialPolicy = g.dialPolicy := by
  unfold registerConnected
  split
  · split_ifs
    · exact replaceNodeId_dialPolicy _ _ _ _
    · rfl
  · split
    · rfl
    · exact addPeer_dialPolicy _ _ _ _ _

omit [Libp2p] in
theorem registerConnected_vouched {vouched : NodeId → Prop} {g : Governor}
    (h : RelaysVouched vouched g) (now : ℕ) {id : NodeId} (addrs : List Multiaddr)
    {dialled : Option NodeId} (hdialled : ∀ old, dialled = some old → vouched old → vouched id) :
    RelaysVouched vouched (registerConnected g now id addrs dialled) := by
  unfold registerConnected
  split
  · next old =>
    split_ifs
    · exact (h.replaceNodeId (hdialled old rfl) []).markConnected now id
    · exact h.markConnected now id
  · split
    · exact h.markConnected now id
    · exact (h.addPeer now id addrs []).markConnected now id

theorem Backed.connected (h : Backed boots policy log t) (now : ℕ) (sets : GroupSets)
    (id : NodeId) (addrs : List Multiaddr) :
    Backed boots policy (log ++ (takeDial t.pendingDials addrs).1.toList.map (.replaced · id))
      (onPeerConnected now sets id addrs t).2 := by
  have hlogged := h.mono ((takeDial t.pendingDials addrs).1.toList.map (.replaced · id))
  have hrelays := registerConnected_vouched hlogged.relays now addrs
    (fun old (hold : (takeDial t.pendingDials addrs).1 = some old) hvouched =>
      .replaced (List.mem_append_right _ (List.mem_map.mpr ⟨old, by simp [hold], rfl⟩)) hvouched)
  refine ⟨(registerConnected_dialPolicy _ _ _ _ _).trans h.policy, hrelays,
    fun handle hhandle hrelay => ?_, h.unresolved, hlogged.resolved⟩
  rcases (Table.mem_put_iff t.pool trivial).mp hhandle with rfl | ⟨hold, -⟩
  · obtain ⟨p, hp, hflag⟩ := (Option.any_eq_true _ _).mp hrelay
    have hid : p.nodeId = id := Table.key_of_lookup hp
    exact hid ▸ hrelays p (Table.mem_of_lookup hp) hflag
  · exact hlogged.pooled handle hold hrelay

theorem Backed.learnsAddrs (h : Backed boots policy log t) (now : ℕ) (id : NodeId)
    (addrs : List Multiaddr) : Backed boots policy log (learnAddrs now id addrs t) := by
  unfold learnAddrs
  split
  · next handle _ =>
    split_ifs
    · exact (h.governor (addPeer_dialPolicy _ _ _ _ _) (h.relays.addPeer now id addrs _)).pool
        (inherits_modify t.pool (fun _ => rfl) id)
    · exact h
  · exact h

theorem Backed.identified (h : Backed boots policy log t) (now : ℕ) (iteration : Iteration)
    (id : NodeId) (listenAddrs : List Multiaddr) :
    Backed boots policy
      (log ++ (placeholderFor iteration t.governor id listenAddrs).toList.map (.replaced · id))
      (onIdentifyReceived now iteration id listenAddrs t) := by
  unfold onIdentifyReceived
  have hlogged :=
    h.mono ((placeholderFor iteration t.governor id listenAddrs).toList.map (.replaced · id))
  refine Backed.learnsAddrs ?_ now id _
  cases hplaceholder : placeholderFor iteration t.governor id listenAddrs with
  | none => exact h.mono _
  | some old =>
    rw [hplaceholder] at hlogged
    refine hlogged.governor (replaceNodeId_dialPolicy _ _ _ _) (hlogged.relays.replaceNodeId ?_ [])
    exact Vouched.replaced (List.mem_append_right _ (List.mem_singleton.mpr rfl))

theorem Backed.discovers (h : Backed boots policy log t) (now : ℕ) (ourPeerId : NodeId)
    (peers : List PeerAddress) : Backed boots policy (log ++ peers.filterMap gossip)
      (onPeersDiscovered now ourPeerId peers t) := by
  suffices hall : ∀ (more : List PeerAddress), (∀ pa ∈ more, pa ∈ peers) → ∀ g : Governor,
      g.dialPolicy = policy → RelaysVouched (Vouched (log ++ peers.filterMap gossip)) g →
      (more.foldl (discoverPeer now ourPeerId) g).dialPolicy = policy ∧
        RelaysVouched (Vouched (log ++ peers.filterMap gossip))
          (more.foldl (discoverPeer now ourPeerId) g) by
    obtain ⟨hpolicy, hrelays⟩ := hall peers (fun _ hp => hp) t.governor h.policy (h.mono _).relays
    exact (h.mono _).governor (hpolicy.trans h.policy.symm) hrelays
  intro more
  induction more with
  | nil => exact fun _ g hpolicy hrelays => ⟨hpolicy, hrelays⟩
  | cons pa more ih =>
    intro hmore g hpolicy hrelays
    have hpa : pa ∈ peers := hmore pa List.mem_cons_self
    refine ih (fun b hb => hmore b (List.mem_cons_of_mem pa hb)) _ ?_ ?_
    · unfold discoverPeer
      split
      · exact hpolicy
      · dsimp only
        split_ifs
        · exact hpolicy
        · exact (addPeer_dialPolicy _ _ _ _ _).trans hpolicy
        · exact (addPeer_dialPolicy _ _ _ _ _).trans hpolicy
    · unfold discoverPeer
      split
      · exact hrelays
      · next id hid =>
        dsimp only
        split_ifs with _ hrole
        · exact hrelays
        · refine (hrelays.addPeer _ _ _ _).setPeerRelay (.gossiped (List.mem_append_right _ ?_))
          exact List.mem_filterMap.mpr ⟨pa, hpa, by rw [gossip, if_pos hrole, hid]; rfl⟩
        · exact hrelays.addPeer _ _ _ _

theorem Backed.handled {α : Type} [LinearOrder α] (floats : Floats α)
    (h : Backed boots policy log t) (event : LoopEvent) :
    Backed boots policy (log ++ heard boots t event) (handle floats t event) := by
  have hquiet := h.mono []
  cases event with
  | tick env => exact h.atTick floats env
  | peerConnected now sets id addrs => exact h.connected now sets id addrs
  | peerDisconnected now id =>
    have hmarked := hquiet.governor (g := markDisconnected t.governor now id) rfl
      (hquiet.relays.markDisconnected now id)
    exact hmarked.pool (inherits_remove t.pool id)
  | pingRtt now id rttMs =>
    have hrecorded := hquiet.governor (g := recordActivity t.governor now id (some rttMs)) rfl
      (hquiet.relays.recordActivity now id (some rttMs))
    have hpool : Inherits PeerHandle.isRelay t.pool (updateRtt t.pool id rttMs) :=
      inherits_modify t.pool (fun _ => rfl) id
    exact hrecorded.pool hpool
  | identifyReceived now iteration id listenAddrs => exact h.identified now iteration id listenAddrs
  | dialFailure now id =>
    cases id with
    | none => exact hquiet
    | some id => exact hquiet.governor rfl (hquiet.relays.modifyPeer (fun _ hp => .inl hp))
  | peersDiscovered now ourPeerId peers => exact h.discovers now ourPeerId peers
  | groupsReceived sets id groups => exact hquiet.pool (inherits_modify t.pool (fun _ => rfl) id)
  | groupsRecorded now id addrs groups =>
    exact hquiet.governor (addPeer_dialPolicy _ _ _ _ _) (hquiet.relays.addPeer now id addrs groups)

end Events

section Dials
variable [Libp2p] {α : Type} [LinearOrder α] (floats : Floats α)

omit [Libp2p] in
theorem mem_dialsOf_tick {iteration : Iteration} {now : ℕ} {g : Governor}
    {dial : Multiaddr × NodeId}
    (h : dial ∈ dialsOf (tick floats iteration now g).1 (tick floats iteration now g).2.connect) :
    ∃ peer ∈ g.peers.rows, peer.nodeId = dial.2 ∧ peer.addrs.head? = some dial.1 ∧
      isDialable g peer = true := by
  obtain ⟨id, hid, hfound⟩ := List.mem_filterMap.mp h
  obtain ⟨addr, haddr, rfl⟩ := Option.map_eq_some_iff.mp hfound
  obtain ⟨after, hafter, hhead⟩ := Option.bind_eq_some_iff.mp haddr
  obtain ⟨peer, hdial⟩ := soundDial_of_mem floats iteration now g hid
  rw [← afterTick] at hafter
  have hphases := (afterTick_evicts floats iteration now g).origin (Table.mem_of_lookup hafter)
  obtain ⟨old, hold, hpasses⟩ := afterPhases_passes floats iteration hphases
  have hkey : old.nodeId = id := hpasses.nodeId_eq.symm.trans (Table.key_of_lookup hafter)
  have hsame : old = peer := by
    have hlookup := g.peers.lookup_key hold
    rw [hkey, hdial.known] at hlookup
    exact (Option.some.inj hlookup).symm
  have haddrs : after.addrs = old.addrs := hpasses.kept (fun _ _ _ _ _ => rfl)
  exact ⟨old, hold, hkey, haddrs ▸ hhead, hsame ▸ hdial.dialable⟩

def Permitted [Lowercase] (cfg : NodeConfig) (log : List Evidence) (id : NodeId) : Prop :=
  match cfg.nodeRole with
  | .relay => True
  | .personal => Vouched log id
  | .keeper => ∃ relay ∈ cfg.trustedRelays, id = Libp2p.placeholderId relay

theorem permitted_of_dialable [Lowercase] {cfg : NodeConfig} {log : List Evidence} {g : Governor}
    (hpolicy : g.dialPolicy = cfg.dialPolicy) (hrelays : RelaysVouched (Vouched log) g)
    {peer : PeerInfo} (hpeer : peer ∈ g.peers.rows) (h : isDialable g peer = true) :
    Permitted cfg log peer.nodeId := by
  unfold isDialable at h
  rw [hpolicy] at h
  unfold Permitted
  unfold NodeConfig.dialPolicy dialPolicyOf at h
  cases hrole : cfg.nodeRole with
  | relay => trivial
  | personal =>
    rw [hrole] at h
    exact hrelays peer hpeer h
  | keeper =>
    rw [hrole] at h
    obtain ⟨relay, hrelay, hid⟩ := List.mem_map.mp (List.contains_iff_mem.mp h)
    exact ⟨relay, hrelay, hid.symm⟩

theorem mem_redialBootnodes {boots : List String} {policy : DialPolicy} {log : List Evidence}
    {t : GovernorTask} (h : Backed boots policy log t) {env : TickEnv} {addr : Multiaddr}
    (hlog : ∀ boot ∈ boots, ∀ addr, env.resolve boot = some addr → .resolved boot addr ∈ log)
    (haddr : .dial addr ∈ redialBootnodes env t) : ∃ boot ∈ boots, .resolved boot addr ∈ log := by
  unfold redialBootnodes at haddr
  split_ifs at haddr
  · obtain ⟨b, hb, hdial⟩ := List.mem_map.mp haddr
    obtain ⟨hboot, hresolved⟩ := h.resolved b (List.mem_filter.mp hb).1
    injection hdial with hdial
    refine ⟨b.1, hboot, ?_⟩
    cases hfresh : env.resolve b.1 with
    | none =>
      rw [hfresh, Option.getD_none] at hdial
      exact hdial ▸ hresolved
    | some fresh =>
      rw [hfresh, Option.getD_some] at hdial
      exact hdial ▸ hlog b.1 hboot fresh hfresh
  · cases haddr

variable [Lowercase]

/-- However a configured node fares, whom it takes for a relay is vouched for by its
    bootnodes, by gossip and by who took whose place; and what it dials is an
    address that one of its bootnodes resolved to, or the first one of a peer that
    its role permits. -/
theorem dials_keep_to_role (cfg : NodeConfig) (created now : ℕ) (sharedGroups : List GroupId)
    (resolve : String → Option Multiaddr) (events : List LoopEvent) (event : LoopEvent) :
    let first := start (cfg.startGovernor created sharedGroups) now resolve cfg.bootnodes
    let t := run (handle floats) first events
    let log := lookups resolve cfg.bootnodes ++
      collected (handle floats) (heard cfg.bootnodes) first (events ++ [event])
    (∀ h ∈ t.pool.rows, h.isRelay = true → Vouched log h.nodeId) ∧
      ∀ addr, .dial addr ∈ issued floats t event →
        (∃ boot ∈ cfg.bootnodes, .resolved boot addr ∈ log) ∨
          ∃ peer ∈ t.governor.peers.rows, peer.addrs.head? = some addr ∧
            Permitted cfg log peer.nodeId := by
  intro first t log
  have hfirst : Backed cfg.bootnodes cfg.dialPolicy (lookups resolve cfg.bootnodes) first :=
    backed_start (cfg.startGovernor created sharedGroups) rfl now resolve cfg.bootnodes
  have hpast := invariant_collected (I := Backed cfg.bootnodes cfg.dialPolicy)
    (fun _ _ event h => h.handled floats event) hfirst events
  have hlog : log = (lookups resolve cfg.bootnodes ++
      collected (handle floats) (heard cfg.bootnodes) first events) ++ heard cfg.bootnodes t event := by
    change _ ++ collected _ _ _ (events ++ [event]) = _
    rw [collected_append, List.append_assoc, collected_cons, collected_nil, List.append_nil]
  have hnow : Backed cfg.bootnodes cfg.dialPolicy log t := hlog ▸ hpast.mono _
  refine ⟨hnow.pooled, fun addr haddr => ?_⟩
  cases event with
  | tick env =>
    have hafter : Backed cfg.bootnodes cfg.dialPolicy log (onTick floats env t).2 :=
      hlog ▸ hpast.atTick floats env
    have hlooked : ∀ boot ∈ cfg.bootnodes, ∀ addr, env.resolve boot = some addr →
        .resolved boot addr ∈ log := by
      intro boot hboot addr hresolve
      rw [hlog]
      exact List.mem_append_right _ (mem_lookups hboot hresolve)
    rcases List.mem_append.mp haddr with haddr | hexchange
    · rcases List.mem_append.mp haddr with haddr | hredial
      · rcases List.mem_append.mp haddr with hdisconnect | hdial
        · obtain ⟨_, _, hne⟩ := List.mem_map.mp hdisconnect
          cases hne
        · obtain ⟨dial, hdial, heq⟩ := List.mem_map.mp hdial
          injection heq with heq
          obtain ⟨peer, hpeer, -, hhead, hdialable⟩ := mem_dialsOf_tick floats hdial
          exact .inr ⟨peer, hpeer, heq ▸ hhead, permitted_of_dialable
            (g := setGroups t.governor env.sets.ourGroups) hnow.policy hnow.relays hpeer hdialable⟩
      · exact .inl (mem_redialBootnodes hafter hlooked hredial)
    · unfold exchangeGroups at hexchange
      split_ifs at hexchange
      · obtain ⟨_, _, hne⟩ := List.mem_map.mp hexchange
        cases hne
      · cases hexchange
  | peerConnected now sets id addrs =>
    cases List.mem_singleton.mp haddr
  | _ => cases haddr

end Dials

section Example

def personalConfig : NodeConfig :=
  ⟨"Personal", "alice", ["seed-drill"], [], [], .default, .default, none⟩

def heardOfTwo : List LoopEvent :=
  [.peersDiscovered 0 "us" [⟨"peer-1", ["/ip4/192.0.2.1"], 0, [], "relay"⟩,
    ⟨"peer-2", ["/ip4/192.0.2.2"], 0, [], "personal"⟩]]

def firstTick : TickEnv := ⟨0, plainOrder, ⟨[], none⟩, fun _ => none⟩

theorem gossiped_relay_dialled :
    let := plainLibp2p
    let := asciiLowercase
    let first := start (personalConfig.startGovernor 0 []) 0 (fun _ => none) []
    let t := run (handle evenFloats) first heardOfTwo
    let log := collected (handle evenFloats) (heard []) first (heardOfTwo ++ [.tick firstTick])
    issued evenFloats t (.tick firstTick) = [.dial "/ip4/192.0.2.1"] ∧
      ∃ peer ∈ t.governor.peers.rows, peer.addrs.head? = some "/ip4/192.0.2.1" ∧
        Vouched log peer.nodeId := by
  intro _ _ first t log
  have hdials : issued evenFloats t (.tick firstTick) = [.dial "/ip4/192.0.2.1"] := by
    decide +kernel
  have hrole : personalConfig.nodeRole = .personal := by
    decide +kernel
  obtain ⟨-, hkept⟩ := dials_keep_to_role evenFloats personalConfig 0 0 [] (fun _ => none)
    heardOfTwo (.tick firstTick)
  rcases hkept "/ip4/192.0.2.1" (hdials ▸ List.mem_singleton_self _) with
    ⟨boot, hboot, -⟩ | ⟨peer, hpeer, hhead, hpermitted⟩
  · cases hboot
  · unfold Permitted at hpermitted
    rw [hrole] at hpermitted
    exact ⟨hdials, peer, hpeer, hhead, hpermitted⟩

end Example
end CordeliaCore.GovernorLoop
