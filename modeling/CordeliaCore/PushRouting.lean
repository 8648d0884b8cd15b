import CordeliaCore.EventLogs
import CordeliaCore.NodeTasks
import CordeliaCore.PoolEffect
import CordeliaCore.RetryQueue

set_option autoImplicit false

namespace CordeliaCore.NodeTasks
open CryptoPrimitives ProtocolMessages StorageRows Replication ReplicationEngine Api
open KeyedTable PeerGovernor PeerPool GovernorLoop ReplicationLoop RetryQueue StepRuns EventLogs

section Governor
variable {α : Type} [LinearOrder α] [Libp2p] (floats : Floats α)

/-- What a peer answers to an exchange, when the answer is taken in. -/
def announcement (node : Node) : NodeEvent → List (NodeId × List GroupId)
  | .answered i groups =>
    ((node.exchanges[i]?).filter (fun x => x.stage = .awaiting)).toList.map
      (fun x => (x.peerId, groups))
  | _ => []

/-- Whoever shares a group has announced it. -/
def Credited (log : List (NodeId × List GroupId)) (pool : Pool) : Prop :=
  ∀ h ∈ pool.rows, ∀ g ∈ h.groupIntersection, ∃ groups, (h.nodeId, groups) ∈ log ∧ g ∈ groups

variable {log : List (NodeId × List GroupId)}

omit [Libp2p] in
theorem Credited.inherits {pool after : Pool} (h : Credited log pool)
    (hi : Inherits PeerHandle.groupIntersection pool after) : Credited log after := by
  intro handle hhandle g hg
  obtain ⟨old, hold, hid, hgroups⟩ := hi handle hhandle
  rw [← hgroups] at hg
  rw [← hid]
  exact h old hold g hg

omit [Libp2p] in
theorem Credited.insert {pool : Pool} (h : Credited log pool) (sets : GroupSets) (id : NodeId)
    (addrs : List Multiaddr) (isRelay : Bool) :
    Credited log (PeerPool.insert pool sets id addrs [] .warm 1 isRelay) := by
  intro handle hhandle g hg
  rcases (Table.mem_put_iff pool trivial).mp hhandle with rfl | ⟨hold, -⟩
  · cases hg
  · exact h handle hold g hg

theorem Credited.branch {t : GovernorTask} (h : Credited log t.pool) (sets : GroupSets) (b : Branch) :
    Credited log (handle floats t (b.event sets)).pool := by
  cases b with
  | peerConnected now peerId addr => exact h.insert sets peerId [addr] _
  | _ => exact h.inherits (inherits_handle (fun _ _ _ _ => rfl) floats t nofun nofun)

omit [Libp2p] in
theorem Credited.mono {more : List (NodeId × List GroupId)} {pool : Pool} (h : Credited log pool) :
    Credited (log ++ more) pool := by
  intro handle hhandle g hg
  obtain ⟨groups, hin, hmem⟩ := h handle hhandle g hg
  exact ⟨groups, List.mem_append_left _ hin, hmem⟩

omit [Libp2p] in
theorem Credited.updatePeerGroups {pool : Pool} (h : Credited log pool) (sets : GroupSets)
    (id : NodeId) (groups : List GroupId) :
    Credited (log ++ [(id, groups)]) (updatePeerGroups pool sets id groups) := by
  intro handle hhandle g hg
  rcases Table.mem_edit_only hhandle with ⟨hold, -⟩ | ⟨old, -, hid, rfl⟩
  · exact h.mono handle hold g hg
  · refine ⟨groups, List.mem_append_right _ (List.mem_singleton.mpr ?_), (List.mem_filter.mp hg).1⟩
    exact congrArg (·, groups) (of_decide_eq_true hid)

theorem Credited.nodeStep {node : Node} (h : Credited log node.task.pool) (event : NodeEvent) :
    Credited (log ++ announcement node event) (nodeStep floats node event).task.pool := by
  cases event with
  | branch b => exact (h.branch floats node.sets b).mono
  | shared groups => exact h.mono
  | answered i groups =>
    unfold GovernorLoop.nodeStep announcement
    dsimp only
    cases hx : node.exchanges[i]? with
    | none => exact h.mono
    | some x =>
      dsimp only
      by_cases hstage : x.stage = .awaiting
      · rw [if_pos hstage, Option.filter_some, if_pos (by simpa using hstage)]
        exact h.updatePeerGroups node.sets x.peerId groups
      · rw [if_neg hstage]
        exact h.mono
  | proceeds i now =>
    unfold GovernorLoop.nodeStep
    dsimp only
    cases hx : node.exchanges[i]? with
    | none => exact h.mono
    | some x =>
      have hpool : (access node now x).1.task.pool = node.task.pool := by
        unfold access
        split <;> rfl
      change Credited _ (access node now x).1.task.pool
      rw [hpool]
      exact h.mono

end Governor

section Queues
variable {σ : Type}

/-- The queues keep the items of each group together. -/
structure Sorted (s : LoopState σ) : Prop where
  keys : (s.writeBuffer.map Prod.fst).Nodup
  buffered : ∀ entry ∈ s.writeBuffer, ∀ item ∈ entry.2, item.groupId = entry.1
  pending : ∀ push ∈ s.pendingPushes, ∀ item ∈ push.items, item.groupId = push.groupId

theorem Sorted.congr {s t : LoopState σ} (h : Sorted s) (heq : queues t = queues s) : Sorted t := by
  injection heq with hbuffer hpending
  exact ⟨hbuffer ▸ h.keys, hbuffer ▸ h.buffered, hpending ▸ h.pending⟩

theorem sorted_start (storage : σ) : Sorted (LoopState.start storage) :=
  ⟨List.nodup_nil, by simp [LoopState.start], by simp [LoopState.start]⟩

theorem mem_pushBuffered_entry {buffer : List (String × List FetchedItem)} {groupId : String}
    {item : FetchedItem} {entry : String × List FetchedItem}
    (h : entry ∈ pushBuffered buffer groupId item) {x : FetchedItem} (hx : x ∈ entry.2) :
    x = item ∧ entry.1 = groupId ∨ ∃ old ∈ buffer, old.1 = entry.1 ∧ x ∈ old.2 := by
  unfold pushBuffered at h
  split_ifs at h
  · obtain ⟨old, hold, rfl⟩ := List.mem_map.mp h
    split_ifs at hx ⊢ with hgroup
    · rcases List.mem_append.mp hx with hx | hx
      · exact .inr ⟨old, hold, rfl, hx⟩
      · exact .inl ⟨List.mem_singleton.mp hx, hgroup⟩
    · exact .inr ⟨old, hold, rfl, hx⟩
  · rcases List.mem_append.mp h with hold | hnew
    · exact .inr ⟨entry, hold, rfl, hx⟩
    · obtain rfl := List.mem_singleton.mp hnew
      exact .inl ⟨List.mem_singleton.mp hx, rfl⟩

theorem Sorted.pushBuffered {s : LoopState σ} (h : Sorted s) (item : FetchedItem) :
    Sorted { s with writeBuffer := pushBuffered s.writeBuffer item.groupId item } where
  keys := nodup_pushBuffered h.keys
  buffered := by
    intro entry hentry x hx
    rcases mem_pushBuffered_entry hentry hx with ⟨rfl, hgroup⟩ | ⟨old, hold, hkey, hxold⟩
    · exact hgroup.symm
    · exact hkey ▸ h.buffered old hold x hxold
  pending := h.pending

theorem Sorted.flush {s : LoopState σ} (h : Sorted s) (env : Surroundings) :
    Sorted (flush env s).2 where
  keys := List.nodup_nil
  buffered := by
    intro entry hentry
    cases hentry
  pending := by
    intro push hpush item hitem
    rcases List.mem_append.mp hpush with hold | hnew
    · exact h.pending push hold item hitem
    · obtain ⟨_, hflushed, hsome⟩ := List.mem_filterMap.mp hnew
      obtain ⟨entry, hentry, rfl⟩ := List.mem_map.mp hflushed
      unfold flushEntry at hsome
      split_ifs at hsome
      obtain rfl := Option.some.inj hsome
      exact h.buffered entry hentry item hitem

theorem Sorted.retry {s : LoopState σ} (h : Sorted s) (env : Surroundings) :
    Sorted (retry env s).2 where
  keys := h.keys
  buffered := h.buffered
  pending := by
    intro push hpush item hitem
    obtain ⟨_, hretried, hsome⟩ := List.mem_filterMap.mp hpush
    obtain ⟨old, hold, rfl⟩ := List.mem_map.mp hretried
    have hsame : push.groupId = old.groupId ∧ push.items = old.items := by
      unfold retryPush at hsome
      split_ifs at hsome
      · obtain rfl := Option.some.inj hsome
        exact ⟨rfl, rfl⟩
      · obtain rfl := Option.some.inj hsome
        exact ⟨rfl, rfl⟩
    rw [hsame.1]
    exact h.pending old hold item (hsame.2 ▸ hitem)

theorem Sorted.step [Storage σ] [Sha256] [CultureJson] (config : LoopConfig) (env : Surroundings)
    {s : LoopState σ} (h : Sorted s) (event : ReplicationLoop.LoopEvent) :
    Sorted (ReplicationLoop.step config env s event).2 := by
  cases event with
  | write notif =>
    by_cases heager : ∃ groupId, Eager s notif groupId
    · obtain ⟨groupId, heager⟩ := heager
      change Sorted (receiveWrite config env s notif)
      rw [receiveWrite_of_eager config env s heager]
      exact h.pushBuffered (writtenItem config env notif groupId)
    · change Sorted (receiveWrite config env s notif)
      rw [receiveWrite_of_not_eager config env s (fun groupId hg => heager ⟨groupId, hg⟩)]
      exact h
  | lagged missed => exact h
  | flushTick => exact h.flush env
  | retryTick => exact h.retry env
  | syncBaseTick => exact h.congr (syncAll_queues config env s)
  | bootstrap groupId => exact h.congr (bootstrapGroup_queues config env s groupId)
  | gcTick => exact h.congr rfl

/-- A push of sorted queues has the items of one group and goes to its peers. -/
theorem Sorted.push [Storage σ] [Sha256] [CultureJson] {config : LoopConfig} {env : Surroundings}
    {s : LoopState σ} (h : Sorted s) {event : ReplicationLoop.LoopEvent} {push : SendMemoryPush}
    (hpush : push ∈ (ReplicationLoop.step config env s event).1) :
    ∃ groupId, (∀ item ∈ push.request.items, item.groupId = groupId) ∧
      push.peer ∈ env.activePeersForGroupOrRelays groupId := by
  have hbatch : ∀ {groupId items}, push ∈ sendBatches (env.activePeersForGroupOrRelays groupId) items →
      push.peer ∈ env.activePeersForGroupOrRelays groupId := by
    intro groupId items hsent
    obtain ⟨batch, _, hsent⟩ := List.mem_flatMap.mp hsent
    obtain ⟨peer, hpeer, rfl⟩ := List.mem_map.mp hsent
    exact hpeer
  cases event with
  | flushTick =>
    obtain ⟨_, hflushed, hsent⟩ := List.mem_flatMap.mp hpush
    obtain ⟨entry, hentry, rfl⟩ := List.mem_map.mp hflushed
    refine ⟨entry.1, fun item hi => h.buffered entry hentry item (flushEntry_pushes hsent hi), ?_⟩
    unfold flushEntry at hsent
    split_ifs at hsent
    · cases hsent
    · exact hbatch hsent
  | retryTick =>
    obtain ⟨_, hretried, hsent⟩ := List.mem_flatMap.mp hpush
    obtain ⟨old, hold, rfl⟩ := List.mem_map.mp hretried
    refine ⟨old.groupId, fun item hi => h.pending old hold item (retryPush_pushes hsent hi), ?_⟩
    unfold retryPush at hsent
    by_cases hearly : env.instant < old.nextAt
    · rw [if_pos hearly] at hsent
      cases hsent
    · rw [if_neg hearly] at hsent
      exact hbatch hsent
  | write notif => cases hpush
  | lagged missed => cases hpush
  | syncBaseTick => cases hpush
  | bootstrap groupId => cases hpush
  | gcTick => cases hpush

end Queues

section Routing
variable {σ : Type} [Storage σ] [Sha256] [CultureJson] {α : Type} [LinearOrder α] [Libp2p]
variable (floats : Floats α) (config : LoopConfig)

instance (s : LoopState σ) (notif : WriteNotification) (groupId : String) :
    Decidable (Eager s notif groupId) :=
  inferInstanceAs (Decidable (_ ∧ _ ∧ _))

def announced (t : Tasks σ) : TaskEvent σ → List (NodeId × List GroupId)
  | .governor event => announcement t.node event
  | _ => []

def written (t : Tasks σ) : TaskEvent σ → List FetchedItem
  | .replication readings (.write notif) =>
    (notif.groupId.filter (fun groupId => Eager t.replication notif groupId)).toList.map
      (writtenItem config (surroundings config t.node readings) notif)
  | _ => []

omit [Libp2p] in
theorem exists_of_mem_written {t : Tasks σ} {event : TaskEvent σ} {item : FetchedItem}
    (h : item ∈ written config t event) : ∃ readings notif,
      event = .replication readings (.write notif) ∧ Eager t.replication notif item.groupId ∧
        item = writtenItem config (surroundings config t.node readings) notif item.groupId := by
  cases event with
  | governor event => cases h
  | elsewhere storage => cases h
  | replication readings event =>
    cases event with
    | write notif =>
      obtain ⟨groupId, hgroup, rfl⟩ := List.mem_map.mp h
      rw [Option.mem_toList, Option.filter_eq_some_iff] at hgroup
      exact ⟨readings, notif, rfl, of_decide_eq_true hgroup.2, rfl⟩
    | _ => cases h

structure Accounted (announcements : List (NodeId × List GroupId)) (writes : List FetchedItem)
    (t : Tasks σ) : Prop where
  credited : Credited announcements t.node.task.pool
  sorted : Sorted t.replication
  queued : ∀ item ∈ queued t.replication, item ∈ writes

variable {announcements : List (NodeId × List GroupId)} {writes : List FetchedItem} {t : Tasks σ}

omit [Sha256] [CultureJson] [LinearOrder α] [Libp2p] in
theorem inherits_countDelivered (pool : Pool) (push : SendMemoryPush) :
    Inherits PeerHandle.groupIntersection pool (countDelivered pool push) :=
  inherits_modify pool (fun _ => rfl) push.peer

theorem accounted_step (h : Accounted announcements writes t) (event : TaskEvent σ) :
    Accounted (announcements ++ announced t event) (writes ++ written config t event)
      (step floats config t event) := by
  cases event with
  | governor event =>
    refine ⟨h.credited.nodeStep floats event, h.sorted, fun item hitem => ?_⟩
    exact List.mem_append_left _ (h.queued item hitem)
  | replication readings event =>
    refine ⟨(h.credited.inherits (inherits_foldl inherits_countDelivered _ _)).mono,
      h.sorted.step config _ event, fun item hitem => ?_⟩
    rcases step_queued config _ t.replication hitem with hold | ⟨notif, groupId, rfl, heager, rfl⟩
    · exact List.mem_append_left _ (h.queued item hold)
    · refine List.mem_append_right _ (List.mem_map.mpr ⟨groupId, ?_, rfl⟩)
      rw [heager.1, Option.filter_some, if_pos (decide_eq_true heager)]
      exact List.mem_singleton.mpr rfl
  | elsewhere storage =>
    refine ⟨h.credited.mono, h.sorted.congr rfl, fun item hitem => ?_⟩
    exact List.mem_append_left _ (h.queued item hitem)

theorem accounted_run (h : Accounted announcements writes t) (events : List (TaskEvent σ)) :
    Accounted (announcements ++ collected (step floats config) announced t events)
      (writes ++ collected (step floats config) (written config) t events)
      (run (step floats config) t events) := by
  induction events generalizing t announcements writes with
  | nil => simpa [collected] using h
  | cons event events ih =>
    have hrest := ih (accounted_step floats config h event)
    rw [List.append_assoc, List.append_assoc] at hrest
    exact hrest

def begin (storage : σ) (created : ℕ) (targets : GovernorTargets) (sets : GroupSets)
    (dialPolicy : DialPolicy) (now : ℕ) (resolve : String → Option Multiaddr)
    (bootnodes : List String) : Tasks σ :=
  ⟨launch created targets sets dialPolicy now resolve bootnodes, .start storage⟩

omit [Storage σ] [Sha256] [CultureJson] in
theorem begin_accounted (storage : σ) (created : ℕ) (targets : GovernorTargets) (sets : GroupSets)
    (dialPolicy : DialPolicy) (now : ℕ) (resolve : String → Option Multiaddr)
    (bootnodes : List String) :
    Accounted [] [] (begin storage created targets sets dialPolicy now resolve bootnodes) := by
  refine ⟨?_, sorted_start storage, fun item hitem => hitem⟩
  intro h hh
  rw [show (begin storage created targets sets dialPolicy now resolve bootnodes).node.task.pool =
    Table.empty from resolveBootnodes_pool _ _ _ _] at hh
  cases hh

/-- Whatever the node's tasks have done, a push carries local writes of one group to
    an active peer that counts as a relay or has announced that group. -/
theorem pushes_stay_with_group (storage : σ) (created : ℕ) (targets : GovernorTargets)
    (sets : GroupSets) (dialPolicy : DialPolicy) (now : ℕ) (resolve : String → Option Multiaddr)
    (bootnodes : List String) (events : List (TaskEvent σ)) (event : TaskEvent σ) :
    let start := begin storage created targets sets dialPolicy now resolve bootnodes
    let t := run (step floats config) start events
    ∀ push ∈ sent config t event, ∃ groupId,
      (∀ item ∈ push.request.items, item.groupId = groupId ∧
        item ∈ collected (step floats config) (written config) start events) ∧
      ∃ h ∈ t.node.task.pool.rows, h.nodeId = push.peer ∧ h.state.isActive = true ∧
        (h.isRelay = true ∨ ∃ groups,
          (push.peer, groups) ∈ collected (step floats config) announced start events ∧
            groupId ∈ groups) := by
  intro start t push hpush
  have hacc : Accounted (collected (step floats config) announced start events)
      (collected (step floats config) (written config) start events) t :=
    accounted_run floats config
      (begin_accounted storage created targets sets dialPolicy now resolve bootnodes) events
  cases event with
  | governor event => cases hpush
  | elsewhere storage => cases hpush
  | replication readings event =>
    obtain ⟨groupId, hitems, hpeer⟩ := hacc.sorted.push hpush
    obtain ⟨h, hh, hid⟩ := List.mem_map.mp hpeer
    obtain ⟨hrow, hactive⟩ := List.mem_filter.mp hh
    rw [Bool.and_eq_true, Bool.or_eq_true, List.contains_iff_mem] at hactive
    refine ⟨groupId, fun item hi => ⟨hitems item hi,
      hacc.queued item (step_pushes config _ t.replication hpush hi)⟩, h, hrow, hid, hactive.1, ?_⟩
    rcases hactive.2 with hrelay | hshares
    · exact .inl hrelay
    · obtain ⟨groups, hlog, hg⟩ := hacc.credited h hrow groupId hshares
      exact .inr ⟨groups, hid ▸ hlog, hg⟩

/-- The bare word, unless it is read as a record, or a text that is read as one with it. -/
def SaysTaciturn (culture : String) : Prop :=
  CultureJson.fromStr culture = none ∧ culture = "taciturn" ∨
    CultureJson.fromStr culture = some ⟨"taciturn"⟩

omit [Sha256] [LinearOrder α] [Libp2p] in
theorem not_eager_of_saysTaciturn {s : LoopState σ} {notif : WriteNotification}
    {groupId : GroupId} {row : GroupRow}
    (hrow : Storage.readGroup s.storage groupId = .ok (some row)) (h : SaysTaciturn row.culture) :
    ¬ Eager s notif groupId := by
  have hrecord : (CultureJson.fromStr row.culture).getD ⟨row.culture⟩ = ⟨"taciturn"⟩ := by
    rcases h with ⟨hnone, hword⟩ | hsome
    · rw [hnone, hword, Option.getD_none]
    · rw [hsome, Option.getD_some]
  have hloaded : loadGroupCulture s.storage groupId = some ⟨"taciturn"⟩ := by
    unfold loadGroupCulture
    rw [hrow]
    exact congrArg some hrecord
  rintro ⟨-, -, hstrategy⟩
  rw [hloaded] at hstrategy
  exact nomatch hstrategy

/-- Every item of every push, of a flush or a retry, goes back to a write that the task
    took in while the culture of its group did not say taciturn. -/
theorem taciturn_writes_stay_home (storage : σ) (created : ℕ) (targets : GovernorTargets)
    (sets : GroupSets) (dialPolicy : DialPolicy) (now : ℕ) (resolve : String → Option Multiaddr)
    (bootnodes : List String) (events : List (TaskEvent σ)) (event : TaskEvent σ) :
    let start := begin storage created targets sets dialPolicy now resolve bootnodes
    let after := run (step floats config) start
    ∀ push ∈ sent config (after events) event, ∀ item ∈ push.request.items,
      ∃ past readings notif coming,
        events = past ++ .replication readings (.write notif) :: coming ∧
        notif.groupId = some item.groupId ∧
        item = writtenItem config (surroundings config (after past).node readings) notif
          item.groupId ∧
        ∀ row, Storage.readGroup (after past).replication.storage item.groupId = .ok (some row) →
          ¬ SaysTaciturn row.culture := by
  intro start after push hpush item hitem
  have hacc := accounted_run floats config
    (begin_accounted storage created targets sets dialPolicy now resolve bootnodes) events
  have hwritten : item ∈ collected (step floats config) (written config) start events := by
    cases event with
    | governor event => cases hpush
    | elsewhere storage => cases hpush
    | replication readings event =>
      exact hacc.queued item (step_pushes config _ _ hpush hitem)
  obtain ⟨past, write, coming, hevents, hwrite⟩ := exists_of_mem_collected hwritten
  obtain ⟨readings, notif, rfl, heager, hitem⟩ := exists_of_mem_written config hwrite
  refine ⟨past, readings, notif, coming, hevents, heager.1, hitem, fun row hrow htaciturn => ?_⟩
  exact not_eager_of_saysTaciturn hrow htaciturn heager

end Routing

section Flush

def received (peer groupId : String) (pushes : List SendMemoryPush) : List FetchedItem :=
  ((pushes.filter (fun push => push.peer = peer)).flatMap (·.request.items)).filter
    (fun item => item.groupId = groupId)

theorem received_append (peer groupId : String) (xs ys : List SendMemoryPush) :
    received peer groupId (xs ++ ys) = received peer groupId xs ++ received peer groupId ys := by
  unfold received
  rw [List.filter_append, List.flatMap_append, List.filter_append]

theorem filter_batch {peers : List String} (hnodup : peers.Nodup) (batch : List FetchedItem)
    (peer : String) :
    ((peers.map (fun p => (⟨p, ⟨batch⟩⟩ : SendMemoryPush))).filter
      (fun push => push.peer = peer)).flatMap (·.request.items) =
      if peer ∈ peers then batch else [] := by
  induction peers with
  | nil => rfl
  | cons first peers ih =>
    obtain ⟨hfirst, hrest⟩ := List.nodup_cons.mp hnodup
    rw [List.map_cons]
    by_cases heq : first = peer
    · subst heq
      rw [List.filter_cons_of_pos (by simp), List.flatMap_cons, ih hrest, if_neg hfirst,
        if_pos List.mem_cons_self, List.append_nil]
    · rw [List.filter_cons_of_neg (by simpa using heq), ih hrest]
      have hiff : peer ∈ first :: peers ↔ peer ∈ peers := by
        rw [List.mem_cons, or_iff_right (fun h => heq h.symm)]
      simp only [hiff]

/-- Split into batches or not, a peer gets the items as they were buffered. -/
theorem received_sendBatches {peers : List String} (hnodup : peers.Nodup) (items : List FetchedItem)
    (peer groupId : String) :
    received peer groupId (sendBatches peers items) =
      if peer ∈ peers then items.filter (fun item => item.groupId = groupId) else [] := by
  have hall : ∀ batches : List (List FetchedItem),
      received peer groupId (batches.flatMap (fun batch => peers.map (fun p => ⟨p, ⟨batch⟩⟩))) =
        if peer ∈ peers then batches.flatten.filter (fun item => item.groupId = groupId) else [] := by
    intro batches
    induction batches with
    | nil => simp [received]
    | cons batch batches ih =>
      rw [List.flatMap_cons, received_append, ih]
      unfold received
      rw [filter_batch hnodup]
      split_ifs
      · rw [List.flatten_cons, List.filter_append]
      · rfl
  have hsplit := hall (splitIntoBatches items)
  rw [splitIntoBatches_flatten] at hsplit
  exact hsplit

theorem received_flush {σ : Type} {env : Surroundings} {s : LoopState σ} (h : Sorted s)
    (hnodup : ∀ groupId, (env.activePeersForGroupOrRelays groupId).Nodup) (peer groupId : String) :
    received peer groupId (flush env s).1 =
      if peer ∈ env.activePeersForGroupOrRelays groupId then
        (bufferedItems s).filter (fun item => item.groupId = groupId)
      else [] := by
  have hbuffered := h.buffered
  unfold ReplicationLoop.flush bufferedItems
  dsimp only
  rw [List.flatMap_map]
  generalize s.writeBuffer = buffer at hbuffered
  induction buffer with
  | nil => simp [received]
  | cons entry buffer ih =>
    have hentry := hbuffered entry List.mem_cons_self
    rw [List.flatMap_cons, received_append, ih (fun e he => hbuffered e (List.mem_cons_of_mem _ he)),
      List.flatMap_cons, List.filter_append]
    have hone : received peer groupId (flushEntry env entry).1 =
        if peer ∈ env.activePeersForGroupOrRelays groupId then
          entry.2.filter (fun item => item.groupId = groupId) else [] := by
      unfold flushEntry
      by_cases hempty : entry.2 = []
      · simp [hempty, received]
      · rw [if_neg (by simpa using hempty), received_sendBatches (hnodup entry.1)]
        by_cases hgroup : entry.1 = groupId
        · rw [hgroup]
        · have hnone : entry.2.filter (fun item => item.groupId = groupId) = [] := by
            refine List.filter_eq_nil_iff.mpr (fun item hi => ?_)
            rw [hentry item hi]
            simpa using hgroup
          rw [hnone, ite_self, ite_self]
    rw [hone]
    split_ifs <;> rfl

theorem filter_pushBuffered {buffer : List (String × List FetchedItem)}
    (hkeys : (buffer.map Prod.fst).Nodup)
    (hgrouped : ∀ entry ∈ buffer, ∀ item ∈ entry.2, item.groupId = entry.1) (item : FetchedItem)
    (groupId : String) :
    ((pushBuffered buffer item.groupId item).flatMap Prod.snd).filter
        (fun x => x.groupId = groupId) =
      (buffer.flatMap Prod.snd).filter (fun x => x.groupId = groupId) ++
        [item].filter (fun x => x.groupId = groupId) := by
  unfold pushBuffered
  split_ifs with hany
  · induction buffer with
    | nil => simp at hany
    | cons entry buffer ih =>
      obtain ⟨hfresh, hkeys⟩ := List.nodup_cons.mp hkeys
      have hrest := fun e he => hgrouped e (List.mem_cons_of_mem entry he)
      by_cases hkey : entry.1 = item.groupId
      · have hsame : buffer.map (fun e => if e.1 = item.groupId then (e.1, e.2 ++ [item]) else e) =
            buffer := by
          conv_rhs => rw [← List.map_id buffer]
          refine List.map_congr_left (fun other hother => ?_)
          have hne : other.1 ≠ item.groupId := fun heq =>
            hfresh (hkey.trans heq.symm ▸ List.mem_map_of_mem hother)
          rw [if_neg hne, id_eq]
        rw [List.map_cons, if_pos hkey, hsame, List.flatMap_cons, List.flatMap_cons,
          List.filter_append, List.filter_append, List.filter_append, List.append_assoc,
          List.append_assoc]
        congr 1
        -- no later entry has items of this group
        by_cases hgroup : item.groupId = groupId
        · have hnone : (buffer.flatMap Prod.snd).filter (fun x => x.groupId = groupId) = [] := by
            refine List.filter_eq_nil_iff.mpr (fun x hx => ?_)
            obtain ⟨other, hother, hx⟩ := List.mem_flatMap.mp hx
            rw [hrest other hother x hx]
            have hne : other.1 ≠ groupId := fun heq =>
              hfresh (hkey.trans (hgroup.trans heq.symm) ▸ List.mem_map_of_mem hother)
            simpa using hne
          rw [hnone, List.append_nil, List.nil_append]
        · rw [List.filter_singleton]
          simp [hgroup]
      · have htail : buffer.any (fun e => e.1 = item.groupId) = true := by
          simpa [hkey] using hany
        rw [List.map_cons, if_neg hkey, List.flatMap_cons, List.flatMap_cons, List.filter_append,
          List.filter_append, ih hkeys hrest htail, List.append_assoc]
  · rw [List.flatMap_append, List.filter_append, List.flatMap_singleton]

def Eligible (pool : Pool) (peer : NodeId) (groupId : GroupId) : Prop :=
  ∃ h ∈ pool.rows, h.nodeId = peer ∧ h.state.isActive = true ∧
    (h.isRelay = true ∨ groupId ∈ h.groupIntersection)

instance (pool : Pool) (peer : NodeId) (groupId : GroupId) : Decidable (Eligible pool peer groupId) :=
  inferInstanceAs (Decidable (∃ h ∈ pool.rows, _))

theorem mem_activePeers_iff {pool : Pool} {peer : NodeId} {groupId : GroupId} :
    peer ∈ (activePeersForGroupOrRelays pool groupId).map PeerHandle.nodeId ↔
      Eligible pool peer groupId := by
  unfold activePeersForGroupOrRelays Eligible
  simp only [List.mem_map, List.mem_filter, Bool.and_eq_true, Bool.or_eq_true,
    List.contains_iff_mem]
  constructor
  · rintro ⟨h, ⟨hrow, hactive, hgroup⟩, hid⟩
    exact ⟨h, hrow, hid, hactive, hgroup⟩
  · rintro ⟨h, hrow, hid, hactive, hgroup⟩
    exact ⟨h, ⟨hrow, hactive, hgroup⟩, hid⟩

theorem activePeers_nodup (pool : Pool) (groupId : GroupId) :
    ((activePeersForGroupOrRelays pool groupId).map PeerHandle.nodeId).Nodup :=
  List.pairwise_map.mpr (pool.unique.filter _)

variable {σ : Type} [Storage σ] [Sha256] [CultureJson] {α : Type} [LinearOrder α] [Libp2p]
variable (floats : Floats α) (config : LoopConfig)

def TaskEvent.isFlush : TaskEvent σ → Bool
  | .replication _ .flushTick => true
  | _ => false

def unflushed (groupId : String) (t : Tasks σ) (earlier : List FetchedItem) :
    List (TaskEvent σ) → List FetchedItem
  | [] => earlier
  | event :: events =>
    unflushed groupId (step floats config t event)
      (if event.isFlush then []
      else earlier ++ (written config t event).filter (fun item => item.groupId = groupId)) events

theorem buffered_step {t : Tasks σ} (h : Sorted t.replication) (groupId : String)
    (event : TaskEvent σ) :
    (bufferedItems (step floats config t event).replication).filter
        (fun item => item.groupId = groupId) =
      if event.isFlush then []
      else (bufferedItems t.replication).filter (fun item => item.groupId = groupId) ++
        (written config t event).filter (fun item => item.groupId = groupId) := by
  have hcongr : ∀ {s s' : LoopState σ}, queues s = queues s' → bufferedItems s = bufferedItems s' := by
    intro s s' heq
    injection heq with hbuffer _
    simp [bufferedItems, hbuffer]
  cases event with
  | governor event => simp [TaskEvent.isFlush, written, step]
  | elsewhere storage => simp [TaskEvent.isFlush, written, step, bufferedItems]
  | replication readings event =>
    cases event with
    | write notif =>
      change (bufferedItems (receiveWrite config (surroundings config t.node readings)
        t.replication notif)).filter _ = _
      by_cases heager : ∃ groupId, Eager t.replication notif groupId
      · obtain ⟨written', heager⟩ := heager
        rw [receiveWrite_of_eager config _ _ heager]
        have hpush := filter_pushBuffered h.keys h.buffered
          (writtenItem config (surroundings config t.node readings) notif written') groupId
        refine hpush.trans ?_
        simp only [TaskEvent.isFlush, written, heager.1, Option.filter_some, decide_eq_true heager]
        rfl
      · have hnone : ∀ g, ¬ Eager t.replication notif g := fun g hg => heager ⟨g, hg⟩
        rw [receiveWrite_of_not_eager config _ _ hnone]
        simp [TaskEvent.isFlush, written, hnone]
    | flushTick => rfl
    | lagged missed => simp [TaskEvent.isFlush, written, step, ReplicationLoop.step]
    | retryTick => simp [TaskEvent.isFlush, written, step, ReplicationLoop.step, ReplicationLoop.retry, bufferedItems]
    | syncBaseTick =>
      have hsame := hcongr (syncAll_queues config (surroundings config t.node readings) t.replication)
      change (bufferedItems (syncAll config _ t.replication)).filter _ = _
      rw [hsame]
      simp [TaskEvent.isFlush, written]
    | bootstrap g =>
      have hsame := hcongr
        (bootstrapGroup_queues config (surroundings config t.node readings) t.replication g)
      change (bufferedItems (bootstrapGroup config _ t.replication g)).filter _ = _
      rw [hsame]
      simp [TaskEvent.isFlush, written]
    | gcTick =>
      simp [TaskEvent.isFlush, written, step, ReplicationLoop.step, collectGarbage, bufferedItems]

theorem sorted_step {t : Tasks σ} (h : Sorted t.replication) (event : TaskEvent σ) :
    Sorted (step floats config t event).replication := by
  cases event with
  | governor event => exact h
  | replication readings event => exact h.step config _ event
  | elsewhere storage => exact h.congr rfl

theorem sorted_run {t : Tasks σ} (h : Sorted t.replication) (events : List (TaskEvent σ)) :
    Sorted (run (step floats config) t events).replication := by
  induction events generalizing t with
  | nil => exact h
  | cons event events ih => exact ih (sorted_step floats config h event)

theorem buffered_run {t : Tasks σ} (h : Sorted t.replication) (groupId : String)
    (events : List (TaskEvent σ)) :
    (bufferedItems (run (step floats config) t events).replication).filter
        (fun item => item.groupId = groupId) =
      unflushed floats config groupId t
        ((bufferedItems t.replication).filter (fun item => item.groupId = groupId)) events := by
  induction events generalizing t with
  | nil => rfl
  | cons event events ih =>
    rw [run_cons, ih (sorted_step floats config h event), buffered_step floats config h]
    rfl

omit [Libp2p] in
theorem received_at_flush {t : Tasks σ} (h : Sorted t.replication) (readings : Readings)
    (peer : NodeId) (groupId : GroupId) :
    received peer groupId (sent config t (.replication readings .flushTick)) =
      if Eligible t.node.task.pool peer groupId then
        (bufferedItems t.replication).filter (fun item => item.groupId = groupId)
      else [] := by
  refine (received_flush h (fun g => activePeers_nodup _ g) peer groupId).trans ?_
  exact if_congr mem_activePeers_iff rfl rfl

/-- At a flush, a peer is sent of each group just the local writes since the flush
    before, in their order, or nothing where it is not eligible. -/
theorem flush_sends_each_write_once (storage : σ) (created : ℕ) (targets : GovernorTargets)
    (sets : GroupSets) (dialPolicy : DialPolicy) (now : ℕ) (resolve : String → Option Multiaddr)
    (bootnodes : List String) (events : List (TaskEvent σ)) (readings : Readings)
    (peer : NodeId) (groupId : GroupId) :
    let start := begin storage created targets sets dialPolicy now resolve bootnodes
    let t := run (step floats config) start events
    received peer groupId (sent config t (.replication readings .flushTick)) =
      if Eligible t.node.task.pool peer groupId then
        unflushed floats config groupId start [] events
      else [] := by
  intro start t
  have hstart : Sorted start.replication := sorted_start storage
  rw [received_at_flush config (sorted_run floats config hstart events),
    buffered_run floats config hstart groupId events]
  rfl

end Flush
end CordeliaCore.NodeTasks
