import CordeliaCore.AntiEntropyEffect
import CordeliaCore.PushEffect
import CordeliaCore.PushRouting
import CordeliaCore.ReceiveProgress

set_option autoImplicit false

namespace CordeliaCore.NodeTasks
open CryptoPrimitives ProtocolMessages StorageRows StorageSqlite Replication ReplicationEngine Swarm
open KeyedTable PeerGovernor PeerPool GovernorLoop ReplicationLoop RetryQueue StepRuns EventLogs
open ReceiveProgress

structure Arrival where
  now : String
  ourGroups : List String
  relayAccepts : Option (String → Bool)
  request : MemoryPushRequest

section Receiver
variable [Sha256]

def takeIn (db : SqliteStorage) (a : Arrival) : SqliteStorage :=
  (handlePushRequest db a.now a.request a.ourGroups a.relayAccepts).2

def deliveries (a : Arrival) : List Delivery :=
  a.request.items.map (fun item => ⟨a.now, item, a.ourGroups, a.relayAccepts⟩)

def offer (db : SqliteStorage) (d : Delivery) : SqliteStorage := (ReceiveProgress.receive db d).2

theorem takeIn_eq_run (db : SqliteStorage) (a : Arrival) :
    takeIn db a = run offer db (deliveries a) := by
  unfold takeIn deliveries
  rw [handlePush_storage, receiveAll, run, List.foldl_map]
  rfl

theorem run_takeIn (db : SqliteStorage) (arrivals : List Arrival) :
    run takeIn db arrivals = run offer db (arrivals.flatMap deliveries) := by
  induction arrivals generalizing db with
  | nil => rfl
  | cons a arrivals ih => rw [run_cons, ih, takeIn_eq_run, List.flatMap_cons, run_append]

/-- A deletion has removed the item, and another write is there unless it does not supersede
    what the store has. -/
def Arrived (w : FetchedItem) (db : SqliteStorage) : Prop :=
  (w.itemType = tombstoneType → db.l2Items.lookup w.itemId = none) ∧
    (w.itemType ∈ l2ItemTypes → ∃ e, db.l2Items.lookup w.itemId = some e ∧
      (Swarm.fetchedItem e = w ∨ ¬ Supersedes w e))

theorem arrived_offer {d : Delivery} (hadm : Admitted d.ourGroups d.relayAccepts d.item)
    (hsum : validateChecksum d.item = true) (db : SqliteStorage) : Arrived d.item (offer db d) := by
  have hlookup : (offer db d).l2Items.lookup d.item.itemId = _ :=
    onReceive_lookup db d.now d.item d.ourGroups d.relayAccepts d.item.itemId
  rw [if_pos rfl] at hlookup
  refine ⟨fun htype => ?_, fun htype => ?_⟩
  · rw [hlookup, if_pos ⟨hadm, htype⟩]
  · have hkeeps : ¬ Erases d.ourGroups d.relayAccepts d.item := fun herase =>
      tombstoneType_not_stored (herase.2 ▸ htype)
    rw [if_neg hkeeps] at hlookup
    split_ifs at hlookup with hwrites
    · exact ⟨_, hlookup, .inl (fetchedItem_receivedRow hsum _ _)⟩
    · cases he : db.l2Items.lookup d.item.itemId with
      | none => exact absurd ⟨hadm, ⟨hsum, htype⟩, fun e h => by simp [he] at h⟩ hwrites
      | some e =>
        refine ⟨e, hlookup.trans he, .inr (fun hnewer => hwrites ⟨hadm, ⟨hsum, htype⟩, ?_⟩)⟩
        intro e' he'
        rw [he, Option.mem_some] at he'
        exact he' ▸ hnewer

theorem arrived_offer_of_ne {w : FetchedItem} {d : Delivery} (hne : d.item.itemId ≠ w.itemId)
    {db : SqliteStorage} (h : Arrived w db) : Arrived w (offer db d) := by
  have hlookup : (offer db d).l2Items.lookup w.itemId = db.l2Items.lookup w.itemId :=
    onReceive_lookup_of_ne db d.now d.item d.ourGroups d.relayAccepts (Ne.symm hne)
  unfold Arrived
  rw [hlookup]
  exact h

theorem arrived_run {w : FetchedItem} (hsize : w.encryptedBlob.length ≤ maxItemBytes)
    (hsum : validateChecksum w = true) {arrivals : List Arrival}
    (haccept : ∀ a ∈ arrivals, groupAccepted a.ourGroups a.relayAccepts w.groupId = true)
    (hlast : ((arrivals.flatMap (·.request.items)).filter
      (fun item => item.itemId = w.itemId)).getLast? = some w) (db : SqliteStorage) :
    Arrived w (run takeIn db arrivals) := by
  have hitems : (arrivals.flatMap deliveries).map Delivery.item =
      arrivals.flatMap (·.request.items) := by
    rw [List.map_flatMap]
    congr 1
    funext a
    rw [deliveries, List.map_map]
    exact List.map_id _
  rw [← hitems, List.filter_map, List.getLast?_map] at hlast
  obtain ⟨d, hd, rfl⟩ := Option.map_eq_some_iff.mp hlast
  have hmem : d ∈ arrivals.flatMap deliveries :=
    (List.mem_filter.mp (List.mem_of_getLast? hd)).1
  obtain ⟨a, ha, hda⟩ := List.mem_flatMap.mp hmem
  obtain ⟨item, -, rfl⟩ := List.mem_map.mp hda
  rw [run_takeIn]
  refine run_of_last hd (fun s => arrived_offer ⟨hsize, haccept a ha⟩ hsum s) ?_ db
  intro s e he hs
  exact arrived_offer_of_ne (by simpa using he) hs

end Receiver

section Sender
variable {σ : Type} [Storage σ] [Sha256] [CultureJson] {α : Type} [LinearOrder α] [Libp2p]
variable (floats : Floats α) (config : LoopConfig)

/-- What the engine makes of a local write passes the checks of a receiver. -/
structure Sendable (groupId : GroupId) (item : FetchedItem) : Prop where
  group : item.groupId = groupId
  size : item.encryptedBlob.length ≤ maxItemBytes
  sum : validateChecksum item = true

omit [Libp2p] in
theorem written_sendable {t : Tasks σ} {event : TaskEvent σ} {item : FetchedItem}
    (h : item ∈ written config t event) : Sendable item.groupId item := by
  obtain ⟨readings, notif, -, heager, hitem⟩ := exists_of_mem_written config h
  refine ⟨rfl, ?_, ?_⟩
  · rw [hitem]
    exact heager.2.1
  · rw [hitem]
    exact beq_self_eq_true _

theorem unflushed_sendable {groupId : GroupId} (events : List (TaskEvent σ)) {t : Tasks σ}
    {earlier : List FetchedItem} (h : ∀ item ∈ earlier, Sendable groupId item) :
    ∀ item ∈ unflushed floats config groupId t earlier events, Sendable groupId item := by
  induction events generalizing t earlier with
  | nil => exact h
  | cons event events ih =>
    refine ih ?_
    split_ifs
    · exact fun item hitem => nomatch hitem
    · intro item hitem
      rcases List.mem_append.mp hitem with hitem | hitem
      · exact h item hitem
      · obtain ⟨hwritten, hgroup⟩ := List.mem_filter.mp hitem
        obtain rfl : item.groupId = groupId := of_decide_eq_true hgroup
        exact written_sendable config hwritten

/-- After a flush of any run, a peer of the group that takes in the pushes it is sent has the
    last write to each item that no other group shares: the item is gone if it was a deletion,
    and otherwise the peer serves that version, or one that it does not supersede. -/
theorem flushed_writes_arrive (storage : σ) (created : ℕ) (targets : GovernorTargets)
    (sets : GroupSets) (dialPolicy : DialPolicy) (now : ℕ) (resolve : String → Option Multiaddr)
    (bootnodes : List String) (events : List (TaskEvent σ)) (readings : Readings)
    (peer : NodeId) (groupId : GroupId) (w : FetchedItem) (arrivals : List Arrival)
    (db : SqliteStorage) :
    let start := begin storage created targets sets dialPolicy now resolve bootnodes
    let t := run (step floats config) start events
    let pushes := (sent config t (.replication readings .flushTick)).filter (·.peer = peer)
    let writes := fun g => unflushed floats config g start [] events
    arrivals.map Arrival.request = pushes.map SendMemoryPush.request →
    Eligible t.node.task.pool peer groupId →
    (∀ a ∈ arrivals, groupAccepted a.ourGroups a.relayAccepts groupId = true) →
    ((writes groupId).filter (fun item => item.itemId = w.itemId)).getLast? = some w →
    (∀ g, ∀ item ∈ writes g, item.itemId = w.itemId → g = groupId) →
    Arrived w (run takeIn db arrivals) := by
  intro start t pushes writes hrequests heligible haccept hlast hown
  have hsorted : Sorted t.replication := sorted_run floats config (sorted_start storage) events
  have hreceived : ∀ g, (pushes.flatMap (·.request.items)).filter (fun item => item.groupId = g) =
      if Eligible t.node.task.pool peer g then writes g else [] := by
    intro g
    have hflush := received_at_flush config hsorted readings peer g
    rw [buffered_run floats config (sorted_start storage) g events] at hflush
    exact hflush
  have hitems : arrivals.flatMap (·.request.items) = pushes.flatMap (·.request.items) := by
    have hmap := congrArg (List.flatMap (fun request => request.items)) hrequests
    rwa [List.flatMap_map, List.flatMap_map] at hmap
  have hmem : w ∈ writes groupId := (List.mem_filter.mp (List.mem_of_getLast? hlast)).1
  have hw : Sendable groupId w :=
    unflushed_sendable floats config events (by simp) w hmem
  have hgroups : ∀ item ∈ pushes.flatMap (·.request.items), item.itemId = w.itemId →
      item.groupId = groupId := by
    intro item hitem hid
    have hsent : item ∈ (pushes.flatMap (·.request.items)).filter
        (fun other => other.groupId = item.groupId) :=
      List.mem_filter.mpr ⟨hitem, decide_eq_true rfl⟩
    rw [hreceived] at hsent
    split_ifs at hsent with hpeer
    · exact hown _ item hsent hid
    · cases hsent
  rw [← hw.group] at haccept
  refine arrived_run hw.size hw.sum haccept ?_ db
  rw [hitems, ← hlast]
  have hgroup := hreceived groupId
  rw [if_pos heligible] at hgroup
  rw [← hgroup, List.filter_filter]
  congr 1
  apply List.filter_congr
  intro item hitem
  by_cases hid : item.itemId = w.itemId
  · simp [hid, hgroups item hitem hid]
  · simp [hid]

end Sender

section Example

def noteReadings : Readings where
  instant := 0
  utcNow := "2026-02-01T00:00:00Z"
  dbNow := "2026-02-01 00:00:00"
  daysAgo _ := ("", "")
  draw _ := 0
  answers _ _ := ⟨fun _ => .error .closed, fun _ => .error .closed⟩

def noteWritten : Api.WriteNotification :=
  ⟨"note-1", "learning", some "seed-drill", asBytes "\"a\"", 1, none, false⟩

def noteEvents : List (TaskEvent SqliteStorage) :=
  [.governor (.branch (.peerConnected 0 "alice" "/ip4/10.0.0.2/tcp/9474")),
    .governor (.answered 0 ["seed-drill"]), .replication noteReadings (.write noteWritten)]

def noteTasks [Libp2p] : Tasks SqliteStorage :=
  begin SqliteStorage.createNew 0 churning ⟨["seed-drill"], none⟩ .all 0 (fun _ => none) []

def pushedNote [Sha256] : FetchedItem :=
  writtenItem memberConfig { quietSurroundings with utcNow := noteReadings.utcNow } noteWritten
    "seed-drill"

theorem unflushed_note (groupId : GroupId) : let := knownDigests
    let := bareCultures
    let := plainLibp2p
    unflushed evenFloats memberConfig groupId noteTasks [] noteEvents =
      [pushedNote].filter (fun item => item.groupId = groupId) := by
  intro _ _ _
  rfl

theorem note_reaches_peer : let := knownDigests
    let := bareCultures
    let := plainLibp2p
    let pushes := (sent memberConfig (run (step evenFloats memberConfig) noteTasks noteEvents)
      (.replication noteReadings .flushTick)).filter (·.peer = "alice")
    Arrived pushedNote (run takeIn SqliteStorage.createNew (pushes.map (fun push =>
      ⟨"2026-02-01 00:00:01", ["seed-drill"], none, push.request⟩))) := by
  intro _ _ _ pushes
  refine flushed_writes_arrive evenFloats memberConfig SqliteStorage.createNew 0 churning
    ⟨["seed-drill"], none⟩ .all 0 (fun _ => none) [] noteEvents noteReadings "alice" "seed-drill"
    pushedNote _ _ ?_ (by decide +kernel) ?_ ?_ ?_
  · rw [List.map_map]
    rfl
  · intro a ha
    obtain ⟨push, -, rfl⟩ := List.mem_map.mp ha
    rfl
  · decide +kernel
  · intro g item hitem _
    have hnote : item ∈ [pushedNote].filter (fun item => item.groupId = g) := unflushed_note g ▸ hitem
    obtain ⟨hitem, hgroup⟩ := List.mem_filter.mp hnote
    rw [List.mem_singleton.mp hitem, decide_eq_true_eq] at hgroup
    exact hgroup.symm

end Example
end CordeliaCore.NodeTasks
