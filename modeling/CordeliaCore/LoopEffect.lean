import CordeliaCore.ReplicationLoop
import CordeliaCore.StepRuns
import CordeliaCore.StorageSqlite

set_option autoImplicit false

namespace CordeliaCore.ReplicationLoop
open CryptoPrimitives ProtocolMessages StorageRows StorageSqlite Replication ReplicationEngine Api
open StepRuns

section Batches

def Batching.contents (acc : Batching) : List FetchedItem := acc.batches.flatten ++ acc.currentBatch

theorem Batching.contents_add (acc : Batching) (item : FetchedItem) :
    (acc.add item).contents = acc.contents ++ [item] := by
  unfold Batching.add Batching.contents
  split_ifs <;> simp

theorem Batching.contents_foldl (acc : Batching) (items : List FetchedItem) :
    (items.foldl Batching.add acc).contents = acc.contents ++ items := by
  induction items generalizing acc with
  | nil => simp
  | cons item items ih =>
    rw [List.foldl_cons, ih, Batching.contents_add, List.append_assoc, List.singleton_append]

theorem splitIntoBatches_flatten (items : List FetchedItem) :
    (splitIntoBatches items).flatten = items := by
  have hcontents := Batching.contents_foldl ⟨[], [], 0⟩ items
  unfold Batching.contents at hcontents
  unfold splitIntoBatches
  dsimp only
  split_ifs with hcurrent
  · simpa [hcurrent] using hcontents
  · simpa using hcontents

theorem mem_of_mem_sendBatches {peers : List String} {items : List FetchedItem}
    {push : SendMemoryPush} {item : FetchedItem} (hpush : push ∈ sendBatches peers items)
    (hitem : item ∈ push.request.items) : item ∈ items := by
  obtain ⟨batch, hbatch, hsent⟩ := List.mem_flatMap.mp hpush
  obtain ⟨peer, _, rfl⟩ := List.mem_map.mp hsent
  rw [← splitIntoBatches_flatten items]
  exact List.mem_flatten.mpr ⟨batch, hbatch, hitem⟩

theorem exists_sendBatches {peers : List String} {items : List FetchedItem} {item : FetchedItem}
    {peer : String} (hpeer : peer ∈ peers) (hitem : item ∈ items) :
    ∃ push ∈ sendBatches peers items, item ∈ push.request.items := by
  rw [← splitIntoBatches_flatten items] at hitem
  obtain ⟨batch, hbatch, hin⟩ := List.mem_flatten.mp hitem
  exact ⟨⟨peer, ⟨batch⟩⟩, List.mem_flatMap.mpr ⟨batch, hbatch, List.mem_map.mpr ⟨peer, hpeer, rfl⟩⟩,
    hin⟩

end Batches

section Queues
variable {σ : Type}

def bufferedItems (s : LoopState σ) : List FetchedItem := s.writeBuffer.flatMap Prod.snd

def pendingItems (s : LoopState σ) : List FetchedItem := s.pendingPushes.flatMap PendingPush.items

def queued (s : LoopState σ) : List FetchedItem := bufferedItems s ++ pendingItems s

/-- The write buffer and the retry queue, which only three branches of the task touch. -/
def queues (s : LoopState σ) : List (String × List FetchedItem) × List PendingPush :=
  (s.writeBuffer, s.pendingPushes)

theorem queued_congr {s t : LoopState σ} (h : queues s = queues t) : queued s = queued t := by
  injection h with hbuffer hpending
  simp [queued, bufferedItems, pendingItems, hbuffer, hpending]

theorem mem_pushBuffered {buffer : List (String × List FetchedItem)} {groupId : String}
    {item x : FetchedItem} :
    x ∈ (pushBuffered buffer groupId item).flatMap Prod.snd ↔ x = item ∨ x ∈ buffer.flatMap Prod.snd := by
  unfold pushBuffered
  split_ifs with hany
  · simp only [List.mem_flatMap, List.mem_map]
    constructor
    · rintro ⟨_, ⟨entry, hentry, rfl⟩, hx⟩
      split_ifs at hx with hgroup
      · rcases List.mem_append.mp hx with hx | hx
        · exact .inr ⟨entry, hentry, hx⟩
        · exact .inl (List.mem_singleton.mp hx)
      · exact .inr ⟨entry, hentry, hx⟩
    · rintro (rfl | ⟨entry, hentry, hx⟩)
      · obtain ⟨entry, hentry, hgroup⟩ := List.any_eq_true.mp hany
        refine ⟨_, ⟨entry, hentry, rfl⟩, ?_⟩
        rw [if_pos (of_decide_eq_true hgroup)]
        exact List.mem_append_right _ (List.mem_singleton.mpr rfl)
      · refine ⟨_, ⟨entry, hentry, rfl⟩, ?_⟩
        split_ifs
        · exact List.mem_append_left _ hx
        · exact hx
  · rw [List.flatMap_append, List.mem_append, List.flatMap_singleton, List.mem_singleton, or_comm]

theorem flushEntry_pushes {env : Surroundings} {entry : String × List FetchedItem}
    {push : SendMemoryPush} {item : FetchedItem} (hpush : push ∈ (flushEntry env entry).1)
    (hitem : item ∈ push.request.items) : item ∈ entry.2 := by
  unfold flushEntry at hpush
  split_ifs at hpush
  · cases hpush
  · exact mem_of_mem_sendBatches hpush hitem

theorem flushEntry_pending {env : Surroundings} {entry : String × List FetchedItem}
    {pending : PendingPush} (h : (flushEntry env entry).2 = some pending) :
    pending.items = entry.2 := by
  unfold flushEntry at h
  split_ifs at h
  cases h
  rfl

theorem retryPush_pushes {env : Surroundings} {pending : PendingPush} {push : SendMemoryPush}
    {item : FetchedItem} (hpush : push ∈ (retryPush env pending).1)
    (hitem : item ∈ push.request.items) : item ∈ pending.items := by
  unfold retryPush at hpush
  by_cases hearly : env.instant < pending.nextAt
  · rw [if_pos hearly] at hpush
    cases hpush
  · rw [if_neg hearly] at hpush
    exact mem_of_mem_sendBatches hpush hitem

theorem retryPush_pending {env : Surroundings} {pending kept : PendingPush}
    (h : (retryPush env pending).2 = some kept) : kept.items = pending.items := by
  unfold retryPush at h
  split_ifs at h
  · cases h
    rfl
  · cases h
    rfl

theorem flush_pushes {env : Surroundings} {s : LoopState σ} {push : SendMemoryPush}
    {item : FetchedItem} (hpush : push ∈ (flush env s).1) (hitem : item ∈ push.request.items) :
    item ∈ queued s := by
  obtain ⟨_, hflushed, hsent⟩ := List.mem_flatMap.mp hpush
  obtain ⟨entry, hentry, rfl⟩ := List.mem_map.mp hflushed
  exact List.mem_append_left _
    (List.mem_flatMap.mpr ⟨entry, hentry, flushEntry_pushes hsent hitem⟩)

theorem flush_queued {env : Surroundings} {s : LoopState σ} {item : FetchedItem}
    (h : item ∈ queued (flush env s).2) : item ∈ queued s := by
  obtain ⟨pending, hpending, hitem⟩ := List.mem_flatMap.mp (show item ∈ pendingItems _ from h)
  rcases List.mem_append.mp hpending with hold | hnew
  · exact List.mem_append_right _ (List.mem_flatMap.mpr ⟨pending, hold, hitem⟩)
  · obtain ⟨_, hflushed, hsome⟩ := List.mem_filterMap.mp hnew
    obtain ⟨entry, hentry, rfl⟩ := List.mem_map.mp hflushed
    rw [flushEntry_pending hsome] at hitem
    exact List.mem_append_left _ (List.mem_flatMap.mpr ⟨entry, hentry, hitem⟩)

/-- A flush sends what it finds in the buffer to whoever is there. -/
theorem flush_sends (env : Surroundings) {s : LoopState σ} {item : FetchedItem} {peer : String}
    (hpeer : ∀ groupId, peer ∈ env.activePeersForGroupOrRelays groupId)
    (h : item ∈ bufferedItems s) : ∃ push ∈ (flush env s).1, item ∈ push.request.items := by
  obtain ⟨entry, hentry, hitem⟩ := List.mem_flatMap.mp h
  have hne : ¬ entry.2.isEmpty = true := by
    rw [List.isEmpty_iff]
    exact List.ne_nil_of_mem hitem
  obtain ⟨push, hpush, hin⟩ := exists_sendBatches (hpeer entry.1) hitem
  refine ⟨push, List.mem_flatMap.mpr ⟨flushEntry env entry, List.mem_map_of_mem hentry, ?_⟩, hin⟩
  unfold flushEntry
  rw [if_neg hne]
  exact hpush

theorem retry_pushes {env : Surroundings} {s : LoopState σ} {push : SendMemoryPush}
    {item : FetchedItem} (hpush : push ∈ (retry env s).1) (hitem : item ∈ push.request.items) :
    item ∈ queued s := by
  obtain ⟨_, hretried, hsent⟩ := List.mem_flatMap.mp hpush
  obtain ⟨pending, hpending, rfl⟩ := List.mem_map.mp hretried
  exact List.mem_append_right _
    (List.mem_flatMap.mpr ⟨pending, hpending, retryPush_pushes hsent hitem⟩)

theorem retry_queued {env : Surroundings} {s : LoopState σ} {item : FetchedItem}
    (h : item ∈ queued (retry env s).2) : item ∈ queued s := by
  rcases List.mem_append.mp h with hbuffered | hpending
  · exact List.mem_append_left _ hbuffered
  · obtain ⟨kept, hkept, hitem⟩ := List.mem_flatMap.mp hpending
    obtain ⟨_, hretried, hsome⟩ := List.mem_filterMap.mp hkept
    obtain ⟨pending, hold, rfl⟩ := List.mem_map.mp hretried
    rw [retryPush_pending hsome] at hitem
    exact List.mem_append_right _ (List.mem_flatMap.mpr ⟨pending, hold, hitem⟩)

theorem retry_sends (env : Surroundings) {s : LoopState σ} {pending : PendingPush}
    {item : FetchedItem} {peer : String}
    (hpeer : ∀ groupId, peer ∈ env.activePeersForGroupOrRelays groupId)
    (hdue : pending.nextAt ≤ env.instant) (hpending : pending ∈ s.pendingPushes)
    (h : item ∈ pending.items) : ∃ push ∈ (retry env s).1, item ∈ push.request.items := by
  obtain ⟨push, hpush, hin⟩ := exists_sendBatches (hpeer pending.groupId) h
  refine ⟨push, List.mem_flatMap.mpr ⟨retryPush env pending, List.mem_map_of_mem hpending, ?_⟩, hin⟩
  unfold retryPush
  rw [if_neg (not_lt.mpr hdue)]
  exact hpush

end Queues

section Steps
variable {σ : Type} [Storage σ] [Sha256] [CultureJson] (config : LoopConfig) (env : Surroundings)
  (s : LoopState σ)

omit [CultureJson] in
@[simp] theorem syncFrom_queues (groups : List String) (groupId : String) (since : Option String) :
    queues (syncFrom config env s groups groupId since) = queues s := by
  unfold syncFrom
  split <;> rfl

@[simp] theorem syncGroup_queues (groups : List String) (groupId : String) :
    queues (syncGroup config env groups s groupId) = queues s := by
  unfold syncGroup
  split_ifs
  · rfl
  · unfold cycleGroup
    rw [syncFrom_queues]
    rfl

theorem syncAll_queues : queues (syncAll config env s) = queues s := by
  unfold syncAll
  dsimp only
  generalize currentGroups config env s.storage = groups
  suffices h : ∀ due : List String,
      queues (due.foldl (syncGroup config env groups) s) = queues s from h groups
  intro due
  induction due generalizing s with
  | nil => rfl
  | cons groupId due ih => rw [List.foldl_cons, ih, syncGroup_queues]

omit [CultureJson] in
theorem bootstrapGroup_queues (groupId : String) :
    queues (bootstrapGroup config env s groupId) = queues s := by
  unfold bootstrapGroup
  rw [syncFrom_queues]
  rfl

def Eager (notif : WriteNotification) (groupId : String) : Prop :=
  notif.groupId = some groupId ∧ notif.data.length ≤ maxItemBytes ∧
    ((loadGroupCulture s.storage groupId).getD .default).strategy = .eagerPush

def writtenItem (notif : WriteNotification) (groupId : String) : FetchedItem where
  itemId := notif.itemId
  itemType := notif.itemType
  encryptedBlob := notif.data
  checksum := Replication.checksum notif.data
  authorId := config.engine.entityId
  groupId := groupId
  keyVersion := notif.keyVersion
  parentId := notif.parentId
  isCopy := notif.isCopy
  updatedAt := env.utcNow

theorem receiveWrite_of_eager {notif : WriteNotification} {groupId : String}
    (h : Eager s notif groupId) :
    receiveWrite config env s notif =
      { s with writeBuffer :=
          pushBuffered s.writeBuffer groupId (writtenItem config env notif groupId) } := by
  obtain ⟨hgroup, hsize, heager⟩ := h
  unfold receiveWrite onLocalWrite
  rw [hgroup]
  dsimp only
  rw [if_neg (not_lt.mpr hsize), heager]
  rfl

theorem receiveWrite_of_not_eager {notif : WriteNotification}
    (h : ∀ groupId, ¬ Eager s notif groupId) : receiveWrite config env s notif = s := by
  unfold receiveWrite onLocalWrite
  cases hgroup : notif.groupId with
  | none => rfl
  | some groupId =>
    dsimp only
    by_cases hsize : notif.data.length > maxItemBytes
    · rw [if_pos hsize]
    · rw [if_neg hsize]
      cases hstrategy : ((loadGroupCulture s.storage groupId).getD .default).strategy with
      | passive => rfl
      | eagerPush => exact absurd ⟨hgroup, not_lt.mp hsize, hstrategy⟩ (h groupId)

theorem receiveWrite_queued {notif : WriteNotification} {item : FetchedItem}
    (h : item ∈ queued (receiveWrite config env s notif)) :
    item ∈ queued s ∨
      ∃ groupId, Eager s notif groupId ∧ item = writtenItem config env notif groupId := by
  by_cases heager : ∃ groupId, Eager s notif groupId
  · obtain ⟨groupId, heager⟩ := heager
    rw [receiveWrite_of_eager config env s heager] at h
    rcases List.mem_append.mp h with hbuffered | hpending
    · rcases mem_pushBuffered.mp hbuffered with hnew | hold
      · exact .inr ⟨groupId, heager, hnew⟩
      · exact .inl (List.mem_append_left _ hold)
    · exact .inl (List.mem_append_right _ hpending)
  · rw [receiveWrite_of_not_eager config env s (fun groupId hg => heager ⟨groupId, hg⟩)] at h
    exact .inl h

theorem step_pushes {event : LoopEvent} {push : SendMemoryPush} {item : FetchedItem}
    (hpush : push ∈ (step config env s event).1) (hitem : item ∈ push.request.items) :
    item ∈ queued s := by
  cases event with
  | flushTick => exact flush_pushes hpush hitem
  | retryTick => exact retry_pushes hpush hitem
  | write notif => cases hpush
  | lagged missed => cases hpush
  | syncBaseTick => cases hpush
  | bootstrap groupId => cases hpush
  | gcTick => cases hpush

/-- Only an eager local write brings a new item into the queues. -/
theorem step_queued {event : LoopEvent} {item : FetchedItem}
    (h : item ∈ queued (step config env s event).2) :
    item ∈ queued s ∨ ∃ notif groupId, event = .write notif ∧ Eager s notif groupId ∧
      item = writtenItem config env notif groupId := by
  cases event with
  | write notif =>
    refine (receiveWrite_queued config env s h).imp_right ?_
    rintro ⟨groupId, heager, hitem⟩
    exact ⟨notif, groupId, rfl, heager, hitem⟩
  | lagged missed => exact .inl h
  | flushTick => exact .inl (flush_queued h)
  | retryTick => exact .inl (retry_queued h)
  | syncBaseTick => exact .inl (queued_congr (syncAll_queues config env s) ▸ h)
  | bootstrap groupId => exact .inl (queued_congr (bootstrapGroup_queues config env s groupId) ▸ h)
  | gcTick => exact .inl h

end Steps

section Ticks
variable [Sha256] [CultureJson] (config : LoopConfig)

abbrev Tick := Surroundings × LoopEvent

def next (s : LoopState SqliteStorage) (tick : Tick) : LoopState SqliteStorage :=
  (step config tick.1 s tick.2).2

variable {config} {p : FetchedItem → Prop} {s : LoopState SqliteStorage}

/-- A queue without items of a kind stays so until an eager write brings one. -/
theorem next_queued (h : ∀ item ∈ queued s, ¬ p item) {tick : Tick}
    (hwrite : ∀ notif groupId, tick.2 = .write notif → Eager s notif groupId →
      ¬ p (writtenItem config tick.1 notif groupId)) :
    ∀ item ∈ queued (next config s tick), ¬ p item := by
  intro item hitem
  rcases step_queued config tick.1 s hitem with hold | ⟨notif, groupId, hevent, heager, rfl⟩
  · exact h item hold
  · exact hwrite notif groupId hevent heager

theorem along_withholds {G : LoopState SqliteStorage → Tick → Prop}
    (hwrite : ∀ s tick, G s tick → ∀ notif groupId, tick.2 = .write notif → Eager s notif groupId →
      ¬ p (writtenItem config tick.1 notif groupId))
    (h : ∀ item ∈ queued s, ¬ p item) {ticks : List Tick} (hticks : Along (next config) G s ticks) :
    Along (next config) (fun s tick => ∀ push ∈ (step config tick.1 s tick.2).1,
      ∀ item ∈ push.request.items, ¬ p item) s ticks := by
  refine along_of_guard (I := fun s => ∀ item ∈ queued s, ¬ p item)
    (fun s tick hs hg => next_queued hs (hwrite s tick hg)) (fun s tick hs _ => ?_) h hticks
  intro push hpush item hitem
  exact hs item (step_pushes config tick.1 s hpush hitem)

end Ticks

section Example

def quietSurroundings : Surroundings where
  instant := 0
  utcNow := "2026-02-01T00:00:00+00:00"
  dbNow := "2026-02-01 00:00:00"
  daysAgo _ := ("2026-01-25 00:00:00", "2026-01-25 00:00:00")
  activePeersForGroupOrRelays _ := []
  randomHotPeer _ := none
  sharedGroups := ["seed-drill"]
  relayLearnedGroups := none

def memberConfig : LoopConfig := ⟨⟨.default, "russell"⟩, false, []⟩

end Example
end CordeliaCore.ReplicationLoop
