import CordeliaCore.PartitionHeal
import CordeliaCore.PullGossip
import Mathlib.Data.Set.Lattice.Image
import Mathlib.Data.Fintype.Basic
import Mathlib.Order.ConditionallyCompleteLattice.Basic

set_option autoImplicit false

namespace CordeliaCore.Convergence
open CryptoPrimitives ProtocolMessages StorageRows StorageSqlite KeyedTable Replication
open ReplicationEngine SqliteStorage Swarm PartitionHeal StepRuns PullGossip

structure Participant where
  engine : ReplicationEngine
  ourGroups : List String
  relayAcceptSet : Option (List String)

structure Round (ν : Type) where
  node : ν
  peer : ν
  groupId : String
  now : String
  since : Option String
  syncFails : Bool
  failedFetches : List (List String)

/-- The round lists the peer's group from its start, and nothing fails. -/
def Round.Complete {ν : Type} (round : Round ν) : Prop :=
  round.since = none ∧ round.syncFails = false ∧ round.failedFetches = []

instance {ν : Type} (round : Round ν) : Decidable round.Complete :=
  inferInstanceAs (Decidable (_ ∧ _ ∧ _))

def Round.pulls {ν : Type} (groupId : String) (round : Round ν) : Option (ν × ν) :=
  if round.groupId = groupId then some (round.node, round.peer) else none

def Round.pullsAll {ν : Type} (groupId : String) (round : Round ν) : Option (ν × ν) :=
  if round.groupId = groupId ∧ round.Complete then some (round.node, round.peer) else none

def served (groupId : String) (db : SqliteStorage) : Set FetchedItem :=
  {x | ∃ r ∈ db.groupItems groupId, fetchedItem r = x}

def stamp (groupId : String) (db : SqliteStorage) (id : String) : WithBot String :=
  ((db.l2Items.lookup id).filter (fun r => r.groupId = some groupId)).map L2ItemRow.updatedAt

section Digest
variable [Sha256] {ν : Type}

/-- A peer that answers from its store, except for the requests that fail. -/
def Round.answering (round : Round ν) (remote : SqliteStorage) : Peer where
  sync req := if round.syncFails then .error .closed else .ok (handleSyncRequest remote req)
  fetch req :=
    if req.itemIds ∈ round.failedFetches then .error .closed
    else .ok (handleFetchRequest remote req)

variable [DecidableEq ν]

def sync (participants : ν → Participant) (stores : ν → SqliteStorage) (round : Round ν) :
    ν → SqliteStorage :=
  let node := participants round.node
  Function.update stores round.node
    (runAntiEntropy node.engine (some (round.answering (stores round.peer))) (stores round.node)
      round.now round.groupId node.ourGroups round.since node.relayAcceptSet).2

/-- Across the nodes an id belongs to one group, and its stamps and checksums
    tell the same versions apart. -/
structure Coherent (stores : ν → SqliteStorage) : Prop where
  servable : ∀ i groupId, Servable groupId (stores i)
  group : ∀ i j, ∀ r ∈ (stores i).l2Items.rows, ∀ e ∈ (stores j).l2Items.rows, r.id = e.id →
    r.groupId = e.groupId
  version : ∀ i j groupId, ∀ r ∈ (stores i).groupItems groupId,
    ∀ e ∈ (stores j).groupItems groupId, r.id = e.id → r.updatedAt = e.updatedAt →
      fetchedItem r = fetchedItem e
  content : ∀ i j groupId, ∀ r ∈ (stores i).groupItems groupId,
    ∀ e ∈ (stores j).groupItems groupId, r.id = e.id → r.checksum = e.checksum →
      r.updatedAt = e.updatedAt

structure Copy (e r : L2ItemRow) : Prop where
  group : e.groupId = r.groupId
  sum : e.checksum = r.checksum
  item : fetchedItem e = fetchedItem r

omit [Sha256] in
theorem Copy.refl (r : L2ItemRow) : Copy r r := ⟨rfl, rfl, rfl⟩

omit [Sha256] in
theorem Copy.id {e r : L2ItemRow} (h : Copy e r) : e.id = r.id :=
  congrArg FetchedItem.itemId h.item

omit [Sha256] in
theorem Copy.updatedAt {e r : L2ItemRow} (h : Copy e r) : e.updatedAt = r.updatedAt :=
  congrArg FetchedItem.updatedAt h.item

omit [Sha256] in
theorem Copy.data {e r : L2ItemRow} (h : Copy e r) : e.data = r.data :=
  congrArg FetchedItem.encryptedBlob h.item

theorem copy_receivedRow {remote : SqliteStorage} {groupId : String} {r : L2ItemRow}
    (hr : r ∈ remote.groupItems groupId) (hremote : Servable groupId remote)
    (existing : Option L2ItemRow) (now : String) :
    Copy (receivedRow existing now (fetchedItem r)) r where
  group := (receivedRow_groupId hr existing now).trans (mem_groupItems.mp hr).2.symm
  sum := receivedRow_checksum hremote hr existing
  item := by
    refine fetchedItem_receivedRow ?_ existing now
    change (Replication.checksum r.data == r.checksum.getD "") = true
    rw [hremote.summed r hr, Option.getD_some, beq_self_eq_true]

section Fetch

omit [Sha256] [DecidableEq ν] in
theorem take_flatten_map {α β : Type} {f : α → β} {parts : List (List β)} {xs : List α}
    (h : parts.flatten = xs.map f) (k : ℕ) : ∃ m, (parts.take k).flatten = (xs.take m).map f := by
  have hsplit : (parts.take k).flatten ++ (parts.drop k).flatten = xs.map f := by
    rw [← List.flatten_append, List.take_append_drop, h]
  refine ⟨(parts.take k).flatten.length, ?_⟩
  rw [List.map_take, ← hsplit, List.take_left]

variable (round : Round ν) (remote : SqliteStorage) (ourGroups : List String)

omit [DecidableEq ν] in
/-- A fetch loop receives what its first chunks name. -/
theorem fetchChunks_answering (relayAccepts : Option (String → Bool))
    (parts : List (List String)) (db : SqliteStorage) :
    ∃ k, (fetchChunks (round.answering remote) round.now ourGroups relayAccepts parts db).2 =
      receiveAll db round.now (handleFetchRequest remote ⟨(parts.take k).flatten⟩).items ourGroups
        relayAccepts := by
  induction parts generalizing db with
  | nil => exact ⟨0, rfl⟩
  | cons part parts ih =>
    unfold fetchChunks
    by_cases hfails : part ∈ round.failedFetches
    · have hfetch : (round.answering remote).fetch ⟨part⟩ = .error .closed := if_pos hfails
      rw [hfetch]
      exact ⟨0, rfl⟩
    · have hfetch : (round.answering remote).fetch ⟨part⟩ =
          .ok (handleFetchRequest remote ⟨part⟩) := if_neg hfails
      obtain ⟨k, hk⟩ := ih (receiveAll db round.now (handleFetchRequest remote ⟨part⟩).items
        ourGroups relayAccepts)
      rw [hfetch]
      refine ⟨k + 1, hk.trans ?_⟩
      rw [List.take_succ_cons, List.flatten_cons, handleFetchRequest_append, receiveAll_append]

variable (engine : ReplicationEngine) (db : SqliteStorage) (relayAcceptSet : Option (List String))

def after : SqliteStorage :=
  (runAntiEntropy engine (some (round.answering remote)) db round.now round.groupId ourGroups
    round.since relayAcceptSet).2

omit [DecidableEq ν] in
theorem after_receives :
    ∃ k, after round remote ourGroups engine db relayAcceptSet =
      receiveAll db round.now (((fetchedRows engine remote db round.groupId round.since).take k).map
        fetchedItem) ourGroups (relayFn relayAcceptSet) := by
  have hneeded : diffHeaders (db.listGroupItems round.groupId round.since engine.config.maxBatchSize)
      (remote.listGroupItems round.groupId round.since engine.config.maxBatchSize) =
      (fetchedRows engine remote db round.groupId round.since).map L2ItemRow.id :=
    diffHeaders_rows _ _
  unfold after runAntiEntropy
  dsimp only
  cases hsync : round.syncFails with
  | true =>
    have hfailed : (round.answering remote).sync
        ⟨round.groupId, round.since, engine.config.maxBatchSize⟩ = .error .closed := if_pos hsync
    rw [hfailed]
    exact ⟨0, rfl⟩
  | false =>
    have hanswer : (round.answering remote).sync
        ⟨round.groupId, round.since, engine.config.maxBatchSize⟩ =
        (Peer.serving remote).sync ⟨round.groupId, round.since, engine.config.maxBatchSize⟩ :=
      if_neg (by simp [hsync])
    rw [hanswer, serving_sync, listGroupItems_ok]
    dsimp only
    rw [hneeded]
    split_ifs with hempty
    · exact ⟨0, rfl⟩
    obtain ⟨k, hk⟩ := fetchChunks_answering round remote ourGroups (relayFn relayAcceptSet)
      (chunks engine.config.maxBatchSize
        ((fetchedRows engine remote db round.groupId round.since).map L2ItemRow.id)) db
    obtain ⟨m, hm⟩ := take_flatten_map (chunks_flatten engine.config.maxBatchSize
      ((fetchedRows engine remote db round.groupId round.since).map L2ItemRow.id)) k
    have hrows : ∀ r ∈ (fetchedRows engine remote db round.groupId round.since).take m,
        remote.l2Items.lookup r.id = some r := fun r hr =>
      (mem_groupItems.mp (mem_groupItems_of_listed
        (List.mem_filter.mp (List.mem_of_mem_take hr)).1)).1
    rw [hm, handleFetchRequest_rows remote hrows] at hk
    refine ⟨m, Eq.trans ?_ hk⟩
    split <;> simp_all

omit [DecidableEq ν] in
theorem after_lookup (id : String) :
    (after round remote ourGroups engine db relayAcceptSet).l2Items.lookup id =
        db.l2Items.lookup id ∨
      ∃ r ∈ remote.groupItems round.groupId, r.id = id ∧ Takes db r ∧
        (after round remote ourGroups engine db relayAcceptSet).l2Items.lookup id =
          some (receivedRow (db.l2Items.lookup id) round.now (fetchedItem r)) := by
  obtain ⟨k, hk⟩ := after_receives round remote ourGroups engine db relayAcceptSet
  rw [hk]
  have hnodup : ((((fetchedRows engine remote db round.groupId round.since).take k).map
      fetchedItem).map FetchedItem.itemId).Nodup := by
    rw [List.map_map]
    exact (listedRows_id_nodup remote round.groupId round.since engine.config.maxBatchSize).sublist
      (((List.take_sublist k _).trans List.filter_sublist).map _)
  by_cases hnamed : ∃ r ∈ (fetchedRows engine remote db round.groupId round.since).take k, r.id = id
  · obtain ⟨r, hr, rfl⟩ := hnamed
    have hgroup : r ∈ remote.groupItems round.groupId :=
      mem_groupItems_of_listed (List.mem_filter.mp (List.mem_of_mem_take hr)).1
    have hone := receiveAll_lookup_of_mem round.now ourGroups (relayFn relayAcceptSet) db hnodup
      (List.mem_map_of_mem hr)
    have hkind := fetchedItem_not_erases remote ourGroups
      (Table.mem_of_lookup (mem_groupItems.mp hgroup).1) (relayFn relayAcceptSet)
    change (receiveAll db round.now _ ourGroups _).l2Items.lookup r.id = _ at hone
    rw [onReceive_lookup, if_pos rfl, if_neg hkind] at hone
    rw [hone]
    split_ifs with hwrite
    · exact .inr ⟨r, hgroup, rfl, hwrite.2.2, rfl⟩
    · exact .inl rfl
  · refine .inl (receiveAll_lookup_of_ne round.now ourGroups _ db (fun item hitem heq => hnamed ?_))
    obtain ⟨r, hr, rfl⟩ := List.mem_map.mp hitem
    exact ⟨r, hr, heq.symm⟩

omit [DecidableEq ν] in
/-- A complete round lets in whatever supersedes the node's row. -/
theorem after_lookup_complete (hround : round.Complete)
    (haccept : groupAccepted ourGroups (relayFn relayAcceptSet) round.groupId = true)
    (hdb : Servable round.groupId db) (hremote : Servable round.groupId remote)
    (hfits : (remote.groupItems round.groupId).length ≤ engine.config.maxBatchSize)
    {r : L2ItemRow} (hr : r ∈ remote.groupItems round.groupId) :
    (after round remote ourGroups engine db relayAcceptSet).l2Items.lookup r.id =
      if Takes db r then some (receivedRow (db.l2Items.lookup r.id) round.now (fetchedItem r))
      else db.l2Items.lookup r.id := by
  obtain ⟨hsince, hsync, hfetch⟩ := hround
  have hpeer : round.answering remote = Peer.serving remote := by
    unfold Round.answering Peer.serving
    simp [hsync, hfetch]
  have hwrites : Writes ourGroups (relayFn relayAcceptSet) (fetchedItem r)
      (db.l2Items.lookup r.id) ↔ Takes db r := by
    obtain ⟨hlookup, hgroup⟩ := mem_groupItems.mp hr
    have hadm : Admitted ourGroups (relayFn relayAcceptSet) (fetchedItem r) := by
      refine ⟨hremote.small r hr, ?_⟩
      change groupAccepted ourGroups (relayFn relayAcceptSet) (r.groupId.getD "") = true
      rw [hgroup]
      exact haccept
    have hwell : WellFormed (fetchedItem r) := by
      refine ⟨?_, (remote.l2Items.checked r (Table.mem_of_lookup hlookup)).1⟩
      change (Replication.checksum r.data == r.checksum.getD "") = true
      rw [hremote.summed r hr, Option.getD_some, beq_self_eq_true]
    exact ⟨fun hw => hw.2.2, fun ht => ⟨hadm, hwell, ht⟩⟩
  have hpulled := pulled_lookup_of_listed engine remote db round.now round.groupId ourGroups none
    relayAcceptSet hdb.isSome ((mem_listedRows_of_fits hfits).mpr hr)
  unfold after
  rw [hpeer, hsince]
  exact hpulled.trans (if_congr hwrites rfl rfl)

end Fetch

section Stamps
variable {groupId : String} {db : SqliteStorage}

omit [Sha256] [DecidableEq ν] in
theorem stamp_of_mem {r : L2ItemRow} (h : r ∈ db.groupItems groupId) :
    stamp groupId db r.id = (r.updatedAt : WithBot String) := by
  obtain ⟨hlookup, hgroup⟩ := mem_groupItems.mp h
  unfold stamp
  rw [hlookup, Option.filter_some, if_pos (by simpa using hgroup)]
  rfl

omit [Sha256] [DecidableEq ν] in
theorem stamp_cases (groupId : String) (db : SqliteStorage) (id : String) :
    stamp groupId db id = ⊥ ∨ ∃ r ∈ db.groupItems groupId, r.id = id := by
  unfold stamp
  cases hlookup : db.l2Items.lookup id with
  | none => exact .inl rfl
  | some r =>
    have hid : r.id = id := Table.key_of_lookup hlookup
    rw [Option.filter_some]
    split_ifs with hgroup
    · exact .inr ⟨r, mem_groupItems.mpr ⟨hid ▸ hlookup, by simpa using hgroup⟩, hid⟩
    · exact .inl rfl

omit [Sha256] [DecidableEq ν] in
theorem stamp_congr {s t : SqliteStorage} {id : String}
    (h : s.l2Items.lookup id = t.l2Items.lookup id) : stamp groupId s id = stamp groupId t id := by
  unfold stamp
  rw [h]

end Stamps

section Network
variable {participants : ν → Participant} {stores : ν → SqliteStorage} {round : Round ν}

theorem sync_node : sync participants stores round round.node =
    after round (stores round.peer) (participants round.node).ourGroups
      (participants round.node).engine (stores round.node)
      (participants round.node).relayAcceptSet :=
  Function.update_self _ _ _

theorem sync_of_ne {i : ν} (h : i ≠ round.node) : sync participants stores round i = stores i :=
  Function.update_of_ne h _ _

theorem sync_row_cases (h : Coherent stores) {i : ν} {e : L2ItemRow}
    (he : e ∈ (sync participants stores round i).l2Items.rows) :
    e ∈ (stores i).l2Items.rows ∨
      i = round.node ∧ ∃ r ∈ (stores round.peer).groupItems round.groupId, Copy e r := by
  by_cases hi : i = round.node
  swap
  · rw [sync_of_ne hi] at he
    exact .inl he
  subst hi
  have hlookup := ((sync participants stores round round.node).l2Items.lookup_eq_some_iff).mpr
    ⟨he, rfl⟩
  rw [sync_node] at hlookup
  rcases after_lookup round (stores round.peer) (participants round.node).ourGroups
    (participants round.node).engine (stores round.node)
    (participants round.node).relayAcceptSet e.id with hkept | ⟨r, hr, _, _, hnew⟩
  · exact .inl (Table.mem_of_lookup (hkept ▸ hlookup))
  · have hcopy := copy_receivedRow hr (h.servable _ _)
      ((stores round.node).l2Items.lookup e.id) round.now
    rw [← Option.some.inj (hlookup.symm.trans hnew)] at hcopy
    exact .inr ⟨rfl, r, hr, hcopy⟩

theorem sync_row_copy (h : Coherent stores) {i : ν} {e : L2ItemRow}
    (he : e ∈ (sync participants stores round i).l2Items.rows) :
    ∃ j, ∃ r ∈ (stores j).l2Items.rows, Copy e r := by
  rcases sync_row_cases h he with hkept | ⟨_, r, hr, hcopy⟩
  · exact ⟨i, e, hkept, .refl e⟩
  · exact ⟨round.peer, r, (List.mem_filter.mp hr).1, hcopy⟩

theorem sync_item_copy (h : Coherent stores) {i : ν} {groupId : String} {e : L2ItemRow}
    (he : e ∈ (sync participants stores round i).groupItems groupId) :
    ∃ j, ∃ r ∈ (stores j).groupItems groupId, Copy e r := by
  obtain ⟨hrow, hgroup⟩ := List.mem_filter.mp he
  obtain ⟨j, r, hr, hcopy⟩ := sync_row_copy h hrow
  rw [hcopy.group] at hgroup
  exact ⟨j, r, List.mem_filter.mpr ⟨hr, hgroup⟩, hcopy⟩

theorem Coherent.sync (h : Coherent stores) (participants : ν → Participant) (round : Round ν) :
    Coherent (sync participants stores round) where
  servable i groupId := by
    refine ⟨fun e he => ?_, fun e he => ?_⟩
    · obtain ⟨j, r, hr, hcopy⟩ := sync_item_copy h he
      rw [hcopy.data]
      exact (h.servable j groupId).small r hr
    · obtain ⟨j, r, hr, hcopy⟩ := sync_item_copy h he
      rw [hcopy.sum, hcopy.data]
      exact (h.servable j groupId).summed r hr
  group i j e he f hf hid := by
    obtain ⟨k, r, hr, hcopy⟩ := sync_row_copy h he
    obtain ⟨l, q, hq, hcopy'⟩ := sync_row_copy h hf
    rw [hcopy.group, hcopy'.group]
    exact h.group k l r hr q hq (hcopy.id ▸ hcopy'.id ▸ hid)
  version i j groupId e he f hf hid hstamp := by
    obtain ⟨k, r, hr, hcopy⟩ := sync_item_copy h he
    obtain ⟨l, q, hq, hcopy'⟩ := sync_item_copy h hf
    rw [hcopy.item, hcopy'.item]
    exact h.version k l groupId r hr q hq (hcopy.id ▸ hcopy'.id ▸ hid)
      (hcopy.updatedAt ▸ hcopy'.updatedAt ▸ hstamp)
  content i j groupId e he f hf hid hsum := by
    obtain ⟨k, r, hr, hcopy⟩ := sync_item_copy h he
    obtain ⟨l, q, hq, hcopy'⟩ := sync_item_copy h hf
    rw [hcopy.updatedAt, hcopy'.updatedAt]
    exact h.content k l groupId r hr q hq (hcopy.id ▸ hcopy'.id ▸ hid)
      (hcopy.sum ▸ hcopy'.sum ▸ hsum)

theorem stamp_le_sync (h : Coherent stores) (participants : ν → Participant) (round : Round ν)
    (groupId : String) (i : ν) (id : String) :
    stamp groupId (stores i) id ≤ stamp groupId (sync participants stores round i) id := by
  by_cases hi : i = round.node
  swap
  · rw [sync_of_ne hi]
  subst hi
  rw [sync_node]
  rcases after_lookup round (stores round.peer) (participants round.node).ourGroups
    (participants round.node).engine (stores round.node)
    (participants round.node).relayAcceptSet id with hkept | ⟨r, hr, rfl, htakes, hnew⟩
  · rw [stamp_congr hkept]
  rcases stamp_cases groupId (stores round.node) r.id with hnone | ⟨e, he, hid⟩
  · rw [hnone]
    exact bot_le
  have hgroup : r.groupId = some groupId :=
    (h.group _ _ e (List.mem_filter.mp he).1 r (List.mem_filter.mp hr).1 hid).symm.trans
      (mem_groupItems.mp he).2
  have hcopy := copy_receivedRow hr (h.servable _ _)
    ((stores round.node).l2Items.lookup r.id) round.now
  have hmem := mem_groupItems.mpr ⟨hnew, hcopy.group.trans hgroup⟩
  have hafter := stamp_of_mem hmem
  rw [hcopy.id, hcopy.updatedAt] at hafter
  rw [hafter, ← hid, stamp_of_mem he]
  exact WithBot.coe_le_coe.mpr (htakes e (hid ▸ (mem_groupItems.mp he).1)).2.le

/-- A complete round brings every version of the peer, or a newer one is there. -/
theorem stamp_peer_le_sync (h : Coherent stores) (hround : round.Complete)
    (haccept : groupAccepted (participants round.node).ourGroups
      (relayFn (participants round.node).relayAcceptSet) round.groupId = true)
    (hfits : ((stores round.peer).groupItems round.groupId).length ≤
      (participants round.node).engine.config.maxBatchSize) (id : String) :
    stamp round.groupId (stores round.peer) id ≤
      stamp round.groupId (sync participants stores round round.node) id := by
  rcases stamp_cases round.groupId (stores round.peer) id with hnone | ⟨r, hr, rfl⟩
  · rw [hnone]
    exact bot_le
  have hlookup := after_lookup_complete round (stores round.peer) _
    (participants round.node).engine (stores round.node) _ hround haccept (h.servable _ _)
    (h.servable _ _) hfits hr
  rw [stamp_of_mem hr, sync_node]
  split_ifs at hlookup with htakes
  · have hcopy := copy_receivedRow hr (h.servable _ _)
      ((stores round.node).l2Items.lookup r.id) round.now
    have hafter := stamp_of_mem
      (mem_groupItems.mpr ⟨hlookup, hcopy.group.trans (mem_groupItems.mp hr).2⟩)
    rw [hcopy.id, hcopy.updatedAt] at hafter
    rw [hafter]
  · rw [stamp_congr hlookup]
    simp only [Takes, not_forall] at htakes
    obtain ⟨e, he, hnot⟩ := htakes
    have hid : e.id = r.id := Table.key_of_lookup he
    have hgroup : e.groupId = some round.groupId :=
      (h.group _ _ e (Table.mem_of_lookup he) r (List.mem_filter.mp hr).1 hid).trans
        (mem_groupItems.mp hr).2
    have hmem : e ∈ (stores round.node).groupItems round.groupId :=
      mem_groupItems.mpr ⟨hid ▸ he, hgroup⟩
    rw [← hid, stamp_of_mem hmem, WithBot.coe_le_coe]
    by_cases hsum : e.checksum = some (fetchedItem r).checksum
    · have hsame : e.checksum = r.checksum := by
        rw [hsum, (h.servable round.peer round.groupId).summed r hr]
        change some (r.checksum.getD "") = _
        rw [(h.servable round.peer round.groupId).summed r hr, Option.getD_some]
      exact (h.content _ _ _ e hmem r hr hid hsame).ge
    · exact not_lt.mp (fun hlt => hnot ⟨hsum, hlt⟩)

theorem served_sync (h : Coherent stores) (participants : ν → Participant) (round : Round ν)
    (groupId : String) : (fun i => served groupId (sync participants stores round i)) ≤
      pullSome (fun i => served groupId (stores i)) (round.pulls groupId) := by
  rintro i _ ⟨e, he, rfl⟩
  obtain ⟨hrow, hgroup⟩ := List.mem_filter.mp he
  rcases sync_row_cases h hrow with hkept | ⟨rfl, r, hr, hcopy⟩
  · have hbefore : fetchedItem e ∈ served groupId (stores i) :=
      ⟨e, List.mem_filter.mpr ⟨hkept, hgroup⟩, rfl⟩
    unfold Round.pulls
    split_ifs
    · exact le_pull (fun i => served groupId (stores i)) _ i hbefore
    · exact hbefore
  · have hsame : round.groupId = groupId := by
      have hg := (mem_groupItems.mp hr).2
      rw [← hcopy.group, of_decide_eq_true hgroup] at hg
      exact (Option.some.inj hg).symm
    unfold Round.pulls
    rw [if_pos hsame]
    change _ ∈ pull (fun i => served groupId (stores i)) (round.node, round.peer) round.node
    rw [pull_apply, if_pos rfl]
    exact .inr ⟨r, hsame ▸ hr, hcopy.item.symm⟩

end Network

section Runs
variable {participants : ν → Participant} {stores : ν → SqliteStorage} {groupId : String}

/-- The ids of the group, few enough for one page of any node. -/
structure Fits (participants : ν → Participant) (groupId : String) (ids : Finset String)
    (stores : ν → SqliteStorage) : Prop where
  named : ∀ i, ∀ r ∈ (stores i).groupItems groupId, r.id ∈ ids
  few : ∀ i, ids.card ≤ (participants i).engine.config.maxBatchSize

omit [Sha256] [DecidableEq ν] in
theorem Fits.length_le {ids : Finset String} (h : Fits participants groupId ids stores) (i j : ν) :
    ((stores j).groupItems groupId).length ≤ (participants i).engine.config.maxBatchSize := by
  have hsub : (((stores j).groupItems groupId).map L2ItemRow.id).toFinset ⊆ ids := by
    intro id hid
    obtain ⟨r, hr, rfl⟩ := List.mem_map.mp (List.mem_toFinset.mp hid)
    exact h.named j r hr
  have hcard := Finset.card_le_card hsub
  rw [List.toFinset_card_of_nodup (groupItems_id_nodup _ _), List.length_map] at hcard
  exact hcard.trans (h.few i)

theorem Fits.sync {ids : Finset String} (h : Fits participants groupId ids stores)
    (hc : Coherent stores) (round : Round ν) :
    Fits participants groupId ids (sync participants stores round) where
  named i e he := by
    obtain ⟨j, r, hr, hcopy⟩ := sync_item_copy hc he
    exact hcopy.id ▸ h.named j r hr
  few := h.few

variable {ids : Finset String} (hc : Coherent stores) (hf : Fits participants groupId ids stores)
include hc hf

/-- Complete rounds bring each version that was heard of, unless a newer one is there. -/
theorem newer_of_heard
    (haccept : ∀ i, groupAccepted (participants i).ourGroups
      (relayFn (participants i).relayAcceptSet) groupId = true)
    (rounds : List (Round ν)) {i j : ν} (hj : j ∈ heard (rounds.filterMap (·.pullsAll groupId)) i)
    {r : L2ItemRow} (hr : r ∈ (stores j).groupItems groupId) :
    ∃ e ∈ (run (sync participants) stores rounds i).groupItems groupId,
      e.id = r.id ∧ r.updatedAt ≤ e.updatedAt := by
  have hlower := heard_le_run (sync participants) (fun stores i => stamp groupId (stores i))
    (·.pullsAll groupId)
    (I := fun stores => Coherent stores ∧ Fits participants groupId ids stores)
    (fun s round hs => ⟨hs.1.sync participants round, hs.2.sync hs.1 round⟩)
    (fun s round hs => ?_) ⟨hc, hf⟩ rounds i
  · have hle : stamp groupId (stores j) r.id ≤
        stamp groupId (run (sync participants) stores rounds i) r.id :=
      (Finset.le_sup (f := fun i => stamp groupId (stores i)) hj).trans hlower r.id
    rw [stamp_of_mem hr] at hle
    rcases stamp_cases groupId (run (sync participants) stores rounds i) r.id with
      hnone | ⟨e, he, hid⟩
    · rw [hnone] at hle
      exact absurd hle (WithBot.not_coe_le_bot _)
    · rw [← hid, stamp_of_mem he] at hle
      exact ⟨e, he, hid, WithBot.coe_le_coe.mp hle⟩
  · intro k id
    unfold Round.pullsAll
    split_ifs with hround
    · obtain ⟨rfl, hcomplete⟩ := hround
      change pull (fun i => stamp round.groupId (s i)) (round.node, round.peer) k id ≤ _
      rw [pull_apply]
      split_ifs with hk
      · subst hk
        exact sup_le (stamp_le_sync hs.1 participants round _ _ id)
          (stamp_peer_le_sync hs.1 hcomplete (haccept _) (hs.2.length_le _ _) id)
      · exact stamp_le_sync hs.1 participants round _ k id
    · exact stamp_le_sync hs.1 participants round groupId k id

omit hf in
theorem heard_of_served (rounds : List (Round ν)) {i : ν} {x : FetchedItem}
    (hx : x ∈ served groupId (run (sync participants) stores rounds i)) :
    ∃ j ∈ heard (rounds.filterMap (·.pulls groupId)) i, x ∈ served groupId (stores j) := by
  have hupper := run_le_heard (sync participants) (fun stores i => served groupId (stores i))
    (·.pulls groupId) (I := Coherent)
    (fun s round hs => hs.sync participants round)
    (fun s round hs => served_sync hs participants round groupId) hc rounds i
  have hmem := hupper hx
  rw [Finset.sup_set_eq_biUnion] at hmem
  obtain ⟨j, hj, hserved⟩ := Set.mem_iUnion₂.mp hmem
  exact ⟨j, hj, hserved⟩

/-- A node that complete rounds have joined to every other serves exactly the
    newest version of each item that any node had. -/
theorem joined_node_serves_newest [Fintype ν]
    (haccept : ∀ i, groupAccepted (participants i).ourGroups
      (relayFn (participants i).relayAcceptSet) groupId = true)
    (rounds : List (Round ν)) (i : ν)
    (hheard : heard (rounds.filterMap (·.pullsAll groupId)) i = Finset.univ) (x : FetchedItem) :
    x ∈ served groupId (run (sync participants) stores rounds i) ↔
      (∃ j, x ∈ served groupId (stores j)) ∧ ∀ j, ∀ y ∈ served groupId (stores j),
        y.itemId = x.itemId → y.updatedAt ≤ x.updatedAt := by
  have hall : ∀ j, j ∈ heard (rounds.filterMap (·.pullsAll groupId)) i := fun j =>
    hheard ▸ Finset.mem_univ j
  constructor
  · intro hx
    obtain ⟨j, _, hj⟩ := heard_of_served hc rounds hx
    refine ⟨⟨j, hj⟩, ?_⟩
    rintro k _ ⟨r, hr, rfl⟩ hid
    obtain ⟨e, he, rfl⟩ := hx
    obtain ⟨e', he', hid', hle⟩ := newer_of_heard hc hf haccept rounds (hall k) hr
    have hsame : e' = e := groupItems_id_inj he' he (hid'.trans hid)
    exact hsame ▸ hle
  · rintro ⟨⟨j, r, hr, rfl⟩, hnewest⟩
    obtain ⟨e, he, hid, hle⟩ := newer_of_heard hc hf haccept rounds (hall j) hr
    obtain ⟨k, _, q, hq, hcopy⟩ := heard_of_served hc rounds ⟨e, he, rfl⟩
    have hqid : q.id = r.id := (congrArg FetchedItem.itemId hcopy).trans hid
    have hqstamp : q.updatedAt = e.updatedAt := congrArg FetchedItem.updatedAt hcopy
    have hback := hnewest k _ ⟨q, hq, rfl⟩ hqid
    have hstamp : q.updatedAt = r.updatedAt := le_antisymm hback (hqstamp ▸ hle)
    refine ⟨e, he, ?_⟩
    rw [← hcopy]
    exact hc.version k j groupId q hq r hr hqid hstamp

end Runs

section Example

def noteAt (i : Fin 3) : String × String :=
  if i.val = 1 then ("", "2026-02-02T00:00:00Z") else ("a", "2026-02-01T00:00:00Z")

def editedNote (i : Fin 3) : SqliteStorage := (noteNode "russell" (noteAt i).1 (noteAt i).2).storage

def seedDrillers (_ : Fin 3) : Participant := ⟨⟨.default, "russell"⟩, ["seed-drill"], none⟩

def fullRound (node peer : Fin 3) : Round (Fin 3) where
  node := node
  peer := peer
  groupId := "seed-drill"
  now := "2026-02-09 00:00:00"
  since := none
  syncFails := false
  failedFetches := []

def throughTheFirst (a b c : Fin 3) : List (Round (Fin 3)) :=
  [{ fullRound a b with syncFails := true }, fullRound a b, fullRound a c, fullRound b a,
    fullRound c a]

theorem mem_editedNote {i : Fin 3} {r : L2ItemRow} (h : r ∈ (editedNote i).l2Items.rows) :
    r = noteRow (noteAt i).1 (noteAt i).2 :=
  List.mem_singleton.mp h

theorem editedNote_fits : Fits seedDrillers "seed-drill" {"note-1"} editedNote where
  named i r hr := by
    rw [mem_editedNote (List.mem_filter.mp hr).1]
    exact Finset.mem_singleton_self _
  few _ := (by decide : ({"note-1"} : Finset String).card ≤ 100)

end Example
end Digest

theorem noteAt_cases : ∀ i j : Fin 3, noteAt i = noteAt j ∨
    (noteAt i).2 ≠ (noteAt j).2 ∧ ((noteAt i).1 = "a" ∧ (noteAt j).1 = "" ∨
      (noteAt i).1 = "" ∧ (noteAt j).1 = "a") := by
  decide

theorem editedNote_coherent : @Coherent knownDigests (Fin 3) (@editedNote knownDigests) := by
  let := knownDigests
  have hrow : ∀ {i groupId r}, r ∈ (editedNote i).groupItems groupId →
      r = noteRow (noteAt i).1 (noteAt i).2 := fun h => mem_editedNote (List.mem_filter.mp h).1
  refine ⟨fun i groupId => ⟨fun r hr => ?_, fun r hr => ?_⟩, fun i j r hr e he _ => ?_,
    fun i j groupId r hr e he _ hstamp => ?_, fun i j groupId r hr e he _ hsum => ?_⟩
  · rw [hrow hr]
    exact (by decide : ∀ i, (asBytes (noteAt i).1).length ≤ maxItemBytes) i
  · rw [hrow hr]
    rfl
  · rw [mem_editedNote hr, mem_editedNote he]
    rfl
  · rw [hrow hr, hrow he] at hstamp ⊢
    rcases noteAt_cases i j with hsame | ⟨hother, _⟩
    · rw [hsame]
    · exact absurd hstamp hother
  · rw [hrow hr, hrow he] at hsum ⊢
    have hequal : Replication.checksum (asBytes (noteAt i).1) =
        Replication.checksum (asBytes (noteAt j).1) := Option.some.inj hsum
    rcases noteAt_cases i j with hsame | ⟨_, ⟨hi, hj⟩ | ⟨hi, hj⟩⟩
    · rw [hsame]
    · rw [hi, hj] at hequal
      exact absurd hequal note_checksums_differ
    · rw [hi, hj] at hequal
      exact absurd hequal.symm note_checksums_differ

theorem editedNote_spreads : let := knownDigests
    noteVersion "" "2026-02-02T00:00:00Z" ∈
      served "seed-drill" (run (sync seedDrillers) editedNote (throughTheFirst 0 1 2) 2) := by
  let := knownDigests
  refine (joined_node_serves_newest editedNote_coherent editedNote_fits (fun _ => rfl)
    (throughTheFirst 0 1 2) 2 (by decide) _).mpr ⟨⟨1, noteRow "" "2026-02-02T00:00:00Z", ?_, ?_⟩, ?_⟩
  · exact List.mem_singleton.mpr rfl
  · exact fetchedItem_receivedRow (noteVersion_wellFormed _ _).1 _ _
  · rintro j _ ⟨r, hr, rfl⟩ _
    rw [mem_editedNote (List.mem_filter.mp hr).1]
    exact (by decide : ∀ i, (noteAt i).2 ≤ "2026-02-02T00:00:00Z") j

end CordeliaCore.Convergence
