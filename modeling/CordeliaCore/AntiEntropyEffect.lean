import CordeliaCore.ReceiveEffect
import CordeliaCore.ReplicationAntiEntropy

set_option autoImplicit false

namespace CordeliaCore.Replication
open CryptoPrimitives ProtocolMessages StorageRows StorageSqlite KeyedTable
open ReplicationEngine SqliteStorage Swarm

theorem chunks_flatten {α : Type} (size : ℕ) (xs : List α) : (chunks size xs).flatten = xs := by
  fun_induction chunks size xs with
  | case1 => rfl
  | case2 x xs ih =>
    rw [List.flatten_cons, ih, List.cons_append, List.take_append_drop]

theorem groupItems_id_nodup (db : SqliteStorage) (groupId : String) :
    ((db.groupItems groupId).map L2ItemRow.id).Nodup :=
  List.pairwise_map.mpr (db.l2Items.unique.filter _)

theorem mem_groupItems {db : SqliteStorage} {groupId : String} {r : L2ItemRow} :
    r ∈ db.groupItems groupId ↔ db.l2Items.lookup r.id = some r ∧ r.groupId = some groupId := by
  unfold groupItems
  rw [List.mem_filter, db.l2Items.lookup_eq_some_iff, decide_eq_true_eq, and_iff_left rfl]

theorem groupItems_id_inj {db : SqliteStorage} {groupId : String} {r q : L2ItemRow}
    (hr : r ∈ db.groupItems groupId) (hq : q ∈ db.groupItems groupId) (h : r.id = q.id) : r = q :=
  db.l2Items.key_injOn (List.mem_filter.mp hr).1 (List.mem_filter.mp hq).1 h

def listedRows (db : SqliteStorage) (groupId : String) (since : Option String) (limit : ℕ) :
    List L2ItemRow :=
  CursorPaging.page L2ItemRow.updatedAt since limit (db.groupItems groupId)

theorem mem_groupItems_of_listed {db : SqliteStorage} {groupId : String} {since : Option String}
    {limit : ℕ} {r : L2ItemRow} (h : r ∈ listedRows db groupId since limit) :
    r ∈ db.groupItems groupId :=
  CursorPaging.mem_of_mem_page _ h

theorem mem_listedRows_of_fits {db : SqliteStorage} {groupId : String} {limit : ℕ}
    (h : (db.groupItems groupId).length ≤ limit) {r : L2ItemRow} :
    r ∈ listedRows db groupId none limit ↔ r ∈ db.groupItems groupId := by
  unfold listedRows CursorPaging.page
  rw [CursorPaging.after_none, List.take_of_length_le, CursorPaging.mem_byStamp]
  rw [(CursorPaging.byStamp_perm _ _).length_eq]
  exact h

theorem listedRows_id_nodup (db : SqliteStorage) (groupId : String) (since : Option String)
    (limit : ℕ) : ((listedRows db groupId since limit).map L2ItemRow.id).Nodup := by
  have hafter : ((CursorPaging.after L2ItemRow.updatedAt since (db.groupItems groupId)).map
      L2ItemRow.id).Nodup :=
    (groupItems_id_nodup db groupId).sublist (List.filter_sublist.map _)
  have hsorted := ((CursorPaging.byStamp_perm L2ItemRow.updatedAt _).map L2ItemRow.id).nodup_iff.mpr
    hafter
  exact hsorted.sublist ((List.take_sublist limit _).map _)

def Missing (headers : List ItemHeader) (r : L2ItemRow) : Prop :=
  ∀ c ∈ localMap headers r.id, c ≠ (itemHeader r).checksum

instance (headers : List ItemHeader) (r : L2ItemRow) : Decidable (Missing headers r) :=
  inferInstanceAs (Decidable (∀ c ∈ localMap headers r.id, _))

theorem diffHeaders_rows (headers : List ItemHeader) (rows : List L2ItemRow) :
    diffHeaders headers (rows.map itemHeader) =
      (rows.filter (fun r => Missing headers r)).map L2ItemRow.id := by
  unfold diffHeaders
  rw [List.filter_map, List.map_map]
  change (rows.filter _).map L2ItemRow.id = _
  congr 1
  refine List.filter_congr (fun r _ => ?_)
  rw [Bool.eq_iff_iff, decide_eq_true_eq, Function.comp_apply]
  unfold Missing
  split
  · rename_i hnone
    rw [show localMap headers r.id = none from hnone]
    simp
  · rename_i c hsome
    rw [show localMap headers r.id = some c from hsome]
    simp

theorem localMap_rows {rows : List L2ItemRow} {id c : String}
    (h : c ∈ localMap (rows.map itemHeader) id) :
    ∃ e ∈ rows, e.id = id ∧ (itemHeader e).checksum = c := by
  obtain ⟨header, hfind, rfl⟩ := Option.map_eq_some_iff.mp (Option.mem_def.mp h)
  obtain ⟨e, he, rfl⟩ := List.mem_map.mp (List.mem_reverse.mp (List.mem_of_find?_eq_some hfind))
  have hid := List.find?_some hfind
  exact ⟨e, he, of_decide_eq_true hid, rfl⟩

variable [Sha256]

/-- A stored item is served again as it came. -/
theorem fetchedItem_receivedRow {item : FetchedItem} (h : validateChecksum item = true)
    (existing : Option L2ItemRow) (now : String) :
    fetchedItem (receivedRow existing now item) = item := by
  have hsum : StorageSqlite.checksum item.encryptedBlob = item.checksum := beq_iff_eq.mp h
  change { item with checksum := StorageSqlite.checksum item.encryptedBlob } = item
  rw [hsum]

theorem receivedRow_groupId {db : SqliteStorage} {groupId : String} {r : L2ItemRow}
    (h : r ∈ db.groupItems groupId) (existing : Option L2ItemRow) (now : String) :
    (receivedRow existing now (fetchedItem r)).groupId = some groupId := by
  change some (r.groupId.getD "") = some groupId
  rw [(mem_groupItems.mp h).2, Option.getD_some]

section ReceiveAll
variable (now : String) (ourGroups : List String) (relayAccepts : Option (String → Bool))

theorem receiveAll_append (db : SqliteStorage) (xs ys : List FetchedItem) :
    receiveAll db now (xs ++ ys) ourGroups relayAccepts =
      receiveAll (receiveAll db now xs ourGroups relayAccepts) now ys ourGroups relayAccepts :=
  List.foldl_append

theorem receiveAll_lookup_of_ne (db : SqliteStorage) {items : List FetchedItem} {id : String}
    (h : ∀ item ∈ items, id ≠ item.itemId) :
    (receiveAll db now items ourGroups relayAccepts).l2Items.lookup id = db.l2Items.lookup id := by
  induction items generalizing db with
  | nil => rfl
  | cons item items ih =>
    have hrest := ih (onReceive db now item ourGroups relayAccepts).2
      (fun x hx => h x (List.mem_cons_of_mem item hx))
    exact hrest.trans (onReceive_lookup_of_ne db now item ourGroups relayAccepts (h item (by simp)))

theorem receiveAll_lookup_of_mem (db : SqliteStorage) {items : List FetchedItem}
    (hnodup : (items.map FetchedItem.itemId).Nodup) {item : FetchedItem} (h : item ∈ items) :
    (receiveAll db now items ourGroups relayAccepts).l2Items.lookup item.itemId =
      (onReceive db now item ourGroups relayAccepts).2.l2Items.lookup item.itemId := by
  induction items generalizing db with
  | nil => cases h
  | cons first items ih =>
    rw [List.map_cons, List.nodup_cons] at hnodup
    obtain ⟨hfirst, hrest⟩ := hnodup
    rcases List.mem_cons.mp h with rfl | hmem
    · have hothers : ∀ x ∈ items, item.itemId ≠ x.itemId := fun x hx heq =>
        hfirst (List.mem_map.mpr ⟨x, hx, heq.symm⟩)
      exact receiveAll_lookup_of_ne now ourGroups relayAccepts
        (onReceive db now item ourGroups relayAccepts).2 hothers
    · have hne : item.itemId ≠ first.itemId := fun heq =>
        hfirst (List.mem_map.mpr ⟨item, hmem, heq⟩)
      have hsame := onReceive_lookup_of_ne db now first ourGroups relayAccepts hne
      refine (ih (onReceive db now first ourGroups relayAccepts).2 hrest hmem).trans ?_
      rw [onReceive_lookup _ now item, hsame, onReceive_lookup db now item]

/-- Without tombstones no row goes, none moves, and new ones come last. -/
theorem receiveAll_ids (db : SqliteStorage) {items : List FetchedItem}
    (h : ∀ item ∈ items, ¬ Erases ourGroups relayAccepts item) :
    ∃ news, (receiveAll db now items ourGroups relayAccepts).l2Items.rows.map L2ItemRow.id =
      db.l2Items.rows.map L2ItemRow.id ++ news := by
  induction items generalizing db with
  | nil => exact ⟨[], (List.append_nil _).symm⟩
  | cons item items ih =>
    have hone : ∃ first, (onReceive db now item ourGroups relayAccepts).2.l2Items.rows.map
        L2ItemRow.id = db.l2Items.rows.map L2ItemRow.id ++ first := by
      have herase := h item (by simp)
      by_cases hwrite : Writes ourGroups relayAccepts item (db.l2Items.lookup item.itemId)
      · rw [onReceive_of_writes db now item ourGroups relayAccepts hwrite]
        exact db.l2Items.keys_put _ ((receivedRow_checks _ now item).mpr hwrite.2.1.2)
      · rw [(onReceive_otherwise db now item ourGroups relayAccepts herase hwrite).2]
        exact ⟨[], (List.append_nil _).symm⟩
    obtain ⟨first, hfirst⟩ := hone
    obtain ⟨news, hnews⟩ := ih (onReceive db now item ourGroups relayAccepts).2
      (fun x hx => h x (List.mem_cons_of_mem item hx))
    refine ⟨first ++ news, hnews.trans ?_⟩
    rw [hfirst, List.append_assoc]

/-- Whatever the peer answers, the fetch loop receives some items one by one. -/
theorem fetchChunks_receives (peer : Peer) (parts : List (List String)) (db : SqliteStorage) :
    ∃ items, (fetchChunks peer now ourGroups relayAccepts parts db).2 =
      receiveAll db now items ourGroups relayAccepts := by
  induction parts generalizing db with
  | nil => exact ⟨[], rfl⟩
  | cons part parts ih =>
    unfold fetchChunks
    cases peer.fetch ⟨part⟩ with
    | error e => exact ⟨[], rfl⟩
    | ok resp =>
      obtain ⟨items, hitems⟩ := ih (receiveAll db now resp.items ourGroups relayAccepts)
      exact ⟨resp.items ++ items, hitems.trans (receiveAll_append now ourGroups relayAccepts db _ _).symm⟩

end ReceiveAll

theorem runAntiEntropy_receives (engine : ReplicationEngine) (peer : Option Peer)
    (db : SqliteStorage) (now groupId : String) (ourGroups : List String) (since : Option String)
    (relayAcceptSet : Option (List String)) :
    ∃ items, (runAntiEntropy engine peer db now groupId ourGroups since relayAcceptSet).2 =
      receiveAll db now items ourGroups (relayFn relayAcceptSet) := by
  unfold runAntiEntropy
  cases peer with
  | none => exact ⟨[], rfl⟩
  | some peer =>
    dsimp only
    cases peer.sync ⟨groupId, since, engine.config.maxBatchSize⟩ with
    | error e => exact ⟨[], rfl⟩
    | ok remoteHeaders =>
      dsimp only
      rw [listGroupItems_ok]
      dsimp only
      split_ifs
      · exact ⟨[], rfl⟩
      · obtain ⟨items, hitems⟩ := fetchChunks_receives now ourGroups (relayFn relayAcceptSet) peer
          (chunks engine.config.maxBatchSize (diffHeaders
            (db.listGroupItems groupId since engine.config.maxBatchSize) remoteHeaders.items)) db
        refine ⟨items, ?_⟩
        rw [← hitems]
        split <;> simp_all

theorem handleFetchRequest_append (remote : SqliteStorage) (xs ys : List String) :
    (handleFetchRequest remote ⟨xs ++ ys⟩).items =
      (handleFetchRequest remote ⟨xs⟩).items ++ (handleFetchRequest remote ⟨ys⟩).items :=
  List.filterMap_append

theorem handleFetchRequest_rows (remote : SqliteStorage) {rows : List L2ItemRow}
    (h : ∀ r ∈ rows, remote.l2Items.lookup r.id = some r) :
    (handleFetchRequest remote ⟨rows.map L2ItemRow.id⟩).items = rows.map fetchedItem := by
  induction rows with
  | nil => rfl
  | cons r rows ih =>
    have hr : (handleFetchRequest remote ⟨[r.id]⟩).items = [fetchedItem r] := by
      change [r.id].filterMap (fun id => (remote.l2Items.lookup id).map fetchedItem) = _
      rw [List.filterMap_cons, h r (by simp)]
      rfl
    have happ := handleFetchRequest_append remote [r.id] (rows.map L2ItemRow.id)
    rw [hr, ih (fun x hx => h x (List.mem_cons_of_mem r hx))] at happ
    exact happ

theorem fetchChunks_serving (remote : SqliteStorage) (now : String) (ourGroups : List String)
    (relayAccepts : Option (String → Bool)) (parts : List (List String)) (db : SqliteStorage) :
    fetchChunks (.serving remote) now ourGroups relayAccepts parts db =
      (.ok (), receiveAll db now (handleFetchRequest remote ⟨parts.flatten⟩).items ourGroups
        relayAccepts) := by
  induction parts generalizing db with
  | nil => rfl
  | cons part parts ih =>
    rw [List.flatten_cons, handleFetchRequest_append, receiveAll_append]
    exact ih _

theorem serving_sync (remote : SqliteStorage) (req : SyncRequest) :
    (Peer.serving remote).sync req =
      .ok ⟨remote.listGroupItems req.groupId req.since req.limit,
        (remote.listGroupItems req.groupId req.since req.limit).length == req.limit⟩ := rfl

section Round
variable (engine : ReplicationEngine) (remote db : SqliteStorage) (now groupId : String)
  (ourGroups : List String) (since : Option String) (relayAcceptSet : Option (List String))

def fetchedRows : List L2ItemRow :=
  (listedRows remote groupId since engine.config.maxBatchSize).filter
    (fun r => Missing (db.listGroupItems groupId since engine.config.maxBatchSize) r)

theorem runAntiEntropy_serving :
    runAntiEntropy engine (some (.serving remote)) db now groupId ourGroups since relayAcceptSet =
      (.ok ((listedRows remote groupId since engine.config.maxBatchSize).map
          L2ItemRow.updatedAt).max?,
        receiveAll db now ((fetchedRows engine remote db groupId since).map fetchedItem) ourGroups
          (relayFn relayAcceptSet)) := by
  have hrows : ∀ r ∈ fetchedRows engine remote db groupId since,
      remote.l2Items.lookup r.id = some r := fun r hr =>
    (mem_groupItems.mp (mem_groupItems_of_listed (List.mem_filter.mp hr).1)).1
  have hlatest : ((remote.listGroupItems groupId since engine.config.maxBatchSize).map
      ItemHeader.updatedAt).max? =
      ((listedRows remote groupId since engine.config.maxBatchSize).map L2ItemRow.updatedAt).max? := by
    unfold SqliteStorage.listGroupItems
    rw [List.map_map]
    rfl
  have hneeded : diffHeaders (db.listGroupItems groupId since engine.config.maxBatchSize)
      (remote.listGroupItems groupId since engine.config.maxBatchSize) =
      (fetchedRows engine remote db groupId since).map L2ItemRow.id :=
    diffHeaders_rows _ _
  unfold runAntiEntropy
  dsimp only
  rw [serving_sync, listGroupItems_ok]
  dsimp only
  rw [hneeded, hlatest, fetchChunks_serving, chunks_flatten, handleFetchRequest_rows remote hrows]
  split_ifs with hempty
  · rw [List.isEmpty_iff, List.map_eq_nil_iff] at hempty
    rw [hempty]
    rfl
  · rfl

def pulled : SqliteStorage :=
  (runAntiEntropy engine (some (.serving remote)) db now groupId ourGroups since relayAcceptSet).2

theorem pulled_lookup_of_not_listed {id : String}
    (h : ∀ r ∈ listedRows remote groupId since engine.config.maxBatchSize, id ≠ r.id) :
    (pulled engine remote db now groupId ourGroups since relayAcceptSet).l2Items.lookup id =
      db.l2Items.lookup id := by
  unfold pulled
  rw [runAntiEntropy_serving]
  refine receiveAll_lookup_of_ne now ourGroups _ db (fun item hitem => ?_)
  obtain ⟨r, hr, rfl⟩ := List.mem_map.mp hitem
  exact h r (List.mem_filter.mp hr).1

omit [Sha256] in
/-- A stored row never travels as a tombstone. -/
theorem fetchedItem_not_erases {r : L2ItemRow} (h : r ∈ remote.l2Items.rows)
    (relayAccepts : Option (String → Bool)) : ¬ Erases ourGroups relayAccepts (fetchedItem r) := by
  intro herase
  have htype : r.itemType ∈ l2ItemTypes := (remote.l2Items.checked r h).1
  exact tombstoneType_not_stored (herase.2 ▸ htype)

theorem pulled_ids :
    ∃ news, (pulled engine remote db now groupId ourGroups since relayAcceptSet).l2Items.rows.map
        L2ItemRow.id = db.l2Items.rows.map L2ItemRow.id ++ news := by
  unfold pulled
  rw [runAntiEntropy_serving]
  refine receiveAll_ids now ourGroups _ db (fun item hitem => ?_)
  obtain ⟨r, hr, rfl⟩ := List.mem_map.mp hitem
  have hlisted := mem_groupItems_of_listed (List.mem_filter.mp hr).1
  exact fetchedItem_not_erases remote ourGroups (Table.mem_of_lookup (mem_groupItems.mp hlisted).1) _

theorem missing_of_writes {r : L2ItemRow} {relayAccepts : Option (String → Bool)}
    (hsum : ∀ e ∈ db.groupItems groupId, e.checksum.isSome) (limit : ℕ)
    (h : Writes ourGroups relayAccepts (fetchedItem r) (db.l2Items.lookup r.id)) :
    Missing (db.listGroupItems groupId since limit) r := by
  rintro c hc rfl
  obtain ⟨e, he, hid, hsame⟩ := localMap_rows hc
  have hgroup := mem_groupItems_of_listed he
  obtain ⟨stored, hstored⟩ := Option.isSome_iff_exists.mp (hsum e hgroup)
  have hlookup : db.l2Items.lookup r.id = some e := hid ▸ (mem_groupItems.mp hgroup).1
  refine (h.2.2 e hlookup).1 ?_
  change e.checksum = some (r.checksum.getD "")
  change e.checksum.getD "" = r.checksum.getD "" at hsame
  rw [← hsame, hstored, Option.getD_some]

theorem pulled_lookup_of_listed (hsum : ∀ e ∈ db.groupItems groupId, e.checksum.isSome)
    {r : L2ItemRow} (h : r ∈ listedRows remote groupId since engine.config.maxBatchSize) :
    (pulled engine remote db now groupId ourGroups since relayAcceptSet).l2Items.lookup r.id =
      if Writes ourGroups (relayFn relayAcceptSet) (fetchedItem r) (db.l2Items.lookup r.id) then
        some (receivedRow (db.l2Items.lookup r.id) now (fetchedItem r))
      else db.l2Items.lookup r.id := by
  have hnodup : (((fetchedRows engine remote db groupId since).map fetchedItem).map
      FetchedItem.itemId).Nodup := by
    rw [List.map_map]
    exact (listedRows_id_nodup remote groupId since engine.config.maxBatchSize).sublist
      (List.filter_sublist.map _)
  have hrow := mem_groupItems.mp (mem_groupItems_of_listed h)
  unfold pulled
  rw [runAntiEntropy_serving]
  by_cases hmissing : Missing (db.listGroupItems groupId since engine.config.maxBatchSize) r
  · have hmem : fetchedItem r ∈ (fetchedRows engine remote db groupId since).map fetchedItem :=
      List.mem_map.mpr ⟨r, List.mem_filter.mpr ⟨h, by simpa using hmissing⟩, rfl⟩
    have hone := receiveAll_lookup_of_mem now ourGroups (relayFn relayAcceptSet) db hnodup hmem
    refine hone.trans ?_
    rw [onReceive_lookup, if_pos rfl, if_neg (fetchedItem_not_erases remote ourGroups
      (Table.mem_of_lookup hrow.1) _)]
    rfl
  · rw [if_neg (fun hw => hmissing (missing_of_writes db groupId ourGroups since hsum _ hw))]
    refine receiveAll_lookup_of_ne now ourGroups _ db (fun item hitem heq => hmissing ?_)
    obtain ⟨q, hq, rfl⟩ := List.mem_map.mp hitem
    obtain ⟨hlisted, hfetched⟩ := List.mem_filter.mp hq
    have hsame : q = r := groupItems_id_inj (mem_groupItems_of_listed hlisted)
      (mem_groupItems_of_listed h) heq.symm
    subst hsame
    simpa using hfetched

end Round
end CordeliaCore.Replication
