import CordeliaCore.ApiEffect
import CordeliaCore.PushEffect

set_option autoImplicit false

namespace CordeliaCore.ServedItems
open CryptoPrimitives ProtocolMessages StorageRows StorageSqlite KeyedTable StepRuns
open Replication ReplicationEngine SqliteStorage Swarm Api

variable [Sha256]

structure Intact (r : L2ItemRow) : Prop where
  checksum : r.checksum = some (StorageSqlite.checksum r.data)
  size : r.data.length ≤ maxItemBytes

def StoreIntact (db : SqliteStorage) : Prop := ∀ r ∈ db.l2Items.rows, Intact r

theorem storeIntact_iff_lookup {db : SqliteStorage} :
    StoreIntact db ↔ ∀ id, ∀ r ∈ db.l2Items.lookup id, Intact r := by
  constructor
  · intro h id r hr
    exact h r (Table.mem_of_lookup hr)
  · intro h r hr
    exact h r.id r (db.l2Items.lookup_key hr)

inductive StoreEvent where
  | l2Write (authorization : Option String) (now : String) (req : L2WriteRequest)
  | l2Delete (authorization : Option String) (itemId : String)
  | push (now : String) (req : MemoryPushRequest) (ourGroups : List String)
      (relayAccepts : Option (String → Bool))
  | antiEntropy (engine : ReplicationEngine) (peer : Option Peer) (now groupId : String)
      (ourGroups : List String) (since : Option String) (relayAcceptSet : Option (List String))

def step (node : AppState SqliteStorage) : StoreEvent → AppState SqliteStorage
  | .l2Write authorization now req => (l2Write node authorization now req).2
  | .l2Delete authorization itemId => (l2Delete node authorization itemId).2
  | .push now req ourGroups relayAccepts =>
    { node with storage := (handlePushRequest node.storage now req ourGroups relayAccepts).2 }
  | .antiEntropy engine peer now groupId ourGroups since relayAcceptSet =>
    { node with storage :=
        (runAntiEntropy engine peer node.storage now groupId ourGroups since relayAcceptSet).2 }

section Integrity
variable (now : String) (ourGroups : List String) (relayAccepts : Option (String → Bool))

theorem receivedRow_intact {item : FetchedItem} (h : item.encryptedBlob.length ≤ maxItemBytes)
    (existing : Option L2ItemRow) : Intact (receivedRow existing now item) :=
  ⟨rfl, h⟩

theorem onReceive_intact {db : SqliteStorage} (h : StoreIntact db) (item : FetchedItem) :
    StoreIntact (onReceive db now item ourGroups relayAccepts).2 := by
  rw [storeIntact_iff_lookup] at h ⊢
  intro id r hr
  rw [onReceive_lookup] at hr
  split_ifs at hr with hid herase hwrite
  · cases hr
  · cases hr
    exact receivedRow_intact now hwrite.1.1 (db.l2Items.lookup id)
  · exact h id r hr
  · exact h id r hr

theorem receiveAll_intact {db : SqliteStorage} (h : StoreIntact db) (items : List FetchedItem) :
    StoreIntact (receiveAll db now items ourGroups relayAccepts) := by
  induction items generalizing db with
  | nil => exact h
  | cons item items ih => exact ih (onReceive_intact now ourGroups relayAccepts h item)

theorem l2Write_intact {node : AppState SqliteStorage} (h : StoreIntact node.storage)
    (authorization : Option String) (req : L2WriteRequest) :
    StoreIntact (l2Write node authorization now req).2.storage := by
  by_cases haccept : WriteAccepted node authorization now req
  · rw [l2Write_of_accepted haccept, storeIntact_iff_lookup]
    intro id r hr
    rw [withWritten_lookup] at hr
    split_ifs at hr
    · cases hr
      exact ⟨rfl, haccept.size⟩
    · exact storeIntact_iff_lookup.mp h id r hr
  · rwa [l2Write_of_refused haccept]

theorem l2Delete_intact {node : AppState SqliteStorage} (h : StoreIntact node.storage)
    (authorization : Option String) (itemId : String) :
    StoreIntact (l2Delete node authorization itemId).2.storage := by
  cases hauth : checkAuth node authorization with
  | some refused =>
    unfold l2Delete
    rwa [hauth]
  | none =>
    rw [storeIntact_iff_lookup]
    intro id r hr
    rw [l2Delete_lookup hauth] at hr
    split_ifs at hr
    · cases hr
    · exact storeIntact_iff_lookup.mp h id r hr

theorem step_intact (node : AppState SqliteStorage) (event : StoreEvent)
    (h : StoreIntact node.storage) : StoreIntact (step node event).storage := by
  cases event with
  | l2Write authorization now req => exact l2Write_intact now h authorization req
  | l2Delete authorization itemId => exact l2Delete_intact h authorization itemId
  | push now req ourGroups relayAccepts =>
    change StoreIntact (handlePushRequest node.storage now req ourGroups relayAccepts).2
    rw [handlePush_storage]
    exact receiveAll_intact now ourGroups relayAccepts h req.items
  | antiEntropy engine peer now groupId ourGroups since relayAcceptSet =>
    obtain ⟨items, hitems⟩ := runAntiEntropy_receives engine peer node.storage now groupId ourGroups
      since relayAcceptSet
    change StoreIntact (runAntiEntropy engine peer node.storage now groupId ourGroups since
      relayAcceptSet).2
    rw [hitems]
    exact receiveAll_intact now ourGroups _ h items

end Integrity

section Serving

theorem mem_handleFetchRequest {db : SqliteStorage} {ids : List String} {item : FetchedItem} :
    item ∈ (handleFetchRequest db ⟨ids⟩).items ↔
      ∃ id ∈ ids, ∃ r, db.l2Items.lookup id = some r ∧ fetchedItem r = item := by
  change item ∈ ids.filterMap (fun id => (db.l2Items.lookup id).map fetchedItem) ↔ _
  simp only [List.mem_filterMap, Option.map_eq_some_iff]

theorem Intact.validateChecksum {r : L2ItemRow} (h : Intact r) :
    Replication.validateChecksum (fetchedItem r) = true := by
  have hsum : (fetchedItem r).checksum = StorageSqlite.checksum r.data := by
    change r.checksum.getD "" = _
    rw [h.checksum, Option.getD_some]
  unfold Replication.validateChecksum
  rw [hsum]
  exact beq_self_eq_true _

/-- What passes every check of the message is stored or known already. -/
theorem onReceive_not_rejected {item : FetchedItem} {ourGroups : List String}
    {relayAccepts : Option (String → Bool)} (hadm : Admitted ourGroups relayAccepts item)
    (hwell : WellFormed item) (db : SqliteStorage) (now reason : String) :
    (onReceive db now item ourGroups relayAccepts).1 ≠ .rejected reason := by
  rw [onReceive_of_valid db now item ourGroups relayAccepts hadm hwell.not_tombstone hwell.1]
  cases db.l2Items.lookup item.itemId with
  | none =>
    dsimp only
    rw [storeItem_of_type db now item hwell.2]
    simp
  | some existing =>
    dsimp only
    split_ifs
    · simp
    · simp
    · rw [storeItem_of_type db now item hwell.2]
      simp

/-- Every reachable store is intact, and what it serves is refused by no node
    that takes the item's group. -/
theorem reachable_store_serves_acceptable_items (node : AppState SqliteStorage)
    (events : List StoreEvent) :
    let db := (run step { node with storage := createNew } events).storage
    StoreIntact db ∧ ∀ ids, ∀ item ∈ (handleFetchRequest db ⟨ids⟩).items,
      item.encryptedBlob.length ≤ maxItemBytes ∧ validateChecksum item = true ∧
        ∀ (receiver : SqliteStorage) (now : String) (ourGroups : List String)
          (relayAccepts : Option (String → Bool)) (reason : String),
          groupAccepted ourGroups relayAccepts item.groupId = true →
            (onReceive receiver now item ourGroups relayAccepts).1 ≠ .rejected reason := by
  intro db
  have hempty : StoreIntact createNew := fun r hr => by cases hr
  have hintact : StoreIntact db :=
    invariant_run (I := fun node : AppState SqliteStorage => StoreIntact node.storage)
      (G := fun _ _ => True) (fun node event h _ => step_intact node event h) hempty
      (along_of_mem (fun _ _ _ => trivial) _)
  refine ⟨hintact, fun ids item hitem => ?_⟩
  obtain ⟨id, _, r, hlookup, rfl⟩ := mem_handleFetchRequest.mp hitem
  have hrow := hintact r (Table.mem_of_lookup hlookup)
  have htype : r.itemType ∈ l2ItemTypes := (db.l2Items.checked r (Table.mem_of_lookup hlookup)).1
  refine ⟨hrow.size, hrow.validateChecksum, fun receiver now ourGroups relayAccepts reason hgroup => ?_⟩
  exact onReceive_not_rejected ⟨hrow.size, hgroup⟩ ⟨hrow.validateChecksum, htype⟩ receiver now reason

end Serving

section Hops

structure Hop where
  storage : SqliteStorage
  now : String
  ourGroups : List String
  relayAccepts : Option (String → Bool)

def fetchHop (id : String) (upstream : SqliteStorage) (hop : Hop) : SqliteStorage :=
  (fetchChunks (.serving upstream) hop.now hop.ourGroups hop.relayAccepts [[id]] hop.storage).2

theorem served_of_writes {item : FetchedItem} (hsum : validateChecksum item = true)
    {db : SqliteStorage} {ourGroups : List String} {relayAccepts : Option (String → Bool)}
    (h : Writes ourGroups relayAccepts item (db.l2Items.lookup item.itemId)) (now : String) :
    (handleFetchRequest (onReceive db now item ourGroups relayAccepts).2 ⟨[item.itemId]⟩).items =
      [item] := by
  have hrow : ∀ r ∈ [receivedRow (db.l2Items.lookup item.itemId) now item],
      (onReceive db now item ourGroups relayAccepts).2.l2Items.lookup r.id = some r :=
    List.forall_mem_singleton.mpr (onReceive_lookup_of_writes db now item ourGroups relayAccepts h)
  have hserved := handleFetchRequest_rows _ hrow
  rwa [List.map_singleton, List.map_singleton, fetchedItem_receivedRow hsum] at hserved

theorem served_after_fetchHop {item : FetchedItem} (hwell : WellFormed item)
    {upstream : SqliteStorage} {hop : Hop}
    (hserved : (handleFetchRequest upstream ⟨[item.itemId]⟩).items = [item])
    (hadm : Admitted hop.ourGroups hop.relayAccepts item)
    (hempty : hop.storage.l2Items.lookup item.itemId = none) :
    (handleFetchRequest (fetchHop item.itemId upstream hop) ⟨[item.itemId]⟩).items = [item] := by
  have hfetch : fetchHop item.itemId upstream hop =
      (onReceive hop.storage hop.now item hop.ourGroups hop.relayAccepts).2 := by
    unfold fetchHop
    rw [fetchChunks_serving, List.flatten_singleton, hserved]
    rfl
  rw [hfetch]
  refine served_of_writes hwell.1 ⟨hadm, hwell, ?_⟩ hop.now
  rw [hempty]
  simp

/-- A stored item is served as it came, and so by the end of every chain of
    accepting nodes that start without it. -/
theorem stored_item_survives_hops (db : SqliteStorage) (now : String) (item : FetchedItem)
    (ourGroups : List String) (relayAccepts : Option (String → Bool))
    (hsum : validateChecksum item = true) (htype : item.itemType ∈ l2ItemTypes)
    (hstored : (onReceive db now item ourGroups relayAccepts).1 = .stored)
    (hops : List Hop) (hadm : ∀ hop ∈ hops, Admitted hop.ourGroups hop.relayAccepts item)
    (hempty : ∀ hop ∈ hops, hop.storage.l2Items.lookup item.itemId = none) :
    (handleFetchRequest (onReceive db now item ourGroups relayAccepts).2 ⟨[item.itemId]⟩).items =
        [item] ∧
      (handleFetchRequest (hops.foldl (fetchHop item.itemId)
        (onReceive db now item ourGroups relayAccepts).2) ⟨[item.itemId]⟩).items = [item] := by
  have hwell : WellFormed item := ⟨hsum, htype⟩
  have hwrite : Writes ourGroups relayAccepts item (db.l2Items.lookup item.itemId) := by
    rcases (onReceive_stored_iff db now item ourGroups relayAccepts).mp hstored with herase | hwrite
    · exact absurd herase.1.2 hwell.not_tombstone
    · exact hwrite
  have hfirst := served_of_writes hsum hwrite now
  refine ⟨hfirst, ?_⟩
  generalize (onReceive db now item ourGroups relayAccepts).2 = origin at hfirst
  induction hops generalizing origin with
  | nil => exact hfirst
  | cons hop hops ih =>
    rw [List.foldl_cons]
    refine ih (fun h hm => hadm h (List.mem_cons_of_mem hop hm))
      (fun h hm => hempty h (List.mem_cons_of_mem hop hm)) _ ?_
    exact served_after_fetchHop hwell hfirst (hadm hop (by simp)) (hempty hop (by simp))

omit [Sha256] in
theorem note_survives_two_hops :
    let := knownDigests
    let note := noteVersion "a" "2026-02-01 00:00:00"
    let hop : Hop := ⟨createNew, "2026-02-03 00:00:00", ["seed-drill"], none⟩
    (handleFetchRequest ((List.replicate 2 hop).foldl (fetchHop note.itemId)
      (onReceive createNew "2026-02-02 00:00:00" note [] (some fun _ => true)).2)
      ⟨[note.itemId]⟩).items = [note] := by
  let := knownDigests
  have hwell := noteVersion_wellFormed "a" "2026-02-01 00:00:00"
  have hsize : (noteVersion "a" "2026-02-01 00:00:00").encryptedBlob.length ≤ maxItemBytes := by
    decide
  have hstored := (onReceive_stored_iff createNew "2026-02-02 00:00:00"
    (noteVersion "a" "2026-02-01 00:00:00") [] (some fun _ => true)).mpr
    (.inr ⟨⟨hsize, rfl⟩, hwell, by simp [createNew, Table.lookup, Table.empty]⟩)
  refine (stored_item_survives_hops createNew _ _ [] _ hwell.1 hwell.2 hstored _ ?_ ?_).2
  · intro hop hmem
    rw [List.eq_of_mem_replicate hmem]
    exact ⟨hsize, by decide⟩
  · intro hop hmem
    rw [List.eq_of_mem_replicate hmem]
    rfl

end Hops
end CordeliaCore.ServedItems
