import CordeliaCore.AntiEntropyEffect
import CordeliaCore.ApiEffect
import CordeliaCore.LoopEffect

set_option autoImplicit false

namespace CordeliaCore.PrivateItems
open CryptoPrimitives ProtocolMessages StorageRows StorageSqlite KeyedTable StepRuns
open Replication ReplicationEngine ReplicationLoop SqliteStorage Swarm Api

inductive PeerRequest where
  | sync (req : SyncRequest)
  | fetch (req : FetchRequest)

inductive PeerResponse where
  | sync (resp : SyncResponse)
  | fetch (resp : FetchResponse)

def exposed (r : L2ItemRow) : FetchedItem × Option String := (fetchedItem r, r.groupId)

def AgreeOutside (s t : SqliteStorage) : Prop :=
  ∀ r : L2ItemRow, r.visibility ≠ "private" → (r ∈ s.l2Items.rows ↔ r ∈ t.l2Items.rows)

def privateView (db : SqliteStorage) (id : String) : Option (FetchedItem × Option String) :=
  ((db.l2Items.lookup id).filter (fun r => r.visibility = "private")).map exposed

/-- Under every id the same private row, as far as peers can see it. -/
def PrivateAgree (s t : SqliteStorage) : Prop := ∀ id, privateView s id = privateView t id

/-- The ids of a group under one stamp, in the order of their insertion. -/
def tiedIds (db : SqliteStorage) (groupId updatedAt : String) : List String :=
  ((db.groupItems groupId).filter (fun r => r.updatedAt = updatedAt)).map L2ItemRow.id

def TiesAgree (s t : SqliteStorage) : Prop :=
  ∀ groupId updatedAt, tiedIds s groupId updatedAt = tiedIds t groupId updatedAt

section Views
variable {s t : SqliteStorage}

theorem privateView_of_private {db : SqliteStorage} {r : L2ItemRow}
    (h : db.l2Items.lookup r.id = some r) (hp : r.visibility = "private") :
    privateView db r.id = some (exposed r) := by
  unfold privateView
  rw [h, Option.filter_some, if_pos (decide_eq_true hp), Option.map_some]

theorem privateView_of_other {db : SqliteStorage} {r : L2ItemRow}
    (h : db.l2Items.lookup r.id = some r) (hp : r.visibility ≠ "private") :
    privateView db r.id = none := by
  unfold privateView
  rw [h, Option.filter_some, if_neg (by simpa using hp), Option.map_none]

theorem lookup_of_agree (h : AgreeOutside s t) {r : L2ItemRow} (hp : r.visibility ≠ "private")
    (hr : s.l2Items.lookup r.id = some r) : t.l2Items.lookup r.id = some r :=
  t.l2Items.lookup_key ((h r hp).mp (Table.mem_of_lookup hr))

theorem AgreeOutside.symm (h : AgreeOutside s t) : AgreeOutside t s := fun r hp => (h r hp).symm

/-- Agreement of the private rows is agreement of all rows, as peers see them. -/
theorem exposed_agree_iff (h : AgreeOutside s t) :
    (∀ id, (s.l2Items.lookup id).map exposed = (t.l2Items.lookup id).map exposed) ↔
      PrivateAgree s t := by
  refine forall_congr' (fun id => ?_)
  cases hs : s.l2Items.lookup id with
  | none =>
    cases ht : t.l2Items.lookup id with
    | none => simp [privateView, hs, ht]
    | some q =>
      have hid : q.id = id := Table.key_of_lookup ht
      subst hid
      by_cases hp : q.visibility = "private"
      · rw [privateView_of_private ht hp]
        simp [privateView, hs]
      · rw [lookup_of_agree h.symm hp ht] at hs
        cases hs
  | some r =>
    have hid : r.id = id := Table.key_of_lookup hs
    subst hid
    by_cases hp : r.visibility = "private"
    · rw [privateView_of_private hs hp]
      cases ht : t.l2Items.lookup r.id with
      | none => simp [privateView, ht]
      | some q =>
        have hq : q.id = r.id := Table.key_of_lookup ht
        have hqp : q.visibility = "private" := by
          by_contra hqp
          -- a row of `t` that is not private is the row of `s`
          have hsame := lookup_of_agree h.symm hqp (hq ▸ ht)
          rw [hq, hs] at hsame
          exact hqp (Option.some.inj hsame ▸ hp)
        rw [← hq, privateView_of_private (hq ▸ ht) hqp, Option.map_some, Option.map_some]
    · have ht := lookup_of_agree h hp hs
      rw [privateView_of_other hs hp, privateView_of_other ht hp, ht]
      simp

end Views

section Answers
variable [Sha256]

def answer (db : SqliteStorage) : PeerRequest → PeerResponse
  | .sync req => .sync (handleSyncRequest db req)
  | .fetch req => .fetch (handleFetchRequest db req)

def answers (db : SqliteStorage) (reqs : List PeerRequest) : List PeerResponse :=
  reqs.map (answer db)

def headerOf (x : FetchedItem × Option String) : ItemHeader where
  itemId := x.1.itemId
  itemType := x.1.itemType
  checksum := x.1.checksum
  updatedAt := x.1.updatedAt
  authorId := x.1.authorId
  isDeletion := false

omit [Sha256] in
theorem listGroupItems_exposed (db : SqliteStorage) (groupId : String) (since : Option String)
    (limit : ℕ) : db.listGroupItems groupId since limit =
      (CursorPaging.page (fun x => x.1.updatedAt) since limit
        ((db.groupItems groupId).map exposed)).map headerOf := by
  have hpage : (CursorPaging.page L2ItemRow.updatedAt since limit (db.groupItems groupId)).map exposed =
      CursorPaging.page (fun x : FetchedItem × Option String => x.1.updatedAt) since limit
        ((db.groupItems groupId).map exposed) :=
    CursorPaging.page_map L2ItemRow.updatedAt exposed _ (fun _ => rfl) since limit _
  rw [← hpage, List.map_map]
  rfl

omit [Sha256] in
theorem exposed_tied (db : SqliteStorage) (groupId updatedAt : String) :
    ((db.groupItems groupId).map exposed).filter (fun x => x.1.updatedAt = updatedAt) =
      (tiedIds db groupId updatedAt).filterMap (fun id => (db.l2Items.lookup id).map exposed) := by
  have hrow : ∀ r ∈ (db.groupItems groupId).filter (fun r => r.updatedAt = updatedAt),
      (db.l2Items.lookup r.id).map exposed = some (exposed r) := by
    intro r hr
    rw [(mem_groupItems.mp (List.mem_filter.mp hr).1).1, Option.map_some]
  unfold tiedIds
  rw [List.filter_map, List.filterMap_map]
  calc _ = ((db.groupItems groupId).filter (fun r => r.updatedAt = updatedAt)).filterMap
        (some ∘ exposed) := by rw [List.filterMap_eq_map]; rfl
    _ = _ := (List.filterMap_congr hrow).symm

theorem answer_congr {s t : SqliteStorage}
    (h : ∀ id, (s.l2Items.lookup id).map exposed = (t.l2Items.lookup id).map exposed)
    (hties : TiesAgree s t) (req : PeerRequest) : answer s req = answer t req := by
  cases req with
  | sync req =>
    have hlist : s.listGroupItems req.groupId req.since req.limit =
        t.listGroupItems req.groupId req.since req.limit := by
      rw [listGroupItems_exposed, listGroupItems_exposed]
      refine congrArg (List.map headerOf) (CursorPaging.page_congr _ (fun u => ?_) _ _)
      rw [exposed_tied, exposed_tied, hties req.groupId u]
      exact List.filterMap_congr (fun id _ => h id)
    have hresp : handleSyncRequest s req = handleSyncRequest t req := by
      unfold handleSyncRequest
      rw [listGroupItems_ok, listGroupItems_ok, hlist]
    exact congrArg PeerResponse.sync hresp
  | fetch req =>
    have hitem : ∀ id, (s.l2Items.lookup id).map fetchedItem = (t.l2Items.lookup id).map fetchedItem := by
      intro id
      have hfst := congrArg (Option.map Prod.fst) (h id)
      rwa [Option.map_map, Option.map_map] at hfst
    have hresp : handleFetchRequest s req = handleFetchRequest t req := by
      unfold handleFetchRequest
      simp only [readL2Item_ok, Except.toOption, Option.join_some, hitem]
    exact congrArg PeerResponse.fetch hresp

theorem handleFetchRequest_one (db : SqliteStorage) (id : String) :
    (handleFetchRequest db ⟨[id]⟩).items = ((db.l2Items.lookup id).map fetchedItem).toList := by
  change [id].filterMap (fun i => (db.l2Items.lookup i).map fetchedItem) = _
  rw [List.filterMap_cons]
  cases db.l2Items.lookup id <;> rfl

theorem fetched_of_answers {s t : SqliteStorage} (h : ∀ reqs, answers s reqs = answers t reqs)
    (id : String) : (s.l2Items.lookup id).map fetchedItem = (t.l2Items.lookup id).map fetchedItem := by
  have hone : [PeerResponse.fetch (handleFetchRequest s ⟨[id]⟩)] =
      [PeerResponse.fetch (handleFetchRequest t ⟨[id]⟩)] := h [.fetch ⟨[id]⟩]
  injection hone with hresp
  injection hresp with hitems
  have hlist := congrArg FetchResponse.items hitems
  rw [handleFetchRequest_one, handleFetchRequest_one] at hlist
  apply Option.ext
  intro item
  rw [← Option.mem_toList, hlist, Option.mem_toList]

theorem listed_of_answers {s t : SqliteStorage} (h : ∀ reqs, answers s reqs = answers t reqs)
    (groupId : String) (limit : ℕ) :
    s.listGroupItems groupId none limit = t.listGroupItems groupId none limit := by
  have hone : [PeerResponse.sync (handleSyncRequest s ⟨groupId, none, limit⟩)] =
      [PeerResponse.sync (handleSyncRequest t ⟨groupId, none, limit⟩)] :=
    h [.sync ⟨groupId, none, limit⟩]
  injection hone with hresp
  injection hresp with hsync
  exact congrArg SyncResponse.items hsync

omit [Sha256] in
/-- A listing that leaves nothing out shows the rows of each stamp in their order. -/
theorem tiedIds_of_listed (db : SqliteStorage) (groupId updatedAt : String) {limit : ℕ}
    (h : (db.groupItems groupId).length ≤ limit) :
    ((db.listGroupItems groupId none limit).filter (fun x => x.updatedAt = updatedAt)).map
      ItemHeader.itemId = tiedIds db groupId updatedAt := by
  have hall : CursorPaging.page L2ItemRow.updatedAt none limit (db.groupItems groupId) =
      CursorPaging.byStamp L2ItemRow.updatedAt (db.groupItems groupId) := by
    unfold CursorPaging.page
    rw [CursorPaging.after_none, List.take_of_length_le]
    rwa [(CursorPaging.byStamp_perm _ _).length_eq]
  unfold SqliteStorage.listGroupItems tiedIds
  rw [hall, List.filter_map, List.map_map, ← CursorPaging.filter_byStamp]
  rfl

theorem ties_of_answers {s t : SqliteStorage} (h : ∀ reqs, answers s reqs = answers t reqs) :
    TiesAgree s t := by
  intro groupId updatedAt
  have hlist := listed_of_answers h groupId
    ((s.groupItems groupId).length + (t.groupItems groupId).length)
  rw [← tiedIds_of_listed s groupId updatedAt (Nat.le_add_right _ _), hlist,
    tiedIds_of_listed t groupId updatedAt (Nat.le_add_left _ _)]

theorem group_of_answers {s t : SqliteStorage} (h : ∀ reqs, answers s reqs = answers t reqs)
    {r : L2ItemRow} {groupId : String} (hr : r ∈ s.groupItems groupId) :
    ∃ q ∈ t.groupItems groupId, q.id = r.id := by
  have hmem : itemHeader r ∈ s.listGroupItems groupId none (s.groupItems groupId).length :=
    List.mem_map_of_mem ((mem_listedRows_of_fits le_rfl).mpr hr)
  rw [listed_of_answers h] at hmem
  obtain ⟨q, hq, hsame⟩ := List.mem_map.mp hmem
  exact ⟨q, mem_groupItems_of_listed hq, congrArg ItemHeader.itemId hsame⟩

theorem groupId_of_answers {s t : SqliteStorage} (h : ∀ reqs, answers s reqs = answers t reqs)
    {id groupId : String} {r q : L2ItemRow} (hr : s.l2Items.lookup id = some r)
    (hq : t.l2Items.lookup id = some q) (hgroup : r.groupId = some groupId) :
    q.groupId = some groupId := by
  have hid : r.id = id := Table.key_of_lookup hr
  obtain ⟨q', hq', hid'⟩ := group_of_answers h (mem_groupItems.mpr ⟨hid.symm ▸ hr, hgroup⟩)
  obtain ⟨hrow, hsame⟩ := mem_groupItems.mp hq'
  rw [hid', hid, hq] at hrow
  rw [Option.some.inj hrow]
  exact hsame

theorem exposed_of_answers {s t : SqliteStorage} (h : ∀ reqs, answers s reqs = answers t reqs)
    (id : String) : (s.l2Items.lookup id).map exposed = (t.l2Items.lookup id).map exposed := by
  have hfetched := fetched_of_answers h id
  cases hs : s.l2Items.lookup id with
  | none =>
    rw [hs, Option.map_none, eq_comm, Option.map_eq_none_iff] at hfetched
    rw [hfetched]
  | some r =>
    rw [hs, Option.map_some, eq_comm, Option.map_eq_some_iff] at hfetched
    obtain ⟨q, ht, hsame⟩ := hfetched
    -- a group listed on one side is listed on the other
    have hgroups : r.groupId = q.groupId := by
      apply Option.ext
      intro g
      exact ⟨groupId_of_answers h hs ht, groupId_of_answers (fun reqs => (h reqs).symm) ht hs⟩
    rw [ht, Option.map_some, Option.map_some]
    unfold exposed
    rw [hsame, hgroups]

/-- Peers cannot tell two stores apart exactly when their rows look the same and those of
    one stamp stand in the same order. -/
theorem answers_agree_iff {s t : SqliteStorage} (h : AgreeOutside s t) :
    (∀ reqs, answers s reqs = answers t reqs) ↔ PrivateAgree s t ∧ TiesAgree s t := by
  rw [← exposed_agree_iff h]
  constructor
  · exact fun hanswers => ⟨exposed_of_answers hanswers, ties_of_answers hanswers⟩
  · rintro ⟨hexposed, hties⟩ reqs
    exact List.map_congr_left (fun req _ => answer_congr hexposed hties req)

end Answers

section Pushes
variable [Sha256]

def sentBy (state : AppState SqliteStorage) (authorization : Option String) (now : String)
    (req : L2WriteRequest) : List WriteNotification :=
  ((l2Write state authorization now req).2.writeNotify.getD []).drop
    (state.writeNotify.getD []).length

def StoresPrivate (state : AppState SqliteStorage) (authorization : Option String) (now : String)
    (req : L2WriteRequest) : Prop :=
  (l2Write state authorization now req).1 = .ok ∧
    ∃ row, (l2Write state authorization now req).2.storage.l2Items.lookup req.itemId = some row ∧
      row.visibility = "private"

theorem l2Write_ok {state : AppState SqliteStorage} {authorization : Option String} {now : String}
    {req : L2WriteRequest} (h : (l2Write state authorization now req).1 = .ok) :
    req.data.length ≤ maxItemBytes ∧
      ∃ written, l2Write state authorization now req =
        (.ok, notifyWrite { state with storage := written }
          (writeNotification (l2WriteOf state req))) := by
  unfold l2Write at h ⊢
  cases hauth : checkAuth state authorization with
  | some refused =>
    rw [hauth] at h
    unfold checkAuth at hauth
    split_ifs at hauth
    cases hauth
    cases h
  | none =>
    rw [hauth] at h
    dsimp only at h ⊢
    split_ifs at h ⊢ with hsize
    refine ⟨not_lt.mp hsize, ?_⟩
    cases hwrite : Storage.writeL2Item state.storage now (l2WriteOf state req) with
    | error e =>
      rw [hwrite] at h
      cases h
    | ok written => exact ⟨written, rfl⟩

theorem sentBy_of_ok {state : AppState SqliteStorage} {authorization : Option String} {now : String}
    {req : L2WriteRequest} (h : (l2Write state authorization now req).1 = .ok)
    {n : WriteNotification} (hn : n ∈ sentBy state authorization now req) :
    n = writeNotification (l2WriteOf state req) := by
  obtain ⟨_, written, heq⟩ := l2Write_ok h
  unfold sentBy at hn
  rw [heq] at hn
  cases hchannel : state.writeNotify with
  | none => simp [hchannel, notifyWrite] at hn
  | some sent => simpa [hchannel, notifyWrite] using hn

variable [CultureJson] (config : LoopConfig)

/-- No push of the step carries the data. -/
def Withholds (data : Bytes) (s : LoopState SqliteStorage) (tick : Tick) : Prop :=
  ∀ push ∈ (step config tick.1 s tick.2).1, ∀ item ∈ push.request.items, item.encryptedBlob ≠ data

/-- The tick brings no write of the same data. -/
def Unrelated (data : Bytes) (tick : Tick) : Prop :=
  ∀ notif, tick.2 = .write notif → notif.data ≠ data

def Silent (data : Bytes) (s : LoopState SqliteStorage) : Prop :=
  ∀ ticks : List Tick, (∀ tick ∈ ticks, Unrelated data tick) →
    Along (next config) (Withholds config data) s ticks

def Clean (data : Bytes) (s : LoopState SqliteStorage) : Prop :=
  ∀ item ∈ queued s, item.encryptedBlob ≠ data

variable {config} {data : Bytes} {s : LoopState SqliteStorage}

theorem silent_of_clean (h : Clean data s) : Silent config data s := by
  intro ticks hticks
  refine along_withholds (G := fun _ tick => Unrelated data tick) ?_ h
    (along_of_mem (fun tick htick _ => hticks tick htick) s)
  intro s tick hother notif _ hwrite _
  exact hother notif hwrite

theorem not_silent_of_buffered (env : Surroundings) {item : FetchedItem}
    (h : item ∈ bufferedItems s) : ¬ Silent config item.encryptedBlob s := by
  intro hsilent
  let reached : Surroundings := { env with activePeersForGroupOrRelays := fun _ => ["peer"] }
  obtain ⟨push, hpush, hin⟩ :=
    flush_sends reached (fun _ => List.mem_singleton.mpr rfl) h
  have halong := hsilent [(reached, .flushTick)] (by
    intro tick htick notif hwrite
    rw [List.mem_singleton.mp htick] at hwrite
    cases hwrite)
  exact halong.1 push hpush item hin rfl

/-- A write stays on the node exactly when the engine makes no push of it. -/
theorem silent_receiveWrite_iff (env : Surroundings) {n : WriteNotification}
    (hclean : Clean n.data s) :
    Silent config n.data (receiveWrite config env s n) ↔ ∀ g, ¬ Eager s n g := by
  constructor
  · intro hsilent g heager
    rw [receiveWrite_of_eager config env s heager] at hsilent
    have hbuffered : writtenItem config env n g ∈ bufferedItems { s with
        writeBuffer := pushBuffered s.writeBuffer g (writtenItem config env n g) } :=
      mem_pushBuffered.mpr (.inl rfl)
    exact not_silent_of_buffered env hbuffered hsilent
  · intro hpassive
    rw [receiveWrite_of_not_eager config env s hpassive]
    exact silent_of_clean hclean

theorem not_eager_iff {n : WriteNotification} (hsize : n.data.length ≤ maxItemBytes) :
    (∀ g, ¬ Eager s n g) ↔ ∀ g, n.groupId = some g →
      ((loadGroupCulture s.storage g).getD .default).strategy = .passive := by
  refine forall_congr' (fun g => ?_)
  unfold Eager
  cases hstrategy : ((loadGroupCulture s.storage g).getD .default).strategy with
  | eagerPush => simp [hsize]
  | passive => simp

end Pushes

section Confinement
variable [Sha256] [CultureJson]

/-- Peers cannot tell stores apart that differ in private rows exactly when those
    rows look the same to them and ties are listed alike, and a private write is never pushed exactly when
    it names no group or a passive one. -/
theorem confined_iff {a b : SqliteStorage} (hagree : AgreeOutside a b)
    {state : AppState SqliteStorage} {authorization : Option String} {now : String}
    {req : L2WriteRequest} (hprivate : StoresPrivate state authorization now req)
    {n : WriteNotification} (hsent : n ∈ sentBy state authorization now req)
    (config : LoopConfig) (env : Surroundings) {s : LoopState SqliteStorage}
    (hclean : Clean n.data s) :
    ((∀ reqs, answers a reqs = answers b reqs) ↔ PrivateAgree a b ∧ TiesAgree a b) ∧
      (Silent config n.data (receiveWrite config env s n) ↔
        ∀ g, n.groupId = some g →
          ((loadGroupCulture s.storage g).getD .default).strategy = .passive) := by
  have hn := sentBy_of_ok hprivate.1 hsent
  have hsize : n.data.length ≤ maxItemBytes := by
    rw [hn]
    exact (l2Write_ok hprivate.1).1
  exact ⟨answers_agree_iff hagree, (silent_receiveWrite_iff env hclean).trans (not_eager_iff hsize)⟩

end Confinement

section Example

variable [Sha256]

def noteRow (storage : SqliteStorage) : L2ItemRow :=
  l2Upserted (storage.l2Items.lookup "note-1") "2026-02-01 00:00:00"
    (l2WriteOf (apiState storage) noteRequest)

theorem noteRow_checks (storage : SqliteStorage) : L2Checks (noteRow storage) :=
  ⟨(by decide : "learning" ∈ l2ItemTypes), (by decide : "private" ∈ l2Visibilities)⟩

def withNote (storage : SqliteStorage) : SqliteStorage :=
  { storage with l2Items := storage.l2Items.put (noteRow storage) (noteRow_checks storage) }

theorem l2Write_note (storage : SqliteStorage) :
    l2Write (apiState storage) (some "Bearer token") "2026-02-01 00:00:00" noteRequest =
      (.ok, { apiState (withNote storage) with
        writeNotify := some [writeNotification (l2WriteOf (apiState storage) noteRequest)] }) := by
  have haccept : WriteAccepted (apiState storage) (some "Bearer token") "2026-02-01 00:00:00"
      noteRequest := ⟨apiState_auth storage, by decide, noteRow_checks storage⟩
  exact l2Write_of_accepted haccept

theorem withNote_lookup (storage : SqliteStorage) :
    (withNote storage).l2Items.lookup "note-1" = some (noteRow storage) :=
  storage.l2Items.lookup_put_self (noteRow storage) (noteRow_checks storage)

theorem noteRequest_private (storage : SqliteStorage) :
    StoresPrivate (apiState storage) (some "Bearer token") "2026-02-01 00:00:00" noteRequest := by
  unfold StoresPrivate
  rw [l2Write_note]
  exact ⟨rfl, noteRow storage, withNote_lookup storage, rfl⟩

theorem noteRequest_sent (storage : SqliteStorage) :
    writeNotification (l2WriteOf (apiState storage) noteRequest) ∈
      sentBy (apiState storage) (some "Bearer token") "2026-02-01 00:00:00" noteRequest := by
  unfold sentBy
  rw [l2Write_note]
  exact List.mem_singleton.mpr rfl

def readRow (storage : SqliteStorage) : L2ItemRow := { noteRow storage with accessCount := 3 }

theorem readRow_checks (storage : SqliteStorage) : L2Checks (readRow storage) :=
  noteRow_checks storage

def withReadNote (storage : SqliteStorage) : SqliteStorage :=
  { storage with l2Items := storage.l2Items.put (readRow storage) (readRow_checks storage) }

theorem readNote_agreeOutside (storage : SqliteStorage) :
    AgreeOutside (withNote storage) (withReadNote storage) := by
  intro r hp
  have hne : ∀ {x : L2ItemRow}, x.visibility = "private" → r ≠ x := fun hx heq => hp (heq ▸ hx)
  have hnote := storage.l2Items.mem_put_iff (noteRow_checks storage) (x := r)
  have hread := storage.l2Items.mem_put_iff (readRow_checks storage) (x := r)
  rw [or_iff_right (hne rfl)] at hnote hread
  exact hnote.trans hread.symm

theorem readNote_privateAgree (storage : SqliteStorage) :
    PrivateAgree (withNote storage) (withReadNote storage) := by
  intro id
  have hnote := storage.l2Items.lookup_put (noteRow storage) (noteRow_checks storage) id
  have hread := storage.l2Items.lookup_put (readRow storage) (readRow_checks storage) id
  unfold privateView
  change ((Table.lookup (storage.l2Items.put _ (noteRow_checks storage)) id).filter _).map _ =
    ((Table.lookup (storage.l2Items.put _ (readRow_checks storage)) id).filter _).map _
  rw [hnote, hread, show (readRow storage).id = (noteRow storage).id from rfl]
  split_ifs <;> rfl

theorem readNote_tiesAgree (storage : SqliteStorage) :
    TiesAgree (withNote storage) (withReadNote storage) := by
  intro groupId updatedAt
  let f := fun r : L2ItemRow => (r.id, r.groupId, r.updatedAt)
  have htied : ∀ db : SqliteStorage, tiedIds db groupId updatedAt =
      (((db.l2Items.rows.map f).filter (fun x => x.2.1 = some groupId)).filter
        (fun x => x.2.2 = updatedAt)).map Prod.fst := by
    intro db
    rw [List.filter_map, List.filter_map, List.map_map]
    rfl
  have hkey : ∀ r, (f r).1 = r.id := fun _ => rfl
  have hnote := Table.map_insertRow Prod.fst hkey (noteRow storage) storage.l2Items.rows
  have hread := Table.map_insertRow Prod.fst hkey (readRow storage) storage.l2Items.rows
  have hrows : (withNote storage).l2Items.rows.map f = (withReadNote storage).l2Items.rows.map f :=
    hnote.trans hread.symm
  rw [htied, htied, hrows]

def taciturnStore : SqliteStorage :=
  createNew.writeGroup "2026-02-01 00:00:00" "seed-drill" "Seed Drill" "taciturn" "{}"

end Example

/-- A note for a group, private by default, is served on request and pushed. -/
theorem privateNote_leaks : ¬ ∃ (_ : Sha256) (_ : CultureJson),
    (AgreeOutside createNew (withNote createNew) →
      ∀ reqs, answers createNew reqs = answers (withNote createNew) reqs) ∨
    (StoresPrivate (apiState createNew) (some "Bearer token") "2026-02-01 00:00:00" noteRequest →
      Silent memberConfig (asBytes "\"a\"") (receiveWrite memberConfig quietSurroundings
        (.start (withNote createNew))
        (writeNotification (l2WriteOf (apiState createNew) noteRequest)))) := by
  rintro ⟨_, _, hserved | hpushed⟩
  · have hagree : AgreeOutside createNew (withNote createNew) := by
      intro r hp
      constructor
      · intro hr
        cases hr
      · intro hr
        rcases (Table.mem_put_iff _ (noteRow_checks createNew)).mp hr with rfl | ⟨hr, _⟩
        · exact absurd rfl hp
        · exact hr
    have hnote := fetched_of_answers (hserved hagree) "note-1"
    rw [withNote_lookup] at hnote
    cases hnote
  · have hsilent : Silent memberConfig
        (writeNotification (l2WriteOf (apiState createNew) noteRequest)).data _ :=
      hpushed (noteRequest_private createNew)
    refine (silent_receiveWrite_iff quietSurroundings ?_).mp hsilent "seed-drill" ?_
    · intro item hitem
      cases hitem
    · exact ⟨rfl, (by decide : (asBytes "\"a\"").length ≤ maxItemBytes),
        (by decide : GroupCulture.default.strategy = .eagerPush)⟩

theorem taciturnNote_stays :
    let := knownDigests
    let := bareCultures
    (∀ reqs, answers (withNote taciturnStore) reqs = answers (withReadNote taciturnStore) reqs) ∧
      Silent memberConfig (asBytes "\"a\"") (receiveWrite memberConfig quietSurroundings
        (.start (withNote taciturnStore))
        (writeNotification (l2WriteOf (apiState taciturnStore) noteRequest))) := by
  let := knownDigests
  let := bareCultures
  have hclean : Clean (writeNotification (l2WriteOf (apiState taciturnStore) noteRequest)).data
      (.start (withNote taciturnStore)) := by
    intro item hitem
    cases hitem
  obtain ⟨hserved, hpushed⟩ := confined_iff (readNote_agreeOutside taciturnStore)
    (noteRequest_private taciturnStore) (noteRequest_sent taciturnStore) memberConfig
    quietSurroundings hclean
  refine ⟨hserved.mpr ⟨readNote_privateAgree taciturnStore, readNote_tiesAgree taciturnStore⟩,
    hpushed.mpr ?_⟩
  rintro g ⟨⟩
  exact (by decide : (GroupCulture.mk "taciturn").strategy = .passive)

end CordeliaCore.PrivateItems
