import CordeliaCore.Flooding
import CordeliaCore.PushEffect

set_option autoImplicit false

namespace CordeliaCore.RelayFlooding
open CryptoPrimitives ProtocolMessages StorageRows StorageSqlite KeyedTable Replication Swarm
open ReplicationEngine SqliteStorage Flooding StepRuns

section Push
variable [Sha256]

/-- An item that a store without its id takes in, once its group is accepted. -/
def Storable (item : FetchedItem) : Prop :=
  item.encryptedBlob.length ≤ maxItemBytes ∧ WellFormed item

/-- A tombstone that a store with its id applies, once its group is accepted. -/
def Erasing (item : FetchedItem) : Prop :=
  item.encryptedBlob.length ≤ maxItemBytes ∧ item.itemType = tombstoneType

instance (item : FetchedItem) : Decidable (Storable item) :=
  inferInstanceAs (Decidable (_ ∧ _ ∧ _))

instance (item : FetchedItem) : Decidable (Erasing item) := inferInstanceAs (Decidable (_ ∧ _))

section Rank
variable (items : List FetchedItem)

/-- The storable versions still newer than the row, and the deletion still due. -/
def pending (id : String) (row : Option L2ItemRow) : ℕ :=
  (items.toFinset.filter (fun i => i.itemId = id ∧ Storable i ∧
      ∀ e ∈ row, e.updatedAt < i.updatedAt)).card +
    if row.isSome ∧ ∃ i ∈ items, i.itemId = id ∧ Erasing i then 1 else 0

def rank (db : SqliteStorage) : ℕ :=
  ∑ id ∈ (items.map FetchedItem.itemId).toFinset, pending items id (db.l2Items.lookup id)

/-- No id is named both by a storable version and by a deletion. -/
def Unmixed : Prop :=
  ∀ i ∈ items, ∀ j ∈ items, Storable i → Erasing j → i.itemId ≠ j.itemId

variable {items}

theorem pending_erased (h : Unmixed items) {item : FetchedItem} (hi : item ∈ items)
    (herase : Erasing item) (row : L2ItemRow) :
    pending items item.itemId none + 1 ≤ pending items item.itemId (some row) := by
  have hnone : (items.toFinset.filter (fun i => i.itemId = item.itemId ∧ Storable i ∧
      ∀ e ∈ (none : Option L2ItemRow), e.updatedAt < i.updatedAt)) = ∅ := by
    refine Finset.filter_eq_empty_iff.mpr (fun i him hboth => ?_)
    exact h i (List.mem_toFinset.mp him) item hi hboth.2.1 herase hboth.1
  have hdue : (some row).isSome = true ∧ ∃ i ∈ items, i.itemId = item.itemId ∧ Erasing i :=
    ⟨rfl, item, hi, rfl, herase⟩
  unfold pending
  rw [hnone, if_pos hdue, if_neg (by simp), Finset.card_empty]
  omega

theorem pending_written (h : Unmixed items) {item : FetchedItem} (hi : item ∈ items)
    (hstore : Storable item) {row : Option L2ItemRow} {written : L2ItemRow}
    (hnewer : ∀ e ∈ row, e.updatedAt < item.updatedAt)
    (hstamp : written.updatedAt = item.updatedAt) :
    pending items item.itemId (some written) + 1 ≤ pending items item.itemId row := by
  have hnodue : ¬ ((some written).isSome = true ∧ ∃ i ∈ items, i.itemId = item.itemId ∧ Erasing i) := by
    rintro ⟨_, j, hj, hid, herase⟩
    exact h item hi j hj hstore herase hid.symm
  have hsub : (items.toFinset.filter (fun i => i.itemId = item.itemId ∧ Storable i ∧
        ∀ e ∈ some written, e.updatedAt < i.updatedAt)) ⊂
      (items.toFinset.filter (fun i => i.itemId = item.itemId ∧ Storable i ∧
        ∀ e ∈ row, e.updatedAt < i.updatedAt)) := by
    refine Finset.ssubset_iff_of_subset (fun i hin => ?_) |>.mpr ⟨item, ?_, ?_⟩
    · obtain ⟨him, hid, hs, hlater⟩ := Finset.mem_filter.mp hin
      refine Finset.mem_filter.mpr ⟨him, hid, hs, fun e he => ?_⟩
      exact (hnewer e he).trans (hstamp ▸ hlater written rfl)
    · exact Finset.mem_filter.mpr ⟨List.mem_toFinset.mpr hi, rfl, hstore, hnewer⟩
    · intro hin
      have hself := (Finset.mem_filter.mp hin).2.2.2 written rfl
      exact absurd hself (hstamp ▸ lt_irrefl _)
  have hcard := Finset.card_lt_card hsub
  unfold pending
  rw [if_neg hnodue]
  omega

section Receive
variable (db : SqliteStorage) (now : String) (ourGroups : List String)
  (relayAccepts : Option (String → Bool))

theorem rank_onReceive (h : Unmixed items) {item : FetchedItem} (hi : item ∈ items) :
    rank items (onReceive db now item ourGroups relayAccepts).2 +
        (if (onReceive db now item ourGroups relayAccepts).1 = .stored then 1 else 0) ≤
      rank items db := by
  by_cases hstored : (onReceive db now item ourGroups relayAccepts).1 = .stored
  swap
  · rw [onReceive_of_not_stored db now item ourGroups relayAccepts hstored, if_neg hstored,
      Nat.add_zero]
  rw [if_pos hstored]
  have hid : item.itemId ∈ (items.map FetchedItem.itemId).toFinset :=
    List.mem_toFinset.mpr (List.mem_map_of_mem hi)
  have hothers : ∑ id ∈ (items.map FetchedItem.itemId).toFinset.erase item.itemId,
      pending items id ((onReceive db now item ourGroups relayAccepts).2.l2Items.lookup id) =
      ∑ id ∈ (items.map FetchedItem.itemId).toFinset.erase item.itemId,
        pending items id (db.l2Items.lookup id) := by
    refine Finset.sum_congr rfl (fun id hmem => ?_)
    rw [onReceive_lookup_of_ne db now item ourGroups relayAccepts (Finset.ne_of_mem_erase hmem)]
  have hhere : pending items item.itemId
      ((onReceive db now item ourGroups relayAccepts).2.l2Items.lookup item.itemId) + 1 ≤
      pending items item.itemId (db.l2Items.lookup item.itemId) := by
    rw [onReceive_lookup, if_pos rfl]
    rcases (onReceive_stored_iff db now item ourGroups relayAccepts).mp hstored with
      ⟨herase, hsome⟩ | hwrite
    · obtain ⟨row, hrow⟩ := Option.isSome_iff_exists.mp hsome
      rw [if_pos herase, hrow]
      exact pending_erased h hi ⟨herase.1.1, herase.2⟩ row
    · rw [if_neg (fun he => hwrite.2.1.not_tombstone he.2), if_pos hwrite]
      exact pending_written h hi ⟨hwrite.1.1, hwrite.2.1⟩ (fun e he => (hwrite.2.2 e he).2) rfl
  unfold rank
  rw [← Finset.add_sum_erase _ _ hid, ← Finset.add_sum_erase _ _ hid, hothers]
  omega

omit db in
theorem rank_pushItem (h : Unmixed items) (acc : PushAck × SqliteStorage) {item : FetchedItem}
    (hi : item ∈ items) :
    rank items (pushItem now ourGroups relayAccepts acc item).2 +
        (pushItem now ourGroups relayAccepts acc item).1.stored ≤
      rank items acc.2 + acc.1.stored := by
  obtain ⟨hcount, hstore⟩ := pushItem_stored now ourGroups relayAccepts acc item
  have hone := rank_onReceive acc.2 now ourGroups relayAccepts h hi
  rw [hcount, hstore]
  omega

theorem rank_handlePush (h : Unmixed items) {req : MemoryPushRequest}
    (hreq : ∀ i ∈ req.items, i ∈ items) :
    rank items (handlePushRequest db now req ourGroups relayAccepts).2 +
      (handlePushRequest db now req ourGroups relayAccepts).1.stored ≤ rank items db := by
  rw [handlePush_run]
  refine invariant_run (I := fun acc : PushAck × SqliteStorage =>
      rank items acc.2 + acc.1.stored ≤ rank items db) (G := fun _ item => item ∈ items)
    (fun acc item hacc hi => ?_) ?_ (along_of_mem (fun i hi _ => hreq i hi) _)
  · exact (rank_pushItem now ourGroups relayAccepts h acc hi).trans hacc
  · exact Nat.le_of_eq (Nat.add_zero _)

end Receive
end Rank

section Outcome
variable {now : String} {ourGroups : List String} {relayAccepts : Option (String → Bool)}
variable (haccept : ∀ g, groupAccepted ourGroups relayAccepts g = true)
include haccept

theorem writes_of_absent {item : FetchedItem} (h : Storable item) :
    Writes ourGroups relayAccepts item none :=
  ⟨⟨h.1, haccept _⟩, h.2, by simp⟩

omit [Sha256] in
theorem erases_of_erasing {item : FetchedItem} (h : Erasing item) :
    Erases ourGroups relayAccepts item :=
  ⟨⟨h.1, haccept _⟩, h.2⟩

theorem stored_of_absent {req : MemoryPushRequest} {item : FetchedItem} (hi : item ∈ req.items)
    (h : Storable item) {db : SqliteStorage} (habsent : db.l2Items.lookup item.itemId = none) :
    0 < (handlePushRequest db now req ourGroups relayAccepts).1.stored := by
  by_contra hzero
  rw [not_lt, Nat.le_zero, handlePush_stored_eq_zero] at hzero
  refine hzero item hi ?_
  rw [onReceive_stored_iff, habsent]
  exact .inr (writes_of_absent haccept h)

theorem stored_of_present {req : MemoryPushRequest} {item : FetchedItem} (hi : item ∈ req.items)
    (h : Erasing item) {db : SqliteStorage} (hpresent : db.l2Items.lookup item.itemId ≠ none) :
    0 < (handlePushRequest db now req ourGroups relayAccepts).1.stored := by
  by_contra hzero
  rw [not_lt, Nat.le_zero, handlePush_stored_eq_zero] at hzero
  refine hzero item hi ?_
  rw [onReceive_stored_iff]
  exact .inl ⟨erases_of_erasing haccept h, Option.isSome_iff_ne_none.mpr hpresent⟩

omit haccept in
theorem handlePush_lookup_induction (P : Option L2ItemRow → Prop) {id : String}
    {req : MemoryPushRequest} (db : SqliteStorage)
    (hkeep : ∀ item ∈ req.items, ∀ s : SqliteStorage, P (s.l2Items.lookup id) →
      P ((onReceive s now item ourGroups relayAccepts).2.l2Items.lookup id))
    (hreach : P (db.l2Items.lookup id) ∨ ∃ item ∈ req.items, ∀ s : SqliteStorage,
      P ((onReceive s now item ourGroups relayAccepts).2.l2Items.lookup id)) :
    P ((handlePushRequest db now req ourGroups relayAccepts).2.l2Items.lookup id) := by
  rw [handlePush_run]
  refine run_reaches (I := fun acc : PushAck × SqliteStorage => P (acc.2.l2Items.lookup id))
    (fun acc item hi hacc => ?_) (hreach.imp_right ?_)
  · rw [(pushItem_stored now ourGroups relayAccepts acc item).2]
    exact hkeep item hi acc.2 hacc
  · rintro ⟨item, hi, hsets⟩
    refine ⟨item, hi, fun acc => ?_⟩
    rw [(pushItem_stored now ourGroups relayAccepts acc item).2]
    exact hsets acc.2

theorem present_after_push {req : MemoryPushRequest} {item : FetchedItem} (hi : item ∈ req.items)
    (h : Storable item) (hno : ∀ j ∈ req.items, Erasing j → j.itemId ≠ item.itemId)
    (db : SqliteStorage) :
    (handlePushRequest db now req ourGroups relayAccepts).2.l2Items.lookup item.itemId ≠ none := by
  refine handlePush_lookup_induction (· ≠ none) db (fun j hj s hs => ?_)
    (.inr ⟨item, hi, fun s => ?_⟩)
  · rw [onReceive_lookup]
    split_ifs with hid herase hwrite
    · exact absurd hid.symm (hno j hj ⟨herase.1.1, herase.2⟩)
    · simp
    · exact hs
    · exact hs
  · rw [onReceive_lookup, if_pos rfl, if_neg (fun he => h.2.not_tombstone he.2)]
    split_ifs with hwrite
    · simp
    · intro habsent
      rw [habsent] at hwrite
      exact hwrite (writes_of_absent haccept h)

theorem absent_after_push {req : MemoryPushRequest} {item : FetchedItem} (hi : item ∈ req.items)
    (h : Erasing item) (hno : ∀ j ∈ req.items, Storable j → j.itemId ≠ item.itemId)
    (db : SqliteStorage) :
    (handlePushRequest db now req ourGroups relayAccepts).2.l2Items.lookup item.itemId = none := by
  refine handlePush_lookup_induction (· = none) db (fun j hj s hs => ?_)
    (.inr ⟨item, hi, fun s => ?_⟩)
  · rw [onReceive_lookup]
    split_ifs with hid herase hwrite
    · rfl
    · exact absurd hid.symm (hno j hj ⟨hwrite.1.1, hwrite.2.1⟩)
    · exact hs
    · exact hs
  · rw [onReceive_lookup, if_pos rfl, if_pos (erases_of_erasing haccept h)]

end Outcome

section Network
variable {ν : Type} [DecidableEq ν]

structure Relay where
  posture : RelayPosture
  blocked : List String
  ourGroups : List String

structure Reception where
  now : String
  accepted : Option (List String)

def relayProtocol (peers : ν → Finset ν) (relays : ν → Relay) :
    Protocol ν SqliteStorage MemoryPushRequest Reception where
  peers := peers
  handle n reception db req :=
    let pushed := handlePushRequest db reception.now req (relays n).ourGroups
      (some (relayCheck (relays n).posture reception.accepted (relays n).blocked))
    (pushed.1.stored > 0, pushed.2)

def Churning (requests : List MemoryPushRequest) : Prop :=
  ∃ r ∈ requests, ∃ r' ∈ requests, ∃ i ∈ r.items, ∃ j ∈ r'.items,
    Storable i ∧ Erasing j ∧ i.itemId = j.itemId

omit [DecidableEq ν] in
theorem ranked_of_not_churning {requests : List MemoryPushRequest} (h : ¬ Churning requests)
    (peers : ν → Finset ν) (relays : ν → Relay) :
    Ranked (rank (requests.flatMap MemoryPushRequest.items)) (· ∈ requests)
      (relayProtocol peers relays) := by
  have hunmixed : Unmixed (requests.flatMap MemoryPushRequest.items) := by
    intro i hi j hj hs he hid
    obtain ⟨r, hr, hir⟩ := List.mem_flatMap.mp hi
    obtain ⟨r', hr', hjr⟩ := List.mem_flatMap.mp hj
    exact h ⟨r, hr, r', hr', i, hir, j, hjr, hs, he, hid⟩
  have hpush := fun n (reception : Reception) db req (hreq : req ∈ requests) =>
    rank_handlePush db reception.now (relays n).ourGroups
      (some (relayCheck (relays n).posture reception.accepted (relays n).blocked)) hunmixed
      (fun i hi => List.mem_flatMap.mpr ⟨req, hreq, hi⟩)
  refine ⟨fun n reception db req hreq => ?_, fun n reception db req hreq heffect => ?_⟩
  · exact (Nat.le_add_right _ _).trans (hpush n reception db req hreq)
  · have hspent := hpush n reception db req hreq
    have hstored := of_decide_eq_true heffect
    change rank _ (handlePushRequest db reception.now req _ _).2 < _
    omega

def transparentRelay : Relay := ⟨.transparent, [], []⟩

omit [Sha256] in
theorem transparentRelay_accepts (ourGroups : List String) (accepted : Option (List String))
    (g : String) : groupAccepted ourGroups (some (relayCheck .transparent accepted [])) g = true :=
  rfl

def cameFrom (walk : ℕ → ν) : ℕ → Option ν
  | 0 => none
  | n + 1 => some (walk n)

omit [Sha256] [DecidableEq ν] in
theorem cameFrom_ne {peers : ν → Finset ν} {walk : ℕ → ν}
    (h : ∀ n, walk (n + 1) ∈ peers (walk n) ∧ walk (n + 2) ≠ walk n) (n : ℕ) :
    some (walk (n + 1)) ≠ cameFrom walk n := by
  cases n with
  | zero => simp [cameFrom]
  | succ n => exact fun he => (h n).2 (Option.some.inj he)

section Endless
variable {peers : ν → Finset ν} {walk : ℕ → ν}
  (hwalk : ∀ n, walk (n + 1) ∈ peers (walk n) ∧ walk (n + 2) ≠ walk n)
include hwalk

/-- One request with a version and a deletion of the same id has an effect on
    every store, and so travels along the whole walk. -/
theorem endless_of_both {r : MemoryPushRequest} {i j : FetchedItem} (hi : i ∈ r.items)
    (hj : j ∈ r.items) (hstore : Storable i) (herase : Erasing j) (hid : i.itemId = j.itemId)
    {net : Network ν SqliteStorage MemoryPushRequest}
    (hnet : (⟨none, walk 0, r⟩ : Packet ν MemoryPushRequest) ∈ net.inFlight) :
    ¬ Terminates (relayProtocol peers (fun _ => transparentRelay)) net := by
  have heffect : ∀ (db : SqliteStorage) (reception : Reception),
      0 < (handlePushRequest db reception.now r []
        (some (relayCheck .transparent reception.accepted []))).1.stored := by
    intro db reception
    by_cases habsent : db.l2Items.lookup i.itemId = none
    · exact stored_of_absent (transparentRelay_accepts _ _) hi hstore habsent
    · exact stored_of_present (transparentRelay_accepts _ _) hj herase (hid ▸ habsent)
  refine not_terminates_of_progress
    (fun net => ∃ n, (⟨cameFrom walk n, walk n, r⟩ : Packet ν _) ∈ net.inFlight) ?_ ⟨0, hnet⟩
  rintro net ⟨n, hp⟩
  refine ⟨_, .single (.deliver hp ⟨"", none⟩), n + 1, ?_⟩
  exact mem_delivered_of_effect (decide_eq_true (heffect _ _)) (hwalk n).1 (cameFrom_ne hwalk n)

/-- One node of the walk handles the versions and then the deletions: both
    requests move on and the id is absent again. -/
theorem turn_of_pair {r r' : MemoryPushRequest} {i j : FetchedItem} (hi : i ∈ r.items)
    (hj : j ∈ r'.items) (hstore : Storable i) (herase : Erasing j) (hid : i.itemId = j.itemId)
    (hr : ∀ k ∈ r.items, Erasing k → k.itemId ≠ i.itemId)
    (hr' : ∀ k ∈ r'.items, Storable k → k.itemId ≠ i.itemId)
    {net : Network ν SqliteStorage MemoryPushRequest} {n : ℕ}
    (hp : (⟨cameFrom walk n, walk n, r⟩ : Packet ν _) ∈ net.inFlight)
    (hp' : (⟨cameFrom walk n, walk n, r'⟩ : Packet ν _) ∈ net.inFlight)
    (hnone : ∀ k, (net.stores k).l2Items.lookup i.itemId = none) :
    ∃ next, Relation.TransGen (Step (relayProtocol peers (fun _ => transparentRelay))) net next ∧
      (⟨some (walk n), walk (n + 1), r⟩ : Packet ν _) ∈ next.inFlight ∧
      (⟨some (walk n), walk (n + 1), r'⟩ : Packet ν _) ∈ next.inFlight ∧
      ∀ k, (next.stores k).l2Items.lookup i.itemId = none := by
  let P := relayProtocol peers (fun _ : ν => transparentRelay)
  let written := delivered P net ⟨cameFrom walk n, walk n, r⟩ ⟨"", none⟩
  have hne : r ≠ r' := by
    rintro rfl
    exact hr' i hi hstore rfl
  have haccept : ∀ g, groupAccepted [] (some (relayCheck .transparent none [])) g = true :=
    transparentRelay_accepts [] none
  have hpresent : (written.stores (walk n)).l2Items.lookup i.itemId ≠ none := by
    rw [delivered_stores_self]
    exact present_after_push haccept hi hstore hr _
  have hwaiting : (⟨cameFrom walk n, walk n, r'⟩ : Packet ν _) ∈ written.inFlight :=
    mem_delivered_of_ne hp' (fun he => hne (congrArg Packet.message he).symm) _
  have hsent : (⟨some (walk n), walk (n + 1), r⟩ : Packet ν _) ∈ written.inFlight :=
    mem_delivered_of_effect (decide_eq_true (stored_of_absent haccept hi hstore (hnone _)))
      (hwalk n).1 (cameFrom_ne hwalk n)
  refine ⟨delivered P written ⟨cameFrom walk n, walk n, r'⟩ ⟨"", none⟩,
    .tail (.single (.deliver hp _)) (.deliver hwaiting _), ?_, ?_, ?_⟩
  · exact mem_delivered_of_ne hsent (fun he => hne (congrArg Packet.message he)) _
  · exact mem_delivered_of_effect
      (decide_eq_true (stored_of_present haccept hj herase (hid ▸ hpresent)))
      (hwalk n).1 (cameFrom_ne hwalk n)
  · intro k
    by_cases hk : k = walk n
    · subst hk
      rw [delivered_stores_self, hid]
      exact absent_after_push haccept hj herase (hid ▸ hr') _
    · rw [delivered_stores_of_ne _ _ hk, delivered_stores_of_ne _ _ hk]
      exact hnone k

/-- A request with versions of an id and one with its deletions take turns at
    every node of the walk. -/
theorem endless_of_pair {r r' : MemoryPushRequest} {i j : FetchedItem} (hi : i ∈ r.items)
    (hj : j ∈ r'.items) (hstore : Storable i) (herase : Erasing j) (hid : i.itemId = j.itemId)
    (hr : ∀ k ∈ r.items, Erasing k → k.itemId ≠ i.itemId)
    (hr' : ∀ k ∈ r'.items, Storable k → k.itemId ≠ i.itemId)
    {net : Network ν SqliteStorage MemoryPushRequest}
    (hnet : (⟨none, walk 0, r⟩ : Packet ν MemoryPushRequest) ∈ net.inFlight)
    (hnet' : (⟨none, walk 0, r'⟩ : Packet ν MemoryPushRequest) ∈ net.inFlight)
    (habsent : ∀ n, (net.stores n).l2Items.lookup i.itemId = none) :
    ¬ Terminates (relayProtocol peers (fun _ => transparentRelay)) net := by
  refine not_terminates_of_progress (fun net => ∃ n,
    (⟨cameFrom walk n, walk n, r⟩ : Packet ν _) ∈ net.inFlight ∧
    (⟨cameFrom walk n, walk n, r'⟩ : Packet ν _) ∈ net.inFlight ∧
    ∀ k, (net.stores k).l2Items.lookup i.itemId = none) ?_ ⟨0, hnet, hnet', habsent⟩
  rintro net ⟨n, hp, hp', hnone⟩
  obtain ⟨next, hsteps, hnext⟩ :=
    turn_of_pair hwalk hi hj hstore herase hid hr hr' hp hp' hnone
  exact ⟨next, hsteps, n + 1, hnext⟩

theorem endless_of_churning {requests : List MemoryPushRequest} (h : Churning requests) :
    ∃ net : Network ν SqliteStorage MemoryPushRequest,
      (∀ p ∈ net.inFlight, p.message ∈ requests) ∧
        ¬ Terminates (relayProtocol peers (fun _ => transparentRelay)) net := by
  obtain ⟨r, hr, r', hr', i, hi, j, hj, hstore, herase, hid⟩ := h
  let net : Network ν SqliteStorage MemoryPushRequest :=
    ⟨fun _ => createNew, {⟨none, walk 0, r⟩, ⟨none, walk 0, r'⟩}⟩
  have hfirst : (⟨none, walk 0, r⟩ : Packet ν _) ∈ net.inFlight := by simp [net]
  have hsecond : (⟨none, walk 0, r'⟩ : Packet ν _) ∈ net.inFlight := by simp [net]
  refine ⟨net, ?_, ?_⟩
  · intro p hp
    simp only [net, Multiset.insert_eq_cons, Multiset.mem_cons, Multiset.mem_singleton] at hp
    rcases hp with rfl | rfl
    · exact hr
    · exact hr'
  · by_cases hmixed : ∃ k ∈ r.items, Erasing k ∧ k.itemId = i.itemId
    · obtain ⟨k, hk, hkerase, hkid⟩ := hmixed
      exact endless_of_both hwalk hi hk hstore hkerase hkid.symm hfirst
    by_cases hmixed' : ∃ k ∈ r'.items, Storable k ∧ k.itemId = i.itemId
    · obtain ⟨k, hk, hkstore, hkid⟩ := hmixed'
      exact endless_of_both hwalk hk hj hkstore herase (hkid.trans hid) hsecond
    · exact endless_of_pair hwalk hi hj hstore herase hid
        (fun k hk he hkid => hmixed ⟨k, hk, he, hkid⟩)
        (fun k hk hs hkid => hmixed' ⟨k, hk, hs, hkid⟩) hfirst hsecond (fun _ => rfl)

end Endless

/-- On a given graph, floods of given requests end from all stores and bags
    exactly when the requests do not churn or the graph has no endless walk. -/
theorem flood_terminates_iff [Fintype ν] (peers : ν → Finset ν)
    (requests : List MemoryPushRequest) :
    (∀ (relays : ν → Relay) (net : Network ν SqliteStorage MemoryPushRequest),
      (∀ p ∈ net.inFlight, p.message ∈ requests) → Terminates (relayProtocol peers relays) net) ↔
      ¬ Churning requests ∨ ¬ EndlessWalk peers := by
  constructor
  · intro h
    by_contra hboth
    rw [not_or, not_not, not_not] at hboth
    obtain ⟨hchurn, walk, hwalk⟩ := hboth
    obtain ⟨net, hnet, hendless⟩ := endless_of_churning hwalk hchurn
    exact hendless (h _ net hnet)
  · rintro (hcalm | hnowalk) relays net hnet
    · exact terminates_of_ranked (ranked_of_not_churning hcalm peers relays) hnet
    · exact terminates_of_no_walk hnowalk net

end Network
end Push

section Example
variable [Sha256]

def noteTombstone : FetchedItem :=
  { noteVersion "" "2026-02-02T00:00:00Z" with itemType := "__tombstone__" }

def noteAndTombstone : MemoryPushRequest := ⟨[noteVersion "a" "2026-02-01T00:00:00Z", noteTombstone]⟩

def triangle (n : Fin 3) : Finset (Fin 3) := {n + 1, n + 2}

def around (n : ℕ) : Fin 3 := Fin.ofNat 3 n

omit [Sha256] in
theorem around_walks (n : ℕ) :
    around (n + 1) ∈ triangle (around n) ∧ around (n + 2) ≠ around n := by
  have hone : around (n + 1) = around n + 1 := by
    ext
    simp [around, Fin.val_add]
  have htwo : around (n + 2) = around n + 2 := by
    ext
    simp [around, Fin.val_add]
  rw [hone, htwo]
  exact ⟨by simp [triangle], (by decide : ∀ k : Fin 3, k + 2 ≠ k) (around n)⟩

def triangleFlood : Network (Fin 3) SqliteStorage MemoryPushRequest :=
  ⟨fun _ => createNew, {⟨none, 0, noteAndTombstone⟩}⟩

end Example

theorem triangleFlood_endless : ¬ ∃ _ : Sha256,
    Terminates (relayProtocol triangle (fun _ => transparentRelay)) triangleFlood := by
  rintro ⟨_, h⟩
  have hstore : Storable (noteVersion "a" "2026-02-01T00:00:00Z") :=
    ⟨(by decide : (asBytes "a").length ≤ maxItemBytes), noteVersion_wellFormed _ _⟩
  have herase : Erasing noteTombstone :=
    ⟨(by decide : (asBytes "").length ≤ maxItemBytes), rfl⟩
  refine endless_of_both around_walks (r := noteAndTombstone) (by simp [noteAndTombstone])
    (by simp [noteAndTombstone]) hstore herase rfl ?_ h
  exact Multiset.mem_singleton_self _

end CordeliaCore.RelayFlooding
